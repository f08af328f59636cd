import Line.Finance.Board

/-!
# Every publication is a move

What each call of the private finance journal publishes, if it publishes: the next record is
consistent again, and its board comes of the board before by one `Move`.

There is one lemma for each call that may publish, all of the same form (`Advances`). Each reads the
checks of its call off the hypothesis that the call came to a publication, and throws away what came
to an answer only: a call that is repeated finds its intent, its candidate or its receipt there and
publishes nothing. What is left are the two things a publication has to show. That the board moves
is a matter of the fields that the call sets. That the record is consistent is a matter of the
fields it leaves: `Consistent.backed_same`, `Consistent.checkpointed` and `Consistent.confirmedWith`
say of the three shapes that a next record has what carries over.

A network action asks the receipt reader in between, and goes on when the answer is there. `Fits`
is what it has read before and still finds: only one call at a time is in such an action, so the
record is what it was.
-/

namespace Line.Finance

open Vault Durable

variable {δ : Type} [DecidableEq δ]
variable {platform : Platform} {sha : Sha256 δ} {owner : Owner} {r next : Record δ}
variable {status : Durable.Status} {answer : Answer δ}

/-- The next record is consistent, and one move away. -/
def Advances (platform : Platform) (sha : Sha256 δ) (owner : Owner) (c : Call)
    (r next : Record δ) : Prop :=
  Move platform owner c r.board next.board ∧ Consistent platform sha owner next

omit [DecidableEq δ] in
theorem move_of {c : Call} {a b : Board δ} (h : Move platform owner c a b) (ha : r.board = a)
    (hb : next.board = b) : Move platform owner c r.board next.board := by
  rw [ha, hb]
  exact h

/-! ## The stages of a consistent record -/

omit [DecidableEq δ] in
theorem board_free (hp : r.pending = none) (hi : r.authorizationIntent = none) :
    r.board = ⟨r.confirmed, .free, r.completed⟩ := by
  simp only [Record.board, Record.stage, hp, hi]

omit [DecidableEq δ] in
theorem board_intended {i : Intent δ} (hp : r.pending = none)
    (hi : r.authorizationIntent = some i) :
    r.board = ⟨r.confirmed, .intended i, r.completed⟩ := by
  simp only [Record.board, Record.stage, hp, hi]

omit [DecidableEq δ] in
theorem board_prepared {p : Pending δ} (hp : r.pending = some p) (hs : r.submission = none) :
    r.board = ⟨r.confirmed, .prepared p, r.completed⟩ := by
  simp only [Record.board, Record.stage, hp, hs]

omit [DecidableEq δ] in
theorem board_submitted {p : Pending δ} {s : Submission δ} (hp : r.pending = some p)
    (hs : r.submission = some s) : r.board = ⟨r.confirmed, .submitted p s, r.completed⟩ := by
  simp only [Record.board, Record.stage, hp, hs]

/-- Without a candidate there is no submission. -/
theorem Consistent.submission_none (h : Consistent platform sha owner r) (hp : r.pending = none) :
    r.submission = none := by
  cases hs : r.submission with
  | none => rfl
  | some s =>
      obtain ⟨p, hp', -⟩ := h.submission s hs
      rw [hp] at hp'
      cases hp'

/-- Without a checkpoint there is no intent. -/
theorem Consistent.intent_none (h : Consistent platform sha owner r) (hc : r.confirmed = none) :
    r.authorizationIntent = none := by
  cases hi : r.authorizationIntent with
  | none => rfl
  | some i =>
      obtain ⟨-, -, hbefore, -⟩ := h.intent i hi
      rw [hc] at hbefore
      cases hbefore

/-- Beside a candidate there is no intent. -/
theorem Consistent.intent_of_pending {p : Pending δ} (h : Consistent platform sha owner r)
    (hp : r.pending = some p) : r.authorizationIntent = none := by
  cases hi : r.authorizationIntent with
  | none => rfl
  | some i =>
      obtain ⟨-, hnone, -, -⟩ := h.intent i hi
      rw [hp] at hnone
      cases hnone

/-- A synthetic scope has no authority over the network. -/
theorem Consistent.synthetic (h : Consistent platform sha owner r)
    (hscope : owner.scope.networkId = "synthetic-preview") : owner.network platform sha = none := by
  have hnetwork := h.admitted.network
  rw [authorityOf, hscope, if_neg (by decide)] at hnetwork
  simp only [Checked.bind_ok_iff, Checked.pure_ok_iff] at hnetwork
  obtain ⟨_, -, hnone⟩ := hnetwork
  exact hnone.symm

theorem Consistent.submission_synthetic (h : Consistent platform sha owner r)
    (hscope : owner.scope.networkId = "synthetic-preview") : r.submission = none := by
  have hbacked := h.backed
  rw [h.synthetic hscope] at hbacked
  exact hbacked.1

/-- Nothing that a synthetic scope changes touches what is stored of the network. -/
theorem Consistent.backed_synthetic (h : Consistent platform sha owner r)
    (hscope : owner.scope.networkId = "synthetic-preview") (hs : next.submission = r.submission)
    (hb : next.bootstrap = r.bootstrap) : Backed (owner.network platform sha) next := by
  have hbacked := h.backed
  rw [h.synthetic hscope] at hbacked ⊢
  exact ⟨hs.trans hbacked.1, hb.trans hbacked.2⟩

/-- What is stored of the network stays as it is as long as no checkpoint is confirmed. -/
theorem Consistent.backed_same (h : Consistent platform sha owner r)
    (hc : next.confirmed = r.confirmed) (hd : next.completed = r.completed)
    (hs : (owner.network platform sha).isSome ∨ next.submission = r.submission)
    (hb : next.bootstrap = r.bootstrap) : Backed (owner.network platform sha) next := by
  have hbacked := h.backed
  cases hn : owner.network platform sha with
  -- a synthetic journal has no submission and no bootstrap, and gets none
  | none =>
      rw [hn] at hbacked hs
      obtain ⟨hsubmission, hbootstrap⟩ := hbacked
      rcases hs with hs | hs
      · cases hs
      · exact ⟨hs.trans hsubmission, hb.trans hbootstrap⟩
  -- a network journal has its receipts, which do not change
  | some authority =>
      rw [hn] at hbacked
      obtain ⟨hbootstrap, hreceipts⟩ := hbacked
      refine ⟨fun c hc' => ?_, fun c hc' => ?_⟩
      · rw [hb]
        exact hbootstrap c (hc ▸ hc')
      · exact hreceipts c (hd ▸ hc')

/-! ## The operations of the completed list -/

omit [DecidableEq δ] in
/-- An operation that is not among those that are done can be added to them. -/
theorem nodup_append {completed : List (Completed δ)} {c : Completed δ}
    (h : (completed.map Completed.operationId).Nodup) (hc : Fresh c.operationId completed) :
    ((completed ++ [c]).map Completed.operationId).Nodup := by
  rw [List.map_append, List.nodup_append]
  refine ⟨h, List.nodup_singleton _, ?_⟩
  intro a ha b hb
  obtain ⟨d, hd, rfl⟩ := List.mem_map.mp ha
  rw [List.map_singleton, List.mem_singleton] at hb
  rw [hb]
  exact hc d hd

omit [DecidableEq δ] in
theorem fresh_of_find {operationId : String}
    (h : findCompleted r (.string operationId) = none) : Fresh operationId r.completed := by
  intro c hc heq
  have hno := List.find?_eq_none.mp h c hc
  exact hno (by simp [Value.isText, heq])

/-! ## Initialization and the clock -/

/-- While nothing is on its way, another checkpoint can be confirmed. -/
theorem Consistent.checkpointed {n : ℕ} {c : Value} {b : Option (Receipt δ)}
    (hr : Consistent platform sha owner r) (hn : n ≤ Number.maxSafe)
    (hc : c.Proper ∧ checkpoint c = .ok c) (hpending : r.pending = none)
    (hintent : r.authorizationIntent = none)
    (hb : Backed (owner.network platform sha)
      { r with revision := n, confirmed := some c, bootstrap := b }) :
    Consistent platform sha owner { r with revision := n, confirmed := some c, bootstrap := b } :=
  { hr with
    revision := hn
    confirmed := by
      rintro c' ⟨⟩
      exact hc
    intent := by
      intro i hi
      rw [show r.authorizationIntent = some i from hi] at hintent
      cases hintent
    pending := by
      intro p hp
      rw [show r.pending = some p from hp] at hpending
      cases hpending
    backed := hb }

theorem initializeSynthetic_advances {initial : Data} (hr : Consistent platform sha owner r)
    (h : initializeSynthetic owner.scope status r initial.1 = .ok (.publishes next answer)) :
    Advances platform sha owner (.initializeSynthetic initial) r next := by
  simp only [initializeSynthetic, Checked.bind_ok_iff, assert_ok_iff, decide_eq_true_eq,
    Option.isNone_iff_eq_none] at h
  obtain ⟨_, hscope, _, hconfirmed, _, hpending, c, hc, hpublish⟩ := h
  obtain ⟨hrevision, -, heq⟩ := publish_ok hpublish
  cases heq
  have hintent := hr.intent_none hconfirmed
  refine ⟨?_, ?_⟩
  · refine move_of (.initialized hscope hc) ?_ (board_free hpending hintent)
    rw [board_free hpending hintent, hconfirmed]
  · exact hr.checkpointed hrevision ⟨checkpoint_proper hc, checkpoint_again initial.2 hc⟩ hpending
      hintent (hr.backed_synthetic hscope rfl rfl)

/-- A step of the clock leads from values of the language to values of the language. -/
theorem ticked_proper {before start stop : Value} {history : List Value} (hb : before.Proper)
    (hstart : start.Proper) (hstop : stop.Proper) (hh : (Value.array history).Proper)
    (hf : (before.get "financial").Proper) : (ticked before start stop history).Proper := by
  have hentry : (Value.object [("from", start), ("to", stop)]).Proper := by
    refine ⟨?_, hstart, hstop, trivial⟩
    simp only [List.map_cons, List.map_nil, List.pairwise_cons, List.mem_singleton,
      List.not_mem_nil, false_implies, implies_true, List.Pairwise.nil, and_true, forall_eq]
    exact ⟨by decide, by decide⟩
  have hlist : (Value.array (history ++ [.object [("from", start), ("to", stop)]])).Proper := by
    rw [Value.Proper, properItems_iff]
    intro v hv
    rcases List.mem_append.mp hv with hv | hv
    · exact properItems_iff.mp hh v hv
    · rw [List.mem_singleton.mp hv]
      exact hentry
  exact Value.proper_spread (by decide) (Value.proper_spread (by decide) hlist
    (Value.proper_spread (by decide) hstop hf)) hb

theorem advanceSyntheticTime_advances {start stop : Data} (hr : Consistent platform sha owner r)
    (h : advanceSyntheticTime owner.scope status r start.1 stop.1 = .ok (.publishes next answer)) :
    Advances platform sha owner (.advanceSyntheticTime start stop) r next := by
  simp only [advanceSyntheticTime, Checked.bind_ok_iff, assert_ok_iff, decide_eq_true_eq] at h
  obtain ⟨_, hscope, h⟩ := h
  cases hconfirmed : r.confirmed with
  -- there is no checkpoint yet whose clock could advance
  | none =>
      rw [hconfirmed] at h
      cases h
  | some before =>
      simp only [hconfirmed, Checked.bind_ok_iff, assert_ok_iff, Bool.and_eq_true,
        Option.isNone_iff_eq_none] at h
      obtain ⟨_, ⟨hpending, hintent⟩, h⟩ := h
      split at h
      · next a b ha hb =>
          simp only [Checked.bind_ok_iff, assert_ok_iff, decide_eq_true_eq] at h
          obtain ⟨_, hlater, history, hhistory, seen, -, h⟩ := h
          split at h
          -- the transition is recorded already, and the time is the answer
          · cases h
          · simp only [Checked.bind_ok_iff, assert_ok_iff, decide_eq_true_eq] at h
            obtain ⟨_, hclock, _, -, after, hafter, hpublish⟩ := h
            obtain ⟨hrevision, -, heq⟩ := publish_ok hpublish
            cases heq
            -- the new checkpoint is data again, so the codec gives it back as it is
            have hbefore := (hr.confirmed before hconfirmed).1
            have hfinancial := Journal.proper_get hbefore "financial"
            have hlist : (Value.array history).Proper := by
              rw [arrayOf_ok_iff] at hhistory
              rw [← hhistory]
              exact Value.proper_orElse (Journal.proper_get hfinancial _) trivial
            have hproper := ticked_proper hbefore start.2 stop.2 hlist hfinancial
            have hsame := checkpoint_ok hproper hafter
            have hstep : ClockStep start.1 stop.1 before after :=
              ⟨hclock, ⟨a, b, ha, hb, hlater⟩, history, arrayOf_ok_iff.mp hhistory, hsame⟩
            refine ⟨?_, ?_⟩
            · refine move_of (.ticked hscope hstep) ?_ (board_free hpending hintent)
              rw [board_free hpending hintent, hconfirmed]
            · exact hr.checkpointed hrevision ⟨checkpoint_proper hafter,
                checkpoint_again hproper hafter⟩ hpending hintent
                (hr.backed_synthetic hscope rfl rfl)
      · cases h

/-! ## Staging -/

/-- What has the fingerprint of the confirmed checkpoint is the confirmed checkpoint. -/
theorem Consistent.confirmed_of_sameFp {prior : Value} {message : String} {u : Unit}
    (hsha : Function.Injective sha.text) (hr : Consistent platform sha owner r)
    (hprior : prior.Proper ∧ checkpoint prior = .ok prior)
    (h : sameFp sha prior r.confirmedValue message = .ok u) : r.confirmed = some prior := by
  cases hc : r.confirmed with
  | none =>
      rw [Record.confirmedValue, hc] at h
      have hnull : prior = .null := sameFp_inj hsha hprior.1 trivial h
      exact absurd hnull (checkpoint_ne_null hprior.2)
  | some c =>
      rw [Record.confirmedValue, hc] at h
      rw [sameFp_inj hsha hprior.1 (hr.confirmed c hc).1 h]

omit [DecidableEq δ] in
theorem sameFp_symm [DecidableEq δ] {a b : Value} {message : String} {u : Unit}
    (h : sameFp sha a b message = .ok u) : sameFp sha b a message = .ok () := by
  simp only [sameFp, Checked.bind_ok_iff, assert_ok_iff, decide_eq_true_eq] at h ⊢
  obtain ⟨x, hx, y, hy, heq⟩ := h
  exact ⟨y, hy, x, hx, heq.symm⟩

theorem stageAuthorization_advances {q : Request} (hsha : Function.Injective sha.text)
    (hr : Consistent platform sha owner r)
    (h : stageAuthorization sha status r q = .ok (.publishes next answer)) :
    Advances platform sha owner (.stageAuthorization q) r next := by
  simp only [stageAuthorization, Checked.bind_ok_iff, assert_ok_iff, decide_eq_true_eq,
    Option.isNone_iff_eq_none] at h
  obtain ⟨_, hpending, id, -, _, -, circuit, -, _, -, _, -, _, -, _, hfresh, prior, hprior, _,
    hsame, _, -, args, -, witnesses, -, descriptor, -, request, -, d, -, _, hintent, _, -, h⟩ := h
  have hcheck : prior.Proper ∧ checkpoint prior = .ok prior :=
    ⟨checkpoint_proper hprior, checkpoint_again q.before.2 hprior⟩
  -- the fingerprints are the same, so the predecessor is the confirmed checkpoint itself
  have hconfirmed := hr.confirmed_of_sameFp hsha hcheck hsame
  cases hi : r.authorizationIntent with
  -- the same intent was staged before
  | some saved =>
      simp only [hi, Checked.bind_ok_iff, Checked.pure_ok_iff] at h
      obtain ⟨_, -, h⟩ := h
      cases h
  | none =>
      simp only [hi] at h
      obtain ⟨hrevision, -, heq⟩ := publish_ok h
      cases heq
      refine ⟨?_, ?_⟩
      -- the board: nothing was on its way, and the intent is now
      · let i : Intent δ := ⟨⟨id, circuit, args, witnesses, descriptor, request, prior⟩, d⟩
        have hnew :
            Record.board { r with revision := r.revision + 1, authorizationIntent := some i }
              = ⟨some i.before, .intended i, r.completed⟩ := by
          simp only [Record.board, Record.stage, hpending, hconfirmed, i]
        refine move_of (.intended (fresh_of_all hfresh)) ?_ hnew
        rw [board_free hpending hi, hconfirmed]
      · exact { hr with
          revision := hrevision
          intent := by
            rintro i ⟨⟩
            exact ⟨hintent, hpending, hconfirmed, fresh_of_all hfresh⟩
          backed := hr.backed_same rfl rfl (.inr rfl) rfl }

theorem prepare_advances {q : Request} (hsha : Function.Injective sha.text)
    (hr : Consistent platform sha owner r)
    (h : prepare sha status r q = .ok (.publishes next answer)) :
    Advances platform sha owner (.prepare q) r next := by
  simp only [prepare, Checked.bind_ok_iff, assert_ok_iff] at h
  obtain ⟨id, -, _, -, circuit, -, _, -, _, -, _, -, prior, hprior, candidate, hcandidate, _, -,
    args, -, witnesses, -, d, hd, h⟩ := h
  cases hdone : findCompleted r (.string id) with
  -- the operation is done, and its completion is the answer
  | some completed =>
      simp only [hdone, Checked.bind_ok_iff, Checked.pure_ok_iff] at h
      obtain ⟨_, -, h⟩ := h
      cases h
  | none =>
      simp only [hdone, Checked.bind_ok_iff, assert_ok_iff] at h
      obtain ⟨_, -, _, hsame, _, hfollows, h⟩ := h
      have hcheck : prior.Proper ∧ checkpoint prior = .ok prior :=
        ⟨checkpoint_proper hprior, checkpoint_again q.before.2 hprior⟩
      have hconfirmed := hr.confirmed_of_sameFp hsha hcheck (sameFp_symm hsame)
      have hfresh := fresh_of_find hdone
      cases hp : r.pending with
      -- the same candidate is prepared already
      | some pending =>
          simp only [hp, Checked.bind_ok_iff, Checked.pure_ok_iff] at h
          obtain ⟨_, -, h⟩ := h
          cases h
      | none =>
          simp only [hp, Checked.bind_ok_iff, assert_ok_iff, decide_eq_true_eq] at h
          obtain ⟨_, hroom, hpublish⟩ := h
          obtain ⟨hrevision, -, heq⟩ := publish_ok hpublish
          cases heq
          have hsub := hr.submission_none hp
          refine ⟨?_, ?_⟩
          · let p : Pending δ := ⟨⟨id, circuit, args, witnesses, prior, candidate⟩, d⟩
            have hnew : Record.board { r with revision := r.revision + 1
                                              pending := some p
                                              authorizationIntent := none }
                = ⟨some p.before, .prepared p, r.completed⟩ := by
              simp only [Record.board, Record.stage, hsub, hconfirmed, p]
            -- a candidate comes out of nothing, or out of the intent of the same operation
            cases hi : r.authorizationIntent with
            | none =>
                refine move_of (.prepared hfresh) ?_ hnew
                rw [board_free hp hi, hconfirmed]
            | some i =>
                simp only [hi, followsIntent, Checked.bind_ok_iff, assert_ok_iff,
                  beq_iff_eq] at hfollows
                obtain ⟨_, hid, -⟩ := hfollows
                refine move_of (.followed hfresh hid) ?_ hnew
                rw [board_intended hp hi, hconfirmed]
          · exact { hr with
              revision := hrevision
              intent := by
                rintro i ⟨⟩
              pending := by
                rintro p ⟨⟩
                exact ⟨hd, hconfirmed, ⟨checkpoint_proper hcandidate,
                  checkpoint_again q.candidate.2 hcandidate⟩, hfresh, hroom⟩
              submission := by
                intro s hs
                rw [show r.submission = some s from hs] at hsub
                cases hsub
              backed := hr.backed_same rfl rfl (.inr rfl) rfl }

/-! ## Confirmation -/

/-- A candidate can be confirmed, with what the network asks for. -/
theorem Consistent.confirmedWith {n : ℕ} {p : Pending δ} {c : Completed δ}
    (hr : Consistent platform sha owner r) (hn : n ≤ Number.maxSafe) (hp : r.pending = some p)
    (hid : c.operationId = p.operationId)
    (hb : Backed (owner.network platform sha)
      { r with revision := n
               confirmed := some p.candidate
               pending := none
               submission := none
               completed := r.completed ++ [c] }) :
    Consistent platform sha owner
      { r with revision := n
               confirmed := some p.candidate
               pending := none
               submission := none
               completed := r.completed ++ [c] } := by
  -- the candidate was prepared with room for its completion and with a fresh id
  obtain ⟨-, -, hcandidate, hfresh, hroom⟩ := hr.pending p hp
  have hintent := hr.intent_of_pending hp
  exact { hr with
    revision := hn
    room := by
      rw [List.length_append]
      exact hroom
    nodup := nodup_append hr.nodup (hid ▸ hfresh)
    confirmed := by
      rintro c' ⟨⟩
      exact hcandidate
    intent := by
      intro i hi
      rw [show r.authorizationIntent = some i from hi] at hintent
      cases hintent
    pending := by
      rintro p' ⟨⟩
    submission := by
      rintro s ⟨⟩
    backed := hb }

theorem equal_iff {a b : Value} (h : equal a b = true) : a = b := by
  cases a with
  | bytes as =>
      cases b with
      | bytes bs =>
          rw [equal, beq_iff_eq] at h
          rw [h]
      | _ => cases h
  | _ => cases h

theorem confirm_advances {operationId shown : Data} (hr : Consistent platform sha owner r)
    (h : confirm sha owner.scope status r operationId.1 shown.1 = .ok (.publishes next answer)) :
    Advances platform sha owner (.confirm operationId shown) r next := by
  simp only [confirm, Checked.bind_ok_iff, assert_ok_iff, decide_eq_true_eq] at h
  obtain ⟨_, hscope, h⟩ := h
  cases hp : r.pending with
  -- the operation is confirmed already, and nothing is published
  | none =>
      simp only [hp] at h
      split at h
      · cases h
      · simp only [Checked.bind_ok_iff, Checked.pure_ok_iff] at h
        obtain ⟨_, -, h⟩ := h
        cases h
  | some p =>
      simp only [hp, Checked.bind_ok_iff, assert_ok_iff, orThrow_ok_iff] at h
      obtain ⟨_, -, _, hequal, d, -, hpublish⟩ := h
      obtain ⟨hrevision, -, heq⟩ := publish_ok hpublish
      cases heq
      obtain ⟨-, hbefore, -, -, -⟩ := hr.pending p hp
      have hintent := hr.intent_of_pending hp
      -- in a synthetic journal a candidate has never been submitted
      have hsub := hr.submission_synthetic hscope
      have hboard : r.board = ⟨some p.before, .prepared p, r.completed⟩ := by
        rw [board_prepared hp hsub, hbefore]
      let c : Completed δ := ⟨p.operationId, p.fingerprint, d, none⟩
      have hmove : Move platform owner (.confirm operationId shown)
          ⟨some p.before, .prepared p, r.completed⟩ ⟨some p.candidate, .free, r.completed ++ [c]⟩ :=
        .observed hscope (equal_iff hequal) rfl rfl
      refine ⟨move_of hmove hboard (board_free rfl hintent), ?_⟩
      have hdone := hr.confirmedWith (c := c) hrevision hp rfl
        (hr.backed_synthetic hscope hsub.symm rfl)
      rw [← hsub] at hdone
      exact hdone

theorem stageSubmission_advances {operationId transaction : Data}
    (hr : Consistent platform sha owner r) (hnetwork : (owner.network platform sha).isSome)
    (h : stageSubmission platform sha owner.scope status r operationId.1 transaction.1 =
      .ok (.publishes next answer)) :
    Advances platform sha owner (.stageSubmission operationId transaction) r next := by
  rw [stageSubmission] at h
  cases hp : r.pending with
  | none =>
      simp only [hp] at h
      cases h
  | some p =>
      simp only [hp, Checked.bind_ok_iff, assert_ok_iff] at h
      obtain ⟨_, -, s, hs, h⟩ := h
      cases hsub : r.submission with
      -- the same submission was staged before
      | some saved =>
          simp only [hsub, Checked.bind_ok_iff, Checked.pure_ok_iff] at h
          obtain ⟨_, -, h⟩ := h
          cases h
      | none =>
          simp only [hsub] at h
          obtain ⟨hrevision, -, heq⟩ := publish_ok h
          cases heq
          obtain ⟨hid, hcandidate, htransaction⟩ := networkSubmission_ok hs
          obtain ⟨-, hbefore, -, -, -⟩ := hr.pending p hp
          refine ⟨?_, ?_⟩
          · have hmove : Move platform owner (.stageSubmission operationId transaction)
                ⟨some p.before, .prepared p, r.completed⟩
                ⟨some p.before, .submitted p s, r.completed⟩ :=
              .submitted hid hcandidate htransaction
            refine move_of hmove ?_ ?_
            · rw [board_prepared hp hsub, hbefore]
            · simp only [Record.board, Record.stage, hbefore]
          · rw [← hp]
            exact { hr with
              revision := hrevision
              submission := by
                rintro s' ⟨⟩
                exact ⟨p, hp, htransaction ▸ hs⟩
              backed := hr.backed_same rfl rfl (.inl hnetwork) rfl }

/-! ## Network actions that ask -/

/-- A question that is about `expected`. -/
structure Asks (platform : Platform) (q : Query) (expected : Value) : Prop where
  expected : q.expectedPublicState = expected
  raw : platform.transaction q.transaction = some q.raw
  same : q.raw.bytes = q.transaction

/-- What a network action has read is what the record says; a journal that is ready waits for no
publication. -/
def Fits (platform : Platform) (r : Record δ) : Memory δ → Prop
  | none => True
  | some (.initializing candidate _ q) => r.confirmed = none ∧ r.pending = none ∧
      r.authorizationIntent = none ∧ (candidate.Proper ∧ checkpoint candidate = .ok candidate) ∧
      Asks platform q (candidate.get "publicState")
  | some (.confirming operationId p _ q) => r.pending = some p ∧ operationId = p.operationId ∧
      (∃ s, r.submission = some s ∧ s.candidateFingerprint = p.fingerprint ∧
        s.transaction = q.transaction) ∧
      Asks platform q (p.candidate.get "publicState")
  | some .storing => False

omit [DecidableEq δ] in
theorem initializeFinalized_fits {initial anchor : Data} {action : Reconciliation δ}
    (h : initializeFinalized platform r initial.1 anchor.1 = .ok action) :
    Fits platform r (some action) := by
  simp only [initializeFinalized, Checked.bind_ok_iff, Checked.pure_ok_iff, assert_ok_iff,
    Option.isNone_iff_eq_none] at h
  obtain ⟨_, hconfirmed, _, hpending, _, hintent, _, -, candidate, hcandidate, q, hq, heq⟩ := h
  cases heq
  obtain ⟨-, hexpected, hraw, hsame⟩ := observe_ok hq
  exact ⟨hconfirmed, hpending, hintent, ⟨checkpoint_proper hcandidate,
    checkpoint_again initial.2 hcandidate⟩, hexpected, hraw, hsame⟩

theorem confirmFinalized_fits {operationId hint : Data} {action : Reconciliation δ}
    (h : confirmFinalized platform r operationId.1 hint.1 = .ok (.asks action)) :
    Fits platform r (some action) := by
  simp only [confirmFinalized, Checked.bind_ok_iff, assert_ok_iff] at h
  obtain ⟨_, -, _, -, _, -, h⟩ := h
  cases hp : r.pending with
  -- a receipt that is there already is the answer; nobody is asked
  | none =>
      simp only [hp] at h
      split at h
      · cases h
      · simp only [Checked.bind_ok_iff, Checked.pure_ok_iff] at h
        obtain ⟨_, -, _, -, h⟩ := h
        cases h
  | some p =>
      simp only [hp] at h
      cases hs : r.submission with
      | none =>
          simp only [hs] at h
          cases h
      | some s =>
          simp only [hs, Checked.bind_ok_iff, Checked.pure_ok_iff, assert_ok_iff,
            decide_eq_true_eq] at h
          obtain ⟨_, -, _, hfor, q, hq, heq⟩ := h
          cases heq
          obtain ⟨htransaction, hexpected, hraw, hsame⟩ := observe_ok hq
          exact ⟨hp, rfl, ⟨s, hs, hfor, Value.bytes.inj htransaction⟩, hexpected, hraw, hsame⟩

/-- With a receipt, what the network asks for is there. -/
theorem Consistent.backed_receipt {n : ℕ} {p : Pending δ} {c : Completed δ} {receipt : Receipt δ}
    {authority : Authority δ} (hr : Consistent platform sha owner r)
    (hn : owner.network platform sha = some authority) (hp : r.pending = some p)
    (hc : c.receipt = some receipt) (hverified : receipt.networkFinalityVerified = true) :
    Backed (owner.network platform sha)
      { r with revision := n
               confirmed := some p.candidate
               pending := none
               submission := none
               completed := r.completed ++ [c] } := by
  have hbacked := hr.backed
  rw [hn] at hbacked ⊢
  obtain ⟨hbootstrap, hreceipts⟩ := hbacked
  obtain ⟨-, hbefore, -, -, -⟩ := hr.pending p hp
  refine ⟨fun c' _ => hbootstrap _ hbefore, fun c' hc' => ?_⟩
  rcases List.mem_append.mp hc' with hc' | hc'
  · exact hreceipts c' hc'
  · rw [List.mem_singleton.mp hc']
    exact ⟨receipt, hc, hverified⟩

theorem resume_advances {authority : Authority δ} {action : Reconciliation δ}
    {o : Result Observed} (hr : Consistent platform sha owner r)
    (hf : Fits platform r (some action)) (hn : owner.network platform sha = some authority)
    (h : resume platform sha authority status r action o = .ok (.publishes next answer)) :
    Advances platform sha owner (.answered o) r next := by
  simp only [resume, Checked.bind_ok_iff] at h
  obtain ⟨o, rfl, h⟩ := h
  cases action with
  | initializing candidate revision q =>
      -- nothing was on its way when the question was asked, and nothing is now
      obtain ⟨hconfirmed, hpending, hintent, hcandidate, hexpected, hraw, hsame⟩ := hf
      simp only [Checked.bind_ok_iff] at h
      obtain ⟨receipt, hreceipt, _, -, hpublish⟩ := h
      obtain ⟨hrevision, -, heq⟩ := publish_ok hpublish
      cases heq
      obtain ⟨hfinal, hverified⟩ := observed_ok hraw hsame hreceipt
      rw [hexpected] at hfinal
      refine ⟨?_, ?_⟩
      · refine move_of (.bootstrapped hfinal) ?_ (board_free hpending hintent)
        rw [board_free hpending hintent, hconfirmed]
      · refine hr.checkpointed hrevision hcandidate hpending hintent ?_
        have hbacked := hr.backed
        rw [hn] at hbacked ⊢
        exact ⟨fun c _ => ⟨receipt, rfl, hverified⟩, hbacked.2⟩
  | confirming operationId p revision q =>
      -- the candidate and its submission are those the question was about
      obtain ⟨hp, rfl, ⟨s, hs, hfor, htransaction⟩, hexpected, hraw, hsame⟩ := hf
      simp only [Checked.bind_ok_iff, orThrow_ok_iff] at h
      obtain ⟨receipt, hreceipt, _, -, d, -, hpublish⟩ := h
      obtain ⟨hrevision, -, heq⟩ := publish_ok hpublish
      cases heq
      obtain ⟨hfinal, hverified⟩ := observed_ok hraw hsame hreceipt
      rw [hexpected, ← htransaction] at hfinal
      obtain ⟨-, hbefore, -, -, -⟩ := hr.pending p hp
      have hintent := hr.intent_of_pending hp
      have hboard : r.board = ⟨some p.before, .submitted p s, r.completed⟩ := by
        rw [board_submitted hp hs, hbefore]
      exact ⟨move_of (.finalized hfor hfinal rfl rfl) hboard (board_free rfl hintent),
        hr.confirmedWith hrevision hp rfl (hr.backed_receipt hn hp rfl hverified)⟩
  | storing => exact hf.elim

end Line.Finance
