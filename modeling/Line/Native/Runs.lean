import Line.Native.Memory

/-!
# The journal goes along the steps

The functions of the journal keep memory in agreement with the store, and what they store they store
by steps (`serve_runs`). In the middle of a function memory is ahead of the store; each store that
can happen there, with whatever ends the process then, is a step. Most lemmas here are about what is
still to be done, from a state `s₀` up to which the steps are known: the step of the call of the
node begins with the store before it.

So a lemma about a function has two halves, and `Keeps` holds both. If the function answers, the
store went from `s₀` to where it is along steps, and memory agrees with it again. If it stops, then
either the process is gone, and only the steps matter, or the journal is shut: it refuses everything
until it is opened from the store, so that nothing is concluded from a memory that may be wrong.
-/

namespace Line.Native

open Stateful Relation

variable {A P : Type} {R : Rules A} {α β : Type} {s t : System A P}

/-! ## The functions -/

theorem along_of_moves (h : ReflTransGen (Along R) s t) : Along R s t := by
  induction h with
  | refl => exact .refl
  | tail _ hlast ih => exact ih.trans hlast

/-- A run that goes along the steps, and leaves the state as it is between two operations. -/
abbrev Keeps (R : Rules A) (id : String) (Q : α → System A P → Prop) (s : System A P)
    (r : EStateM.Result Failure (System A P) α) : Prop :=
  Runs (Along R) s r (fun a t => Settled R id t ∧ Q a t) (Failed R id)

/-- The transaction of the pending operation is written down. -/
def Recorded (s : System A P) : Prop :=
  ∃ p row, s.state.pending = some p ∧ p.record = some row ∧ row.id = p.id

/-- The operation is done, and this is its receipt. -/
structure Retained (id : String) (receipt : Receipt) (s : System A P) : Prop where
  pending : s.state.pending = none
  receipts : receipt ∈ s.state.receipts
  id_eq : receipt.record.id = id

theorem Still.recorded (h : Still s t) (hs : Recorded s) : Recorded t := by
  rw [Recorded, h.state]
  exact hs

/-- A store that is a step. -/
theorem save_moves {s₀ : System A P} {candidate : Application A}
    {note : Application A → List (Event A P)} {e : Failure} (h₀ : Along R s₀ s)
    (h : save candidate note s = .error e t)
    (hst : ReflTransGen (Step R) s.view (s.stored candidate note)) :
    ReflTransGen (Along R) s₀ t ∧ Shut e t := by
  obtain ⟨hview, hshut⟩ := save_error h
  refine ⟨.single ?_, hshut⟩
  rcases hview with hv | hv
  · rw [Along, hv]
    exact h₀
  · rw [Along, hv]
    exact h₀.trans hst

theorem writeJson_keeps {s₀ : System A P} {id : String} (h₀ : Along R s₀ s)
    (hs : Settled R id s) (hrec : Recorded s) :
    Keeps R id (fun _ => Recorded) s₀ ((writeJson : M A P Unit) s) := by
  refine .last ?_ ?_
  · intro e t h
    have hst := ask_error h
    exact ⟨.single (h₀.trans hst.along), .inr (hst.settled hs)⟩
  · intro u t h
    have hst := ask_ok h
    exact ⟨.single (h₀.trans hst.along), hst.settled hs, hst.recorded hrec⟩

/-- The stored state is the one in memory. -/
theorem settled_of_eq {id : String} {p : Pending A} (hd : s.durable = s.state)
    (hp : s.state.pending = some p) (hid : p.id = id) : Settled R id s := by
  intro _
  rw [hd]
  refine ⟨.refl _, ?_⟩
  intro q hq
  obtain rfl := Option.some.inj (hp.symm.trans hq)
  exact hid

/-- What is in memory is stored. -/
def System.flushed (s : System A P) : View A P := ⟨s.state, s.files, s.events⟩

theorem System.view_of_eq (s : System A P) (h : s.durable = s.state) : s.view = s.flushed := by
  rw [view, h]
  rfl

@[simp] theorem System.setPending_flushed (s : System A P) (p : Pending A) :
    (s.setPending p).flushed = s.flushed.withPending (some p) := rfl

theorem Still.flushed (h : Still s t) : t.flushed = s.flushed := by
  rw [System.flushed, System.flushed, h.state, h.files, h.events]

/-- Something is recorded. -/
def System.note (s : System A P) (event : Event A P) : System A P :=
  { s with events := event :: s.events }

theorem System.note_view (s : System A P) (event : Event A P) :
    (s.note event).view = s.view.withEvent event := rfl

theorem post_eq (id : String) (tx : Transaction P) : (post id tx : M A P Response) s
    = ask (·.posts.head) (fun w => { w with posts := w.posts.tail })
      (s.note (.posted id tx s.durable)) := rfl

theorem saveState_seq {s₀ : System A P} {id : String} {k : Unit → M A P α}
    {Q : α → System A P → Prop} (h₀ : Along R s₀ s)
    (hst : ReflTransGen (Step R) s.view s.flushed)
    (hk : ∀ t, t.view = s.flushed → t.state = s.state → Keeps R id Q s₀ (k ⟨⟩ t)) :
    Keeps R id Q s₀ ((saveState >>= k) s) := by
  refine .seq ?_ ?_
  · intro e t h
    have hsave : save s.state (fun _ => []) s = .error e t := h
    obtain ⟨hm, hshut⟩ := save_moves h₀ hsave hst
    exact ⟨hm, hshut.failed⟩
  · intro u t h
    have hsave : save s.state (fun _ => []) s = .ok u t := h
    obtain ⟨hview, hstate, -⟩ := save_ok hsave
    exact hk t hview hstate

theorem writeJson_seq {s₀ : System A P} {id : String} {k : Unit → M A P α}
    {Q : α → System A P → Prop} (h₀ : Along R s₀ s)
    (hs : Settled R id s) (hk : ∀ t, Still s t → Keeps R id Q s₀ (k ⟨⟩ t)) :
    Keeps R id Q s₀ (((writeJson : M A P Unit) >>= k) s) := by
  refine .seq ?_ ?_
  · intro e t h
    have hst := ask_error h
    exact ⟨.single (h₀.trans hst.along), .inr (hst.settled hs)⟩
  · intro u t h
    exact hk t (ask_ok h)

/-- The record of a transaction that was sent is changed and stored. -/
theorem rowSaved_seq {s₀ : System A P} {p : Pending A} {row : Record} {f : Record → Record}
    {k : M A P α} {Q : α → System A P → Prop} (h₀ : Along R s₀ s) (hd : s.durable = s.state)
    (hp : s.state.pending = some p) (hrow : p.record = some row)
    (hne : row.disposition ≠ .prepared) (hsame : row.same (f row) = true)
    (hid : row.id = p.id) (hne' : (f row).disposition ≠ .prepared)
    (hk : ∀ t, Along R s₀ t → Settled R p.id t → Recorded t → Keeps R p.id Q s₀ (k t)) :
    Keeps R p.id Q s₀ ((do assignRow f; saveState; k : M A P α) s) := by
  rw [assignRow_bind hp hrow]
  -- the store of the changed record is one step, since the record stays that of the transaction
  have hst : Step R s.view (s.setPending (p.withRow (f row))).flushed := by
    rw [s.view_of_eq hd]
    exact Step.respond hp hrow hne hsame hne'
  refine saveState_seq (s := s.setPending _) h₀ (.single hst) ?_
  intro t hview hstate
  refine hk t ?_ ?_ ?_
  · rw [Along, hview]
    exact h₀.tail hst
  · refine settled_of_eq (p := p.withRow (f row)) ?_ ?_ rfl
    · rw [hstate]
      exact congrArg View.durable hview
    · rw [hstate]
      rfl
  · rw [Recorded, hstate]
    exact ⟨_, f row, rfl, rfl, (Record.same_iff.mp hsame).1.trans hid⟩

theorem respond_keeps {s₀ : System A P} {p : Pending A} {row : Record} (response : Response)
    (h₀ : Along R s₀ s) (hd : s.durable = s.state) (hp : s.state.pending = some p)
    (hrow : p.record = some row) (hid : row.id = p.id) (hne : row.disposition ≠ .prepared) :
    Keeps R p.id (fun _ => Recorded) s₀ ((respond response : M A P Unit) s) := by
  cases response with
  -- the call may have arrived or not, and the record stays at `submissionAttempted`
  | notOk => exact .after (.single h₀) (.error (.inr (settled_of_eq hd hp rfl)))
  -- a refusal is noted on the record, and then the function throws
  | rejected code message =>
    simp only [respond, get_bind]
    refine rowSaved_seq h₀ hd hp hrow hne ?_ hid ?_ ?_
    · exact Record.same_iff.mpr ⟨rfl, rfl, rfl, rfl, rfl, rfl⟩
    · exact hne
    · intro t ht hs _
      refine writeJson_seq ht hs ?_
      intro u hu
      exact .after (.single (ht.trans hu.along)) (.error (.inr (hu.settled hs)))
  -- an acceptance stores the hash and goes on
  | accepted hash =>
    simp only [respond]
    refine rowSaved_seq h₀ hd hp hrow hne ?_ hid ?_ ?_
    · exact Record.same_iff.mpr ⟨rfl, rfl, rfl, rfl, rfl, rfl⟩
    · exact fun h => nomatch h
    · intro t ht hs hrec
      exact writeJson_keeps ht hs hrec

/-- **A prepared transaction is sent, after its attempt is durable.** -/
theorem submitPrepared_keeps {s₀ : System A P} {p : Pending A} {row : Record}
    {tx : Transaction P} (h₀ : Along R s₀ s) (hd : s.durable = s.state)
    (hp : s.state.pending = some p) (hrow : p.record = some row)
    (hfile : s.files p.id = some (.whole tx)) (htx : RowOf p tx row) :
    Keeps R p.id (fun _ => Recorded) s₀ ((submitPrepared tx : M A P Unit) s) := by
  have hs : Settled R p.id s := settled_of_eq hd hp rfl
  have hview := s.view_of_eq hd
  simp only [submitPrepared]
  refine .seq ?_ ?_
  · intro e t h
    obtain ⟨rfl, -⟩ := assertJournalWritable_error h
    exact ⟨.single h₀, .inr hs⟩
  intro u t h
  obtain ⟨rfl, -⟩ := assertJournalWritable_ok h
  rw [state_bind, hp]
  simp only [hrow]
  by_cases hprep : row.disposition ≠ .prepared
  · rw [if_pos hprep]
    exact .after (.single h₀) (.error (.inr hs))
  rw [if_neg hprep]
  -- the address is entered already
  obtain ⟨q, hq, hrec⟩ := transactionRecord_cases tx hp
  have hqp : q = p := by
    rcases hq with hq | ⟨hk, action, ha, hq⟩
    · exact hq
    · obtain ⟨action', ha', -, -, haddress⟩ := htx.action
      have heq : action' = action := by
        rw [ha] at ha'
        cases ha'
        rfl
      rw [hq, ← heq, haddress, Pending.withAddress, ← htx.address hk]
  rw [hqp, t.setPending_self hp] at hrec
  rcases hrec with ⟨message, hrec⟩ | ⟨actual, hrec, -⟩
  · rw [bind_of_error hrec]
    exact .after (.single h₀) (.error (.inr hs))
  rw [bind_of_ok hrec]
  by_cases hsame : (!row.same actual) = true
  · rw [if_pos hsame]
    exact .after (.single h₀) (.error (.inr hs))
  rw [if_neg hsame]
  refine .seq ?_ ?_
  · intro e u h
    have hst := ask_error h
    exact ⟨.single (h₀.trans hst.along), .inr (hst.settled hs)⟩
  intro _ u h
  have hst := ask_ok h
  rw [assignRow_bind (hst.state ▸ hp) hrow]
  -- the attempt becomes durable
  refine saveState_seq (h₀.trans hst.along) ?_ ?_
  · rw [System.setPending_view, hst.view, hview, System.setPending_flushed, hst.flushed]
    exact .single (Step.attempt hp hrow (not_not.mp hprep))
  intro v hv hvstate
  rw [System.setPending_flushed, hst.flushed] at hv
  have hvs : v.state = { t.state with
      pending := some (p.withRow { row with disposition := .submissionAttempted }) } := by
    rw [hvstate, System.setPending, hst.state]
  have hvd : v.durable = v.state := by
    rw [hvs]
    exact congrArg View.durable hv
  have hvp : v.state.pending
      = some (p.withRow { row with disposition := .submissionAttempted }) := by
    rw [hvs]
  have hattempt : Along R t v := by
    rw [Along, hview, hv]
    exact .single (Step.attempt hp hrow (not_not.mp hprep))
  refine writeJson_seq (h₀.trans hattempt) (settled_of_eq hvd hvp rfl) ?_
  intro w hw
  -- and the node is called
  have hsubmit : Along R t (w.note (.posted p.id tx w.durable)) := by
    rw [Along, System.note_view, hw.durable, hw.view, hvd, hvs, hview, hv]
    exact .single (Step.submit hp hrow (not_not.mp hprep) hfile)
  have hwp : (w.note (.posted p.id tx w.durable)).state.pending
      = some (p.withRow { row with disposition := .submissionAttempted }) := by
    rw [System.note, hw.state, hvp]
  have hwd : (w.note (.posted p.id tx w.durable)).durable
      = (w.note (.posted p.id tx w.durable)).state := by
    rw [System.note, hw.durable, hw.state, hvd]
  refine .seq ?_ ?_
  · intro e x h
    rw [post_eq] at h
    have hx := ask_error h
    exact ⟨.single (h₀.trans (hsubmit.trans hx.along)),
      .inr (hx.settled (settled_of_eq hwd hwp rfl))⟩
  · intro response x h
    rw [post_eq] at h
    have hx := ask_ok h
    refine respond_keeps (p := p.withRow { row with disposition := .submissionAttempted }) response
      (h₀.trans (hsubmit.trans hx.along)) ?_ (hx.state ▸ hwp) rfl htx.id ?_
    · rw [hx.durable, hx.state, hwd]
    · intro hd
      cases hd

/-- An address can be entered before the transaction is written down. -/
theorem Agrees.readdress {m d : Application A} {p q : Pending A} {tx : Transaction P}
    (h : Agrees R m d) (hp : m.pending = some p) (hnone : p.record = none)
    (hq : Addressed p q tx) : Agrees R { m with pending := some q } d := by
  refine ⟨h.receipts, h.owned, ?_⟩
  obtain ⟨p', hp', hl⟩ := h.pending_some hp
  rw [hp']
  refine .some ?_
  rcases hq with rfl | ⟨hk, action, -, rfl⟩
  · exact hl
  · rcases hl with rfl | ⟨hnone', hk', address, rfl⟩
    · exact .inr ⟨hnone, hk, _, rfl⟩
    · exact .inr ⟨hnone', hk', _, rfl⟩

theorem Addressed.id_eq {p q : Pending A} {tx : Transaction P} (h : Addressed p q tx) :
    q.id = p.id := by
  rcases h with rfl | ⟨-, action, -, rfl⟩
  · rfl
  · rfl

theorem Addressed.record_eq {p q : Pending A} {tx : Transaction P} (h : Addressed p q tx) :
    q.record = p.record := by
  rcases h with rfl | ⟨-, action, -, rfl⟩
  · rfl
  · rfl

theorem Addressed.trans {p q r : Pending A} {tx : Transaction P} (h : Addressed p q tx)
    (h' : Addressed q r tx) : Addressed p r tx := by
  rcases h with rfl | ⟨hk, action, ha, rfl⟩
  · exact h'
  · rcases h' with rfl | ⟨-, action', ha', rfl⟩
    · exact .inr ⟨hk, action, ha, rfl⟩
    · exact .inr ⟨hk, action', ha', rfl⟩

theorem Agrees.settled {id : String} {p : Pending A} (h : Agrees R s.state s.durable)
    (hp : s.state.pending = some p) (hid : p.id = id) : Settled R id s := by
  intro _
  refine ⟨h, ?_⟩
  intro q hq
  obtain rfl := Option.some.inj (hp.symm.trans hq)
  exact hid

/-- The record of the transaction is entered and stored, and the transaction is sent. -/
theorem marked_keeps {s₀ : System A P} {p : Pending A} {row : Record} {tx : Transaction P}
    {k : M A P α} {Q : α → System A P → Prop} (h₀ : Along R s₀ s) (ha : Agrees R s.state s.durable)
    (hp : s.state.pending = some p)
    (hnone : p.record = none) (hfile : s.files p.id = some (.whole tx)) (htx : RowOf p tx row)
    (hprep : row.disposition = .prepared)
    (hk : ∀ t, Settled R p.id t → Recorded t → Keeps R p.id Q t (k t)) :
    Keeps R p.id Q s₀ ((do
      assignPending fun pending => { pending with record := some row }
      saveState
      submitPrepared tx
      k : M A P α) s) := by
  rw [assignPending_bind hp]
  -- the steps up to the store: what the owner changed, and then the record
  have hst : ReflTransGen (Step R) s.view (s.setPending (p.withRow row)).flushed :=
    ha.steps.tail (Step.mark hp hnone hfile htx hprep)
  refine saveState_seq (s := s.setPending (p.withRow row)) h₀ hst ?_
  intro t hview hstate
  have hfiles : t.files = s.files := congrArg View.files hview
  -- what is stored is what is in memory, so the sending starts in agreement
  refine .bind (submitPrepared_keeps (p := p.withRow row) (h₀.trans ?_) ?_ ?_ rfl ?_ ?_)
    fun _ u hu => hk u hu.1 hu.2
  · rw [hview]
    exact hst
  · rw [hstate]
    exact congrArg View.durable hview
  · rw [hstate, System.setPending_pending]
  · rw [hfiles]
    exact hfile
  · exact htx.congr rfl rfl rfl rfl

theorem Still.retained {id : String} {receipt : Receipt} (h : Still s t)
    (hs : Retained id receipt s) : Retained id receipt t := by
  refine ⟨?_, ?_, hs.id_eq⟩
  · rw [h.state, hs.pending]
  · rw [h.state]
    exact hs.receipts

/-- The record is computed, the transaction is written down, and then it is sent. -/
theorem recorded_keeps {s₀ : System A P} {p q : Pending A} {tx : Transaction P}
    (identifier : String) (h₀ : Along R s₀ s) (ha : Agrees R s.state s.durable)
    (hp : s.state.pending = some p) (hnone : p.record = none) (hq : Addressed p q tx) :
    Keeps R p.id (fun _ => Recorded) s₀ ((do
      let row ← transactionRecord p tx
      writeBin p.id tx
      writeJson
      assignPending fun pending => { pending with record := some row }
      saveState
      submitPrepared tx
      pure identifier : M A P String) (s.setPending q)) := by
  -- a deployment's address is entered first, and the record does not look at it
  have hsame : (transactionRecord p tx : M A P Record) = transactionRecord q tx := by
    rcases hq with rfl | ⟨-, action, -, rfl⟩
    · rfl
    · rfl
  rw [hsame]
  obtain ⟨r, hr, hrec⟩ := transactionRecord_cases tx (s.setPending_pending q)
  have hpr : Addressed p r tx := hq.trans hr
  have har : Agrees R { s.state with pending := some r } s.durable := ha.readdress hp hnone hpr
  have hrs : Settled R p.id (s.setPending r) :=
    Agrees.settled (s := s.setPending r) har rfl hpr.id_eq
  -- the stored operation is the one in memory, but for that address
  obtain ⟨d, hd, hl⟩ := har.pending_some rfl
  have hdid : d.id = p.id := hl.id_eq.symm.trans hpr.id_eq
  have hdnone : d.record = none := hl.record_eq.symm.trans (hpr.record_eq.trans hnone)
  -- a transaction that does not fit the operation is refused before anything is written
  rcases hrec with ⟨message, hrec⟩ | ⟨row, hrec, htx, hprep⟩
  · rw [bind_of_error hrec]
    have h₁ : Along R s₀ (s.setPending r) := h₀
    exact .after (.single h₁) (.error (.inr hrs))
  rw [bind_of_ok hrec]
  refine .seq ?_ ?_
  -- the file may be written, in part or whole, and the function stop
  · intro e t h
    obtain ⟨hview, hstate, hunc, hrun⟩ := writeBin_error h
    have hfile : Along R s t := by
      rcases hview with hview | ⟨hf, f, hview⟩
      · rw [Along, hview]
        exact .refl
      · rw [Along, hview, ← hdid]
        exact .single (Step.file hd hdnone (hdid ▸ hf))
    refine ⟨.single (h₀.trans hfile), .inr fun hu => ?_⟩
    have hdur : t.durable = s.durable := by
      rcases hview with hview | ⟨-, f, hview⟩
      · exact congrArg View.durable hview
      · exact congrArg View.durable hview
    rw [hstate, hdur]
    exact hrs (hunc ▸ hu)
  -- the file is there; now the record, with the file it describes
  intro _ t h
  obtain ⟨hf, hview, hstate, hunc, hrun⟩ := writeBin_ok h
  have hdur : t.durable = s.durable := congrArg View.durable hview
  have hfiles : t.files = Function.update s.files p.id (some (.whole tx)) :=
    congrArg View.files hview
  have hat : Agrees R t.state t.durable := by
    rw [hstate, hdur]
    exact har
  have htp : t.state.pending = some r := by
    rw [hstate]
    rfl
  have hfile : Along R s t := by
    rw [Along, hview, ← hdid]
    exact .single (Step.file hd hdnone (hdid ▸ hf))
  refine writeJson_seq (h₀.trans hfile) (hat.settled htp hpr.id_eq) ?_
  intro u hu
  have hid : r.id = p.id := hpr.id_eq
  -- what is left is the case of a transaction written down
  have hkeep := marked_keeps (R := R) (s := u) (p := r) (k := (pure identifier : M A P String))
    (Q := fun _ => Recorded)
    ((h₀.trans hfile).trans hu.along) ?_ (hu.state ▸ htp) (hpr.record_eq.trans hnone) ?_ htx hprep
    (fun v hv hv' => .ok ⟨hv, hv'⟩)
  · rw [hid] at hkeep
    exact hkeep
  · rw [hu.state, hu.durable]
    exact hat
  · rw [hu.files, hfiles, hid, Function.update_self]

/-- **The transaction of an operation is written down and sent.** -/
theorem journalAndSubmit_keeps {s₀ : System A P} {p : Pending A} (tx : Transaction P)
    (h₀ : Along R s₀ s) (ha : Agrees R s.state s.durable) (hp : s.state.pending = some p)
    (hnone : p.record = none) :
    Keeps R p.id (fun _ => Recorded) s₀ ((journalAndSubmit tx : M A P String) s) := by
  have hs : Settled R p.id s := ha.settled hp rfl
  simp only [journalAndSubmit]
  refine .seq ?_ ?_
  · intro e t h
    obtain ⟨rfl, -⟩ := assertJournalWritable_error h
    exact ⟨.single h₀, .inr hs⟩
  intro _ t h
  obtain ⟨rfl, -⟩ := assertJournalWritable_ok h
  rw [state_bind, hp]
  simp only
  cases hident : tx.identifiers.getLast? with
  | none => exact .after (.single h₀) (.error (.inr hs))
  | some identifier =>
    simp only
    match hactions : tx.actions with
    | [] => exact .after (.single h₀) (.error (.inr hs))
    | _ :: _ :: _ => exact .after (.single h₀) (.error (.inr hs))
    | [action] =>
      simp only
      -- what is done when the address is entered
      have hrest := fun q (hq : Addressed p q tx) =>
        recorded_keeps identifier h₀ ha hp hnone hq
      by_cases hk : p.kind = .deploy
      · rw [if_pos hk, assignPending_bind hp]
        exact hrest _ (.inr ⟨hk, action, hactions, rfl⟩)
      · rw [if_neg hk, state_bind]
        by_cases ht : t.state.owned.contractAddress ≠ some action.address
        · rw [if_pos ht]
          exact .after (.single h₀) (.error (.inr hs))
        · rw [if_neg ht]
          have h := hrest p (.inl rfl)
          rw [t.setPending_self hp] at h
          exact h

/-- Nothing is pending any more. -/
theorem settled_of_none {id : String} (hd : s.durable = s.state) (hp : s.state.pending = none) :
    Settled R id s := by
  intro _
  rw [hd]
  refine ⟨.refl _, ?_⟩
  intro q hq
  rw [hp] at hq
  cases hq

/-- **A confirmed operation is adopted.** -/
theorem reconcile_keeps {s₀ : System A P} {id : String} (h₀ : Along R s₀ s)
    (hs : Settled R id s) :
    Keeps R id (fun r t => Recorded s → ∃ receipt, r = some receipt ∧ Retained id receipt t) s₀
      ((reconcile : M A P (Option Receipt)) s) := by
  simp only [reconcile]
  refine .seq ?_ ?_
  · intro e t h
    obtain ⟨rfl, -⟩ := assertJournalWritable_error h
    exact ⟨.single h₀, .inr hs⟩
  intro _ t h
  obtain ⟨rfl, hu⟩ := assertJournalWritable_ok h
  obtain ⟨ha, hids⟩ := hs hu
  rw [state_bind]
  cases hp : t.state.pending with
  | none =>
    refine .after (.single h₀) (.ok ⟨hs, ?_⟩)
    rintro ⟨q, row, hq, -⟩
    rw [hp] at hq
    cases hq
  | some p =>
    simp only
    cases hrow : p.record with
    | none =>
      refine .after (.single h₀) (.ok ⟨hs, ?_⟩)
      rintro ⟨q, row, hq, hr, -⟩
      obtain rfl := Option.some.inj (hp.symm.trans hq)
      rw [hrow] at hr
      cases hr
    | some row =>
      simp only
      -- the stored operation is the same
      have hd : t.durable.pending = some p := by
        obtain ⟨q, hq, hl⟩ := ha.pending_some hp
        rw [hq, hl.eq_of_record hrow]
      refine .seq ?_ ?_
      · intro e u h
        have hst := ask_error h
        exact ⟨.single (h₀.trans hst.along), .inr (hst.settled hs)⟩
      intro observed u h
      have hst := ask_ok h
      have hobs : Along R t (u.note (.observed row)) := by
        rw [Along, System.note_view, hst.view]
        exact .single (Step.observe hd hrow)
      -- the after-state becomes durable
      let receipt : Receipt := ⟨{ row with disposition := .confirmedSuccess },
        observed.blockHeight, observed.finalizedHead⟩
      have hnext : u.state.adopt p receipt = t.durable.adopt p receipt := by
        rw [Application.adopt, Application.adopt, hst.state, ha.receipts]
      have hadopt : Step R (u.note (.observed row)).view
          ((u.note (.observed row)).stored (u.state.adopt p receipt)
            fun before => [.adopted p before]) := by
        rw [hnext, System.note_view, hst.view, System.stored, System.note, hst.durable, hst.files,
          hst.events]
        exact Step.adopt hd hrow List.mem_cons_self rfl
      show Keeps R id _ s₀ ((save (u.state.adopt p receipt) (fun before => [.adopted p before])
        >>= fun _ => do
          assign fun _ => u.state.adopt p receipt
          writeJson
          pure (some receipt)) (u.note (.observed row)))
      refine .seq ?_ ?_
      · intro e v h
        obtain ⟨hm, hshut⟩ := save_moves (h₀.trans hobs) h (.single hadopt)
        exact ⟨hm, hshut.failed⟩
      intro _ v h
      obtain ⟨hview, -⟩ := save_ok h
      have hv : Along R t v := by
        rw [Along, hview]
        exact hobs.tail hadopt
      -- and is put in memory
      let w : System A P := { v with state := u.state.adopt p receipt }
      have hw : Settled R id w := settled_of_none (congrArg View.durable hview) rfl
      refine writeJson_seq (s := w) (h₀.trans hv) hw ?_
      intro x hx
      have hwx : Along R s₀ x := (h₀.trans hv).trans hx.along
      refine .after (.single hwx) (.ok ⟨hx.settled hw, ?_⟩)
      rintro ⟨q, row', hq, hr, hid⟩
      obtain rfl := Option.some.inj (hp.symm.trans hq)
      obtain rfl := Option.some.inj (hrow.symm.trans hr)
      refine ⟨receipt, rfl, ?_⟩
      have hxs : x.state = u.state.adopt p receipt := hx.state
      refine ⟨?_, ?_, hid.trans (hids p hp)⟩
      · rw [hxs, Application.adopt]
      · rw [hxs, Application.adopt]
        exact List.mem_append_right _ (List.mem_singleton_self _)

/-- An operation of which nothing was written down is dropped. -/
theorem clear_keeps {s₀ : System A P} {id : String} (h₀ : Along R s₀ s) (hs : Settled R id s)
    (hnone : s.persistenceUncertain = false → ∀ p, s.state.pending = some p →
      p.record = none ∧ s.files p.id = none) :
    Keeps R id (fun _ t => t.state.pending = none) s₀ ((clear : M A P Unit) s) := by
  let s₁ : System A P := { s with state := { s.state with pending := none } }
  show Keeps R id _ s₀ (save s₁.state (fun _ => []) s₁)
  cases hu : s.persistenceUncertain with
  -- a journal that may be wrong refuses to store
  | true =>
    obtain ⟨message, hsave⟩ : ∃ message, save s₁.state (fun _ => []) s₁
        = .error (.error message) s₁ := save_refused hu
    rw [hsave]
    have h₁ : Along R s₀ s₁ := h₀
    refine .after (.single h₁) (.error (.inr ?_))
    intro hu'
    rw [hu] at hu'
    cases hu'
  | false =>
    obtain ⟨ha, -⟩ := hs hu
    -- with nothing pending the store is a change of the owner, else it is the step that drops it
    have hst : ReflTransGen (Step R) s.view s₁.flushed := by
      cases hp : s.state.pending with
      | none =>
        have heq : s₁.state = s.state := by
          simp only [s₁, ← hp]
        rw [System.flushed, heq]
        exact ha.steps
      | some p =>
        obtain ⟨hrow, hfile⟩ := hnone hu p hp
        exact ha.steps.tail (Step.clear hp hrow hfile)
    refine .last ?_ ?_
    · intro e t h
      obtain ⟨hm, hshut⟩ := save_moves (s := s₁) h₀ h hst
      exact ⟨hm, hshut.failed⟩
    · intro _ t h
      obtain ⟨hview, hstate, -⟩ := save_ok h
      have hp : t.state.pending = none := by rw [hstate]
      refine ⟨.single (h₀.trans ?_), settled_of_none ?_ hp, hp⟩
      · rw [hview]
        exact hst
      · rw [hstate]
        exact congrArg View.durable hview

/-- What is in memory can be stored between two operations. -/
theorem saveState_keeps {s₀ : System A P} {id : String} (h₀ : Along R s₀ s)
    (hs : Settled R id s) :
    Keeps R id (fun _ t => t.state = s.state) s₀ ((saveState : M A P Unit) s) := by
  show Keeps R id _ s₀ (save s.state (fun _ => []) s)
  cases hu : s.persistenceUncertain with
  -- a journal that may be wrong refuses to store
  | true =>
    obtain ⟨message, hsave⟩ : ∃ message, save s.state (fun _ => []) s
        = .error (.error message) s := save_refused hu
    rw [hsave]
    exact .after (.single h₀) (.error (.inr hs))
  | false =>
    -- memory agrees with the store, so it can be stored as it is
    obtain ⟨ha, hids⟩ := hs hu
    have hst : ReflTransGen (Step R) s.view s.flushed := ha.steps
    refine .last ?_ ?_
    · intro e t h
      obtain ⟨hm, hshut⟩ := save_moves h₀ h hst
      exact ⟨hm, hshut.failed⟩
    · intro _ t h
      obtain ⟨hview, hstate, -⟩ := save_ok h
      refine ⟨.single (h₀.trans ?_), fun _ => ⟨?_, ?_⟩, hstate⟩
      · rw [hview]
        exact hst
      · rw [hstate, show t.durable = s.state from congrArg View.durable hview]
        exact .refl _
      · rw [hstate]
        exact hids

theorem existsBin_bind {id : String} {f : Bool → M A P α} :
    (existsBin id >>= f) s = f (s.files id).isSome s := rfl

/-- **A pending operation is recovered.** -/
theorem recoverPending_keeps {s₀ : System A P} {id : String} (h₀ : Along R s₀ s)
    (hs : Settled R id s) (hc : Consistent s.durable s.files) :
    Keeps R id (fun _ t => t.state.pending = none) s₀
      ((recoverPending : M A P (Option Receipt)) s) := by
  simp only [recoverPending]
  refine .seq ?_ ?_
  · intro e t h
    obtain ⟨rfl, -⟩ := assertJournalWritable_error h
    exact ⟨.single h₀, .inr hs⟩
  intro _ t h
  obtain ⟨rfl, hu⟩ := assertJournalWritable_ok h
  obtain ⟨ha, hids⟩ := hs hu
  rw [state_bind]
  cases hp : t.state.pending with
  | none => exact .after (.single h₀) (.ok ⟨hs, hp⟩)
  | some p =>
    obtain rfl := hids p hp
    simp only
    rw [existsBin_bind]
    by_cases hcond : (p.record.isNone && !(t.files p.id).isSome) = true
    · rw [if_pos hcond]
      rw [Bool.and_eq_true, Bool.not_eq_true', Option.isNone_iff_eq_none,
        Option.isSome_eq_false_iff, Option.isNone_iff_eq_none] at hcond
      refine .bind (clear_keeps h₀ hs ?_) fun _ u hu => .ok hu
      intro _ q hq
      obtain rfl := Option.some.inj (hp.symm.trans hq)
      exact hcond
    rw [if_neg hcond]
    -- in the end it is reconciled
    have hlast : ∀ u, Settled R p.id u → Recorded u →
        Keeps R p.id (fun _ v => v.state.pending = none) u
          ((reconcile : M A P (Option Receipt)) u) := by
      intro u hus hurec
      refine (reconcile_keeps .refl hus).mono ?_ fun _ _ h => h
      intro r v hv
      obtain ⟨receipt, -, hret⟩ := hv.2 hurec
      exact ⟨hv.1, hret.pending⟩
    cases hrow : p.record with
    | none =>
      simp only
      refine .seq ?_ ?_
      · intro e u h
        have hst := readBin_error h
        exact ⟨.single (h₀.trans hst.along), .inr (hst.settled hs)⟩
      intro tx u h
      obtain ⟨hst, hfile⟩ := readBin_ok h
      have hpu : u.state.pending = some p := hst.state ▸ hp
      have hau : Agrees R u.state u.durable := by
        rw [hst.state, hst.durable]
        exact ha
      have hu : Along R s₀ u := h₀.trans hst.along
      obtain ⟨q, hq, hrec⟩ := transactionRecord_cases tx hpu
      have haq : Agrees R { u.state with pending := some q } u.durable :=
        hau.readdress hpu hrow hq
      have h₁ : Along R s₀ (u.setPending q) := hu
      rcases hrec with ⟨message, hrec⟩ | ⟨row, hrec, htx, hprep⟩
      · rw [bind_of_error hrec]
        exact .after (.single h₁)
          (.error (.inr (Agrees.settled (s := u.setPending q) haq rfl hq.id_eq)))
      rw [bind_of_ok hrec]
      have hid : q.id = p.id := hq.id_eq
      rw [← hid] at hlast ⊢
      refine marked_keeps (s := u.setPending q) h₁ haq rfl (hq.record_eq.trans hrow) ?_ htx hprep
        hlast
      show u.files q.id = _
      rw [hid, hst.files, hfile]
    | some row =>
      simp only
      -- the stored operation is the same
      have hd : t.durable.pending = some p := by
        obtain ⟨q, hq, hl⟩ := ha.pending_some hp
        rw [hq, hl.eq_of_record hrow]
      obtain ⟨tx, hfile, htx⟩ := hc.row p row hd hrow
      by_cases hprep : row.disposition = .prepared
      · rw [if_pos hprep]
        refine .seq ?_ ?_
        · intro e u h
          have hst := readBin_error h
          exact ⟨.single (h₀.trans hst.along), .inr (hst.settled hs)⟩
        intro tx' u h
        obtain ⟨hst, hfile'⟩ := readBin_ok h
        obtain rfl : tx' = tx := by
          rw [hfile] at hfile'
          cases hfile'
          rfl
        have hflush : ReflTransGen (Step R) u.view u.flushed := by
          rw [hst.view, hst.flushed]
          exact ha.steps
        refine saveState_seq (h₀.trans hst.along) hflush ?_
        intro v hv hvs
        have hvp : v.state.pending = some p := by rw [hvs, hst.state, hp]
        have hvd : v.durable = v.state := by
          rw [hvs]
          exact congrArg View.durable hv
        have hv₀ : Along R s₀ v := by
          rw [Along, hv]
          exact (h₀.trans hst.along).trans hflush
        refine .bind (submitPrepared_keeps hv₀ hvd hvp hrow ?_ htx) fun _ w hw =>
          hlast w hw.1 hw.2
        rw [show v.files = u.files from congrArg View.files hv, hst.files, hfile]
      · rw [if_neg hprep]
        exact .after (.single h₀) (hlast t hs ⟨p, row, hp, hrow, htx.id⟩)

/-- The SDK writes down and sends the transaction of the operation. -/
theorem execute_keeps {s₀ : System A P} {p : Pending A} (h₀ : Along R s₀ s)
    (ha : Agrees R s.state s.durable) (hp : s.state.pending = some p) (hnone : p.record = none) :
    Keeps R p.id (fun _ => Recorded) s₀ ((execute : M A P Bool) s) := by
  have hs : Settled R p.id s := ha.settled hp rfl
  let s₁ : System A P := { s with world := { s.world with executions := s.world.executions.tail } }
  have h₁ : Still s s₁ := ⟨rfl, rfl, rfl, id⟩
  simp only [execute, get_bind, modify_bind]
  -- the SDK may fail before there is a transaction
  refine .seq ?_ ?_
  · intro e t h
    have hst := h₁.trans (ask_error h)
    exact ⟨.single (h₀.trans hst.along), .inr (hst.settled hs)⟩
  intro tx t h
  have hst := h₁.trans (ask_ok h)
  have hat : Agrees R t.state t.durable := by
    rw [hst.state, hst.durable]
    exact ha
  -- what it made is written down and sent
  refine .bind (journalAndSubmit_keeps tx (h₀.trans hst.along) hat (hst.state ▸ hp) hnone) ?_
  intro _ u hu
  -- and everything is stored when the SDK returns
  refine .last ?_ ?_
  · intro e v h
    have hv := ask_error h
    exact ⟨.single hv.along, .inr (hv.settled hu.1)⟩
  · intro b v h
    have hv := ask_ok h
    exact ⟨.single hv.along, hv.settled hu.1, hv.recorded hu.2⟩

theorem abandon_keeps {s₀ : System A P} {id message : String} (h₀ : Along R s₀ s)
    (hs : Settled R id s) :
    Keeps R id (fun _ _ => False) s₀ ((abandon id message : M A P (Option Receipt)) s) := by
  have hthrow : ∀ t, Settled R id t → Keeps R id (fun _ _ => False) t
      ((do throw (.error ((← get).world.sanitizeServiceError message)) :
        M A P (Option Receipt)) t) := fun t ht => .error (.inr ht)
  simp only [abandon]
  rw [state_bind, existsBin_bind]
  by_cases hcond : ((s.state.pending.bind (·.record)).isNone && !(s.files id).isSome) = true
  · rw [if_pos hcond]
    rw [Bool.and_eq_true, Bool.not_eq_true', Option.isNone_iff_eq_none,
      Option.isSome_eq_false_iff, Option.isNone_iff_eq_none] at hcond
    refine .bind (clear_keeps h₀ hs ?_) fun _ u hu => hthrow u hu.1
    intro hu p hp
    have hid := (hs hu).2 p hp
    rw [hp, Option.bind_some, ← hid] at hcond
    exact hcond
  · rw [if_neg hcond]
    exact .after (.single h₀) (hthrow s hs)

/-- Unless the store is uncertain, memory agrees with it. -/
def Sound (R : Rules A) (s : System A P) : Prop :=
  s.persistenceUncertain = false → Agrees R s.state s.durable

theorem Settled.sound {id : String} (h : Settled R id s) : Sound R s := fun hu => (h hu).1

theorem Still.sound (h : Still s t) (hs : Sound R s) : Sound R t := by
  intro hu
  rw [h.state, h.durable]
  exact hs (h.uncertain ▸ hu)

theorem Sound.settled (h : Sound R s) : ∃ id, Settled R id s := by
  cases hp : s.state.pending with
  | none => exact ⟨"", fun hu => ⟨h hu, fun q hq => (by rw [hp] at hq; cases hq)⟩⟩
  | some p => exact ⟨p.id, fun hu => (h hu).settled hp rfl hu⟩

/-- The process has ended, or the state is sound. -/
def Broken (R : Rules A) (e : Failure) (s : System A P) : Prop :=
  e = .crash ∧ s.running = false ∨ Sound R s

theorem Failed.broken {id : String} {e : Failure} (h : Failed R id e s) : Broken R e s :=
  h.imp_right Settled.sound

/-- A store that is a step, if it is made. -/
theorem save_runs {s₀ : System A P} {candidate : Application A}
    {note : Application A → List (Event A P)} (h₀ : Along R s₀ s)
    (hst : s.persistenceUncertain = false →
      ReflTransGen (Step R) s.view (s.stored candidate note)) :
    Runs (Along R) s₀ (save candidate note s)
      (fun _ t => t.durable = candidate ∧ t.state = s.state) Shut := by
  cases hu : s.persistenceUncertain with
  | true =>
    obtain ⟨message, hsave⟩ : ∃ message, save candidate note s
        = .error (.error message) s := save_refused hu
    rw [hsave]
    exact .after (.single h₀) (.error (.inr hu))
  | false =>
    refine .last ?_ ?_
    · intro e t h
      exact save_moves h₀ h (hst hu)
    · intro _ t h
      obtain ⟨hview, hstate, -⟩ := save_ok h
      refine ⟨.single (h₀.trans ?_), congrArg View.durable hview, hstate⟩
      rw [hview]
      exact hst hu

theorem Shut.broken {e : Failure} (h : Shut e s) : Broken R e s :=
  (h.failed : Failed R "" e s).broken

theorem recoverPending_runs {s₀ : System A P} (h₀ : Along R s₀ s) (hs : Sound R s)
    (hc : Consistent s.durable s.files) :
    Runs (Along R) s₀ ((recoverPending : M A P (Option Receipt)) s)
      (fun _ t => Sound R t ∧ t.state.pending = none) (Broken R) := by
  obtain ⟨id, hset⟩ := hs.settled
  exact (recoverPending_keeps h₀ hset hc).mono (fun _ _ h => ⟨h.1.sound, h.2⟩)
    fun _ _ h => h.broken

theorem saveState_runs {s₀ : System A P} (h₀ : Along R s₀ s) (hs : Sound R s) :
    Runs (Along R) s₀ ((saveState : M A P Unit) s)
      (fun _ t => Sound R t ∧ t.state = s.state) (Broken R) := by
  obtain ⟨id, hset⟩ := hs.settled
  exact (saveState_keeps h₀ hset).mono (fun _ _ h => ⟨h.1.sound, h.2⟩) fun _ _ h => h.broken

/-- **An operation is prepared, sent and adopted.** -/
theorem operation_runs {s₀ : System A P} {id : String} {kind : Kind} {name : String}
    {after : Owned A} (h₀ : Along R s₀ s) (hs : Sound R s)
    (hprep : s.state.pending = none → (∀ r ∈ s.state.receipts, r.record.id ≠ id) →
      R.prepares s.state id kind name after) :
    Runs (Along R) s₀ ((operation id kind name after : M A P (Option Receipt)) s)
      (fun r t => Sound R t ∧ ∃ receipt, r = some receipt ∧ Retained id receipt t)
      (Broken R) := by
  simp only [operation]
  refine .seq ?_ ?_
  · intro e t h
    obtain ⟨rfl, -⟩ := assertJournalWritable_error h
    exact ⟨.single h₀, .inr hs⟩
  intro _ t h
  obtain ⟨rfl, hu⟩ := assertJournalWritable_ok h
  have ha := hs hu
  by_cases hid : (!isOperationId id) = true
  · rw [if_pos hid]
    exact .after (.single h₀) (.error (.inr hs))
  rw [if_neg hid, state_bind]
  by_cases hp : t.state.pending.isSome = true
  · rw [if_pos hp]
    exact .after (.single h₀) (.error (.inr hs))
  rw [if_neg hp, state_bind]
  rw [Option.not_isSome_iff_eq_none] at hp
  cases hf : t.state.receipts.find? (·.record.id = id) with
  | some retained =>
    simp only
    have hmem := List.mem_of_find?_eq_some hf
    have hrid : retained.record.id = id := by
      have h := List.find?_some hf
      exact of_decide_eq_true h
    refine .seq ?_ ?_
    · intro e u h
      have hst := ask_error h
      exact ⟨.single (h₀.trans hst.along), .inr (hst.sound hs)⟩
    · intro _ u h
      have hst := ask_ok h
      refine .after (.single (h₀.trans hst.along)) (.ok ⟨hst.sound hs, retained, rfl, ?_, ?_, hrid⟩)
      · rw [hst.state, hp]
      · rw [hst.state]
        exact hmem
  | none =>
    simp only
    have hfresh : ∀ r ∈ t.state.receipts, r.record.id ≠ id := by
      intro r hr heq
      have h := List.find?_eq_none.mp hf r hr
      exact h (decide_eq_true heq)
    let p : Pending A := { id, kind, name, after, record := none, base := t.state.owned }
    -- the operation becomes durable
    have hst : ReflTransGen (Step R) t.view ((t.setPending p).stored (t.setPending p).state
        fun before => [.prepared p before.pending]) := by
      have hstep : Step R { t.view with durable := t.state } _ :=
        Step.prepare (p := p) hp (by simpa using hid) hfresh rfl rfl (hprep hp hfresh)
      refine ha.steps.tail ?_
      have hdp : t.durable.pending = t.state.pending := (ha.none_iff.mp hp).trans hp.symm
      rw [System.stored]
      show Step R _ ⟨_, _, [.prepared p t.durable.pending] ++ _⟩
      rw [hdp]
      exact hstep
    show Runs (Along R) s₀
      ((save (t.setPending p).state (fun before => [.prepared p before.pending]) >>= _)
        (t.setPending p)) _ _
    refine .seq ?_ ?_
    · intro e u h
      obtain ⟨hm, hshut⟩ := save_moves (s := t.setPending p) h₀ h hst
      exact ⟨hm, (hshut.failed : Failed R id e u).broken⟩
    intro _ u h
    obtain ⟨hview, hstate, -⟩ := save_ok h
    have hu₀ : Along R s₀ u := by
      rw [Along, hview]
      exact h₀.trans hst
    have hau : Agrees R u.state u.durable := by
      rw [hstate, show u.durable = (t.setPending p).state from congrArg View.durable hview]
      exact .refl _
    have hup : u.state.pending = some p := by
      rw [hstate]
      rfl
    -- whatever happens then, the wallet is stored at the end
    have hwallet : ∀ (v : System A P) (G : System A P → Prop), (∀ w, Still v w → G w) →
        Sound R v → Runs (Along R) v ((persistWallet : M A P Unit) v) (fun _ w => G w)
          (fun e w => Broken R e w ∧ G w) := by
      intro v G hG hv
      refine .last ?_ ?_
      · intro e w h
        have hst := ask_error h
        exact ⟨.single hst.along, .inr (hst.sound hv), hG w hst⟩
      · intro _ w h
        have hst := ask_ok h
        exact ⟨.single hst.along, hG w hst⟩
    refine .ensure (.rescue (F := Failed R id) ?_ ?_ ?_) ?_ ?_
    · refine .bind (execute_keeps hu₀ hau hup rfl) ?_
      intro b v hv
      by_cases hb : (!b) = true
      · rw [if_pos hb]
        exact .error (.inr hv.1)
      · rw [if_neg hb]
        refine (reconcile_keeps .refl hv.1).mono ?_ fun _ _ h => h
        intro r w hw
        exact ⟨hw.1.sound, hw.2 hv.2⟩
    · intro e v y hv hy
      cases e with
      | crash => cases hy
      | error message =>
        cases hy
        rcases hv with ⟨hv, -⟩ | hv
        · cases hv
        · refine (abandon_keeps .refl hv).mono ?_ fun _ _ h => h.broken
          intro r w hw
          exact hw.2.elim
    · intro e v hv _
      exact hv.broken
    · intro r v hv
      refine (hwallet v (fun w => Sound R w ∧ ∃ receipt, r = some receipt ∧ Retained id receipt w)
        ?_ hv.1).mono (fun _ _ h => h) fun _ _ h => h.1
      intro w hw
      obtain ⟨receipt, hr, hret⟩ := hv.2
      exact ⟨hw.sound hv.1, receipt, hr, hw.retained hret⟩
    · intro e v hv hne
      rcases hv with ⟨rfl, -⟩ | hv
      · simp at hne
      · refine (hwallet v (fun w => Broken R e w) ?_ hv).mono (fun _ _ h => h) fun _ _ h => h.1
        intro w hw
        exact .inr (hw.sound hv)

/-! ## Requests -/

/-- The owner keeps to its rules. -/
def Request.Obeys (R : Rules A) (s : System A P) : Request A → Prop
  | .operation id kind name after => s.state.pending = none →
      (∀ r ∈ s.state.receipts, r.record.id ≠ id) →
      R.prepares s.state id kind name (after s.state.owned)
  | .change f => ∀ d, Agrees R s.state d → R.changes d (f s.state.owned)
  | _ => True

/-- What is true of a process between two requests. -/
def Ready (R : Rules A) (s : System A P) : Prop := s.running = true → Sound R s

theorem Broken.ready {e : Failure} (h : Broken R e s) : Ready R s := by
  intro hr
  rcases h with ⟨-, h⟩ | h
  · rw [h] at hr
    cases hr
  · exact h

theorem serve_handle {request : Request A} (h : s.running = true ∨ request.isReopen = true) :
    serve request s = handle request s := by
  simp only [serve, get_bind]
  rw [if_neg]
  intro hc
  rw [Bool.and_eq_true, Bool.not_eq_true', Bool.not_eq_true'] at hc
  rcases h with h | h
  · rw [h] at hc
    cases hc.1
  · rw [h] at hc
    cases hc.2

theorem serve_ended {request : Request A} (h : s.running = false)
    (hr : request.isReopen = false) :
    (serve request : M A P (Option Receipt)) s = .error .crash s := by
  simp only [serve, get_bind, h, hr]
  rfl

/-- A run in the end, of which the result is forgotten. -/
theorem ready_of_runs {r : EStateM.Result Failure (System A P) (Option Receipt)}
    {Q : Option Receipt → System A P → Prop}
    (h : Runs (Along R) s r (fun a t => Sound R t ∧ Q a t) (Broken R)) :
    Along R s (final r) ∧ Ready R (final r) := by
  refine ⟨along_of_moves h.moves, ?_⟩
  cases hres : r with
  | ok a t => exact fun _ => (h.result a t hres).1
  | error e t => exact (h.failure e t hres).ready

/-- **What a process that runs does goes along the steps.** -/
theorem handle_runs {request : Request A} (hr : request.Obeys R s) (hs : Sound R s)
    (hc : Consistent s.durable s.files) :
    Along R s (final (handle request s)) ∧ Ready R (final (handle request s)) := by
  have hstart : Along R s s := .refl
  obtain ⟨id, hset⟩ := hs.settled
  cases request with
  | operation id kind name after => exact ready_of_runs (operation_runs hstart hs hr)
  | recoverPending =>
    exact ready_of_runs (recoverPending_runs hstart hs hc)
  | reconcile =>
    exact ready_of_runs ((reconcile_keeps hstart hset).mono
      (fun _ _ h => ⟨h.1.sound, h.2⟩) fun _ _ h => h.broken)
  | change f =>
    refine ⟨.refl, fun _ hu => ?_⟩
    have ha := hs hu
    exact ⟨ha.receipts, .inr (hr _ ha), ha.pending⟩
  | save =>
    refine ready_of_runs (Q := fun _ _ => True) (.bind (saveState_runs hstart hs) ?_)
    intro _ t h
    exact .ok ⟨h.1, trivial⟩
  | reopen => exact ⟨.refl, fun _ _ => .refl _⟩

/-- **A request goes along the steps.** -/
theorem serve_runs {request : Request A} (hr : request.Obeys R s) (hs : Ready R s)
    (hc : Consistent s.durable s.files) :
    Along R s (final (serve request s)) ∧ Ready R (final (serve request s)) := by
  cases hrun : s.running with
  | true =>
    rw [serve_handle (.inl hrun)]
    exact handle_runs hr (hs hrun) hc
  | false =>
    cases request with
    | reopen =>
      rw [serve_handle (.inr rfl)]
      exact ⟨.refl, fun _ _ => .refl _⟩
    | _ =>
      rw [serve_ended hrun rfl]
      exact ⟨.refl, hs⟩

end Line.Native
