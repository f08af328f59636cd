import Line.Finance.Journal

/-!
# What the private finance journal is for

A board: the last confirmed checkpoint, one operation at a stage of its way to the next, and the
operations that are done. A `Move` is what one publication may do to it, with the call that
it takes; it says nothing of revisions, fingerprints of checkpoints or the way a record is stored.

What every move keeps is `Carries`: a confirmed checkpoint is left only for one that follows from
it, an intent only for its own candidate, a candidate only for its confirmation, and a completion
never. An operation id is bound to the fingerprint of its candidate from the preparation on
(`Binds`), and a move keeps that too, since the completion has the fingerprint of the candidate.

`Consistent` is what holds of every record the journal publishes, field by field; it is the
invariant that the lemmas about the calls keep. `Consistent.opens` says that it is what the checks
of `open` look for, so a journal can always be opened on what it has stored.
-/

namespace Line.Finance

open Vault Durable

variable {δ : Type}

/-! ## The board -/

/-- How far the one unfinished operation is. -/
inductive Stage (δ : Type) where
  | free
  | intended (i : Intent δ)
  | prepared (p : Pending δ)
  | submitted (p : Pending δ) (s : Submission δ)

structure Board (δ : Type) where
  confirmed : Option Value
  stage : Stage δ
  completed : List (Completed δ)

def Record.stage (r : Record δ) : Stage δ :=
  match r.pending, r.submission, r.authorizationIntent with
  | some p, some s, _ => .submitted p s
  | some p, none, _ => .prepared p
  | none, _, some i => .intended i
  | none, _, none => .free

def Record.board (r : Record δ) : Board δ := ⟨r.confirmed, r.stage, r.completed⟩

/-- The operation is not among those that are done. -/
def Fresh (operationId : String) (completed : List (Completed δ)) : Prop :=
  ∀ c ∈ completed, c.operationId ≠ operationId

/-- A recorded step of the synthetic clock: nothing of the checkpoint but its clock, which was at
`start`, and its list of such steps is different. -/
structure ClockStep (start stop before after : Value) : Prop where
  clock : ((before.get "financial").get "unixSeconds").deepEqual start = true
  later : ∃ a b, start.safeNat = some a ∧ stop.safeNat = some b ∧ a < b
  after : ∃ history, ((before.get "financial").get "syntheticClockTransitions").orElse (.array [])
      = .array history ∧ after = ticked before start stop history

/-- What one publication may do. -/
inductive Move (platform : Platform) (owner : Owner) : Call → Board δ → Board δ → Prop
  | initialized {initial c completed} :
      owner.scope.networkId = "synthetic-preview" → checkpoint initial.1 = .ok c →
      Move platform owner (.initializeSynthetic initial) ⟨none, .free, completed⟩
        ⟨some c, .free, completed⟩
  | bootstrapped {transaction o c completed} :
      Finalized platform transaction (c.get "publicState") o →
      Move platform owner (.answered (.ok o)) ⟨none, .free, completed⟩ ⟨some c, .free, completed⟩
  | ticked {start stop before after completed} :
      owner.scope.networkId = "synthetic-preview" → ClockStep start.1 stop.1 before after →
      Move platform owner (.advanceSyntheticTime start stop) ⟨some before, .free, completed⟩
        ⟨some after, .free, completed⟩
  | intended {q i completed} : Fresh i.operationId completed →
      Move platform owner (.stageAuthorization q) ⟨some i.before, .free, completed⟩
        ⟨some i.before, .intended i, completed⟩
  | prepared {q p completed} : Fresh p.operationId completed →
      Move platform owner (.prepare q) ⟨some p.before, .free, completed⟩
        ⟨some p.before, .prepared p, completed⟩
  | followed {q i p completed} : Fresh p.operationId completed → i.operationId = p.operationId →
      Move platform owner (.prepare q) ⟨some p.before, .intended i, completed⟩
        ⟨some p.before, .prepared p, completed⟩
  | submitted {operationId transaction p s completed} : s.operationId = p.operationId →
      s.candidateFingerprint = p.fingerprint → transaction.1 = .bytes s.transaction →
      Move platform owner (.stageSubmission operationId transaction)
        ⟨some p.before, .prepared p, completed⟩ ⟨some p.before, .submitted p s, completed⟩
  | observed {operationId shown p c completed} :
      owner.scope.networkId = "synthetic-preview" → shown.1 = p.candidate.get "publicState" →
      c.operationId = p.operationId → c.fingerprint = p.fingerprint →
      Move platform owner (.confirm operationId shown) ⟨some p.before, .prepared p, completed⟩
        ⟨some p.candidate, .free, completed ++ [c]⟩
  | finalized {o p s c completed} : s.candidateFingerprint = p.fingerprint →
      Finalized platform s.transaction (p.candidate.get "publicState") o →
      c.operationId = p.operationId → c.fingerprint = p.fingerprint →
      Move platform owner (.answered (.ok o)) ⟨some p.before, .submitted p s, completed⟩
        ⟨some p.candidate, .free, completed ++ [c]⟩

/-- The candidate that is on its way. -/
def Stage.candidate : Stage δ → Option (Pending δ)
  | .prepared p | .submitted p _ => some p
  | .free | .intended _ => none

/-- The operation of this id has a candidate, or had one, and it is this. -/
def Board.Binds (b : Board δ) (operationId : String) (fingerprint : δ) : Prop :=
  (∃ p, b.stage.candidate = some p ∧ p.operationId = operationId ∧ p.fingerprint = fingerprint) ∨
    ∃ c ∈ b.completed, c.operationId = operationId ∧ c.fingerprint = fingerprint

/-- What a publication keeps. -/
structure Carries (old new : Board δ) : Prop where
  /-- A checkpoint is followed by a step of its clock, or by a candidate that was made from it. -/
  chain : ∀ c, new.confirmed = some c → old.confirmed = some c ∨ old.confirmed = none ∨
    (∃ start stop before, old.confirmed = some before ∧ ClockStep start stop before c) ∨
    ∃ p, old.stage.candidate = some p ∧ old.confirmed = some p.before ∧ c = p.candidate
  /-- A checkpoint is never lost. -/
  retained : old.confirmed.isSome → new.confirmed.isSome
  /-- An intent is kept, or becomes the candidate of the same operation. -/
  intent : ∀ i, old.stage = .intended i →
    new.stage = .intended i ∨ ∃ p, new.stage = .prepared p ∧ p.operationId = i.operationId
  /-- A candidate is kept, or is confirmed. -/
  candidate : ∀ p, old.stage.candidate = some p → new.stage.candidate = some p ∨
    (new.confirmed = some p.candidate ∧ new.Binds p.operationId p.fingerprint)
  /-- What is done stays done. -/
  completed : old.completed <+: new.completed

theorem Move.carries {platform : Platform} {owner : Owner} {c : Call} {old new : Board δ}
    (h : Move platform owner c old new) : Carries old new := by
  cases h with
  -- the first checkpoint: there was nothing to carry
  | initialized _ _ | bootstrapped _ =>
      refine ⟨fun _ _ => .inr (.inl rfl), fun h => (by cases h), fun i hi => (by cases hi),
        fun p hp => (by cases hp), List.prefix_refl _⟩
  | ticked _ hstep =>
      refine ⟨?_, fun _ => rfl, fun i hi => (by cases hi), fun p hp => (by cases hp),
        List.prefix_refl _⟩
      rintro _ ⟨⟩
      exact .inr (.inr (.inl ⟨_, _, _, rfl, hstep⟩))
  | intended _ | prepared _ =>
      exact ⟨fun _ hc => .inl hc, id, fun i hi => (by cases hi), fun p hp => (by cases hp),
        List.prefix_refl _⟩
  -- the intent is left for the candidate of its own operation
  | followed _ hid =>
      refine ⟨fun _ hc => .inl hc, id, ?_, fun p hp => (by cases hp), List.prefix_refl _⟩
      rintro i ⟨⟩
      exact .inr ⟨_, rfl, hid.symm⟩
  | submitted _ _ _ =>
      refine ⟨fun _ hc => .inl hc, id, fun i hi => (by cases hi), ?_, List.prefix_refl _⟩
      rintro p ⟨⟩
      exact .inl rfl
  -- the candidate is the new checkpoint, and its completion is kept
  | observed _ _ hid hfp =>
      refine ⟨?_, fun _ => rfl, fun i hi => (by cases hi), ?_, List.prefix_append _ _⟩
      · rintro c ⟨⟩
        exact .inr (.inr (.inr ⟨_, rfl, rfl, rfl⟩))
      · rintro p ⟨⟩
        exact .inr ⟨rfl, .inr ⟨_, List.mem_append_right _ (List.mem_singleton_self _), hid, hfp⟩⟩
  | finalized _ _ hid hfp =>
      refine ⟨?_, fun _ => rfl, fun i hi => (by cases hi), ?_, List.prefix_append _ _⟩
      · rintro c ⟨⟩
        exact .inr (.inr (.inr ⟨_, rfl, rfl, rfl⟩))
      · rintro p ⟨⟩
        exact .inr ⟨rfl, .inr ⟨_, List.mem_append_right _ (List.mem_singleton_self _), hid, hfp⟩⟩

/-- A binding outlives every publication. -/
theorem Carries.binds {old new : Board δ} {id : String} {d : δ} (h : Carries old new)
    (hb : old.Binds id d) : new.Binds id d := by
  rcases hb with ⟨p, hp, rfl, rfl⟩ | ⟨c, hc, rfl, rfl⟩
  · rcases h.candidate p hp with hp' | ⟨-, hb⟩
    · exact .inl ⟨p, hp', rfl, rfl⟩
    · exact hb
  · exact .inr ⟨c, h.completed.subset hc, rfl, rfl⟩

/-! ## Records of a journal -/

theorem Fresh.all {id : String} {completed : List (Completed δ)} (h : Fresh id completed) :
    (completed.all fun c => c.operationId != id) = true := by
  rw [List.all_eq_true]
  intro c hc
  exact bne_iff_ne.mpr (h c hc)

theorem fresh_of_all {id : String} {completed : List (Completed δ)}
    (h : (completed.all fun c => c.operationId != id) = true) : Fresh id completed := by
  intro c hc
  rw [List.all_eq_true] at h
  exact bne_iff_ne.mp (h c hc)

variable [DecidableEq δ]

/-- The owner's scope and network confirmation are accepted. -/
structure Owner.Admitted (owner : Owner) (platform : Platform) (sha : Sha256 δ) : Prop where
  scope : normalize owner.scope = .ok owner.scope
  network : authorityOf platform sha owner.scope owner.networkConfirmation =
    .ok (owner.network platform sha)

/-- What the network lane adds to a record. -/
def Backed (network : Option (Authority δ)) (r : Record δ) : Prop :=
  match network with
  | some _ => (∀ c, r.confirmed = some c →
        ∃ receipt, r.bootstrap = some receipt ∧ receipt.networkFinalityVerified = true) ∧
      ∀ c ∈ r.completed, ∃ receipt, c.receipt = some receipt ∧
        receipt.networkFinalityVerified = true
  | none => r.submission = none ∧ r.bootstrap = none

/-- The records that the journal of an owner publishes. -/
structure Consistent (platform : Platform) (sha : Sha256 δ) (owner : Owner) (r : Record δ) :
    Prop where
  admitted : owner.Admitted platform sha
  schema : r.schema = SCHEMA
  scope : r.scope = owner.scope
  policy : r.networkPolicy = (owner.network platform sha).map Authority.policy
  revision : r.revision ≤ Number.maxSafe
  room : r.completed.length ≤ 256
  nodup : (r.completed.map Completed.operationId).Nodup
  confirmed : ∀ c, r.confirmed = some c → c.Proper ∧ checkpoint c = .ok c
  intent : ∀ i, r.authorizationIntent = some i → authorizationIntent sha i = .ok () ∧
    r.pending = none ∧ r.confirmed = some i.before ∧ Fresh i.operationId r.completed
  pending : ∀ p, r.pending = some p → fp sha p.toOperation.value = .ok p.fingerprint ∧
    r.confirmed = some p.before ∧ (p.candidate.Proper ∧ checkpoint p.candidate = .ok p.candidate) ∧
    Fresh p.operationId r.completed ∧ r.completed.length < 256
  submission : ∀ s, r.submission = some s → ∃ p, r.pending = some p ∧
    networkSubmission platform sha owner.scope p.operationId p.circuit (.bytes s.transaction)
      p.fingerprint = .ok s
  backed : Backed (owner.network platform sha) r

/-! ## Opening a consistent record -/

variable {platform : Platform} {sha : Sha256 δ} {owner : Owner} {r : Record δ}

@[simp] theorem assert_true (message : String) : assert true message = .ok () := rfl

theorem ok_bind {α β : Type} (a : α) (f : α → Result β) : (Except.ok a >>= f) = f a := rfl

/-- A checkpoint has the fingerprint that it has. -/
theorem sameFp_self {v w : Value} {message : String} (h : clone v = .ok w) :
    sameFp sha v v message = .ok () := by
  obtain ⟨d, hd⟩ : ∃ d, fp sha v = .ok d := fp_of_clone h
  simp [sameFp, hd, bind, Except.bind]

theorem sameFp_inj (hsha : Function.Injective sha.text) {a b : Value} {message : String} {u : Unit}
    (ha : a.Proper) (hb : b.Proper) (h : sameFp sha a b message = .ok u) : a = b := by
  simp only [sameFp, Checked.bind_ok_iff, assert_ok_iff, decide_eq_true_eq] at h
  obtain ⟨x, hx, y, hy, rfl⟩ := h
  exact fp_inj hsha ha hb hx hy

omit [DecidableEq δ] in
theorem validateConfirmed_ok (h : ∀ c, r.confirmed = some c → checkpoint c = .ok c) :
    validateConfirmed r = .ok () := by
  rw [validateConfirmed]
  cases hc : r.confirmed with
  | none => rfl
  | some c =>
      simp only [h c hc]
      rfl

/-- What is stored beside a checkpoint has the fingerprint of that checkpoint. -/
theorem sameFp_confirmed {v : Value} (hv : r.confirmed = some v)
    (h : ∀ c, r.confirmed = some c → checkpoint c = .ok c) :
    sameFp sha v r.confirmedValue = .ok () := by
  have hvalue : r.confirmedValue = v := by rw [Record.confirmedValue, hv, Option.getD_some]
  rw [hvalue]
  exact sameFp_self (checkpoint_clone (h v hv))

theorem Consistent.validateIntent (h : Consistent platform sha owner r) :
    validateIntent sha r = .ok () := by
  rw [Finance.validateIntent]
  cases hi : r.authorizationIntent with
  | none => rfl
  | some i =>
      obtain ⟨hvalid, hpending, hbefore, hfresh⟩ := h.intent i hi
      have hself : sameFp sha i.before r.confirmedValue = .ok () :=
        sameFp_confirmed hbefore fun c hc => (h.confirmed c hc).2
      simp only [hvalid, hpending, hself, hfresh.all]
      rfl

theorem Consistent.validatePending (h : Consistent platform sha owner r) :
    validatePending sha r = .ok () := by
  rw [Finance.validatePending]
  cases hp : r.pending with
  | none => rfl
  | some p =>
      obtain ⟨hfp, hbefore, ⟨-, hcandidate⟩, -, -⟩ := h.pending p hp
      have hself : sameFp sha p.before r.confirmedValue = .ok () :=
        sameFp_confirmed hbefore fun c hc => (h.confirmed c hc).2
      simp only [hfp, hself, hcandidate, ok_bind, decide_true, assert_true]
      rfl

theorem Consistent.validateSubmission (h : Consistent platform sha owner r) :
    validateSubmission platform sha owner.scope r = .ok () := by
  rw [Finance.validateSubmission]
  cases hs : r.submission with
  | none => rfl
  | some s =>
      obtain ⟨p, hp, hagain⟩ := h.submission s hs
      obtain ⟨hid, hcandidate, -⟩ := networkSubmission_ok hagain
      simp only [hp, hid, hcandidate, hagain, ok_bind, beq_self_eq_true, decide_true,
        Bool.and_self, assert_true]

theorem Consistent.validateNetwork (h : Consistent platform sha owner r) :
    validateNetwork platform sha owner.scope (owner.network platform sha) r = .ok () := by
  have hbacked := h.backed
  have hpolicy := h.policy
  unfold Finance.validateNetwork
  cases hn : owner.network platform sha with
  -- without a network there is nothing to hold against it
  | none =>
      rw [hn] at hbacked hpolicy
      obtain ⟨hsubmission, hbootstrap⟩ := hbacked
      simp only [hsubmission, hbootstrap, hpolicy]
      rfl
  | some authority =>
      rw [hn] at hbacked hpolicy
      obtain ⟨hbootstrap, hreceipts⟩ := hbacked
      -- a checkpoint came with a receipt, and so did every completion
      have hfirst : (r.confirmed.isNone ||
          (r.bootstrap.map Receipt.networkFinalityVerified).getD false) = true := by
        cases hc : r.confirmed with
        | none => rfl
        | some c =>
            obtain ⟨receipt, hreceipt, hverified⟩ := hbootstrap c hc
            rw [hreceipt]
            exact hverified
      have hall : (r.completed.all fun c =>
          (c.receipt.map Receipt.networkFinalityVerified).getD false) = true := by
        rw [List.all_eq_true]
        intro c hc
        obtain ⟨receipt, hreceipt, hverified⟩ := hreceipts c hc
        rw [hreceipt]
        exact hverified
      simp only [hpolicy, hfirst, hall, h.validateSubmission]
      simp [bind, Except.bind]

theorem Consistent.validate (h : Consistent platform sha owner r) :
    validate platform sha owner.scope (owner.network platform sha) r = .ok () := by
  have hconfirmed := validateConfirmed_ok fun c hc => (h.confirmed c hc).2
  simp only [Finance.validate, h.schema, h.scope, h.revision, h.room, h.nodup, hconfirmed,
    h.validateIntent, h.validatePending, h.validateNetwork, decide_true, assert_true]
  rfl

/-- **Every consistent record is accepted by `open`.** -/
theorem Consistent.opens (h : Consistent platform sha owner r) :
    openJournal platform sha owner.scope owner.networkConfirmation false [r] = .ok r := by
  simp only [openJournal, h.admitted.scope, h.admitted.network, bind, Except.bind]
  simp [h.validate, pure, Except.pure]

/-- A new record is consistent. -/
theorem consistent_initial (h : owner.Admitted platform sha) :
    Consistent platform sha owner (initialRecord owner.scope (owner.network platform sha)) where
  admitted := h
  schema := rfl
  scope := rfl
  policy := rfl
  revision := Nat.zero_le _
  room := Nat.zero_le _
  nodup := List.nodup_nil
  confirmed := by
    intro c hc
    cases hc
  intent := by
    intro i hi
    cases hi
  pending := by
    intro p hp
    cases hp
  submission := by
    intro s hs
    cases hs
  backed := by
    unfold Backed
    split
    · refine ⟨fun c hc => ?_, fun c hc => ?_⟩
      · cases hc
      · cases hc
    · exact ⟨rfl, rfl⟩

/-- A journal is created only for an owner whose scope and confirmation are accepted. -/
theorem admitted_of_open {create : Bool} {entries : List (Record δ)}
    (h : openJournal platform sha owner.scope owner.networkConfirmation create entries = .ok r) :
    owner.Admitted platform sha := by
  simp only [openJournal, Checked.bind_ok_iff] at h
  obtain ⟨selected, hselected, network, hnetwork, -⟩ := h
  have heq : selected = owner.scope := by
    simp only [normalize, Checked.bind_ok_iff, Checked.pure_ok_iff] at hselected
    obtain ⟨_, -, _, -, rfl⟩ := hselected
    rfl
  subst heq
  refine ⟨hselected, ?_⟩
  rw [Owner.network, hnetwork]

/-! ## Bindings of a consistent record -/

omit [DecidableEq δ] in
theorem candidate_stage : r.stage.candidate = r.pending := by
  rw [Record.stage]
  cases hp : r.pending with
  | none => cases hi : r.authorizationIntent <;> rfl
  | some p => cases hs : r.submission <;> rfl

/-- A record binds an operation to one candidate only. -/
theorem Consistent.binds_unique {id : String} {d d' : δ} (h : Consistent platform sha owner r)
    (hb : r.board.Binds id d) (hb' : r.board.Binds id d') : d = d' := by
  -- a candidate's operation is not among those that are done
  have hfresh : ∀ p, r.stage.candidate = some p → ∀ c ∈ r.completed,
      c.operationId ≠ p.operationId := by
    intro p hp
    rw [candidate_stage] at hp
    exact (h.pending p hp).2.2.2.1
  rcases hb with ⟨p, hp, rfl, rfl⟩ | ⟨c, hc, rfl, rfl⟩
  · rcases hb' with ⟨p', hp', -, rfl⟩ | ⟨c', hc', hid, -⟩
    · rw [hp] at hp'
      cases hp'
      rfl
    · exact absurd hid (hfresh p hp c' hc')
  · rcases hb' with ⟨p', hp', hid, -⟩ | ⟨c', hc', hid, rfl⟩
    · exact absurd hid.symm (hfresh p' hp' c hc)
    · have hsame := List.inj_on_of_nodup_map h.nodup hc hc' hid.symm
      rw [hsame]

end Line.Finance
