import Line.Lib.Stateful
import Line.Journal.Valid

/-!
# What a method can do

Every method that writes changes the journal in one of two ways: `prepare` adds an
operation, and the others move one operation along its life cycle (`Transition`). What a
successful call wrote, and that a failed one left the store alone, is read off `perform`
once here (`perform_ok`, `perform_error`); the invariants of the journal follow from
that, and nothing unfolds a method again.

The reading goes in the source's order. A method's update of one operation is first a
`Transition`, one per method, that names the status it starts from and the fields it
sets. `change_writes` lifts that to the record: the rest of the list is as it was. And
`Performs` lifts it to a call, with the two answers that write nothing besides: a read,
and a `prepare` whose intent is already in the journal.
-/

namespace Line.Journal

open Vault Checked

/-! ## The life cycle of an operation -/

/-- An id is kept once it is recorded; a new one has been checked. -/
def Attached (recorded new : Option String) : Prop :=
  new = recorded ∨ recorded = none ∧ ∃ t, new = some t ∧ identifier 256 t = true

/-- A receipt is kept once it is recorded; a new one has been checked. -/
def Received (recorded new : Option Value) : Prop :=
  new = recorded ∨ recorded = none ∧ ∃ r, new = some r ∧ Receipt r

/-- What a call makes of the operation it names. -/
inductive Transition (submitted : List String) (op : JournalOperation) :
    Call → JournalOperation → Prop
  | submit {v : Value} {t : Option String} :
      op.status = .prepared ∨ op.status = .submitting ∧ op.id ∈ submitted →
      Attached op.transactionId t →
      Transition submitted op (.markSubmitting op.id v)
        { op with status := .submitting, transactionId := t }
  | doubt : op.status = .submitting ∨ op.status = .uncertain →
      Transition submitted op (.markUncertain op.id) { op with status := .uncertain }
  | confirm {evidence : JournalConfirmationEvidence} {t : Option String} {r : Option Value} :
      op.status = .submitting ∨ op.status = .uncertain ∨ op.status = .confirmed →
      Attached op.transactionId t → Received op.receipt r →
      Transition submitted op (.confirm op.id evidence)
        { op with status := .confirmed, transactionId := t, receipt := r }
  | reject {evidence : JournalRejectionEvidence} {t : Option String} :
      op.status = .submitting ∨ op.status = .uncertain → Attached op.transactionId t →
      Transition submitted op (.reject op.id evidence)
        { op with status := .rejected, transactionId := t }
  | abandon : op.status = .prepared →
      Transition submitted op (.abandonPrepared op.id) { op with status := .rejected }
  | acknowledge : op.status = .confirmed →
      Transition submitted op (.acknowledgeConfirmed op.id) { op with acknowledged := true }

theorem identifier_of_validTx {value : Value} (h : validTx value = true) :
    ∃ t, value = .string t ∧ identifier 256 t = true := by
  unfold validTx at h
  split at h
  · exact ⟨_, rfl, h⟩
  · cases h

/-- What `attach` records. -/
theorem attach_ok {op op' : JournalOperation} {value : Value} {message : String}
    (h : attach op value message = .ok op') :
    ∃ t, Attached op.transactionId t ∧ op' = { op with transactionId := t } := by
  unfold attach at h
  split at h
  · cases h
    exact ⟨_, .inl rfl, rfl⟩
  · simp only [bind_ok_iff, require_ok_iff, exists_const, pure_ok_iff, Bool.and_eq_true] at h
    obtain ⟨⟨hv, hd⟩, rfl⟩ := h
    obtain ⟨t, rfl, ht⟩ := identifier_of_validTx hv
    refine ⟨some t, ?_, rfl⟩
    cases htx : op.transactionId with
    | none => exact .inr ⟨rfl, t, rfl, ht⟩
    | some s =>
        left
        have heq : t = s := by simpa [differs, htx, Value.isText] using hd
        rw [heq]

theorem markSubmitting_ok {submitted : List String} {v : Value} {op op' : JournalOperation}
    (h : markSubmitting submitted v op = .ok op') :
    Transition submitted op (.markSubmitting op.id v) op' := by
  simp only [markSubmitting, bind_ok_iff, require_ok_iff, exists_const, pure_ok_iff] at h
  obtain ⟨hst, hlease, op₁, hatt, rfl⟩ := h
  obtain ⟨t, ht, rfl⟩ := attach_ok hatt
  refine .submit ?_ ht
  rw [Bool.or_eq_true, beq_iff_eq, beq_iff_eq] at hst
  rcases hst with hp | hs
  · exact .inl hp
  · exact .inr ⟨hs, by simpa [hs] using hlease⟩

theorem markUncertain_ok {submitted : List String} {op op' : JournalOperation}
    (h : markUncertain op = .ok op') : Transition submitted op (.markUncertain op.id) op' := by
  simp only [markUncertain, bind_ok_iff, require_ok_iff, exists_const, pure_ok_iff,
    Bool.or_eq_true, beq_iff_eq] at h
  obtain ⟨hst, rfl⟩ := h
  exact .doubt hst

theorem eq_undefined {v : Value} (h : v.isUndefined = true) : v = .undefined := by
  unfold Value.isUndefined at h
  split at h
  · rfl
  · cases h

/-- The transaction that a checked receipt names. -/
theorem receiptTransaction_valid {r : Value} (h : Receipt r) :
    ∃ t, receiptTransaction r = some t ∧ identifier 256 t = true := by
  obtain ⟨-, hr⟩ := h
  simp only [normalizeReceipt, bind_ok_iff, require_ok_iff, exists_const, Bool.and_eq_true,
    Bool.or_eq_true] at hr
  obtain ⟨⟨⟨⟨⟨-, hhash⟩, hid⟩, hsome⟩, -⟩, -⟩ := hr.1
  unfold receiptTransaction
  rcases hid with hnone | htx
  · rw [eq_undefined hnone] at hsome ⊢
    rcases hhash with hnone' | htx
    · rw [eq_undefined hnone'] at hsome
      rcases hsome with h | h <;> cases h
    · obtain ⟨t, ht, hval⟩ := identifier_of_validTx htx
      rw [ht]
      exact ⟨t, rfl, hval⟩
  · obtain ⟨t, ht, hval⟩ := identifier_of_validTx htx
    rw [ht]
    exact ⟨t, rfl, hval⟩

/-- A receipt is recorded once; the transaction too. -/
theorem definiteReceipt_ok {receipt : Data} {op op' : JournalOperation} (hop : op.Valid)
    (h : definiteReceipt receipt.val op = .ok op') : ∃ t r, Attached op.transactionId t ∧
      Received op.receipt (some r) ∧ Receipt r ∧
      op' = { op with transactionId := t, receipt := some r } := by
  simp only [definiteReceipt, bind_ok_iff, require_ok_iff, exists_const, pure_ok_iff] at h
  obtain ⟨-, r, hr, -, same, hsame, rfl, rfl⟩ := h
  obtain ⟨rfl, hrec⟩ := receipt_of_ok receipt.property hr
  obtain ⟨t, ht, hval⟩ := receiptTransaction_valid hrec
  refine ⟨_, _, ?_, ?_, hrec, rfl⟩
  · cases htx : op.transactionId with
    | none => exact .inr ⟨rfl, t, by simpa using ht, hval⟩
    | some s => exact .inl rfl
  · cases hold : op.receipt with
    | none => exact .inr ⟨rfl, _, rfl, hrec⟩
    | some recorded =>
        rw [hold] at hsame
        rw [eq_of_sameText (hop.receipt recorded hold).1 receipt.property hsame]
        exact .inl rfl

/-- Evidence leaves an operation as it is, or adds the transaction and receipt it shows. -/
theorem establish_ok {kind : Confirmation} {op op' : JournalOperation} (hop : op.Valid)
    (h : establish kind op = .ok op') : ∃ t r, Attached op.transactionId t ∧
      Received op.receipt r ∧ op' = { op with transactionId := t, receipt := r } := by
  cases kind with
  | observedCandidate lineCommitment =>
      simp only [establish, bind_ok_iff, pure_ok_iff] at h
      obtain ⟨-, -, rfl⟩ := h
      exact ⟨_, _, .inl rfl, .inl rfl, rfl⟩
  | observedEffect effect =>
      simp only [establish, bind_ok_iff, pure_ok_iff] at h
      obtain ⟨-, -, rfl⟩ := h
      exact ⟨_, _, .inl rfl, .inl rfl, rfl⟩
  | other => cases h
  | definiteReceipt receipt =>
      obtain ⟨t, r, ht, hr, -, rfl⟩ := definiteReceipt_ok hop h
      exact ⟨t, some r, ht, hr, rfl⟩

theorem confirm_ok {submitted : List String} {scope : Scope}
    {evidence : JournalConfirmationEvidence} {op op' : JournalOperation} (hop : op.Valid)
    (h : confirm scope evidence op = .ok op') :
    Transition submitted op (.confirm op.id evidence) op' := by
  simp only [confirm, bind_ok_iff, require_ok_iff, exists_const, pure_ok_iff, Bool.or_eq_true,
    beq_iff_eq, or_assoc] at h
  obtain ⟨_, -, hst, op₁, hest, op₂, hatt, rfl⟩ := h
  obtain ⟨t, r, ht, hr, rfl⟩ := establish_ok hop hest
  obtain ⟨t', ht', rfl⟩ := attach_ok hatt
  refine .confirm hst ?_ hr
  -- what the evidence adds is no other id than what the receipt added
  rcases ht' with rfl | ⟨rfl, new⟩
  · exact ht
  · rcases ht with heq | ⟨hnone, -⟩
    · exact .inr ⟨heq.symm, new⟩
    · exact .inr ⟨hnone, new⟩

theorem reject_ok {submitted : List String} {scope : Scope} {evidence : JournalRejectionEvidence}
    {op op' : JournalOperation} (h : reject scope evidence op = .ok op') :
    Transition submitted op (.reject op.id evidence) op' := by
  simp only [reject, bind_ok_iff, require_ok_iff, exists_const, pure_ok_iff] at h
  obtain ⟨_, -, -, _, -, -, hst, op₁, hatt, rfl⟩ := h
  obtain ⟨t, ht, rfl⟩ := attach_ok hatt
  rw [Bool.or_eq_true, beq_iff_eq, beq_iff_eq] at hst
  exact .reject hst ht

theorem abandonPrepared_ok {submitted : List String} {op op' : JournalOperation}
    (h : abandonPrepared op = .ok op') : Transition submitted op (.abandonPrepared op.id) op' := by
  simp only [abandonPrepared, bind_ok_iff, require_ok_iff, exists_const, pure_ok_iff,
    beq_iff_eq] at h
  obtain ⟨hst, rfl⟩ := h
  exact .abandon hst

theorem acknowledgeConfirmed_ok {submitted : List String} {op op' : JournalOperation}
    (h : acknowledgeConfirmed op = .ok op') :
    Transition submitted op (.acknowledgeConfirmed op.id) op' := by
  simp only [acknowledgeConfirmed, bind_ok_iff, require_ok_iff, exists_const, pure_ok_iff,
    beq_iff_eq] at h
  obtain ⟨hst, rfl⟩ := h
  exact .acknowledge hst

/-! ## What is written -/

/-- What a successful call proposes to write over a journal. -/
inductive Writes (submitted : List String) (now : Time) (record : OperationJournalRecord) :
    Call → OperationJournalRecord → String → Prop
  | prepare {input : Data} {p : PreparedOperation} :
      normalizePrepared input.val = .ok p → (∀ op ∈ record.operations, op.id ≠ p.id) →
      (∀ op ∈ record.operations, op.pending = false) → record.revision ≠ Number.maxSafe →
      record.operations.length < MAX_JOURNAL_OPERATIONS →
      Writes submitted now record (.prepare input)
        (record.push (p.operation (record.revision + 1) now)) p.id
  | move {c : Call} {op op' : JournalOperation} :
      op ∈ record.operations → Transition submitted op c op' →
      record.revision ≠ Number.maxSafe →
      Writes submitted now record c (record.replace op.id (op'.touch now)) op.id

theorem amend_next {now : Time} {record : OperationJournalRecord} {id : String}
    {update : JournalOperation → Result JournalOperation} {proposal : Proposal}
    (h : amend id update now record = .ok proposal) : ∃ next, proposal = .next next id := by
  unfold amend at h
  split at h
  · cases h
  · simp only [bind_ok_iff, require_ok_iff, exists_const, pure_ok_iff] at h
    obtain ⟨op', -, -, rfl⟩ := h
    exact ⟨_, rfl⟩

theorem amend_writes {submitted : List String} {now : Time} {record next : OperationJournalRecord}
    {c : Call} {id id' : String} {update : JournalOperation → Result JournalOperation}
    (h : (amend id update now record).map some = .ok (some (.next next id')))
    (hup : ∀ op op', op ∈ record.operations → op.id = id → update op = .ok op' →
      Transition submitted op c op') :
    Writes submitted now record c next id' := by
  obtain ⟨proposal, h, heq⟩ := map_ok_iff.mp h
  cases heq
  unfold amend at h
  split at h
  · cases h
  · next op hfind =>
      have hmem := List.mem_of_find?_eq_some hfind
      have hid : op.id = id := by simpa using List.find?_some hfind
      simp only [bind_ok_iff, require_ok_iff, exists_const, pure_ok_iff, decide_eq_true_eq] at h
      obtain ⟨op', hop', hrev, heq⟩ := h
      cases heq
      subst hid
      exact .move hmem (hup op op' hmem rfl hop') hrev

/-- What `prepareIn` does with an intent. -/
theorem prepareIn_ok {now : Time} {record : OperationJournalRecord} {p : PreparedOperation}
    {proposal : Proposal} (h : prepareIn p now record = .ok proposal) :
    (∃ op ∈ record.operations, op.id = p.id ∧ proposal = .existing op) ∨
      (∀ op ∈ record.operations, op.id ≠ p.id) ∧ (∀ op ∈ record.operations, op.pending = false)
        ∧ record.revision ≠ Number.maxSafe ∧ record.operations.length < MAX_JOURNAL_OPERATIONS
        ∧ proposal = .next (record.push (p.operation (record.revision + 1) now)) p.id := by
  unfold prepareIn at h
  split at h
  · next op hfind =>
      simp only [bind_ok_iff, require_ok_iff, exists_const, pure_ok_iff] at h
      obtain ⟨same, -, -, rfl⟩ := h
      exact .inl ⟨op, List.mem_of_find?_eq_some hfind, by simpa using List.find?_some hfind, rfl⟩
  · next hnone =>
      simp only [bind_ok_iff, require_ok_iff, exists_const, pure_ok_iff, decide_eq_true_eq,
        Bool.not_eq_true', List.any_eq_false, Bool.not_eq_true] at h
      obtain ⟨hpend, ⟨hrev, hlen⟩, rfl⟩ := h
      refine .inr ⟨fun op hop heq => ?_, hpend, hrev, hlen, rfl⟩
      have := List.find?_eq_none.mp hnone op hop
      simp [heq] at this

/-- **What the calls propose**: a new operation, or a transition of one. -/
theorem change_writes {scope : Scope} {submitted : List String} {now : Time} {c : Call}
    {record next : OperationJournalRecord} {id : String}
    (hv : ∀ op ∈ record.operations, op.Valid)
    (h : change scope submitted now record c = .ok (some (.next next id))) :
    Writes submitted now record c next id := by
  cases c with
  | read => cases h
  | prepare input =>
      simp only [change, bind_ok_iff, map_ok_iff] at h
      obtain ⟨p, hp, proposal, hprop, heq⟩ := h
      cases heq
      -- only an intent that is not yet in the journal makes a write
      rcases prepareIn_ok hprop with ⟨_, _, _, heq⟩ | ⟨hnew, hpend, hrev, hlen, heq⟩
      · cases heq
      · cases heq
        exact .prepare hp hnew hpend hrev hlen
  -- the others amend one operation, and each is one transition of it
  | markSubmitting i v =>
      exact amend_writes h fun op op' _ hid hu => hid ▸ markSubmitting_ok hu
  | markUncertain i => exact amend_writes h fun op op' _ hid hu => hid ▸ markUncertain_ok hu
  | confirm i evidence =>
      exact amend_writes h fun op op' hop hid hu => hid ▸ confirm_ok (hv op hop) hu
  | reject i evidence => exact amend_writes h fun op op' _ hid hu => hid ▸ reject_ok hu
  | abandonPrepared i => exact amend_writes h fun op op' _ hid hu => hid ▸ abandonPrepared_ok hu
  | acknowledgeConfirmed i =>
      exact amend_writes h fun op op' _ hid hu => hid ▸ acknowledgeConfirmed_ok hu

/-! ## Reading -/

/-- Where a method may get its record from. -/
inductive Reads (scope : Scope) (held : Held) : OperationJournalRecord → Prop
  | kept {record : OperationJournalRecord} : held.cached = some record → Reads scope held record
  | empty : held.store = none → Reads scope held ⟨scope.val, 0, []⟩
  | stored {text : Json.Text} {value : Value} {record : OperationJournalRecord} :
      held.store = some text → decodeVaultJson text = .ok value →
      validateRecord value scope.val = .ok record → Reads scope held record

@[simp] theorem lift_ok_iff {α : Type} {x : Result α} {a : α} {held held' : Held} :
    lift x held = .ok a held' ↔ x = .ok a ∧ held = held' := by
  cases x <;> simp [lift]

@[simp] theorem lift_error_iff {α : Type} {x : Result α} {e : Error} {held held' : Held} :
    lift x held = .error e held' ↔ x = .error e ∧ held = held' := by
  cases x <;> simp [lift]

@[simp] theorem assertSession_ok_iff {env : Env} {check : SessionCheck} {u : Unit}
    {held held' : Held} :
    assertSession env check held = .ok u held' ↔ env.unlocked check = true ∧ held = held' := by
  rw [assertSession, lift_ok_iff, require_ok_iff]

theorem assertIf_ok {env : Env} {b : Bool} {check : SessionCheck} {u : Unit}
    {held held' : Held} (h : assertIf env b check held = .ok u held') :
    held = held' ∧ (b = true → env.unlocked check = true) := by
  unfold assertIf at h
  split at h
  · obtain ⟨hu, rfl⟩ := assertSession_ok_iff.mp h
    exact ⟨rfl, fun _ => hu⟩
  · next hb =>
      obtain ⟨-, rfl⟩ := Stateful.pure_ok_iff.mp h
      exact ⟨rfl, fun hb' => absurd hb' hb⟩

/-- A read changes nothing and needs the session. -/
theorem readRecord_ok {scope : Scope} {env : Env} {held held' : Held}
    {record : OperationJournalRecord} (h : readRecord scope env held = .ok record held') :
    held' = held ∧ Reads scope held record := by
  simp only [readRecord, loadEncryptedJson, Stateful.bind_ok_iff, Stateful.get_bind,
    assertSession_ok_iff, lift_ok_iff] at h
  obtain ⟨_, _, ⟨-, rfl⟩, loaded, _, ⟨_, _, ⟨-, rfl⟩, hopen, rfl⟩, _, _, ⟨-, rfl⟩, hrec, rfl⟩ := h
  refine ⟨rfl, ?_⟩
  cases hs : held.store with
  | none =>
      rw [hs] at hopen
      cases hopen
      cases hrec
      exact .empty hs
  | some text =>
      simp only [hs, openStore, bind_ok_iff, pure_ok_iff] at hopen
      obtain ⟨value, hv, rfl⟩ := hopen
      exact .stored hs hv hrec

theorem refresh_ok {scope : Scope} {env : Env} {held held' : Held}
    {record : OperationJournalRecord} (h : refresh scope env held = .ok record held') :
    held' = { held with cached := some record } ∧ Reads scope held record := by
  simp only [refresh, Stateful.bind_ok_iff, Stateful.modify_bind, Stateful.pure_ok_iff] at h
  obtain ⟨r, _, hr, rfl, rfl⟩ := h
  obtain ⟨rfl, hreads⟩ := readRecord_ok hr
  exact ⟨rfl, hreads⟩

/-- After the record was got the lease keeps it. -/
theorem getRecord_ok {scope : Scope} {env : Env} {held held' : Held}
    {record : OperationJournalRecord} (h : getRecord scope env held = .ok record held') :
    held' = { held with cached := some record } ∧ Reads scope held record := by
  rw [getRecord, Stateful.get_bind] at h
  cases hc : held.cached with
  | none =>
      simp only [hc] at h
      exact refresh_ok h
  | some r =>
      simp only [hc] at h
      obtain ⟨rfl, rfl⟩ := Stateful.pure_ok_iff.mp h
      refine ⟨?_, .kept hc⟩
      rw [← hc]

/-- **A write that succeeds** reached the store, compacted, and the lease keeps it. -/
theorem write_ok {scope : Scope} {env : Env} {held held' : Held} {b : Bool}
    {record written : OperationJournalRecord}
    (h : write scope env record b held = .ok written held') :
    written = compact record ∧ ∃ text, encodeVaultJson (compact record).toValue = .ok text ∧
      held' = { held with store := some text, cached := some (compact record) } := by
  simp only [write, Stateful.bind_ok_iff, lift_ok_iff, Stateful.modify_bind,
    Stateful.pure_ok_iff] at h
  obtain ⟨_, _, h1, _, _, ⟨-, rfl⟩, text, _, ⟨ht, rfl⟩, _, _, h2, _, _, ⟨-, rfl⟩, rfl, rfl⟩ := h
  obtain ⟨rfl, -⟩ := assertIf_ok h1
  obtain ⟨rfl, -⟩ := assertIf_ok h2
  exact ⟨rfl, text, ht, rfl⟩

/-! ## Calls that succeed -/

/-- The ids that went into submission in the lease, after a successful call. -/
def submittedAfter (submitted : List String) : Call → List String
  | .markSubmitting id _ => id :: submitted
  | _ => submitted

/-- What a successful call did. -/
inductive Performs (scope : Scope) (env : Env) (held : Held) : Call → Answer → Held → Prop
  | looked {record : OperationJournalRecord} :
      Reads scope held record →
      Performs scope env held .read (.record record) { held with cached := some record }
  | repeated {record : OperationJournalRecord} {input : Data} {op : JournalOperation} :
      Reads scope held record →
      change scope held.submittedInLease env.now record (.prepare input)
        = .ok (some (.existing op)) →
      Performs scope env held (.prepare input) (.operation (some op))
        { held with cached := some record }
  | wrote {c : Call} {record next : OperationJournalRecord} {id : String} {text : Json.Text} :
      Reads scope held record →
      change scope held.submittedInLease env.now record c = .ok (some (.next next id)) →
      encodeVaultJson (compact next).toValue = .ok text →
      Performs scope env held c
        (.operation ((compact next).operations.find? fun op => op.id = id))
        ⟨some text, some (compact next), submittedAfter held.submittedInLease c⟩

/-- What a method makes of its change is written. -/
theorem settle_next_ok {scope : Scope} {env : Env} {held held' : Held} {b : Bool}
    {next : OperationJournalRecord} {id : String} {answer : Answer}
    (h : settle scope env b (.next next id) held = .ok answer held') :
    answer = .operation ((compact next).operations.find? fun op => op.id = id)
      ∧ ∃ text, encodeVaultJson (compact next).toValue = .ok text ∧
        held' = { held with store := some text, cached := some (compact next) } := by
  simp only [settle, Stateful.bind_ok_iff, Stateful.pure_ok_iff] at h
  obtain ⟨written, _, hw, rfl, rfl⟩ := h
  obtain ⟨rfl, text, ht, rfl⟩ := write_ok hw
  exact ⟨rfl, text, ht, rfl⟩

theorem mutate_ok {scope : Scope} {env : Env} {held held' : Held} {b : Bool} {id : String}
    {update : List String → JournalOperation → Result JournalOperation} {answer : Answer}
    (h : mutate scope env id b update held = .ok answer held') :
    ∃ record next text, Reads scope held record ∧
      amend id (update held.submittedInLease) env.now record = .ok (.next next id) ∧
      encodeVaultJson (compact next).toValue = .ok text ∧
      answer = .operation ((compact next).operations.find? fun op => op.id = id) ∧
      held' = { held with store := some text, cached := some (compact next) } := by
  simp only [mutate, Stateful.bind_ok_iff, Stateful.get_bind, lift_ok_iff] at h
  obtain ⟨record, _, hget, proposal, _, ⟨hamend, rfl⟩, hsettle⟩ := h
  obtain ⟨rfl, hreads⟩ := getRecord_ok hget
  obtain ⟨next, rfl⟩ := amend_next hamend
  obtain ⟨rfl, text, ht, rfl⟩ := settle_next_ok hsettle
  exact ⟨record, next, text, hreads, hamend, ht, rfl, rfl⟩

/-- **What a successful call did.** -/
theorem perform_ok {scope : Scope} {env : Env} {c : Call} {held held' : Held} {answer : Answer}
    (h : perform scope env c held = .ok answer held') :
    Performs scope env held c answer held' := by
  cases c with
  | read =>
      simp only [perform, Stateful.bind_ok_iff, Stateful.pure_ok_iff] at h
      obtain ⟨record, _, hr, rfl, rfl⟩ := h
      obtain ⟨rfl, hreads⟩ := refresh_ok hr
      exact .looked hreads
  | prepare input =>
      simp only [perform, Stateful.bind_ok_iff, assertSession_ok_iff, lift_ok_iff] at h
      obtain ⟨_, _, ⟨-, rfl⟩, p, _, ⟨hp, rfl⟩, record, _, hget, proposal, _, ⟨hprop, rfl⟩,
        hsettle⟩ := h
      obtain ⟨rfl, hreads⟩ := getRecord_ok hget
      -- what `prepare` proposed from the record is what `change` asks for
      have hchange : change scope held.submittedInLease env.now record (.prepare input)
          = .ok (some proposal) := by
        simp only [change, bind_ok_iff, map_ok_iff]
        exact ⟨p, hp, proposal, hprop, rfl⟩
      cases proposal with
      | existing op =>
          obtain ⟨rfl, rfl⟩ := Stateful.pure_ok_iff.mp hsettle
          exact .repeated hreads hchange
      | next next id =>
          obtain ⟨rfl, text, ht, rfl⟩ := settle_next_ok hsettle
          exact .wrote hreads hchange ht
  -- `markSubmitting` also notes the operation in the lease, after the write
  | markSubmitting id v =>
      simp only [perform, Stateful.bind_ok_iff, Stateful.modify_bind, Stateful.pure_ok_iff] at h
      obtain ⟨_, _, hm, rfl, rfl⟩ := h
      obtain ⟨record, next, text, hreads, ha, ht, rfl, rfl⟩ := mutate_ok hm
      exact .wrote hreads (map_ok_iff.mpr ⟨_, ha, rfl⟩) ht
  -- the remaining five are `mutate` and nothing else
  | markUncertain | confirm | reject | abandonPrepared | acknowledgeConfirmed =>
      rw [perform] at h
      obtain ⟨record, next, text, hreads, ha, ht, rfl, rfl⟩ := mutate_ok h
      exact .wrote hreads (map_ok_iff.mpr ⟨_, ha, rfl⟩) ht

end Line.Journal
