import Line.Journal.Transition

/-!
# What a method throws

`tampered` says that the stored journal was changed by somebody else; the user is locked
out by it. No check on arguments or on the state of an operation throws it
(`Honest`), so a call throws it only if the store does not open to a journal of the
scope or if the journal that it wants to write is not accepted (`perform_error`).

A method is a chain of checks, and which of them failed decides what is thrown. `Meets P x` says of
one check what its errors are, whatever it was asked; it goes through `>>=`, so that the errors of
a method are read off its text, one check after the other (`normalizePrepared_meets`,
`establish_meets`). Where the store comes in, the error depends on what it holds: a read that fails
says so under the hypothesis that the store opens (`readRecord_error`), a write that fails under the
hypothesis that the record it writes is one a read accepts (`write_error`). A call that fails keeps
the store and what the lease remembers (`Kept`), since a method writes last.
-/

namespace Line.Journal

open Vault Checked

/-- Not a report of tampering. -/
def Honest (e : Error) : Prop := ∀ message, e ≠ .tampered message

theorem honest_typeError (message : String) : Honest (.typeError message) := by
  intro m h
  cases h

theorem honest_conflict (message : String) : Honest (.conflict message) := by
  intro m h
  cases h

/-! ## The codec -/

section Codec

variable {P : Error → Prop}

theorem visit_meets (hP : ∀ message, P (.typeError message)) (depth count : ℕ) :
    Meets P (visit depth count) := by
  intro e he
  unfold visit at he
  split at he
  · cases he
    exact hP _
  · cases he

mutual

theorem encode_meets (hP : ∀ message, P (.typeError message)) (value : Value) (depth count : ℕ) :
    Meets P (encode value depth count) := by
  unfold encode
  refine .bind (visit_meets hP _ _) fun m _ => ?_
  cases value with
  | array items => exact .bind (encodeItems_meets hP items _ _) fun _ _ => .pure _
  | object entries => exact .bind (encodeEntries_meets hP entries _ _) fun _ _ => .pure _
  -- NaN and the infinities have no number in JSON; every other number has
  | number q =>
      cases q with
      | finite q => exact .pure _
      | nan | infinity =>
          intro e he
          cases he
          exact hP _
  -- what is not plain data is refused whatever is around it
  | foreign =>
      intro e he
      cases he
      exact hP _
  | null | undefined | string | boolean | minusZero | bigint | bytes => exact .pure _

theorem encodeItems_meets (hP : ∀ message, P (.typeError message)) (items : List Value)
    (depth count : ℕ) : Meets P (encodeItems items depth count) := by
  cases items with
  | nil => exact .pure _
  | cons value items =>
      exact .bind (encode_meets hP value _ _) fun _ _ =>
        .bind (encodeItems_meets hP items _ _) fun _ _ => .pure _

theorem encodeEntries_meets (hP : ∀ message, P (.typeError message))
    (entries : List (String × Value)) (depth count : ℕ) :
    Meets P (encodeEntries entries depth count) := by
  cases entries with
  | nil => exact .pure _
  | cons e entries =>
      exact .bind (encode_meets hP e.2 _ _) fun _ _ =>
        .bind (encodeEntries_meets hP entries _ _) fun _ _ => .pure _

end

/-- The encoder throws nothing but a `TypeError`. -/
theorem encodeVaultJson_typed (hP : ∀ message, P (.typeError message)) (value : Value) :
    Meets P (encodeVaultJson value) :=
  .bind (encode_meets hP _ _ _) fun _ _ => .pure _

end Codec

theorem encodeVaultJson_meets (value : Value) : Meets Honest (encodeVaultJson value) :=
  encodeVaultJson_typed honest_typeError value

/-- A clone is refused by the encoder only: what it wrote is read back. -/
theorem clone_meets {value : Value} (hv : value.Proper) : Meets Honest (clone value) := by
  refine .bind (encodeVaultJson_meets _) fun text ht => ?_
  rw [decodeVaultJson_encode hv ht]
  exact .pure _

theorem sameText_meets (a b : Value) : Meets Honest (sameText a b) :=
  .bind (encodeVaultJson_meets _) fun _ _ =>
    .bind (encodeVaultJson_meets _) fun _ _ => .pure _

/-! ## The checks -/

theorem require_meets {e : Error} (h : Honest e) (ok : Bool) : Meets Honest (require ok e) := by
  intro e' he
  unfold require at he
  split at he
  · cases he
  · cases he
    exact h

theorem require_conflict (ok : Bool) (message : String) :
    Meets Honest (require ok (.conflict message)) :=
  require_meets (honest_conflict _) ok

theorem require_type (ok : Bool) (message : String) :
    Meets Honest (require ok (.typeError message)) :=
  require_meets (honest_typeError _) ok

theorem hex_meets (value : Value) (label : String) : Meets Honest (hex value label) := by
  intro e he
  unfold hex at he
  split at he
  · split at he
    · cases he
    · cases he
      exact honest_typeError _
  · cases he
    exact honest_typeError _

theorem map_meets {α β : Type} {x : Result α} {f : α → β} (h : Meets Honest x) :
    Meets Honest (x.map f) := by
  intro e he
  cases x with
  | error e' =>
      cases he
      exact h _ rfl
  | ok a => cases he

theorem commitment_meets (value : Value) (label : String) :
    Meets Honest (commitment value label) := by
  unfold commitment
  split
  · exact .pure _
  · exact map_meets (hex_meets _ _)

theorem boolean_meets (value : Value) (message : String) :
    Meets Honest (boolean value message) := by
  intro e he
  unfold boolean at he
  split at he
  · cases he
  · cases he
    exact honest_typeError _

theorem normalizeScope_meets (scope : JournalScope) : Meets Honest (normalizeScope scope) :=
  .bind (require_type _ _) fun _ _ =>
    .bind (hex_meets _ _) fun _ _ => .bind (hex_meets _ _) fun _ _ => .pure _

theorem normalizeReceipt_meets {receipt : Value} (h : receipt.Proper) :
    Meets Honest (normalizeReceipt receipt) :=
  .bind (require_type _ _) fun _ _ => clone_meets h

theorem normalizeDetails_meets (name : String) (value : Value) :
    Meets Honest (normalizeDetails name value) := by
  unfold normalizeDetails
  refine .ite (fun _ => .pure _) fun _ => .ite (fun _ => .pure _) fun _ =>
    .ite (fun _ => .pure _) fun _ => ?_
  refine .bind (hex_meets _ _) fun _ _ => .bind (boolean_meets _ _) fun _ _ => ?_
  refine .ite (fun _ => ?_) fun _ => ?_
  · exact .bind (commitment_meets _ _) fun _ _ => .pure _
  · exact .bind (require_type _ _) fun _ _ => .bind (hex_meets _ _) fun _ _ => .pure _

theorem normalizeEffect_meets (value : Value) : Meets Honest (normalizeEffect value) := by
  unfold normalizeEffect
  split
  · exact .bind (require_type _ _) fun _ _ => .bind (hex_meets _ _) fun _ _ =>
      .bind (hex_meets _ _) fun _ _ => .bind (normalizeDetails_meets _ _) fun _ _ => .pure _
  · intro e he
    cases he
    exact honest_typeError _

theorem normalizePrepared_meets {input : Value} (h : input.Proper) :
    Meets Honest (normalizePrepared input) := by
  unfold normalizePrepared
  split
  -- a request with other keys than the ones listed
  · intro e he
    cases he
    exact honest_typeError _
  -- the fields in the order in which the source normalizes them
  · refine .bind (require_type _ _) fun _ _ => .bind (hex_meets _ _) fun _ _ =>
      .bind (commitment_meets _ _) fun _ _ => .bind (commitment_meets _ _) fun _ _ =>
      .bind (clone_meets (proper_get h _)) fun _ _ =>
      .bind (clone_meets (proper_get h _)) fun _ _ => .bind ?_ fun _ _ =>
      .bind (require_type _ _) fun _ _ => .bind ?_ fun _ _ => .bind (require_type _ _) fun _ _ =>
      .pure _
    -- the expected effect, which may be left out
    · unfold normalizeExpected
      split
      · exact .pure _
      · exact .pure _
      · exact map_meets (normalizeEffect_meets _)
    -- a draw or an opening names the book of its candidate
    · unfold bindsCandidate
      split
      · exact .bind (require_type _ _) fun _ _ => require_type _ _
      · exact .pure _

/-! ## The methods -/

theorem attach_meets (op : JournalOperation) (value : Value) (message : String) :
    Meets Honest (attach op value message) := by
  unfold attach
  exact .ite (fun _ => .pure _) fun _ => .bind (require_conflict _ _) fun _ _ => .pure _

theorem markSubmitting_meets (submitted : List String) (v : Value) (op : JournalOperation) :
    Meets Honest (markSubmitting submitted v op) :=
  .bind (require_conflict _ _) fun _ _ => .bind (require_conflict _ _) fun _ _ =>
    .bind (attach_meets _ _ _) fun _ _ => .pure _

theorem markUncertain_meets (op : JournalOperation) : Meets Honest (markUncertain op) :=
  .bind (require_conflict _ _) fun _ _ => .pure _

theorem sameScope_meets (scope : Scope) (evidence : JournalScope) :
    Meets Honest (sameScope scope evidence) :=
  .bind (normalizeScope_meets _) fun _ _ => require_conflict _ _

theorem establish_meets (kind : Confirmation) (op : JournalOperation) :
    Meets Honest (establish kind op) := by
  cases kind with
  | observedCandidate lineCommitment =>
      -- the commitment that was observed is compared with the one of the candidate
      refine .bind ?_ fun _ _ => .pure _
      exact .bind (require_conflict _ _) fun _ _ => .bind (require_conflict _ _) fun _ _ =>
        .bind (hex_meets _ _) fun _ _ => require_conflict _ _
  | observedEffect effect =>
      refine .bind ?_ fun _ _ => .pure _
      -- the effect that was observed is compared with the one that was announced
      unfold observedEffect
      split
      · intro e he
        cases he
        exact honest_conflict _
      · exact .bind (normalizeEffect_meets _) fun _ _ => .bind (sameText_meets _ _) fun _ _ =>
          require_conflict _ _
  | definiteReceipt receipt =>
      -- a receipt is final, and the same as the one that is kept, if one is kept
      refine .bind (require_type _ _) fun _ _ =>
        .bind (normalizeReceipt_meets receipt.property) fun r _ =>
        .bind (require_conflict _ _) fun _ _ => .bind ?_ fun _ _ =>
        .bind (require_conflict _ _) fun _ _ => .pure _
      unfold sameReceipt
      split
      · exact .pure _
      · exact sameText_meets _ _
  | other =>
      intro e he
      cases he
      exact honest_typeError _

theorem confirm_meets (scope : Scope) (evidence : JournalConfirmationEvidence)
    (op : JournalOperation) : Meets Honest (confirm scope evidence op) :=
  .bind (sameScope_meets _ _) fun _ _ => .bind (require_conflict _ _) fun _ _ =>
    .bind (establish_meets _ _) fun _ _ => .bind (attach_meets _ _ _) fun _ _ => .pure _

theorem reject_meets (scope : Scope) (evidence : JournalRejectionEvidence)
    (op : JournalOperation) : Meets Honest (reject scope evidence op) := by
  refine .bind (sameScope_meets _ _) fun _ _ => .bind (require_conflict _ _) fun _ _ =>
    .bind ?_ fun _ _ => .bind (require_conflict _ _) fun _ _ =>
    .bind (require_conflict _ _) fun _ _ => .bind (attach_meets _ _ _) fun _ _ => .pure _
  unfold showsBefore
  exact .ite (fun _ => .pure _) fun _ => .bind (commitment_meets _ _) fun _ _ => .pure _

theorem abandonPrepared_meets (op : JournalOperation) : Meets Honest (abandonPrepared op) :=
  .bind (require_conflict _ _) fun _ _ => .pure _

theorem acknowledgeConfirmed_meets (op : JournalOperation) :
    Meets Honest (acknowledgeConfirmed op) :=
  .bind (require_conflict _ _) fun _ _ => .pure _

theorem prepareIn_meets (p : PreparedOperation) (now : Time) (record : OperationJournalRecord) :
    Meets Honest (prepareIn p now record) := by
  unfold prepareIn
  split
  · exact .bind (sameText_meets _ _) fun _ _ => .bind (require_conflict _ _) fun _ _ => .pure _
  · exact .bind (require_conflict _ _) fun _ _ => .bind (require_conflict _ _) fun _ _ => .pure _

theorem amend_meets {id : String} {update : JournalOperation → Result JournalOperation}
    (h : ∀ op, Meets Honest (update op)) (now : Time) (record : OperationJournalRecord) :
    Meets Honest (amend id update now record) := by
  unfold amend
  split
  · intro e he
    cases he
    exact honest_conflict _
  · exact .bind (h _) fun _ _ => .bind (require_conflict _ _) fun _ _ => .pure _

/-! ## Calls that fail -/

/-- The store is empty or opens to a journal of the scope. -/
def Opens (scope : Scope) (held : Held) : Prop :=
  ∀ text, held.store = some text → ∃ value record,
    decodeVaultJson text = .ok value ∧ validateRecord value scope.val = .ok record

/-- What the call wants to write is accepted. -/
def Accepts (scope : Scope) (env : Env) (c : Call) (held : Held) : Prop :=
  ∀ record next id, Reads scope held record →
    change scope held.submittedInLease env.now record c = .ok (some (.next next id)) →
    ∃ r, validateRecord (compact next).toValue scope.val = .ok r

/-- The lease may have read the record; nothing else changed. -/
def Kept (scope : Scope) (held held' : Held) : Prop :=
  held' = held ∨ ∃ record, Reads scope held record ∧ held' = { held with cached := some record }

theorem assertSession_error {env : Env} {check : SessionCheck} {e : Error} {held held' : Held}
    (h : assertSession env check held = .error e held') : held' = held ∧ Honest e := by
  rw [assertSession, lift_error_iff] at h
  obtain ⟨he, rfl⟩ := h
  refine ⟨rfl, require_meets ?_ _ e he⟩
  intro m hm
  cases hm

theorem assertIf_error {env : Env} {b : Bool} {check : SessionCheck} {e : Error}
    {held held' : Held} (h : assertIf env b check held = .error e held') :
    held' = held ∧ Honest e := by
  unfold assertIf at h
  split at h
  · exact assertSession_error h
  · exact (Stateful.pure_error_iff.mp h).elim

theorem honest_uncommitted : Honest uncommitted := by
  intro m h
  cases h

theorem readRecord_error {scope : Scope} {env : Env} {held held' : Held} {e : Error}
    (h : readRecord scope env held = .error e held') :
    held' = held ∧ (Opens scope held → Honest e) := by
  simp only [readRecord, loadEncryptedJson, Stateful.bind_error_iff, Stateful.bind_ok_iff,
    Stateful.get_bind, assertSession_ok_iff, lift_ok_iff, lift_error_iff] at h
  rcases h with h | ⟨_, _, ⟨-, rfl⟩, h⟩
  -- the session had changed before anything was read
  · obtain ⟨rfl, he⟩ := assertSession_error h
    exact ⟨rfl, fun _ => he⟩
  · rcases h with h | ⟨loaded, _, ⟨_, _, ⟨-, rfl⟩, hopen, rfl⟩, h⟩
    · rcases h with ⟨he, rfl⟩ | ⟨_, _, ⟨-, rfl⟩, he, rfl⟩
      · exact ⟨rfl, fun _ => require_meets honest_uncommitted _ e he⟩
      · -- the text of the store did not open
        refine ⟨rfl, fun ho => ?_⟩
        cases hs : held.store with
        | none => rw [hs] at he; cases he
        | some text =>
            obtain ⟨value, record, hv, -⟩ := ho text hs
            rw [hs, openStore, hv] at he
            cases he
    · rcases h with h | ⟨_, _, ⟨-, rfl⟩, he, rfl⟩
      -- the session changed while the store answered
      · obtain ⟨rfl, he⟩ := assertSession_error h
        exact ⟨rfl, fun _ => he⟩
      · -- it opened to something that is not accepted
        refine ⟨rfl, fun ho => ?_⟩
        cases hs : held.store with
        | none =>
            rw [hs] at hopen
            cases hopen
            cases he
        | some text =>
            obtain ⟨value, record, hv, hr⟩ := ho text hs
            rw [hs, openStore, hv] at hopen
            cases hopen
            rw [recordOf, hr] at he
            cases he

theorem refresh_error {scope : Scope} {env : Env} {held held' : Held} {e : Error}
    (h : refresh scope env held = .error e held') :
    held' = held ∧ (Opens scope held → Honest e) := by
  simp only [refresh, Stateful.bind_error_iff, Stateful.modify_bind, Stateful.pure_error_iff,
    and_false, exists_false, or_false] at h
  exact readRecord_error h

theorem getRecord_error {scope : Scope} {env : Env} {held held' : Held} {e : Error}
    (h : getRecord scope env held = .error e held') :
    held' = held ∧ (Opens scope held → Honest e) := by
  rw [getRecord, Stateful.get_bind] at h
  cases hc : held.cached with
  | none =>
      simp only [hc] at h
      exact refresh_error h
  | some r =>
      simp only [hc] at h
      exact (Stateful.pure_error_iff.mp h).elim

theorem write_error {scope : Scope} {env : Env} {held held' : Held} {b : Bool} {e : Error}
    {record : OperationJournalRecord} (h : write scope env record b held = .error e held') :
    held' = held ∧
      ((∃ r, validateRecord (compact record).toValue scope.val = .ok r) → Honest e) := by
  simp only [write, Stateful.bind_error_iff, lift_ok_iff, lift_error_iff, Stateful.modify_bind,
    Stateful.pure_error_iff] at h
  rcases h with h | ⟨_, _, h1, h⟩
  -- the session had changed before anything was written
  · obtain ⟨rfl, he⟩ := assertIf_error h
    exact ⟨rfl, fun _ => he⟩
  · obtain ⟨rfl, -⟩ := assertIf_ok h1
    rcases h with ⟨he, rfl⟩ | ⟨_, _, ⟨-, rfl⟩, h⟩
    -- the journal that is to be written is not one that a read accepts
    · refine ⟨rfl, fun hvalid => ?_⟩
      obtain ⟨r, hr⟩ := hvalid
      rw [hr] at he
      cases he
    · rcases h with ⟨he, rfl⟩ | ⟨text, _, ⟨-, rfl⟩, h⟩
      -- it does not fit into the text of a record
      · exact ⟨rfl, fun _ => encodeVaultJson_meets _ e he⟩
      · rcases h with h | ⟨_, _, h2, h⟩
        -- the session changed while the write was being prepared
        · obtain ⟨rfl, he⟩ := assertIf_error h
          exact ⟨rfl, fun _ => he⟩
        · obtain ⟨rfl, -⟩ := assertIf_ok h2
          rcases h with ⟨he, rfl⟩ | ⟨_, _, -, h⟩
          -- the store refused
          · exact ⟨rfl, fun _ => require_meets honest_uncommitted _ e he⟩
          · exact h.elim

theorem settle_error {scope : Scope} {env : Env} {held held' : Held} {b : Bool} {e : Error}
    {proposal : Proposal} (h : settle scope env b proposal held = .error e held') :
    held' = held ∧ ∃ next id, proposal = .next next id ∧
      ((∃ r, validateRecord (compact next).toValue scope.val = .ok r) → Honest e) := by
  cases proposal with
  | existing op => exact (Stateful.pure_error_iff.mp h).elim
  | next next id =>
      simp only [settle, Stateful.bind_error_iff, Stateful.pure_error_iff, and_false,
        exists_false, or_false] at h
      obtain ⟨rfl, he⟩ := write_error h
      exact ⟨rfl, next, id, rfl, he⟩

theorem mutate_error {scope : Scope} {env : Env} {held held' : Held} {b : Bool} {c : Call}
    {id : String} {update : List String → JournalOperation → Result JournalOperation} {e : Error}
    (h : mutate scope env id b update held = .error e held')
    (hmeets : ∀ op, Meets Honest (update held.submittedInLease op))
    (hchange : ∀ record, change scope held.submittedInLease env.now record c
      = (amend id (update held.submittedInLease) env.now record).map some) :
    Kept scope held held' ∧ (Opens scope held → Accepts scope env c held → Honest e) := by
  simp only [mutate, Stateful.bind_error_iff, Stateful.get_bind, lift_ok_iff, lift_error_iff] at h
  rcases h with h | ⟨record, _, hget, h⟩
  -- the journal could not be read
  · obtain ⟨rfl, he⟩ := getRecord_error h
    exact ⟨.inl rfl, fun ho _ => he ho⟩
  · obtain ⟨rfl, hreads⟩ := getRecord_ok hget
    rcases h with ⟨he, rfl⟩ | ⟨proposal, _, ⟨hamend, rfl⟩, h⟩
    -- it was read, and the operation is not in a status to be changed so
    · exact ⟨.inr ⟨record, hreads, rfl⟩, fun _ _ => amend_meets hmeets _ _ e he⟩
    -- the change was made, and could not be written
    · obtain ⟨rfl, next, i, rfl, he⟩ := settle_error h
      refine ⟨.inr ⟨record, hreads, rfl⟩, fun _ ha => he (ha record next i hreads ?_)⟩
      rw [hchange]
      exact map_ok_iff.mpr ⟨_, hamend, rfl⟩

/-- **A call that fails leaves the store alone**, and reports tampering only if the store does not
open or the change is not accepted. -/
theorem perform_error {scope : Scope} {env : Env} {c : Call} {held held' : Held} {e : Error}
    (h : perform scope env c held = .error e held') :
    Kept scope held held' ∧ (Opens scope held → Accepts scope env c held → Honest e) := by
  cases c with
  | read =>
      simp only [perform, Stateful.bind_error_iff, Stateful.pure_error_iff, and_false,
        exists_false, or_false] at h
      obtain ⟨rfl, he⟩ := refresh_error h
      exact ⟨.inl rfl, fun ho _ => he ho⟩
  | prepare input =>
      simp only [perform, Stateful.bind_error_iff, assertSession_ok_iff, lift_ok_iff,
        lift_error_iff] at h
      rcases h with h | ⟨_, _, ⟨-, rfl⟩, h⟩
      · obtain ⟨rfl, he⟩ := assertSession_error h
        exact ⟨.inl rfl, fun _ _ => he⟩
      · rcases h with ⟨he, rfl⟩ | ⟨p, _, ⟨hp, rfl⟩, h⟩
        -- the request is judged before the journal is read
        · exact ⟨.inl rfl, fun _ _ => normalizePrepared_meets input.property e he⟩
        · rcases h with h | ⟨record, _, hget, h⟩
          · obtain ⟨rfl, he⟩ := getRecord_error h
            exact ⟨.inl rfl, fun ho _ => he ho⟩
          · obtain ⟨rfl, hreads⟩ := getRecord_ok hget
            rcases h with ⟨he, rfl⟩ | ⟨proposal, _, ⟨hprop, rfl⟩, h⟩
            -- another operation is under way, or the id is taken
            · exact ⟨.inr ⟨record, hreads, rfl⟩, fun _ _ => prepareIn_meets _ _ _ e he⟩
            -- what could not be written is the change of this call
            · obtain ⟨rfl, next, i, rfl, he⟩ := settle_error h
              refine ⟨.inr ⟨record, hreads, rfl⟩, fun _ ha => he (ha record next i hreads ?_)⟩
              simp only [change, bind_ok_iff, map_ok_iff]
              exact ⟨p, hp, _, hprop, rfl⟩
  | markSubmitting id v =>
      simp only [perform, Stateful.bind_error_iff, Stateful.modify_bind, Stateful.pure_error_iff,
        and_false, exists_false, or_false] at h
      exact mutate_error h (fun _ => markSubmitting_meets _ _ _) fun _ => rfl
  | markUncertain id =>
      rw [perform] at h
      exact mutate_error h (fun _ => markUncertain_meets _) fun _ => rfl
  | confirm id evidence =>
      rw [perform] at h
      exact mutate_error h (fun _ => confirm_meets _ _ _) fun _ => rfl
  | reject id evidence =>
      rw [perform] at h
      exact mutate_error h (fun _ => reject_meets _ _ _) fun _ => rfl
  | abandonPrepared id =>
      rw [perform] at h
      exact mutate_error h (fun _ => abandonPrepared_meets _) fun _ => rfl
  | acknowledgeConfirmed id =>
      rw [perform] at h
      exact mutate_error h (fun _ => acknowledgeConfirmed_meets _) fun _ => rfl

end Line.Journal
