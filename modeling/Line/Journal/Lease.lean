import Line.Lib.History
import Line.Journal.Record

/-!
# The lease of the operation journal

`createOperationJournal` in `src/lib/security/operation-journal.ts`. Whoever holds the
exclusive lease of a journal calls its methods one after another. A method reads the
record from the store once and keeps it, computes what to write, and writes it: first the
change, as a function of the record, then the store.

The source works on clones of the record it keeps; here a record is a value and nothing
has to be cloned. The envelope of the store opens to what was sealed in it, so the store
holds the text of the record. A write either reaches the store or leaves it as it was.
-/

namespace Line.Journal

open Vault Checked

/-! ## Surroundings -/

/-- The answer of `Date.now()`: milliseconds, up to the largest time value there is. -/
abbrev Time := {ms : ℕ // ms ≤ 8640000000000000}

/-- Where a method asks whether the vault session is still the one it was created in. -/
inductive SessionCheck where
  | enter | beforeLoad | afterLoad | beforeWrite | onCommit
deriving DecidableEq, Repr

/-- What a call gets from its surroundings. -/
structure Env where
  unlocked : SessionCheck → Bool
  /-- The store answers a read. -/
  loads : Bool
  /-- The store commits a write. -/
  saves : Bool
  now : Time

/-- A scope that passed `normalizeScope`. -/
abbrev Scope := {scope : JournalScope // normalizeScope scope = .ok scope}

/-- What a call may change: the store, and what its lease remembers. -/
structure Held where
  store : Option Json.Text
  cached : Option OperationJournalRecord
  submittedInLease : List String

abbrev Action := EStateM Error Held

def lift {α : Type} : Result α → Action α
  | .ok a => pure a
  | .error e => throw e

/-! ## Evidence -/

/-- What a confirmation rests on. -/
inductive Confirmation where
  | definiteReceipt (receipt : Data)
  | observedCandidate (lineCommitment : Value)
  | observedEffect (effect : Value)
  | other

structure JournalConfirmationEvidence where
  scope : JournalScope
  transactionId : Value
  kind : Confirmation

structure JournalRejectionEvidence where
  scope : JournalScope
  definiteRejection : Bool
  transactionId : Value
  lineCommitment : Value

/-! ## Changes of the record -/

/-- `operation.beforeSnapshot = null; …; operation.snapshotsCompacted = true;`. -/
def JournalOperation.withoutSnapshots (op : JournalOperation) : JournalOperation :=
  { op with beforeSnapshot := .null, candidateSnapshot := .null, snapshotsCompacted := true }

/-- Ids are unique, so the id of the latest confirmed operation tells it apart. -/
def retain (latestConfirmed : Option String) (op : JournalOperation) : JournalOperation :=
  if latestConfirmed ≠ some op.id ∧ op.settled = true then op.withoutSnapshots else op

/-- Only the latest confirmed operation and what is unsettled keep their snapshots. -/
def compact (record : OperationJournalRecord) : OperationJournalRecord :=
  let latestConfirmed := (latestConfirmedOperation record).map (·.id)
  { record with operations := record.operations.map (retain latestConfirmed) }

/-- What a method makes of the record. -/
inductive Proposal where
  /-- Nothing is written. -/
  | existing (op : JournalOperation)
  /-- This is written; the answer is the operation with that id. -/
  | next (record : OperationJournalRecord) (id : String)

def PreparedOperation.forget (p : PreparedOperation) : PreparedOperation :=
  { p with beforeSnapshot := .null, candidateSnapshot := .null }

/-- The operation that `prepare` adds. -/
def PreparedOperation.operation (p : PreparedOperation) (sequence : ℕ) (now : Time) :
    JournalOperation :=
  { p with
    sequence
    status := .prepared
    createdAt := now
    updatedAt := now
    acknowledged := false
    transactionId := none
    receipt := none
    snapshotsCompacted := false }

/-- `record.operations.push(op)`, at the next revision. -/
def OperationJournalRecord.push (record : OperationJournalRecord) (op : JournalOperation) :
    OperationJournalRecord :=
  ⟨record.scope, record.revision + 1, record.operations ++ [op]⟩

/-- The operation of an id, changed in place, at the next revision. -/
def OperationJournalRecord.replace (record : OperationJournalRecord) (id : String)
    (op : JournalOperation) : OperationJournalRecord :=
  ⟨record.scope, record.revision + 1, record.operations.map fun o => if o.id = id then op else o⟩

/-- `op.updatedAt = Math.max(op.createdAt, Date.now());`. -/
def JournalOperation.touch (op : JournalOperation) (now : Time) : JournalOperation :=
  { op with updatedAt := max op.createdAt now }

/-- The part of `prepare` after the record was read. -/
def prepareIn (prepared : PreparedOperation) (now : Time) (record : OperationJournalRecord) :
    Result Proposal :=
  match record.operations.find? fun op => op.id = prepared.id with
  | some existing => do
    let comparison := if existing.snapshotsCompacted then prepared.forget else prepared
    let same ← sameText existing.toPreparedOperation.toValue comparison.toValue
    require same (.conflict "Operation ID was already used for a different intent.")
    pure (.existing existing)
  | none => do
    require (!record.operations.any (·.pending))
      (.conflict
        "An earlier operation requires reconciliation before a new intent can be prepared.")
    require (decide (record.revision ≠ Number.maxSafe ∧
        record.operations.length < MAX_JOURNAL_OPERATIONS))
      (.conflict
        "Journal capacity exhausted; export and migrate verified history before proceeding.")
    pure (.next (record.push (prepared.operation (record.revision + 1) now)) prepared.id)

/-- The part of `mutate` after the record was read. -/
def amend (id : String) (update : JournalOperation → Result JournalOperation) (now : Time)
    (record : OperationJournalRecord) : Result Proposal :=
  match record.operations.find? fun op => op.id = id with
  | none => .error (.conflict "Operation was not prepared in this journal.")
  | some op => do
    let op ← update op
    require (decide (record.revision ≠ Number.maxSafe)) (.conflict "Journal revision exhausted.")
    pure (.next (record.replace id (op.touch now)) id)

/-- Another transaction id than the one that is recorded. -/
def differs (recorded : Option String) (value : Value) : Bool :=
  recorded.any fun t => !value.isText t

def transactionOf : Value → Option String
  | .string s => some s
  | _ => none

/-- `if (value !== undefined) { check it; op.transactionId = value; }`. -/
def attach (op : JournalOperation) (value : Value) (message : String) : Result JournalOperation :=
  if value.isUndefined then pure op
  else do
    require (validTx value && !differs op.transactionId value) (.conflict message)
    pure { op with transactionId := transactionOf value }

def markSubmitting (submittedInLease : List String) (transactionId : Value)
    (op : JournalOperation) : Result JournalOperation := do
  require (op.status == .prepared || op.status == .submitting) (.conflict
    "Only a prepared operation can enter submission; ambiguous operations cannot be retried.")
  require (!(op.status == .submitting && !submittedInLease.contains op.id)) (.conflict
    "A prior submitting operation is ambiguous and cannot be retried from another lease.")
  let op ← attach op transactionId "Conflicting submission transaction ID."
  pure { op with status := .submitting }

def markUncertain (op : JournalOperation) : Result JournalOperation := do
  require (op.status == .submitting || op.status == .uncertain)
    (.conflict "Only submitted operations can become uncertain.")
  pure { op with status := .uncertain }

def sameScope (scope : Scope) (evidence : JournalScope) : Result Unit := do
  let normalized ← normalizeScope evidence
  require (decide (normalized = scope.val))
    (.conflict "Confirmation evidence belongs to another scope.")

/-- Compound effects are not established by a book commitment alone. -/
def PublicEffect.compound : PublicEffect → Bool
  | noteCompensationAllocated .. | noteRefundAcknowledged .. => true
  | _ => false

/-- `receipt.txId ?? receipt.txHash ?? null`. -/
def receiptTransaction (receipt : Value) : Option String :=
  (transactionOf (receipt.get "txId")).or (transactionOf (receipt.get "txHash"))

def candidateMismatch : Error :=
  .conflict "Observed public commitment does not match the prepared candidate."

def effectMismatch : Error :=
  .conflict "Observed public effect does not match the prepared unique effect."

def observedCandidate (lineCommitment : Value) (op : JournalOperation) : Result Unit := do
  require (!op.expectedEffect.any fun e => e.effect.compound) (.conflict
    "Compensation requires its complete public effect, not a book commitment alone.")
  require op.candidateCommitment.isSome candidateMismatch
  let observed ← hex lineCommitment "observed commitment"
  require (decide (op.candidateCommitment = some observed)) candidateMismatch

def observedEffect (effect : Value) (op : JournalOperation) : Result Unit :=
  match op.expectedEffect with
  | none => .error effectMismatch
  | some expected => do
    let observed ← normalizeEffect effect
    let same ← sameText observed.toValue expected.toValue
    require same effectMismatch

/-- `op.receipt === null || encodeVaultJson(op.receipt) === encodeVaultJson(receipt)`. -/
def sameReceipt (recorded : Option Value) (receipt : Value) : Result Bool :=
  match recorded with
  | none => pure true
  | some recorded => sameText recorded receipt

def definiteReceipt (receipt : Value) (op : JournalOperation) : Result JournalOperation := do
  require (!receipt.isUndefined) (.typeError "A confirmed runtime receipt is required.")
  let receipt ← normalizeReceipt receipt
  require ((receipt.get "txId").isUndefined || !differs op.transactionId (receipt.get "txId"))
    (.conflict "Receipt transaction ID differs from prepared submission.")
  let same ← sameReceipt op.receipt receipt
  require same (.conflict "Conflicting confirmed receipt metadata.")
  pure { op with
    receipt := some receipt
    transactionId := op.transactionId.or (receiptTransaction receipt) }

/-- What each kind of evidence has to show, and what of it is recorded. -/
def establish (kind : Confirmation) (op : JournalOperation) : Result JournalOperation :=
  match kind with
  | .observedCandidate lineCommitment => do
    observedCandidate lineCommitment op
    pure op
  | .observedEffect effect => do
    observedEffect effect op
    pure op
  | .definiteReceipt receipt => definiteReceipt receipt.val op
  | .other => .error (.typeError "A confirmed runtime receipt is required.")

def confirm (scope : Scope) (evidence : JournalConfirmationEvidence) (op : JournalOperation) :
    Result JournalOperation := do
  sameScope scope evidence.scope
  require (op.status == .submitting || op.status == .uncertain || op.status == .confirmed)
    (.conflict "A saved candidate is not a confirmed submission.")
  let op ← establish evidence.kind op
  let op ← attach op evidence.transactionId "Conflicting transaction receipt."
  pure { op with status := .confirmed }

/-- `evidence.lineCommitment !== undefined && commitment(…) !== op.beforeCommitment`. -/
def showsBefore (lineCommitment : Value) (op : JournalOperation) : Result Bool :=
  if lineCommitment.isUndefined then pure true
  else do
    let observed ← commitment lineCommitment "observed commitment"
    pure (decide (observed = op.beforeCommitment))

def rejectionRequired : Error := .conflict "A definite runtime rejection is required."

def reject (scope : Scope) (evidence : JournalRejectionEvidence) (op : JournalOperation) :
    Result JournalOperation := do
  sameScope scope evidence.scope
  require (evidence.definiteRejection &&
    (evidence.transactionId.isUndefined || validTx evidence.transactionId)) rejectionRequired
  let unchanged ← showsBefore evidence.lineCommitment op
  require unchanged rejectionRequired
  require (op.status == .submitting || op.status == .uncertain)
    (.conflict "Only a submitted operation can be rejected by transaction evidence.")
  let op ← attach op evidence.transactionId "Conflicting rejected transaction ID."
  pure { op with status := .rejected }

def abandonPrepared (op : JournalOperation) : Result JournalOperation := do
  require (op.status == .prepared) (.conflict
    "A submitted operation cannot be abandoned from an unchanged public commitment alone.")
  pure { op with status := .rejected }

def acknowledgeConfirmed (op : JournalOperation) : Result JournalOperation := do
  require (op.status == .confirmed)
    (.conflict "Only a confirmed recovery snapshot can be acknowledged.")
  pure { op with acknowledged := true }

/-! ## Calls -/

inductive Call where
  | read
  | prepare (input : Data)
  | markSubmitting (id : String) (transactionId : Value)
  | markUncertain (id : String)
  | confirm (id : String) (evidence : JournalConfirmationEvidence)
  | reject (id : String) (evidence : JournalRejectionEvidence)
  | abandonPrepared (id : String)
  | acknowledgeConfirmed (id : String)

/-- What a call makes of the record, if its own checks pass; a read makes nothing of it. -/
def change (scope : Scope) (submittedInLease : List String) (now : Time)
    (record : OperationJournalRecord) : Call → Result (Option Proposal)
  | .read => pure none
  | .prepare input => do
    let prepared ← normalizePrepared input.val
    (prepareIn prepared now record).map some
  | .markSubmitting id v => (amend id (markSubmitting submittedInLease v) now record).map some
  | .markUncertain id => (amend id markUncertain now record).map some
  | .confirm id evidence => (amend id (confirm scope evidence) now record).map some
  | .reject id evidence => (amend id (reject scope evidence) now record).map some
  | .abandonPrepared id => (amend id abandonPrepared now record).map some
  | .acknowledgeConfirmed id => (amend id acknowledgeConfirmed now record).map some

/-! ## Reading and writing -/

section Methods

variable (scope : Scope) (env : Env)

def assertSession (check : SessionCheck) : Action Unit :=
  lift (require (env.unlocked check)
    (.locked "Vault session was revoked before operation submission."))

/-- `if (requireSession) assertSession();`. -/
def assertIf (requireSession : Bool) (check : SessionCheck) : Action Unit :=
  if requireSession then assertSession env check else pure ()

def uncommitted : Error := .persistence "Encrypted storage transaction did not commit."

/-- The value of a stored text, if there is one. -/
def openStore : Option Json.Text → Result (Option Value)
  | none => pure none
  | some text => do
    let value ← decodeVaultJson text
    pure (some value)

def loadEncryptedJson : Action (Option Value) := do
  lift (require env.loads uncommitted)
  let held ← get
  lift (openStore held.store)

/-- `loaded === null ? {…} : validateRecord(loaded, scope)`. -/
def recordOf : Option Value → Result OperationJournalRecord
  | none => pure ⟨scope.val, 0, []⟩
  | some value => validateRecord value scope.val

/-- `read`. -/
def readRecord : Action OperationJournalRecord := do
  assertSession env .beforeLoad
  let loaded ← loadEncryptedJson env
  assertSession env .afterLoad
  lift (recordOf scope loaded)

/-- A read whose result the lease keeps. -/
def refresh : Action OperationJournalRecord := do
  let record ← readRecord scope env
  modify fun held => { held with cached := some record }
  pure record

def getRecord : Action OperationJournalRecord := do
  let held ← get
  match held.cached with
  | some record => pure record
  | none => refresh scope env

/-- `write`: what is returned is the record as it was written. -/
def write (record : OperationJournalRecord) (requireSession : Bool) :
    Action OperationJournalRecord := do
  assertIf env requireSession .beforeWrite
  let _ ← lift (validateRecord (compact record).toValue scope.val)
  let text ← lift (encodeVaultJson (compact record).toValue)
  assertIf env requireSession .onCommit
  lift (require env.saves uncommitted)
  modify fun held => { held with store := some text, cached := some (compact record) }
  pure (compact record)

/-- What a method answers. -/
inductive Answer where
  | record (record : OperationJournalRecord)
  /-- The operation, as it stands now. -/
  | operation (op : Option JournalOperation)

def settle (requireSession : Bool) : Proposal → Action Answer
  | .existing op => pure (.operation (some op))
  | .next record id => do
    let written ← write scope env record requireSession
    pure (.operation (written.operations.find? fun op => op.id = id))

def mutate (id : String) (requireSession : Bool)
    (update : List String → JournalOperation → Result JournalOperation) : Action Answer := do
  let record ← getRecord scope env
  let held ← get
  let proposal ← lift (amend id (update held.submittedInLease) env.now record)
  settle scope env requireSession proposal

/-! ## Methods -/

def perform : Call → Action Answer
  | .read => do
    let record ← refresh scope env
    pure (.record record)
  | .prepare input => do
    assertSession env .enter
    let prepared ← lift (normalizePrepared input.val)
    let record ← getRecord scope env
    let proposal ← lift (prepareIn prepared env.now record)
    settle scope env true proposal
  | .markSubmitting id transactionId => do
    let answer ← mutate scope env id true fun submitted => markSubmitting submitted transactionId
    modify fun held => { held with submittedInLease := id :: held.submittedInLease }
    pure answer
  | .markUncertain id => mutate scope env id false fun _ => markUncertain
  | .confirm id evidence => mutate scope env id false fun _ => confirm scope evidence
  | .reject id evidence => mutate scope env id false fun _ => reject scope evidence
  | .abandonPrepared id => mutate scope env id true fun _ => abandonPrepared
  | .acknowledgeConfirmed id => mutate scope env id true fun _ => acknowledgeConfirmed

end Methods

end Line.Journal
