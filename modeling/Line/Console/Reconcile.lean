import Line.Console.Session

/-!
# Reconciling the console with the ledger

`src/app/reconcile-console.ts`: at the start of every action the operations of the journal
whose outcome is open are settled, if the runtime can tell how, and the private state of
the latest confirmed operation is restored, if it still opens the public ledger.

The session is written as the source is, question by question; what is computed from the
answers is separate from it and can fail on its own (`judge`, `restore`, `conclude`). A failure
of the first kind is caught where the source catches it, so that an operation that could not be
looked up counts as not settled, and the reconciliation ends as blocked. A lost session is not
caught: it ends the action.
-/

namespace Line.Console

open Vault Journal Checked

/-! ## Comparing with the public ledger -/

/-- `a && b && …`: none is looked at after one that is false. -/
def allOf : List (Result Bool) → Result Bool
  | [] => pure true
  | x :: xs => do
    let holds ← x
    if holds then allOf xs else pure false

/-- `normalizeCommitment(a) === normalizeCommitment(b)`. -/
def sameCommitment (a b : Value) : Result Bool := do
  let a ← normalizeCommitment a
  let b ← normalizeCommitment b
  pure (a == b)

def sameScope (a b : JournalScope) : Result Bool :=
  allOf [pure (a.networkId == b.networkId),
    sameCommitment (.string a.contractAddress) (.string b.contractAddress),
    sameCommitment (.string a.sourceFingerprint) (.string b.sourceFingerprint)]

def decimal : Value → Result String
  | .string s => if validGeneration s then .ok s
      else .error (.plain "Invalid exact generation evidence.")
  | _ => .error (.plain "Invalid exact generation evidence.")

def safe : Value → Result ℕ := safeNatural "Unsafe recovered private accounting."

/-- `decimal(a) === decimal(b)`. -/
def sameDecimal (a b : Value) : Result Bool := do
  let a ← decimal a
  let b ← decimal b
  pure (a == b)

/-- `String(safe(a)) === decimal(b)`. -/
def sameNumber (a b : Value) : Result Bool := do
  let a ← safe a
  let b ← decimal b
  pure (toString a == b)

/-- An address on a network is a word; elsewhere it is any text. -/
def sameAddress (evidence : RuntimeRecoveryEvidence) (runtime : Runtime) : Result Bool :=
  if runtime.mode = .network then
    sameCommitment (.string evidence.contractAddress) (nullable runtime.contractAddress)
  else pure (some evidence.contractAddress == runtime.contractAddress)

def observationMatches (evidence : RuntimeRecoveryEvidence) (runtime : Runtime)
    (ledger : LedgerPublicStatus) : Result Bool := do
  let sameAddress ← sameAddress evidence runtime
  allOf [pure (decide (evidence.runtime = runtime.mode)),
    pure (evidence.networkId == runtime.networkId), pure sameAddress,
    sameCommitment (.string evidence.contractDomain) (.string ledger.contractDomain),
    (decimal (.string evidence.lineGeneration)).map fun _ => true]

/-- What a runtime without recovery evidence has to offer. -/
def ledgerObservation (runtime : Runtime) (ledger : LedgerPublicStatus) :
    Result RuntimeRecoveryEvidence := do
  let address := runtime.contractAddress.getD ""
  require (address != "") (.plain "No runtime contract configured.")
  let feeFlat ← safe ledger.feeFlat
  let feeBps ← safe ledger.feeBps
  let lineGeneration ← safe ledger.lineGeneration
  let actionClock ← safe ledger.actionClock
  pure { runtime := runtime.mode
         networkId := ledger.networkId
         contractAddress := address
         contractDomain := ledger.contractDomain
         identityCommitment := ledger.identityCommitment
         lineCommitment := ledger.lineCommitment
         feeFlat := some (toString feeFlat)
         feeBps := some (toString feeBps)
         lineGeneration := toString lineGeneration
         actionClock := toString actionClock
         quote := none
         note := none
         nullifier := none }

/-- `"0".repeat(64)`. -/
def noCommitment : String := .ofList (List.replicate 64 '0')

/-- There is a line of this generation. -/
def active (evidence : RuntimeRecoveryEvidence) (publicCommitment : Option String) : Bool :=
  evidence.lineGeneration != "0" && publicCommitment.isSome && publicCommitment != some noCommitment

/-- The line record is one of this instance and generation, with the public commitment. -/
def lineInstance (line : Value) (evidence : RuntimeRecoveryEvidence) (runtime : Runtime) :
    Result Bool :=
  allOf [pure ((line.get "networkId").isText runtime.networkId),
    pure ((line.get "contractAddress").strictEq (nullable runtime.contractAddress)),
    sameCommitment (line.get "contractDomain") (.string evidence.contractDomain),
    sameNumber (line.get "lineGeneration") (.string evidence.lineGeneration),
    sameCommitment (line.get "identityCommitment") (nullable evidence.identityCommitment),
    sameCommitment (line.get "lineCommitment") (nullable evidence.lineCommitment)]

def feePolicy (line : Value) (evidence : RuntimeRecoveryEvidence) : Result Bool :=
  allOf [sameNumber (line.get "feeFlat") (.optional evidence.feeFlat),
    sameNumber (line.get "feeBps") (.optional evidence.feeBps),
    (safe (line.get "feeBps")).map fun bps => decide (bps ≤ 10000)]

theorem receipt_keys : ["executionMode", "txId", "txHash", "blockHeight"].Pairwise
    fun a b => a ≠ b ∧ before a b = true :=
  ordered_keys (by decide)

section Hashes

variable [Line.Compact Bytes]

/-- The opening of the agent record is that of the public commitment. -/
def recordOpens (record line : Value) (evidence : RuntimeRecoveryEvidence) : Result Bool := do
  let secret ← hexToBytes (record.get "agentSecret")
  let identity := toHex (Line.Engine.agentId secret)
  let commitment ← openedCommitment record (line.get "contractDomain") "L" "B"
  let publicCommitment ← normalizeCommitment (nullable evidence.lineCommitment)
  allOf [pure (some commitment == publicCommitment),
    (normalizeCommitment (nullable evidence.identityCommitment)).map (some identity == ·),
    (normalizeCommitment (record.get "lineCommitment")).map (· == publicCommitment),
    (normalizeCommitment (record.get "identityCommitment")).map (· == some identity)]

def openingMatches (state : Value) (evidence : RuntimeRecoveryEvidence) (runtime : Runtime)
    (allowMissingBook : Bool) : Result Bool := do
  let line := state.get "agentLineRecord"
  let publicCommitment ← normalizeCommitment (nullable evidence.lineCommitment)
  if line.truthy then
    allOf [lineInstance line evidence runtime, feePolicy line evidence,
      if (state.get "agentRecord").truthy then recordOpens (state.get "agentRecord") line evidence
      else pure true]
  else pure (!active evidence publicCommitment ||
    allowMissingBook && (state.get "agentRecord").isNull)

/-! ## Effects -/

/-- The note was compensated as the effect says. -/
def compensated (note : NoteEvidence) (refundCommitment : String) (cashRefundOwed : Bool) :
    Result Bool :=
  allOf [pure (note.cancelled.getD false), pure (!note.redeemed.getD false),
    pure (note.compensationAllocated == some true),
    sameCommitment (.optional note.refundCommitment) (.string refundCommitment),
    pure (note.cashRefundOwed == some cashRefundOwed)]

/-- What an effect on a note asks of the note that is observed. -/
def noteShows (effect : JournalExpectedEffect) (note : NoteEvidence)
    (evidence : RuntimeRecoveryEvidence) : Result Bool :=
  match effect.effect with
  | .quotePresent => pure false
  | .noteRedeemed => pure (note.redeemed == some true)
  | .noteCancelled => pure (note.cancelled == some true)
  | .noteCompensationAllocated refundCommitment cashRefundOwed lineCommitment =>
    allOf [compensated note refundCommitment cashRefundOwed, pure note.refundAcknowledged.isSome,
      match lineCommitment with
      | none => do
        let generation ← decimal (.string effect.lineGeneration)
        let current ← decimal (.string evidence.lineGeneration)
        let generation ← bigInt generation
        let current ← bigInt current
        pure (decide (generation < current))
      | some lineCommitment =>
        sameCommitment (.string lineCommitment) (nullable evidence.lineCommitment)]
  | .noteRefundAcknowledged refundCommitment paymentNullifier =>
    allOf [compensated note refundCommitment true, pure (note.refundAcknowledged == some true),
      pure (evidence.nullifier.any (·.present)),
      sameCommitment (.optional note.refundPaymentNullifier) (.string paymentNullifier),
      sameCommitment (.optional (evidence.nullifier.map (·.value))) (.string paymentNullifier)]

def effectMatches (operation : JournalOperation) (evidence : RuntimeRecoveryEvidence) :
    Result Bool :=
  match operation.expectedEffect with
  | none => pure false
  | some effect => allOf [pure (decide (effect.effect.circuit = operation.kind)),
      sameCommitment (.string effect.contractDomain) (.string evidence.contractDomain),
      match effect.effect with
      | .quotePresent =>
        match evidence.quote with
        | none => pure false
        | some quote => allOf [pure quote.present,
            sameCommitment (.string quote.commitment) (.string effect.targetCommitment),
            sameDecimal (.optional quote.lineGeneration) (.string effect.lineGeneration)]
      | _ =>
        match evidence.note with
        | none => pure false
        | some note => allOf [pure note.present,
            sameCommitment (.string note.commitment) (.string effect.targetCommitment),
            sameDecimal (.optional note.lineGeneration) (.string effect.lineGeneration),
            noteShows effect note evidence]]

/-- Effects that a book commitment alone does not establish. -/
def compound (operation : JournalOperation) : Bool :=
  operation.expectedEffect.any fun e => e.effect.compound

def recoveryQuery (operation : JournalOperation) : RecoveryQuery :=
  match operation.expectedEffect with
  | none => ⟨none, none, none⟩
  | some effect =>
    match effect.effect with
    | .quotePresent => ⟨some effect.targetCommitment, none, none⟩
    | .noteRefundAcknowledged _ paymentNullifier =>
      ⟨none, some effect.targetCommitment, some paymentNullifier⟩
    | _ => ⟨none, some effect.targetCommitment, none⟩

def mayRestoreWithoutBook (operation : JournalOperation) : Bool :=
  match operation.expectedEffect.map JournalExpectedEffect.effect with
  | some (.noteRefundAcknowledged ..) => true
  | some (.noteCompensationAllocated _ _ none) => true
  | _ => false

/-! ## Books of earlier generations -/

/-- The opening in a note record. -/
def openedNote (note : Value) : Result String := do
  let domain ← hexToBytes (note.get "contractDomain")
  let generation ← safe (note.get "lineGeneration")
  let identity ← hexToBytes (note.get "identityCommitment")
  let quote ← hexToBytes (note.get "quoteCommitment")
  let merchant ← hexToBytes (note.get "merchantPublicKey")
  let amount ← safe (note.get "amount")
  let fee ← safe (note.get "fee")
  let nonce ← hexToBytes (note.get "noteNonce")
  let expiry ← safe (note.get "expiry")
  let salt ← hexToBytes (note.get "noteSalt")
  pure (toHex (Line.Engine.drawNoteCommit domain (toU64 generation) identity quote merchant
    (toU64 amount) (toU64 fee) nonce (toU64 expiry) salt))

/-- The secret, read by `hexToBytes`, is that of the identity. -/
def ownsIdentity (secret : Value) (identity : Option String) : Result Bool := do
  let secret ← hexToBytes secret
  pure (some (toHex (Line.Engine.agentId secret)) == identity)

/-- One of the historical keys is that of the identity. -/
def heldEarlier (state : Value) (identity : Option String) : Result Bool :=
  ((state.get "historicalAgentKeys").orElse (.array [])).itemsOf.anyM fun key => do
    let recorded ← key.access "identityCommitment"
    let recorded ← normalizeCommitment recorded
    if recorded == identity then ownsIdentity (key.get "agentSecret") identity else pure false

/-- The key of the book, or an earlier one, is that of the identity. -/
def hasOriginalKey (state : Value) (identity : Option String) : Result Bool := do
  let current ← ownsIdentity ((state.get "agentLineRecord").get "agentSecret") identity
  if current then pure true else heldEarlier state identity

/-- A record of the instance, from before the observed generation. -/
def historical (record : Value) (evidence : RuntimeRecoveryEvidence) (runtime : Runtime) :
    Result Bool :=
  allOf [pure ((record.get "networkId").isText runtime.networkId),
    pure ((record.get "contractAddress").strictEq (nullable runtime.contractAddress)),
    sameCommitment (record.get "contractDomain") (.string evidence.contractDomain), do
      let generation ← safe (record.get "lineGeneration")
      let current ← decimal (.string evidence.lineGeneration)
      let current ← bigInt current
      pure (decide (generation < current))]

def retireForHistoricalNote (state : Value) (target : String) (evidence : RuntimeRecoveryEvidence)
    (runtime : Runtime) : Result Value := do
  let required : Error :=
    .plain "Historical recovery requires an original note from a previous generation."
  let D ← normalizeCommitment (.string target)
  let note ← (state.get "drawNotes").itemsOf.findM? fun note => do
    let commitment ← note.access "noteCommitment"
    let commitment ← normalizeCommitment commitment
    pure (commitment == D)
  let note := note.getD .undefined
  let line := state.get "agentLineRecord"
  require (note.truthy && line.truthy) required
  let same ← allOf [historical note evidence runtime, historical line evidence runtime]
  require same required
  let opened ← openedNote note
  let originalIdentity ← normalizeCommitment (note.get "identityCommitment")
  let hasOriginalKey ← hasOriginalKey state originalIdentity
  require (some opened == D && hasOriginalKey) (.plain
    "Historical recovery requires the verified original note and original owner key.")
  retireHistoricalBook state evidence.lineGeneration

/-! ## Reconciliation -/

structure ConsoleReconciliation where
  privateState : Option Value
  blocked : Bool
  /-- Acknowledged only after the private state has been published. -/
  confirmedId : Option String

def blocked : ConsoleReconciliation := ⟨none, true, none⟩

structure ReconcileOptions where
  restoreAcknowledged : Bool
  historicalNoteCommitment : Option String

/-- A text that is given and not empty. -/
def filled : Option String → Option String
  | some "" => none
  | s => s

/-- The receipt that a finalized transaction is confirmed with. -/
def finalizedReceipt (mode : RuntimeMode) (txId : String) (txHash : Option String)
    (blockHeight : Option Number) : Data :=
  ⟨.object ([("executionMode", .string mode.name), ("txId", .string txId)]
      ++ (txHash.map fun s => ("txHash", Value.string s)).toList
      ++ (blockHeight.map fun n => ("blockHeight", Value.number n)).toList), by
    cases txHash <;> cases blockHeight
    · exact ⟨receipt_keys.sublist (List.isSublist_iff_sublist.mp rfl), trivial, trivial, trivial⟩
    · exact ⟨receipt_keys.sublist (List.isSublist_iff_sublist.mp rfl), trivial, trivial, trivial,
        trivial⟩
    · exact ⟨receipt_keys.sublist (List.isSublist_iff_sublist.mp rfl), trivial, trivial, trivial,
        trivial⟩
    · exact ⟨receipt_keys.sublist (List.isSublist_iff_sublist.mp rfl), trivial, trivial, trivial,
        trivial, trivial⟩⟩

/-- What an observation says of an open operation: nothing, that its candidate is the public
book, or that its effect is there. -/
inductive Judgement where
  | nothing | candidate | effect
deriving DecidableEq

/-- What is restored of the latest confirmed operation. -/
inductive Restoration where
  | blocked
  /-- Its state without the book of an earlier generation. -/
  | retired (state : Value)
  | opened (state : Value)

section Reconciliation

variable (runtime : Runtime) (ledger : LedgerPublicStatus)

def judge (operation : JournalOperation) (evidence : RuntimeRecoveryEvidence) :
    Result Judgement := do
  let same ← observationMatches evidence runtime ledger
  if !same then return .nothing
  let state ← recoveredConsole operation runtime evidence.contractDomain
  let opening ← openingMatches state evidence runtime (mayRestoreWithoutBook operation)
  if !opening then return .nothing
  let candidateObserved ← allOf [pure (!compound operation),
    pure (filled operation.candidateCommitment).isSome,
    sameCommitment (nullable operation.candidateCommitment) (nullable evidence.lineCommitment)]
  let effectObserved ← effectMatches operation evidence
  pure (if candidateObserved then .candidate else if effectObserved then .effect else .nothing)

def restore (latest : JournalOperation) (options : ReconcileOptions)
    (evidence : RuntimeRecoveryEvidence) : Result Restoration := do
  let same ← observationMatches evidence runtime ledger
  if !same then return .blocked
  let state ← recoveredConsole latest runtime evidence.contractDomain
  let opening ← openingMatches state evidence runtime (mayRestoreWithoutBook latest)
  if opening then
    if compound latest then
      let shown ← effectMatches latest evidence
      pure (if shown then .opened state else .blocked)
    else pure (.opened state)
  else
    match latest.acknowledged, filled options.historicalNoteCommitment with
    | true, some target => do
      let state ← retireForHistoricalNote state target evidence runtime
      let opening ← openingMatches state evidence runtime true
      pure (if opening then .retired state else .blocked)
    | _, _ => pure .blocked

/-- The refund of the note is marked: the issuer's report was observed. -/
def markReported (state : Value) (targetCommitment : String) : Result Value := do
  let target ← normalizeCommitment (.string targetCommitment)
  let refunds ← ((state.get "refunds").orElse (.array [])).itemsOf.mapM fun refund => do
    let commitment ← refund.access "noteCommitment"
    let commitment ← normalizeCommitment commitment
    pure (if commitment == target then refund.spread "issuerReportObserved" (.boolean true)
      else refund)
  pure (state.assign "refunds" (.array refunds))

/-- The issuer's report is public, of a compensation that the operation allocated. -/
def reported (latest : JournalOperation) (evidence : RuntimeRecoveryEvidence) :
    Option String :=
  match latest.expectedEffect with
  | some effect =>
    match effect.effect with
    | .noteCompensationAllocated .. =>
      if evidence.note.any (·.refundAcknowledged == some true) then some effect.targetCommitment
      else none
    | _ => none
  | none => none

/-- What is returned once the state of the latest confirmed operation is found to open. -/
def publish (latest : JournalOperation) (options : ReconcileOptions)
    (evidence : RuntimeRecoveryEvidence) (state : Value) : Result ConsoleReconciliation :=
  match reported latest evidence with
  | some target => do
    let state ← markReported state target
    pure ⟨some state, false, some latest.id⟩
  | none =>
    if latest.acknowledged && !options.restoreAcknowledged then pure ⟨none, false, none⟩
    else pure ⟨some state, false, some latest.id⟩

/-- What the observation makes of the latest confirmed operation; a failure to restore it blocks. -/
def conclude (latest : JournalOperation) (options : ReconcileOptions)
    (evidence : RuntimeRecoveryEvidence) : Result ConsoleReconciliation :=
  match restore runtime ledger latest options evidence with
  | .error _ | .ok .blocked => pure blocked
  | .ok (.retired state) => pure ⟨some state, false, none⟩
  | .ok (.opened state) => publish latest options evidence state

variable (scope : Scope) (journalScope : JournalScope) (around : Surroundings)

/-- `try { evidence = … } catch { …; return blocked(); }`, and the check after it. -/
def observe (query : RecoveryQuery) : Session (Option RuntimeRecoveryEvidence) := do
  let observed ← catching (do
    let evidence ← getRecoveryEvidence around query
    pure (some evidence)) fun _ => pure none
  assertCurrent around
  pure observed

/-- A saved transaction id permits the exact observation of its finalized receipt. -/
def byReceipt (operation : JournalOperation) : Session Bool :=
  match runtime.observesReceipts, filled operation.transactionId with
  | true, some transactionId => do
    let receipt ← getTransactionReceipt around transactionId
    assertCurrent around
    match receipt with
    | none => pure false
    | some receipt =>
      if receipt.txId = some transactionId ∧ receipt.disposition = some .confirmedSuccess
          ∧ receipt.ok = true then do
        let _ ← lease scope around (.confirm operation.id
          ⟨journalScope, .string transactionId, .definiteReceipt (finalizedReceipt runtime.mode
            transactionId (filled receipt.txHash) receipt.blockHeight)⟩)
        assertCurrent around
        pure true
      else if receipt.txId = some transactionId ∧ receipt.disposition = some .definitiveRejection
          ∧ receipt.ok = false then do
        let _ ← lease scope around (.reject operation.id
          ⟨journalScope, true, .string transactionId, .undefined⟩)
        assertCurrent around
        pure true
      else pure false
  | _, _ => pure false

/-- The evidence that an observation confirms an operation with. -/
def observedEvidence (operation : JournalOperation) (evidence : RuntimeRecoveryEvidence) :
    Judgement → Confirmation
  | .candidate => .observedCandidate (nullable evidence.lineCommitment)
  | _ => .observedEffect ((operation.expectedEffect.map (·.toValue)).getD .undefined)

def byObservation (operation : JournalOperation) : Session Bool := do
  if !runtime.observesEvidence then return false
  match ← observe around (recoveryQuery operation) with
  | none => pure false
  | some evidence =>
    match judge runtime ledger operation evidence with
    | .error _ | .ok .nothing => pure false
    | .ok judgement => do
      assertCurrent around
      let _ ← lease scope around (.confirm operation.id ⟨journalScope,
        .optional (filled operation.transactionId), observedEvidence operation evidence judgement⟩)
      assertCurrent around
      pure true

/-- One operation of the journal; without a settled outcome everything stops. -/
def reconcileOperation (operation : JournalOperation) : Session Bool :=
  match operation.status with
  | .prepared => do
    assertCurrent around
    let _ ← lease scope around (.abandonPrepared operation.id)
    assertCurrent around
    pure true
  | .submitting | .uncertain => do
    if ← byReceipt runtime scope journalScope around operation then pure true
    else byObservation runtime ledger scope journalScope around operation
  | .confirmed | .rejected => pure true

def reconcileOperations : List JournalOperation → Session Bool
  | [] => pure true
  | operation :: operations => do
    if ← reconcileOperation runtime ledger scope journalScope around operation then
      reconcileOperations operations
    else pure false

/-- The observation that the latest confirmed operation is compared with. -/
def observeLatest (latest : JournalOperation) : Session (Option RuntimeRecoveryEvidence) :=
  if runtime.observesEvidence then
    observe around (if compound latest then recoveryQuery latest else ⟨none, none, none⟩)
  else do
    assertCurrent around
    pure (ledgerObservation runtime ledger).toOption

/-- The latest confirmed operation of the journal, if there is one, is compared and restored. -/
def restoreLatest (options : ReconcileOptions) (current : OperationJournalRecord) :
    Session ConsoleReconciliation :=
  match latestConfirmedOperation current with
  | none => pure ⟨none, false, none⟩
  | some latest => do
    match ← observeLatest runtime ledger around latest with
    | none => pure blocked
    | some evidence => compute (conclude runtime ledger latest options evidence)

/-- The scopes of the call, of the journal and of the instance are one. -/
def scopesAgree (record : OperationJournalRecord) : Bool :=
  (allOf [sameScope journalScope record.scope, do
      let own ← consoleJournalScope runtime ledger
      sameScope journalScope own,
    pure (runtime.networkId == ledger.networkId),
    pure (decide (runtime.mode = ledger.runtime))]).toOption.getD false

def reconcileConsole (options : ReconcileOptions) : Session ConsoleReconciliation := do
  assertCurrent around
  let record ← read scope around
  assertCurrent around
  if !scopesAgree runtime ledger journalScope record then return blocked
  let settled ← reconcileOperations runtime ledger scope journalScope around record.operations
  if !settled then return blocked
  let current ← read scope around
  assertCurrent around
  restoreLatest runtime ledger around options current

end Reconciliation

end Hashes

end Line.Console
