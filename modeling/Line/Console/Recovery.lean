import Line.Console.Values
import Line.Engine.Encoding
import Line.Journal.Lease

/-!
# The private state of a console

What a confirmed operation restores, from `src/app/console-recovery.ts`. A snapshot comes
out of the journal as a `Value`, and nothing but the checks here says that it is one: the
code reads it property by property, and a property that is not there is `undefined`.

A check that meets a value of another kind throws, which the caller takes for a state that
cannot be restored. So the functions here return errors rather than defaults, and where the
source compares two values that may both be missing the comparison is written out as it is
there.

Keys and commitments are byte strings written in hexadecimal. The hash functions are those
of the contract (`Line.Compact`), on byte strings.
-/

namespace Line.Console

open Vault Journal Checked

/-! ## Words -/

abbrev Bytes := List (Fin 256)

def toHex (bytes : Bytes) : String := .ofList (bytes.flatMap hexPair)

def hexToBytes : Value → Result Bytes
  | .string s =>
    if (strip s.toList).length % 2 = 0 ∧ (strip s.toList).all isHexDigit then
      .ok ((readBytes ((strip s.toList).map Char.toLower)).getD [])
    else .error (.plain "Invalid hex string")
  | _ => .error (.typeError "hex.startsWith is not a function")

/-- `normalizeCommitment`; only null is not an error without being a word. -/
def normalizeCommitment : Value → Result (Option String)
  | .null => .ok none
  | value =>
    match hex value "" with
    | .ok s => .ok (some s)
    | .error _ => .error (.plain "Invalid public commitment evidence.")

/-- `hexToBytes(normalizeCommitment(value)!)`. -/
def bytes32 (value : Value) : Result Bytes := do
  let s ← normalizeCommitment value
  hexToBytes (nullable s)

def safeNatural (message : String) (value : Value) : Result ℕ :=
  match value.safeNat with
  | some n => .ok n
  | none => .error (.plain message)

def safeUnits : Value → Result ℕ :=
  safeNatural "Recovery requires bounded integer accounting values."

/-- `BigInt(n)`, as the commitments serialise it. -/
def toU64 (n : ℕ) : Line.U64 := ⟨n % 2 ^ 64, Line.mod_lt_u64 n⟩

/-- `BigInt(text)` of a canonical decimal. -/
def bigInt (text : String) : Result ℕ :=
  if Decimal.canonical text.toList then .ok (Decimal.read text.toList)
  else .error (.plain "Cannot convert to a BigInt")

/-! ## The runtime and its scope -/

inductive RuntimeMode where
  | network | local | test
deriving DecidableEq, Repr

def RuntimeMode.name : RuntimeMode → String
  | .network => "network"
  | .local => "local"
  | .test => "test"

/-- What is fixed of a `LineRuntime`. -/
structure Runtime where
  mode : RuntimeMode
  networkId : String
  /-- `getContractAddress()`. -/
  contractAddress : Option String
  /-- Whether it has `getTransactionReceipt`. -/
  observesReceipts : Bool
  /-- Whether it has `getRecoveryEvidence`. -/
  observesEvidence : Bool

/-- What the console reads of a `LedgerPublicStatus`. -/
structure LedgerPublicStatus where
  runtime : RuntimeMode
  networkId : String
  contractDomain : String
  identityCommitment : Option String
  lineCommitment : Option String
  lineGeneration : Value
  actionClock : Value
  feeFlat : Value
  feeBps : Value

/-- File provenance only. -/
def LINE_SOURCE_FINGERPRINT : String :=
  "35ebd14e19ce682230b685f6f3729923a9c56b0719eb17a684e44e4a39c73eff"

def consoleJournalScope (runtime : Runtime) (ledger : LedgerPublicStatus) :
    Result JournalScope := do
  match runtime.contractAddress with
  | none => .error (.plain "Configure a contract before creating operation intents.")
  | some "" => .error (.plain "Configure a contract before creating operation intents.")
  | some address => do
    let contractAddress ← normalizeCommitment
      (.string (if runtime.mode = .network then address else ledger.contractDomain))
    pure ⟨runtime.networkId, contractAddress.getD "", LINE_SOURCE_FINGERPRINT⟩

/-! ## Refund records -/

/-- `value.trim()` is not empty. -/
def notBlank : Value → Bool
  | .string s => s.toList.any fun c =>
      !(decide (c.toNat < 65536) && Line.Engine.isWhitespace c.toNat.toUInt16)
  | _ => false

def validateRefundRecord (r : Value) : Result Unit := do
  require r.isObject (.plain "Invalid RefundRecord: expected object")
  require ((r.get "version").strictEq (.number (.ofNat 1))) (.plain "Invalid RefundRecord version")
  ["networkId", "contractAddress", "contractDomain", "identityCommitment", "noteCommitment",
      "refundCommitment", "salt"].forM fun key =>
    require (r.get key).isFilled (.plain s!"Missing {key} in RefundRecord")
  ["lineGeneration", "amount", "allocatedCredit", "updatedAt"].forM fun key =>
    require (r.get key).safeNat.isSome (.plain s!"Invalid {key} in RefundRecord")
  require (decide ((r.get "amount").safeNat.getD 0 + (r.get "allocatedCredit").safeNat.getD 0
    ≤ Number.maxSafe)) (.plain "Invalid refund cost")
  require ((r.get "status").isText "allocated" || (r.get "status").isText "issuer-reported")
    (.plain "Invalid RefundRecord status")
  require (!r.has "issuerReportObserved" || (r.get "issuerReportObserved").isBoolean)
    (.plain "Invalid issuerReportObserved in RefundRecord")
  require (!(r.get "status").isText "issuer-reported" || notBlank (r.get "paymentReference") &&
      (r.get "receiptExpiry").safeNat.isSome && (r.get "amount").safeNat != some 0)
    (.plain "Missing issuer refund report terms")

/-! ## Books -/

section Hashes

variable [Line.Compact Bytes]

/-- The commitment that the opening in a line or agent record computes to, with the names that
the record has for the limit and the debt. -/
def openedCommitment (record domain : Value) (limit outstanding : String) : Result String := do
  let identity ← hexToBytes (record.get "agentSecret")
  let domain ← hexToBytes domain
  let limit ← safeUnits (record.get limit)
  let outstanding ← safeUnits (record.get outstanding)
  let epoch ← safeUnits (record.get "epoch")
  let salt ← hexToBytes (record.get "salt")
  pure (toHex (Line.Engine.lineStateCommit domain (Line.Engine.agentId identity) (toU64 limit)
    (toU64 outstanding) (toU64 epoch) salt))

/-- `toHex(agentId(bytes32(secret)))`. -/
def identityOf (secret : Value) : Result String := do
  let secret ← bytes32 secret
  pure (toHex (Line.Engine.agentId secret))

def retireHistoricalBook (state : Value) (currentGeneration : String) : Result Value := do
  let retired ← clone state
  let line := retired.get "agentLineRecord"
  if !line.truthy then return retired
  let generation ← safeUnits (line.get "lineGeneration")
  let current ← bigInt currentGeneration
  if current ≤ generation then return retired
  let identity ← identityOf (line.get "agentSecret")
  let recorded ← normalizeCommitment (line.get "identityCommitment")
  require (some identity == recorded) (.plain "Historical agent key does not match its identity.")
  let keys := ((retired.get "historicalAgentKeys").orElse (.array [])).itemsOf
  let known ← keys.mapM fun key => do
    let identityCommitment ← key.access "identityCommitment"
    normalizeCommitment identityCommitment
  let keys := if known.contains (some identity) then keys else
    keys ++ [.object [("identityCommitment", .string identity),
      ("agentSecret", line.get "agentSecret")]]
  pure (((retired.assign "historicalAgentKeys" (.array keys)).assign "agentLineRecord" .null).assign
    "agentRecord" .null)

/-! ## Recovery -/

/-- `!key || toHex(agentId(bytes32(key.agentSecret))) !== normalizeCommitment(…)` throws. -/
def checkHistoricalKey (key : Value) : Result Unit := do
  require key.truthy (.plain "Invalid recovered historical agent keys.")
  let identity ← identityOf (key.get "agentSecret")
  let recorded ← normalizeCommitment (key.get "identityCommitment")
  require (some identity == recorded) (.plain "Invalid recovered historical agent keys.")

/-- The refund belongs to the instance, and its opening is that of its commitment. -/
def checkRefund (runtime : Runtime) (domain : String) (refund : Value) : Result Unit := do
  validateRefundRecord refund
  let message := "Recovered private refund opening does not match its commitment or instance."
  require ((refund.get "networkId").isText runtime.networkId &&
    (refund.get "contractAddress").strictEq (nullable runtime.contractAddress)) (.plain message)
  let recorded ← normalizeCommitment (refund.get "contractDomain")
  let expected ← normalizeCommitment (.string domain)
  require (recorded == expected) (.plain message)
  let domain ← bytes32 (refund.get "contractDomain")
  let generation ← safeUnits (refund.get "lineGeneration")
  let identity ← bytes32 (refund.get "identityCommitment")
  let note ← bytes32 (refund.get "noteCommitment")
  let amount ← safeUnits (refund.get "amount")
  let salt ← bytes32 (refund.get "salt")
  let commitment ← normalizeCommitment (refund.get "refundCommitment")
  require (some (toHex (Line.Engine.refundCommit domain (toU64 generation) identity note
    (toU64 amount) salt)) == commitment) (.plain message)

/-- The opening in a line record is that of its commitment. -/
def checkLine (line : Value) : Result Unit := do
  let computed ← openedCommitment line (line.get "contractDomain") "limit" "outstanding"
  let commitment ← normalizeCommitment (line.get "lineCommitment")
  let secret ← hexToBytes (line.get "agentSecret")
  let identity ← normalizeCommitment (line.get "identityCommitment")
  require (some computed == commitment && some (toHex (Line.Engine.agentId secret)) == identity)
    (.plain "Recovered credit opening does not match its commitment.")

/-- `state.list = state.list.map(item => item.key === target ? { ...item, field: v } : item)`. -/
def annotate (list key field : String) (target v state : Value) : Result Value := do
  let items ← (state.get list).itemsOf.mapM fun item => do
    let found ← item.access key
    pure (if found.strictEq target then item.spread field v else item)
  pure (state.assign list (.array items))

/-- The transaction of an operation, noted with what the operation was about. -/
def annotateTransaction (operation : JournalOperation) (args transaction state : Value) :
    Result Value :=
  match operation.kind with
  | .draw => do
    let params ← args.index0
    let quote ← params.access "quoteCommit"
    annotate "drawNotes" "quoteCommitment" "drawTransactionId" quote transaction state
  | .redeemDraw => do
    let params ← args.index0
    let note ← params.access "noteCommit"
    annotate "drawNotes" "noteCommitment" "redemptionTransactionId" note transaction state
  | .acknowledgeRepayment => do
    let params ← args.index0
    let reference ← params.access "paymentRef"
    annotate "repayments" "paymentReference" "transactionId" reference transaction state
  | .cancelOrExpireNote => do
    let note ← args.index0
    annotate "refunds" "noteCommitment" "transactionId" note transaction state
  | _ => pure state

/-- `operation.receipt?.txHash ?? operation.transactionId ?? undefined`. -/
def transactionOf (operation : JournalOperation) : Value :=
  let txHash : Value :=
    match operation.receipt with
    | some receipt => receipt.get "txHash"
    | none => .undefined
  (txHash.orElse (nullable operation.transactionId)).orElse .undefined

/-- The private state of a snapshot, if the snapshot is one of this contract instance. -/
def snapshotState (snapshot : Value) (runtime : Runtime) (domain : String) : Result Value := do
  let domain ← normalizeCommitment (.string domain)
  require (snapshot.truthy && (snapshot.get "schema").isText "line:console-recovery/v1" &&
      (snapshot.get "networkId").isText runtime.networkId &&
      (snapshot.get "contractAddress").strictEq (nullable runtime.contractAddress) &&
      (snapshot.get "contractDomain").strictEq (nullable domain))
    (.plain "Recovery snapshot belongs to another contract instance.")
  let state := snapshot.get "privateState"
  require (state.truthy && (state.get "merchantQuotes").isArray && (state.get "drawNotes").isArray
    && (state.get "repayments").isArray) (.plain "Malformed recovery snapshot.")
  require ((state.get "refunds").isUndefined || (state.get "refunds").isArray)
    (.plain "Malformed refund recovery snapshot.")
  let state := state.assign "refunds" ((state.get "refunds").orElse (.array []))
  pure (state.assign "historicalAgentKeys" ((state.get "historicalAgentKeys").orElse (.array [])))

def recoveredConsole (operation : JournalOperation) (runtime : Runtime) (domain : String) :
    Result Value := do
  let snapshot ← clone operation.candidateSnapshot
  let state ← snapshotState snapshot runtime domain
  require (state.get "historicalAgentKeys").isArray
    (.plain "Invalid recovered historical agent keys.")
  (state.get "historicalAgentKeys").itemsOf.forM checkHistoricalKey
  (state.get "refunds").itemsOf.forM (checkRefund runtime domain)
  let line := state.get "agentLineRecord"
  if line.truthy then checkLine line
  let transaction := transactionOf operation
  let args := (snapshot.get "intent").get "arguments"
  if transaction.truthy && args.truthy then
    annotateTransaction operation args transaction state
  else pure state

end Hashes

end Line.Console
