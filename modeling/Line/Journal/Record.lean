import Line.Vault.Codec

/-!
# The records of the operation journal

The data of `src/lib/security/operation-journal.ts` and the checks on it. What comes from
a caller or out of the store is a `Value`; what passed the checks has a type. The
operations of the journal are written and compared as values too (`toValue`), since the
source compares their encodings.

An operation is `prepared`, then `submitting`; its outcome is `uncertain` until it is
`confirmed` or `rejected`. While it is `prepared` it can be abandoned, which is a
rejection without evidence; once it was submitted only evidence settles it.

The checks are translated one for one and in the source's order, with the texts of their
errors, since which error a caller sees depends on which check comes first.
-/

namespace Line.Vault.Value

/-! ## Reading a value -/

/-- A property of a value, as `value.key` reads it. -/
def get (value : Value) (key : String) : Value :=
  match value with
  | .object entries => (entries.lookup key).getD .undefined
  | _ => .undefined

/-- `Boolean(value)`. -/
def truthy : Value → Bool
  | .null | .undefined | .minusZero | .number .nan => false
  | .boolean b => b
  | .string s => s ≠ ""
  | .number n => n ≠ .ofNat 0
  | .bigint z => z ≠ 0
  | _ => true

/-- `Number.isSafeInteger(value)`. -/
def isSafeInteger : Value → Bool
  | .number n => n.isSafeInteger
  | .minusZero => true
  | _ => false

/-- The number, if it is a safe integer and not below zero. -/
def safeNat : Value → Option ℕ
  | .number (.finite q) =>
    if (Number.finite q).isSafeInteger && decide (0 ≤ q) then some q.num.toNat else none
  | .minusZero => some 0
  | _ => none

/-- `exactKeys`: the keys are these, in any order. -/
def exactKeys (value : Value) (expected : List String) : Bool :=
  match value with
  | .object entries => (entries.map Prod.fst).isPerm expected
  | _ => false

def isUndefined : Value → Bool
  | .undefined => true
  | _ => false

def isText (value : Value) (s : String) : Bool :=
  match value with
  | .string t => t == s
  | _ => false

def isNull : Value → Bool
  | .null => true
  | _ => false

/-- A number below zero; with `orZero`, or zero. -/
def negative (value : Value) (orZero : Bool) : Bool :=
  match value with
  | .number n => if orZero then n.le (.ofNat 0) else n.lt (.ofNat 0)
  | .minusZero => orZero
  | _ => false

def keys : Value → List String
  | .object entries => entries.map Prod.fst
  | _ => []

end Line.Vault.Value

namespace Line.Journal

open Vault Checked

/-! ## Data -/

def OPERATION_JOURNAL_SCHEMA : String := "line:operation-journal/v2"

def MAX_JOURNAL_OPERATIONS : ℕ := 1000

inductive OperationKind where
  | registerMerchant | disableMerchant | fundReserve | withdrawUnencumberedReserve
  | withdrawFees | openLine | postQuote | draw | redeemDraw | cancelOrExpireNote
  | acknowledgeRepayment | setStatus
deriving DecidableEq, Repr

def OPERATION_KINDS : List OperationKind :=
  [.registerMerchant, .disableMerchant, .fundReserve, .withdrawUnencumberedReserve,
    .withdrawFees, .openLine, .postQuote, .draw, .redeemDraw, .cancelOrExpireNote,
    .acknowledgeRepayment, .setStatus]

def OperationKind.name : OperationKind → String
  | registerMerchant => "registerMerchant"
  | disableMerchant => "disableMerchant"
  | fundReserve => "fundReserve"
  | withdrawUnencumberedReserve => "withdrawUnencumberedReserve"
  | withdrawFees => "withdrawFees"
  | openLine => "openLine"
  | postQuote => "postQuote"
  | draw => "draw"
  | redeemDraw => "redeemDraw"
  | cancelOrExpireNote => "cancelOrExpireNote"
  | acknowledgeRepayment => "acknowledgeRepayment"
  | setStatus => "setStatus"

inductive OperationStatus where
  | prepared | submitting | uncertain | confirmed | rejected
deriving DecidableEq, Repr

def OPERATION_STATUSES : List OperationStatus :=
  [.prepared, .submitting, .uncertain, .confirmed, .rejected]

def OperationStatus.name : OperationStatus → String
  | prepared => "prepared"
  | submitting => "submitting"
  | uncertain => "uncertain"
  | confirmed => "confirmed"
  | rejected => "rejected"

structure JournalScope where
  networkId : String
  contractAddress : String
  sourceFingerprint : String
deriving DecidableEq, Repr

/--
The public effect of an operation, with what binds it. Compound effects bind the private
allocation; an acknowledged refund always owed cash, so its marker needs no field.
-/
inductive PublicEffect where
  | quotePresent
  | noteRedeemed
  | noteCancelled
  | noteCompensationAllocated (refundCommitment : String) (cashRefundOwed : Bool)
      (lineCommitment : Option String)
  | noteRefundAcknowledged (refundCommitment paymentNullifier : String)
deriving DecidableEq, Repr

def PublicEffect.name : PublicEffect → String
  | quotePresent => "quote-present"
  | noteRedeemed => "note-redeemed"
  | noteCancelled => "note-cancelled"
  | noteCompensationAllocated .. => "note-compensation-allocated"
  | noteRefundAcknowledged .. => "note-refund-acknowledged"

/-- The circuit that has the effect. -/
def PublicEffect.circuit : PublicEffect → OperationKind
  | quotePresent => .postQuote
  | noteRedeemed => .redeemDraw
  | _ => .cancelOrExpireNote

structure JournalExpectedEffect where
  targetCommitment : String
  contractDomain : String
  lineGeneration : String
  effect : PublicEffect
deriving DecidableEq, Repr

structure PreparedOperation where
  id : String
  kind : OperationKind
  fingerprint : String
  beforeCommitment : Option String
  candidateCommitment : Option String
  beforeSnapshot : Value
  candidateSnapshot : Value
  expectedEffect : Option JournalExpectedEffect

structure JournalOperation extends PreparedOperation where
  sequence : ℕ
  status : OperationStatus
  createdAt : ℕ
  updatedAt : ℕ
  acknowledged : Bool
  transactionId : Option String
  /-- A checked receipt, with the keys it came with. -/
  receipt : Option Value
  snapshotsCompacted : Bool

structure OperationJournalRecord where
  scope : JournalScope
  revision : ℕ
  operations : List JournalOperation

/-! ## Values -/

def nullable : Option String → Value
  | none => .null
  | some s => .string s

def JournalScope.toValue (scope : JournalScope) : Value :=
  .object [("networkId", .string scope.networkId),
    ("contractAddress", .string scope.contractAddress),
    ("sourceFingerprint", .string scope.sourceFingerprint)]

def PublicEffect.details : PublicEffect → List (String × Value)
  | noteCompensationAllocated refundCommitment cashRefundOwed lineCommitment =>
    [("refundCommitment", .string refundCommitment), ("cashRefundOwed", .boolean cashRefundOwed),
      ("lineCommitment", nullable lineCommitment)]
  | noteRefundAcknowledged refundCommitment paymentNullifier =>
    [("refundCommitment", .string refundCommitment), ("cashRefundOwed", .boolean true),
      ("paymentNullifier", .string paymentNullifier)]
  | _ => []

def JournalExpectedEffect.toValue (e : JournalExpectedEffect) : Value :=
  .object ([("circuit", .string e.effect.circuit.name),
    ("targetCommitment", .string e.targetCommitment),
    ("contractDomain", .string e.contractDomain), ("lineGeneration", .string e.lineGeneration),
    ("effect", .string e.effect.name)] ++ e.effect.details)

/-- The retained fields of an intent. -/
def PreparedOperation.entries (p : PreparedOperation) : List (String × Value) :=
  [("id", .string p.id), ("kind", .string p.kind.name), ("fingerprint", .string p.fingerprint),
    ("beforeCommitment", nullable p.beforeCommitment),
    ("candidateCommitment", nullable p.candidateCommitment),
    ("beforeSnapshot", p.beforeSnapshot), ("candidateSnapshot", p.candidateSnapshot),
    ("expectedEffect", (p.expectedEffect.map (·.toValue)).getD .null)]

def PreparedOperation.toValue (p : PreparedOperation) : Value := .object p.entries

def JournalOperation.toValue (op : JournalOperation) : Value :=
  .object (op.entries ++ [("sequence", .number (.ofNat op.sequence)),
    ("status", .string op.status.name), ("createdAt", .number (.ofNat op.createdAt)),
    ("updatedAt", .number (.ofNat op.updatedAt)), ("acknowledged", .boolean op.acknowledged),
    ("transactionId", nullable op.transactionId), ("receipt", op.receipt.getD .null),
    ("snapshotsCompacted", .boolean op.snapshotsCompacted)])

def OperationJournalRecord.toValue (record : OperationJournalRecord) : Value :=
  .object [("schema", .string OPERATION_JOURNAL_SCHEMA), ("scope", record.scope.toValue),
    ("revision", .number (.ofNat record.revision)),
    ("operations", .array (record.operations.map JournalOperation.toValue))]

/-! ## Checks of single values -/

/-- Throws unless the check holds. -/
def require (ok : Bool) (e : Error) : Result Unit := if ok then .ok () else .error e

def isHexDigit (c : Char) : Bool := "0123456789abcdefABCDEF".toList.contains c

/-- `value.replace(/^0x/, "")`. -/
def strip : List Char → List Char
  | '0' :: 'x' :: cs => cs
  | cs => cs

/-- `hex`: 32 bytes, with or without `0x`, in lower case. -/
def hex (value : Value) (label : String) : Result String :=
  match value with
  | .string s =>
    if (strip s.toList).length = 64 ∧ (strip s.toList).all isHexDigit then
      .ok (.ofList ((strip s.toList).map Char.toLower))
    else .error (.typeError s!"Invalid {label}.")
  | _ => .error (.typeError s!"Invalid {label}.")

/-- `commitment`: a word or null. -/
def commitment (value : Value) (label : String) : Result (Option String) :=
  match value with
  | .null => .ok none
  | value => (hex value label).map some

def isLowerOrDigit (c : Char) : Bool := c.isDigit || c.isLower

def validNetworkId (s : String) : Bool :=
  match s.toList with
  | [] => false
  | c :: cs =>
    isLowerOrDigit c && decide (cs.length ≤ 79) &&
      cs.all fun c => isLowerOrDigit c || c == '_' || c == '-'

def normalizeScope (scope : JournalScope) : Result JournalScope := do
  require (validNetworkId scope.networkId) (.typeError "Invalid journal network scope.")
  let contractAddress ← hex (.string scope.contractAddress) "journal contract scope"
  let sourceFingerprint ← hex (.string scope.sourceFingerprint) "journal source fingerprint"
  pure ⟨scope.networkId, contractAddress, sourceFingerprint⟩

/-- `clone`. -/
def clone (value : Value) : Result Value := do
  let text ← encodeVaultJson value
  decodeVaultJson text

def isIdChar (c : Char) : Bool :=
  c.isAlphanum || c == '_' || c == '.' || c == ':' || c == '-'

/-- `/^[A-Za-z0-9_.:-]{1,n}$/`. -/
def identifier (n : ℕ) (s : String) : Bool :=
  decide (1 ≤ s.length) && decide (s.length ≤ n) && s.toList.all isIdChar

def validId : Value → Bool
  | .string s => identifier 160 s
  | _ => false

def validTx : Value → Bool
  | .string s => identifier 256 s
  | _ => false

def normalizeReceipt (receipt : Value) : Result Value := do
  let mode := receipt.get "executionMode"
  let txHash := receipt.get "txHash"
  let txId := receipt.get "txId"
  let blockHeight := receipt.get "blockHeight"
  require (receipt.truthy && (mode.isText "local" || mode.isText "network" || mode.isText "test")
      && receipt.keys.all (["txHash", "txId", "blockHeight", "executionMode"].contains ·)
      && (txHash.isUndefined || validTx txHash) && (txId.isUndefined || validTx txId)
      && (txHash.truthy || txId.truthy)
      && (blockHeight.isUndefined || blockHeight.isSafeInteger && !blockHeight.negative false)
      && (!mode.isText "network" || blockHeight.isSafeInteger && !blockHeight.negative true))
    (.typeError "Invalid confirmed runtime receipt.")
  clone receipt

/-! ## Effects and intents -/

/-- `/^(?:0|[1-9][0-9]{0,19})$/`, up to the largest `Uint<64>`. -/
def validGeneration (s : String) : Bool :=
  Decimal.canonical s.toList && decide (s.length ≤ 20) &&
    decide (Decimal.read s.toList ≤ 18446744073709551615)

def boolean (value : Value) (message : String) : Result Bool :=
  match value with
  | .boolean b => .ok b
  | _ => .error (.typeError message)

/-- The part of a specification that depends on its effect. -/
def normalizeDetails (effect : String) (e : Value) : Result PublicEffect :=
  if effect = "quote-present" then pure .quotePresent
  else if effect = "note-redeemed" then pure .noteRedeemed
  else if effect = "note-cancelled" then pure .noteCancelled
  else do
    let refundCommitment ← hex (e.get "refundCommitment") "refund commitment"
    let cashRefundOwed ← boolean (e.get "cashRefundOwed") "Invalid cash refund marker."
    if effect = "note-compensation-allocated" then do
      let lineCommitment ← commitment (e.get "lineCommitment") "compensation book commitment"
      pure (.noteCompensationAllocated refundCommitment cashRefundOwed lineCommitment)
    else do
      require cashRefundOwed (.typeError "A reported refund requires a cash obligation.")
      let paymentNullifier ← hex (e.get "paymentNullifier") "reported refund payment nullifier"
      pure (.noteRefundAcknowledged refundCommitment paymentNullifier)

/-- The circuit and effect that `normalizeEffect` admits together. -/
def admitted (circuit effect : String) : Bool :=
  circuit == "postQuote" && effect == "quote-present" ||
  circuit == "redeemDraw" && effect == "note-redeemed" ||
  circuit == "cancelOrExpireNote" && ["note-cancelled", "note-compensation-allocated",
    "note-refund-acknowledged"].contains effect

def normalizeEffect (e : Value) : Result JournalExpectedEffect :=
  match e.get "circuit", e.get "effect", e.get "lineGeneration" with
  | .string circuit, .string effect, .string lineGeneration => do
    require (admitted circuit effect && validGeneration lineGeneration)
      (.typeError "Invalid unique public effect specification.")
    let targetCommitment ← hex (e.get "targetCommitment") "effect target commitment"
    let contractDomain ← hex (e.get "contractDomain") "effect contract domain"
    let details ← normalizeDetails effect e
    pure ⟨targetCommitment, contractDomain, lineGeneration, details⟩
  | _, _, _ => .error (.typeError "Invalid unique public effect specification.")

/-- The kind that a value names. -/
def kindOf : Value → Option OperationKind
  | .string s => OPERATION_KINDS.find? fun kind => kind.name == s
  | _ => none

def textOf : Value → String
  | .string s => s
  | _ => ""

/-- `input.expectedEffect == null ? null : normalizeEffect(input.expectedEffect)`. -/
def normalizeExpected : Value → Result (Option JournalExpectedEffect)
  | .null | .undefined => .ok none
  | e => (normalizeEffect e).map some

/-- A compensation effect binds the book candidate, and moves the book if there is one. -/
def bindsCandidate (p : PreparedOperation) : Result Unit :=
  match p.expectedEffect.map JournalExpectedEffect.effect with
  | some (.noteCompensationAllocated _ _ lineCommitment) => do
    require (decide (lineCommitment = p.candidateCommitment))
      (.typeError "Compensation effect must bind the prepared book candidate.")
    require (!decide (p.candidateCommitment = p.beforeCommitment ∧ p.candidateCommitment ≠ none))
      (.typeError "A compensation book transition requires a distinct candidate commitment.")
  | _ => .ok ()

def normalizePrepared (input : Value) : Result PreparedOperation :=
  match kindOf (input.get "kind") with
  | none => .error (.typeError "Invalid operation identity or circuit.")
  | some kind => do
    require (validId (input.get "id")) (.typeError "Invalid operation identity or circuit.")
    let fingerprint ← hex (input.get "fingerprint") "operation fingerprint"
    let beforeCommitment ← commitment (input.get "beforeCommitment") "before commitment"
    let candidateCommitment ← commitment (input.get "candidateCommitment") "candidate commitment"
    let beforeSnapshot ← clone (input.get "beforeSnapshot")
    let candidateSnapshot ← clone (input.get "candidateSnapshot")
    let expectedEffect ← normalizeExpected (input.get "expectedEffect")
    let prepared : PreparedOperation := ⟨textOf (input.get "id"), kind, fingerprint,
      beforeCommitment, candidateCommitment, beforeSnapshot, candidateSnapshot, expectedEffect⟩
    require (expectedEffect.all fun e => e.effect.circuit == kind)
      (.typeError "Expected effect does not belong to this circuit.")
    bindsCandidate prepared
    require (!([.openLine, .draw, .acknowledgeRepayment].contains kind) ||
        candidateCommitment.isSome && candidateCommitment != beforeCommitment)
      (.typeError "A book transition requires a distinct candidate commitment.")
    pure prepared

/-! ## Checks of a stored journal -/

/-- `encodeVaultJson(a) === encodeVaultJson(b)`. -/
def sameText (a b : Value) : Result Bool := do
  let a ← encodeVaultJson a
  let b ← encodeVaultJson b
  pure (decide (a = b))

/-- Whether an operation still needs attention. -/
def JournalOperation.pending (op : JournalOperation) : Bool :=
  match op.status with
  | .prepared | .submitting | .uncertain => true
  | .confirmed => !op.acknowledged
  | .rejected => false

/-- Whether the snapshots of an operation may be dropped. -/
def JournalOperation.settled (op : JournalOperation) : Bool :=
  op.status == .rejected || op.status == .confirmed && op.acknowledged

def latestConfirmedOperation (record : OperationJournalRecord) : Option JournalOperation :=
  record.operations.reverse.find? fun op => op.status == .confirmed

/-- A text or null, as it stands. -/
def nullableText : Value → Option (Option String)
  | .null => some none
  | .string s => some (some s)
  | _ => none

def statusOf : Value → Option OperationStatus
  | .string s => OPERATION_STATUSES.find? fun status => status.name == s
  | _ => none

def booleanOf : Value → Option Bool
  | .boolean b => some b
  | _ => none

/-- A stored effect is null, or exactly what `normalizeEffect` makes of it. -/
def storedEffect : Value → Option (Option JournalExpectedEffect)
  | .null => some none
  | e => do
    let effect ← (normalizeEffect e).toOption
    guard (e.exactKeys effect.toValue.keys)
    let same ← (sameText effect.toValue e).toOption
    guard same
    pure (some effect)

def storedReceipt : Value → Option (Option Value)
  | .null => some none
  | receipt => do
    let _ ← (normalizeReceipt receipt).toOption
    pure (some receipt)

def storedTransaction (value : Value) : Option (Option String) := do
  let transactionId ← nullableText value
  guard (transactionId.isNone || validTx value)
  pure transactionId

def OPERATION_KEYS : List String :=
  ["id", "kind", "fingerprint", "beforeCommitment", "candidateCommitment", "beforeSnapshot",
    "candidateSnapshot", "expectedEffect", "sequence", "status", "createdAt", "updatedAt",
    "acknowledged", "transactionId", "receipt", "snapshotsCompacted"]

/-- The checks of `validateRecord` on one operation; whatever they throw is caught. -/
def validateOperation (op : Value) : Option JournalOperation := do
  guard (op.exactKeys OPERATION_KEYS)
  let prepared ← (normalizePrepared op).toOption
  let beforeCommitment ← nullableText (op.get "beforeCommitment")
  let candidateCommitment ← nullableText (op.get "candidateCommitment")
  let expectedEffect ← storedEffect (op.get "expectedEffect")
  let receipt ← storedReceipt (op.get "receipt")
  let sequence ← (op.get "sequence").safeNat
  let status ← statusOf (op.get "status")
  let createdAt ← (op.get "createdAt").safeNat
  let updatedAt ← (op.get "updatedAt").safeNat
  guard (createdAt ≤ updatedAt)
  let acknowledged ← booleanOf (op.get "acknowledged")
  let transactionId ← storedTransaction (op.get "transactionId")
  let snapshotsCompacted ← booleanOf (op.get "snapshotsCompacted")
  let operation : JournalOperation :=
    { id := prepared.id
      kind := prepared.kind
      fingerprint := textOf (op.get "fingerprint")
      beforeCommitment, candidateCommitment
      beforeSnapshot := op.get "beforeSnapshot"
      candidateSnapshot := op.get "candidateSnapshot"
      expectedEffect, sequence, status, createdAt, updatedAt, acknowledged, transactionId
      receipt, snapshotsCompacted }
  guard (!acknowledged || status == .confirmed)
  guard (receipt.isNone || status == .confirmed)
  guard (!snapshotsCompacted || operation.settled && operation.beforeSnapshot.isNull
    && operation.candidateSnapshot.isNull)
  pure operation

/-- The operations, in order: new ids, rising sequence numbers. -/
def validateOperations (revision : ℕ) : List Value → ℕ → List String →
    Option (List JournalOperation)
  | [], _, _ => some []
  | value :: values, sequence, ids => do
    let op ← validateOperation value
    guard (!ids.contains op.id && decide (sequence < op.sequence) &&
      decide (op.sequence ≤ revision))
    let operations ← validateOperations revision values op.sequence (op.id :: ids)
    pure (op :: operations)

def scopeOf (value : Value) : Option JournalScope :=
  match value.get "networkId", value.get "contractAddress", value.get "sourceFingerprint" with
  | .string networkId, .string contractAddress, .string sourceFingerprint =>
    some ⟨networkId, contractAddress, sourceFingerprint⟩
  | _, _, _ => none

def arrayOf : Value → Option (List Value)
  | .array items => some items
  | _ => none

/-- `validateRecord` before its failures are caught. -/
def checkedRecord (value : Value) (scope : JournalScope) : Option OperationJournalRecord := do
  guard (value.exactKeys ["schema", "scope", "revision", "operations"])
  guard ((value.get "schema").isText OPERATION_JOURNAL_SCHEMA)
  let stored ← scopeOf (value.get "scope")
  let normalized ← (normalizeScope stored).toOption
  guard (normalized = scope)
  guard ((value.get "scope").exactKeys ["networkId", "contractAddress", "sourceFingerprint"])
  let revision ← (value.get "revision").safeNat
  let values ← arrayOf (value.get "operations")
  guard (values.length ≤ MAX_JOURNAL_OPERATIONS)
  let operations ← validateOperations revision values 0 []
  guard (operations.countP (·.pending) ≤ 1)
  let record : OperationJournalRecord := ⟨stored, revision, operations⟩
  guard ((latestConfirmedOperation record).all fun op => !op.snapshotsCompacted)
  pure record

def validateRecord (value : Value) (scope : JournalScope) : Result OperationJournalRecord :=
  match checkedRecord value scope with
  | some record => .ok record
  | none => .error (.tampered "Invalid or mismatched encrypted operation journal.")

end Line.Journal
