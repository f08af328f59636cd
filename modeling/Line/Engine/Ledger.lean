import Line.Contract.Hashes
import Line.Lib.Number
import Line.Lib.Records

/-!
# The data of the reference engine

The records of `src/lib/line/types.ts`. Amounts, deadlines and epochs are `number`s.
A 32-byte word is a string of 64 hexadecimal digits there; it is one of `B` here, the
same words as in the contract, and two strings are equal when the words are.

The events of a ledger are left out: they repeat for display what an operation did,
and no operation reads them. The clock that numbers them stays.

An operation ends in one of three ways: it answers, it fails with one of the codes below, or it
throws. The first two are values of the source's result type; the third is what a check that
nobody expected to fail does to its caller, and `catchFail` is where a failure is told apart from
it.
-/

namespace Line.Engine

open Checked

/-- `LineStatus`: `"none"`, `"open"`, `"defaulted"` and `"closed"`, as `STATUS_FROM_COMPACT` has
them in the order of the contract's. -/
abbrev LineStatus := Status

/-- `QuoteRecord`. -/
structure QuoteRecord (B : Type) where
  commitment : B
  expiry : Number
  lineGeneration : Number
  used : Bool

/-- `NoteRecord`. -/
structure NoteRecord (B : Type) where
  commitment : B
  amount : Number
  fee : Number
  redeemed : Bool
  cancelled : Bool
  expiry : Number
  lineGeneration : Number
  compensationAllocated : Bool
  refundCommitment : B
  cashRefundOwed : Bool
  refundAcknowledged : Bool
  refundPaymentNullifier : B

/-- `Ledger`, less its events. -/
structure Ledger (B : Type) where
  contractDomain : B
  issuerPubKey : B
  initialMerchantPubKey : B
  instanceNonce : B
  /-- A JavaScript object: a key that is there maps to a boolean. -/
  registeredMerchants : Finmap fun _ : B => Bool
  totalReserve : Number
  encumberedReserve : Number
  redeemedReserve : Number
  feeReserve : Number
  pendingFeeReserve : Number
  refundReserve : Number
  reportedRefundReserve : Number
  feeFlat : Number
  feeBps : Number
  /-- `null` until a line is opened. -/
  identityCommitment : Option B
  /-- `null` until a line is opened. -/
  lineCommitment : Option B
  lineExpiry : Number
  status : LineStatus
  lineGeneration : Number
  quotes : List (QuoteRecord B)
  notes : List (NoteRecord B)
  nullifiers : List B
  actionClock : Number

/-- `LineWitness`: a private book. -/
structure LineWitness (Bytes : Type) where
  domain : Bytes
  I : Bytes
  /-- The limit. -/
  L : Number
  /-- The outstanding debt. -/
  B : Number
  /-- The epoch. -/
  e : Number
  /-- The salt. -/
  s : Bytes

/-- `QuotePreimage`. -/
structure QuotePreimage (B : Type) where
  merchantCommitment : B
  amount : Number
  invoiceId : B
  expiry : Number
  nonce : B
  generation : Number
  feeFlat : Number
  feeBps : Number

/-- `DrawNotePreimage` of the engine. -/
structure DrawNotePreimage (B : Type) where
  domain : B
  lineGeneration : Number
  identity : B
  quoteCommit : B
  merchantPk : B
  amount : Number
  fee : Number
  noteNonce : B
  expiry : Number

/-- `DrawNote`. -/
structure DrawNote (B : Type) where
  D : B
  preimage : DrawNotePreimage B
  salt : B

/-- `AgentStore`. -/
structure AgentStore (B : Type) where
  secret : B
  witness : Option (LineWitness B)
  identityCommitment : Option B

/-- `RefundAllocation`. -/
structure RefundAllocation (B : Type) where
  domain : B
  lineGeneration : Number
  identity : B
  noteCommit : B
  amount : Number
  allocatedCredit : Number
  salt : B
  commitment : B

/-- A JavaScript string, by its code units. -/
abbrev JsString := List UInt16

/-- `RepayReceipt`. -/
structure RepayReceipt (B : Type) where
  identity : B
  currentC : B
  amount : Number
  paymentRef : JsString
  nonce : B
  expiry : Number
  contractDomain : B

/-! ## Outcomes -/

/-- `CircuitFail`. -/
structure CircuitFail where
  code : String
  reason : String
  message : String
deriving DecidableEq

/-- How a call ends without a ledger: it returns a failure, or an exception leaves it. -/
inductive Stop where
  | fail (f : CircuitFail)
  | thrown (error : String)
deriving DecidableEq

/-- `CircuitResult`, and the exceptions that no `CircuitResult` accounts for. -/
abbrev Result (α : Type) := Except Stop α

def GENERIC_DRAW_FAIL : String := "Clearance could not be proven."

/-- `return fail(code, reason)`. -/
def fail {α : Type} (code reason : String) : Result α :=
  .error (.fail ⟨code, reason, GENERIC_DRAW_FAIL⟩)

/-- `throw new RangeError(text)`, or any other error. -/
def raise {α : Type} (text : String) : Result α := .error (.thrown text)

/-- `if (bad) return fail(code, reason);`. -/
def failIf (bad : Bool) (code reason : String) : Result Unit :=
  if bad then fail code reason else .ok ()

/-- `try { … } catch { return fail(code, reason); }`. -/
def catchFail {α : Type} (code reason : String) : Result α → Result α
  | .error (.thrown _) => fail code reason
  | x => x

/-- `if (!x) return fail(code, reason);` in front of a use of `x`. -/
def present {α : Type} (x : Option α) (code reason : String) : Result α :=
  match x with
  | some a => .ok a
  | none => fail code reason

variable {α β : Type}

@[simp] theorem failIf_ok_iff {bad : Bool} {code reason : String} {u : Unit} :
    failIf bad code reason = .ok u ↔ bad = false := by
  cases bad <;> simp [failIf, fail]

@[simp] theorem present_ok_iff {x : Option α} {code reason : String} {a : α} :
    present x code reason = .ok a ↔ x = some a := by
  cases x <;> simp [present, fail]

@[simp] theorem catchFail_ok_iff {x : Result α} {code reason : String} {a : α} :
    catchFail code reason x = .ok a ↔ x = .ok a := by
  cases x with
  | ok b => simp [catchFail]
  | error e => cases e <;> simp [catchFail, fail]

/-! ## Texts -/

namespace FAIL

def AUTH_ISSUER : String := "caller is not the registered issuer"
def AUTH_MERCHANT : String := "caller is not a registered merchant"
def AUTH_AGENT : String := "agent secret does not own this line"
def LINE_EXISTS : String := "an open line already exists for this identity"
def NO_LINE : String := "no line is open"
def STATUS : String := "line status does not allow this circuit"
def LIMIT : String := "limit must be a positive integer"
def OVERFLOW : String := "balance arithmetic overflowed"
def CAPACITY : String := "draw exceeds available credit"
def STALE : String := "line-state commitment is stale"
def QUOTE : String := "quote preimage does not match a live quote"
def QUOTE_USED : String := "quote already consumed"
def QUOTE_EXPIRED : String := "quote expired"
def QUOTE_AUTH : String := "quote is not bound to a registered merchant"
def QUOTE_GEN : String := "quote is bound to a different line generation"
def NULLIFIER : String := "nullifier already spent"
def RECEIPT : String := "repayment receipt is invalid for this line"
def RECEIPT_STALE : String := "receipt does not reference the current commitment"
def RECEIPT_USED : String := "repayment receipt already used"
def RECEIPT_RANGE : String := "repayment amount is not in (0, outstanding]"
def EXPIRY : String := "expiry is not in the future"
def LINE_EXPIRED : String := "line expired"
def CLOSED : String := "closed line cannot be reused in this epoch"
def ZERO : String := "zero-amount operations are rejected"
def BAD_STATUS : String := "status transition is not allowed"
def RESERVE_CAPACITY : String := "insufficient reserve for draw note"
def RESERVE_WITHDRAW : String := "withdrawal exceeds unencumbered reserve"
def MERCHANT_REGISTERED : String := "merchant already registered"
def MERCHANT_DISABLED : String := "merchant is disabled"
def UNKNOWN_MERCHANT : String := "merchant is not in the registry"
def NO_FEES : String := "no fees"
def RESERVE_DEFICIT : String := "reserve deficit"
def NOTE_NOT_FOUND : String := "draw note not found"
def NOTE_USED : String := "draw note already redeemed"
def NOTE_CANCELLED : String := "draw note is cancelled"
def NOTE_EXPIRED : String := "draw note expired"
def NOTE_NOT_EXPIRED : String := "draw note has not expired yet"
def NOTE_OPENING : String := "note preimage does not open commitment"
def NOTE_AUTH : String := "caller is not the designated merchant for this note"

end FAIL

end Line.Engine
