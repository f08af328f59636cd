import Line.Contract.Circuits
import Line.Engine.Encoding
import Line.Lib.OrderedMap

/-!
# The data of the checkout evaluation

The records of `server/checkout-engine.ts`. A `bigint` is an integer, a JavaScript string
the list of its code units and a `Uint8Array` of 32 bytes a word; prices, repayments and
counts are `number`s that the code only ever makes whole and small, and are natural
numbers.

A `Map` keeps its entries in the order in which they were entered, and a snapshot has them
as a list, so maps are ordered here too. The private state of a circuit call is a record of
everything that any circuit asks for; each call fills in its own fields and leaves the rest
blank, as the source does.

The services are deterministic functions of the document. What they take from the
language's Unicode and locale data is the class `Locale`.
-/

namespace Line.Checkout

open Checked
open Line.Engine (JsString utf8 isWhitespace)

/-! ## Words, texts and arguments -/

/-- The bytes of a word. -/
class WordBytes (B : Type) where
  bytes : B → List UInt8
  /-- A word is 32 bytes long. -/
  length_bytes : ∀ b, (bytes b).length = 32

/-- The code unit of one hexadecimal digit. -/
def hexDigit (n : ℕ) : UInt16 := (if n < 10 then 0x30 + n else 0x57 + n).toUInt16

/-- `toHex`. -/
def toHex {B : Type} [WordBytes B] (b : B) : JsString :=
  (WordBytes.bytes b).flatMap fun byte =>
    [hexDigit (byte.toNat / 16), hexDigit (byte.toNat % 16)]

/-- `[a-f0-9]`. -/
def isHexUnit (c : UInt16) : Bool :=
  (0x30 ≤ c.toNat && c.toNat ≤ 0x39) || (0x61 ≤ c.toNat && c.toNat ≤ 0x66)

/-- `/^[a-f0-9]{64}$/.test(token)`. -/
def isToken (token : JsString) : Bool := token.length == 64 && token.all isHexUnit

/-- `/^[0-9a-f-]{36}$/.test(id)`. -/
def isSessionId (id : JsString) : Bool :=
  id.length == 36 && id.all fun c => isHexUnit c || c.toNat == 0x2d

/-- `/^[a-zA-Z0-9_-]{8,80}$/.test(value)`. -/
def isIntent (value : JsString) : Bool :=
  8 ≤ value.length && value.length ≤ 80 && value.all fun c =>
    (0x61 ≤ c.toNat && c.toNat ≤ 0x7a) || (0x41 ≤ c.toNat && c.toNat ≤ 0x5a)
      || (0x30 ≤ c.toNat && c.toNat ≤ 0x39) || c.toNat == 0x5f || c.toNat == 0x2d

/-- A result of `randomUUID()`: hexadecimal digits in groups of 8, 4, 4, 4 and 12. -/
structure Uuid where
  text : JsString
  length_text : text.length = 36
  units : ∀ i (h : i < text.length),
    if i ∈ [8, 13, 18, 23] then text[i].toNat = 0x2d else isHexUnit text[i] = true

/-- A result of `Date.now()`: a whole number of milliseconds within the range of dates. -/
structure Timestamp where
  ms : ℤ
  range : |ms| ≤ 8640000000000000

/-- An argument from outside, as far as `typeof` and the code tell values apart. -/
inductive Unknown where
  | number (v : Number)
  | string (s : JsString)
  | other

/-- Why a call is refused: a `CheckoutError`, or any other exception. -/
inductive Failure where
  | checkout (status : ℕ) (message : String)
  | error (message : String)
deriving DecidableEq

/-- `units`, of a value that is a `number`. -/
def wholeUnits : Unknown → Option ℕ
  | .number v => if v.isSafeInteger && !v.lt (.ofNat 1) && !(Number.ofNat 1000000).lt v
      then some v.toNat else none
  | _ => none

/-- `units`. -/
def units (value : Unknown) (label : String) : Except Failure ℕ :=
  match wholeUnits value with
  | some n => .ok n
  | none =>
      .error (.checkout 400 (label ++ " must be an integer from 1 to 1000000 evaluation units."))

/-- `intent`. -/
def intent (value : Unknown) : Except Failure JsString :=
  match value with
  | .string s =>
      if isIntent s then .ok s else .error (.checkout 400 "A stable request ID is required.")
  | _ => .error (.checkout 400 "A stable request ID is required.")

/-! ## Services -/

/-- `ServiceId`. -/
inductive ServiceId where
  | textAnalysis
  | costReport
deriving DecidableEq

/-- The code units of a text of the program, which is plain ASCII. -/
def ofAscii (s : String) : JsString := s.toList.map fun c => c.toNat.toUInt16

/-- `"text-analysis"` and `"cost-report"`. -/
def ServiceId.text : ServiceId → JsString
  | .textAnalysis => ofAscii "text-analysis"
  | .costReport => ofAscii "cost-report"

/-- An entry of `CATALOG`, less its name and description, which nothing reads. -/
structure Service where
  id : ServiceId
  merchant : String
  price : ℕ

def CATALOG : List Service :=
  [⟨.textAnalysis, "Merchant A", 25⟩, ⟨.costReport, "Merchant B", 20⟩]

/-- `CATALOG.find(item => item.id === value)`, of a value from outside. -/
def findService : Unknown → Option Service
  | .string s => CATALOG.find? fun item => item.id.text == s
  | _ => none

/-- `CATALOG.find(item => item.id === id)`. -/
def catalog (id : ServiceId) : Option Service := CATALOG.find? fun item => item.id == id

/-- What `deliver` takes from the Unicode and locale data of the language. -/
class Locale where
  /-- `toLowerCase()`. -/
  toLowerCase : JsString → JsString
  /-- `/[\p{L}\p{N}]/u`, of one code point. -/
  isWordPoint : ℕ → Bool
  /-- `localeCompare`. -/
  localeCompare : JsString → JsString → Ordering

/-- The code points of a string with the code units of each; a surrogate alone is one. -/
def points : JsString → List (ℕ × JsString)
  | [] => []
  | [c] => [(c.toNat, [c])]
  | c :: d :: rest =>
      if 0xd800 ≤ c.toNat ∧ c.toNat ≤ 0xdbff ∧ 0xdc00 ≤ d.toNat ∧ d.toNat ≤ 0xdfff then
        (0x10000 + (c.toNat - 0xd800) * 0x400 + (d.toNat - 0xdc00), [c, d]) :: points rest
      else (c.toNat, [c]) :: points (d :: rest)

/-- The longest runs of points that satisfy `p`, from a run that is being read. -/
def runs (p : ℕ → Bool) : JsString → List (ℕ × JsString) → List JsString
  | current, [] => if current.isEmpty then [] else [current]
  | current, (point, text) :: rest =>
      if p point then runs p (current ++ text) rest
      else if current.isEmpty then runs p [] rest
      else current :: runs p [] rest

/-- `.`, `!` and `?`. -/
def isStop (c : UInt16) : Bool := c.toNat == 0x2e || c.toNat == 0x21 || c.toNat == 0x3f

/-- `document.match(/[^.!?]+[.!?]?/g)`, from a match that is being read. -/
def sentences : JsString → JsString → List JsString
  | current, [] => if current.isEmpty then [] else [current]
  | current, c :: rest =>
      if isStop c then
        if current.isEmpty then sentences [] rest else (current ++ [c]) :: sentences [] rest
      else sentences (current ++ [c]) rest

/-- `s.trim()` is not empty. -/
def nonblank (s : JsString) : Bool := s.any fun c => !isWhitespace c

/-- `Buffer.byteLength(document, "utf8")`; a surrogate alone is written as three bytes. -/
def byteLength (document : JsString) : ℕ :=
  ((points document).map fun point => (utf8 point.1).length).sum

/-- `Output`: the record of either service. -/
inductive Output where
  | analysis (words sentences : ℕ) (recurringTerms : List (JsString × ℕ))
  | estimate (utf8Bytes estimatedTokens : ℕ) (method : String) (servicePrice : ℕ)
      (currency : String)
deriving DecidableEq

section Deliver

variable [Locale]

/-- The order of the recurring terms: the more frequent first, then by the locale. -/
def termBefore (a b : JsString × ℕ) : Bool :=
  b.2 < a.2 || (a.2 == b.2 && Locale.localeCompare a.1 b.1 != .gt)

/-- `deliver`. -/
def deliver (service : ServiceId) (document : JsString) : Output :=
  match service with
  | .textAnalysis =>
      let words := runs Locale.isWordPoint [] (points (Locale.toLowerCase document))
      let counts := words.foldl (fun m word => m.set word ((m.get word).getD 0 + 1))
        (OrderedMap.empty : OrderedMap JsString ℕ)
      .analysis words.length ((sentences [] document).filter nonblank).length
        ((counts.entries.mergeSort termBefore).take 5)
  | .costReport =>
      .estimate (byteLength document) ((document.length + 3) / 4)
        "ceil(UTF-16 code units / 4); heuristic, not model tokenization" 20
        "evaluation units; no cash value"

end Deliver

/-! ## Orders -/

/-- `Receipt["outcome"]`. -/
inductive Outcome where
  | pending
  | delivered
  | declined
  | expired
  | compensated
deriving DecidableEq

/-- `Receipt`. -/
structure Receipt where
  orderId : JsString
  service : ServiceId
  merchant : String
  amount : ℕ
  quote : JsString
  note : Option JsString
  outcome : Outcome
  stages : List String
  message : Option String := none
  output : Option Output := none
  payout : String := "not-connected"
  execution : String := "generated-compact-local"
deriving DecidableEq

/-- `Order["phase"]`. -/
inductive Phase where
  | prepared
  | quoted
  | authorized
  | redeemed
  | delivered
  | declined
  | expired
  | compensated
deriving DecidableEq

/-- `Order["compensation"]`. -/
structure Compensation (B : Type) where
  amount : ℤ
  credit : ℤ
  salt : B
  commitment : B
  reportedReference : Option JsString := none
deriving DecidableEq

/-- `Order`. -/
structure Order (B : Type) where
  document : JsString
  service : ServiceId
  receipt : Receipt
  phase : Phase
  invoiceId : B
  quoteNonce : B
  Q : B
  expiry : ℤ
  noteNonce : B
  noteSalt : B
  D : Option B := none
  noteExpiry : Option ℤ := none
  compensation : Option (Compensation B) := none
deriving DecidableEq

/-! ## Contract calls -/

/-- `PrivateState`. -/
structure PrivateState (B : Type) where
  callerSecret : B
  agentSecret : B
  salt : B
  newSalt : B
  invoiceId : B
  quoteNonce : B
  receiptNonce : B
  paymentRef : B
  noteNonce : B
  noteSalt : B
  noteIdentity : B
  noteQuoteCommit : B
  lineLimit : ℤ
  lineOutstanding : ℤ
  lineEpoch : ℤ
  quoteAmount : ℤ
  drawAmount : ℤ
  redeemAmount : ℤ
  repayAmount : ℤ
  quoteMerchantPk : B

/-- `blankPrivate()`. -/
def blankPrivate {B : Type} [Compact B] : PrivateState B where
  callerSecret := pad ""
  agentSecret := pad ""
  salt := pad ""
  newSalt := pad ""
  invoiceId := pad ""
  quoteNonce := pad ""
  receiptNonce := pad ""
  paymentRef := pad ""
  noteNonce := pad ""
  noteSalt := pad ""
  noteIdentity := pad ""
  noteQuoteCommit := pad ""
  lineLimit := 0
  lineOutstanding := 0
  lineEpoch := 0
  quoteAmount := 0
  drawAmount := 0
  redeemAmount := 0
  repayAmount := 0
  quoteMerchantPk := pad ""

/-- A `bigint` where the contract takes a `Uint<64>`. -/
def uint64 (n : ℤ) : Option U64 :=
  if h : 0 ≤ n ∧ n < 2 ^ 64 then some ⟨n.toNat, by omega⟩ else none

/-- `WITNESSES`: every call of a witness answers from the private state. An amount that is no
`Uint<64>` is refused. -/
def PrivateState.witness {B : Type} (ps : PrivateState B) : Option (Witness B) := do
  let lineLimit ← uint64 ps.lineLimit
  let lineOutstanding ← uint64 ps.lineOutstanding
  let lineEpoch ← uint64 ps.lineEpoch
  let quoteAmount ← uint64 ps.quoteAmount
  let drawAmount ← uint64 ps.drawAmount
  let redeemAmount ← uint64 ps.redeemAmount
  let repayAmount ← uint64 ps.repayAmount
  pure {
    callerSecret := fun _ => ps.callerSecret
    agentSecret := fun _ => ps.agentSecret
    salt := fun _ => ps.salt
    newSalt := fun _ => ps.newSalt
    invoiceId := fun _ => ps.invoiceId
    quoteNonce := fun _ => ps.quoteNonce
    receiptNonce := fun _ => ps.receiptNonce
    paymentRef := fun _ => ps.paymentRef
    noteNonce := fun _ => ps.noteNonce
    noteSalt := fun _ => ps.noteSalt
    noteIdentity := fun _ => ps.noteIdentity
    noteQuoteCommit := fun _ => ps.noteQuoteCommit
    lineLimit := fun _ => lineLimit
    lineOutstanding := fun _ => lineOutstanding
    lineEpoch := fun _ => lineEpoch
    quoteAmount := fun _ => quoteAmount
    drawAmount := fun _ => drawAmount
    redeemAmount := fun _ => redeemAmount
    repayAmount := fun _ => repayAmount
    quoteMerchantPk := fun _ => ps.quoteMerchantPk }

/-- `CircuitCall`, for the circuits that the evaluation calls. -/
inductive CircuitCall (B : Type) where
  | registerMerchant (merchantPk : B)
  | fundReserve (amount : ℤ)
  | openLine (expiry flatFee basisPoints : ℤ)
  | postQuote (expiry : ℤ)
  | draw (quoteCommit : B) (noteExpiry fee : ℤ)
  | redeemDraw (noteCommit : B) (noteExpiry : ℤ)
  | cancelOrExpireNote (noteCommit : B) (action : Uint 8) (receiptExpiry : ℤ)
  | acknowledgeRepayment (receiptExpiry : ℤ)

/-- The circuit with its arguments; one that is no `Uint<64>` is refused. -/
def CircuitCall.op {B : Type} [Compact B] : CircuitCall B → Option (Op B)
  | .registerMerchant merchantPk => some (.registerMerchant merchantPk ⟨pad ""⟩)
  | .fundReserve amount => (uint64 amount).map .fundReserve
  | .openLine expiry flatFee basisPoints => do
      pure (.openLine (← uint64 expiry) (← uint64 flatFee) (← uint64 basisPoints))
  | .postQuote expiry => (uint64 expiry).map .postQuote
  | .draw Q noteExpiry fee => do pure (.draw Q (← uint64 noteExpiry) (← uint64 fee))
  | .redeemDraw D noteExpiry => (uint64 noteExpiry).map (.redeemDraw D)
  | .cancelOrExpireNote D action receiptExpiry =>
      (uint64 receiptExpiry).map (.cancelOrExpireNote D action)
  | .acknowledgeRepayment receiptExpiry => (uint64 receiptExpiry).map .acknowledgeRepayment

/-- `Session`: the ledger and the private state of the last call. -/
structure Session (B : Type) where
  state : Ledger B
  privateState : PrivateState B

/-- The circuit that `call` runs, at the time of the trusted clock; `none` when it is refused. -/
def runCircuit {B : Type} [DecidableEq B] [Compact B] (time : ℕ) (session : Session B)
    (ps : PrivateState B) (op : CircuitCall B) : Option (Session B) := do
  let op ← op.op
  let witness ← ps.witness
  let state ← (exec .canonical ⟨op, witness, time⟩ session.state).toOption
  pure ⟨state, ps⟩

/-! ## The evaluation -/

/-- `Record<ServiceId, Uint8Array>`. -/
structure Merchants (B : Type) where
  textAnalysis : B
  costReport : B

/-- `this.merchants[id]`. -/
def Merchants.key {B : Type} (m : Merchants B) : ServiceId → B
  | .textAnalysis => m.textAnalysis
  | .costReport => m.costReport

/-- `CheckoutEvaluation`, less the queue, the store and the clock. -/
structure Evaluation (B : Type) where
  id : JsString
  issuerToken : JsString
  agentToken : JsString
  createdAt : ℤ
  issuerKey : B
  agentKey : B
  merchants : Merchants B
  session : Session B
  limit : ℤ
  outstanding : ℤ
  epoch : ℤ
  salt : B
  opened : Bool
  fundedReserve : ℤ
  orders : OrderedMap JsString (Order B)
  repayments : OrderedMap JsString ℕ
  deliveries : ℕ
  failed : Bool
  checkpointing : Bool

/-- How the runtime writes a contract state down and reads it back. -/
class StateCodec (B : Type) where
  Serialized : Type
  serialize : Ledger B → Serialized
  deserialize : Serialized → Option (Ledger B)

/-- A state that was written down is read back. -/
class LawfulStateCodec (B : Type) [StateCodec B] : Prop where
  deserialize_serialize : ∀ s : Ledger B,
    StateCodec.deserialize (StateCodec.serialize s) = some s

/-- `Snapshot`. -/
structure Snapshot (B : Type) [StateCodec B] where
  version : ℕ
  deadlineUnits : String
  settlement : String
  id : JsString
  issuerToken : JsString
  agentToken : JsString
  createdAt : ℤ
  issuerKey : B
  agentKey : B
  merchants : Merchants B
  state : StateCodec.Serialized B
  privateState : PrivateState B
  limit : ℤ
  outstanding : ℤ
  epoch : ℤ
  salt : B
  opened : Bool
  fundedReserve : ℤ
  orders : List (JsString × Order B)
  repayments : List (JsString × ℕ)
  deliveries : ℕ

/-- `snapshot()`. -/
def Evaluation.snapshot {B : Type} [StateCodec B] (e : Evaluation B) : Snapshot B where
  version := 4
  deadlineUnits := "unix-seconds"
  settlement := "private-compensation-v1"
  id := e.id
  issuerToken := e.issuerToken
  agentToken := e.agentToken
  createdAt := e.createdAt
  issuerKey := e.issuerKey
  agentKey := e.agentKey
  merchants := e.merchants
  state := StateCodec.serialize e.session.state
  privateState := e.session.privateState
  limit := e.limit
  outstanding := e.outstanding
  epoch := e.epoch
  salt := e.salt
  opened := e.opened
  fundedReserve := e.fundedReserve
  orders := e.orders.entries
  repayments := e.repayments.entries
  deliveries := e.deliveries

end Line.Checkout
