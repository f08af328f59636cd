import Line.Checkout.Recovery
import Line.Lib.Stateful
import Mathlib.Data.Stream.Defs

/-!
# The checkout evaluation

The operations of `CheckoutEvaluation`. What an operation takes from outside is in the
`World`: the trusted clock, the random words and identifiers, the dates, and what becomes
of each save. An exception leaves behind what was changed before it, so a refused
operation can still have moved the evaluation on.

The queue runs one operation at a time, so an operation is one program. A process that
dies is a save that is refused: nothing runs after it until the next `restart`, which
recovers what the store holds. `effects` is a record beside the program, of the charges,
deliveries, compensations and repayments in the past of the evaluation; the program
never reads it, and the store keeps it with each snapshot.
-/

namespace Line.Checkout

open Checked
open Line.Engine (JsString Words)

/-- What happened to one request id, or under one receipt reference. -/
inductive Effect where
  | drawn (orderId : JsString) (cost : ℤ)
  | delivered (orderId : JsString)
  | compensated (orderId : JsString) (credit : ℤ)
  | repaid (reference : JsString) (amount : ℕ)
deriving DecidableEq

/-- What becomes of a save. A refused one can have been published all the same. -/
inductive Saved where
  | saved
  | refused (published : Bool)

/-- What the operations take from outside, in the order in which they will ask. -/
structure World (B : Type) where
  clock : Stream' Number
  random : Stream' B
  uuid : Stream' Uuid
  date : Stream' Timestamp
  saves : Stream' Saved

/-- A checkpoint: the snapshot, and beside it what it is a snapshot of. -/
structure Checkpoint (B : Type) [StateCodec B] where
  snapshot : Snapshot B
  evaluation : Evaluation B
  effects : List Effect

/-- A process with one evaluation. -/
structure State (B : Type) [StateCodec B] where
  evaluation : Evaluation B
  world : World B
  /-- There is a store. -/
  storage : Bool
  /-- What the store holds. -/
  disk : Option (Checkpoint B)
  /-- Everything the store was ever given, newest first. -/
  checkpoints : List (Checkpoint B)
  /-- The past of the evaluation, newest first. -/
  effects : List Effect

/-- An operation: it may throw, and keeps what it changed. -/
abbrev M (B : Type) [StateCodec B] (α : Type) := EStateM Failure (State B) α

section Operations

variable {B : Type} [StateCodec B]

/-! ## What the operations ask for -/

/-- `randomBytes32()`. -/
def randomBytes32 : M B B :=
  modifyGet fun s =>
    (s.world.random.head, { s with world := { s.world with random := s.world.random.tail } })

/-- `randomUUID()`. -/
def randomUUID : M B JsString :=
  modifyGet fun s =>
    (s.world.uuid.head.text, { s with world := { s.world with uuid := s.world.uuid.tail } })

/-- `Date.now()`. -/
def dateNow : M B ℤ :=
  modifyGet fun s =>
    (s.world.date.head.ms, { s with world := { s.world with date := s.world.date.tail } })

/-- `this.clock()`. -/
def clock : M B Number :=
  modifyGet fun s =>
    (s.world.clock.head, { s with world := { s.world with clock := s.world.clock.tail } })

/-- `this`. -/
def evaluation : M B (Evaluation B) := do
  pure (← get).evaluation

/-- An assignment to the fields of `this`. -/
def assign (f : Evaluation B → Evaluation B) : M B Unit :=
  modify fun s => { s with evaluation := f s.evaluation }

/-- The record of what has just happened. -/
def record (effect : Effect) : M B Unit :=
  modify fun s => { s with effects := effect :: s.effects }

/-- A part that throws by itself. -/
def attempt {α : Type} (x : Except Failure α) : M B α :=
  match x with
  | .ok a => pure a
  | .error f => throw f

/-- `if (bad) throw new CheckoutError(status, message);`. -/
def refuseIf (bad : Bool) (status : ℕ) (message : String) : M B Unit :=
  if bad then throw (.checkout status message) else pure ()

/-! ## Checkpoints -/

/-- `this.storage.save(this.id, snapshot)`. -/
def save (snapshot : Snapshot B) : M B Saved :=
  modifyGet fun s =>
    let checkpoint : Checkpoint B := ⟨snapshot, s.evaluation, s.effects⟩
    let outcome := s.world.saves.head
    (outcome, { s with
      world := { s.world with saves := s.world.saves.tail }
      checkpoints := checkpoint :: s.checkpoints
      disk := match outcome with
        | .saved | .refused true => some checkpoint
        | .refused false => s.disk })

/-- What a refused save throws. -/
def checkpointFailed : Failure :=
  .checkout 503 ("Checkout checkpoint failed. Restart the server and recover this session before "
    ++ "retrying.")

/-- `checkpoint`. -/
def checkpoint : M B Unit := do
  if (← get).storage then
    assign fun e => { e with checkpointing := true }
    match ← save (← evaluation).snapshot with
    | .saved => assign fun e => { e with checkpointing := false }
    | .refused _ =>
        assign fun e => { e with failed := true, checkpointing := false }
        throw checkpointFailed
  else pure ()

/-- `ensureAvailable`. -/
def ensureAvailable : M B Unit := do
  let e ← evaluation
  refuseIf e.failed 503 "Checkout session requires server restart and recovery."
  refuseIf e.checkpointing 503 "Checkout checkpoint is still committing. Retry this read."

/-- A `number` of the clock that is a time. -/
def isTime (v : Number) : Bool := v.isSafeInteger && !v.lt (.ofNat 0)

/-- `now`. -/
def now : M B ℕ := do
  let time ← clock
  refuseIf (!isTime time) 503 "Trusted execution time is unavailable."
  pure time.toNat

/-- `BigInt(this.now() + seconds)`. -/
def deadline (seconds : ℕ) : M B ℤ := do
  let time ← now
  match ((Number.ofNat time).add (.ofNat seconds)).toBigInt with
  | some expiry => pure expiry
  | none => throw (.error "The number cannot be converted to a BigInt.")

/-! ## Circuits -/

section Circuits

variable [DecidableEq B] [Compact B]

/-- `call`: the session after the circuit, or nothing when it was refused. -/
def call (ps : PrivateState B) (op : CircuitCall B) : M B (Option (Session B)) := do
  let time ← clock
  if isTime time then pure (runCircuit time.toNat (← evaluation).session ps op)
  else throw (.error "Invalid trusted execution time.")

/-- The message of a refused circuit. -/
def CircuitCall.refusal : CircuitCall B → String
  | .draw _ _ _ => "Clearance could not be proven."
  | _ => "Contract transition rejected."

/-- `transition`. -/
def transition (ps : PrivateState B) (op : CircuitCall B) : M B (Ledger B) := do
  match ← call ps op with
  | some session =>
      assign fun e => { e with session }
      pure session.state
  | none => throw (.checkout 409 op.refusal)

/-- `books()`, before the overrides. -/
def Evaluation.books (e : Evaluation B) : PrivateState B :=
  { (blankPrivate : PrivateState B) with
    agentSecret := e.agentKey
    lineLimit := e.limit
    lineOutstanding := e.outstanding
    lineEpoch := e.epoch
    salt := e.salt }

end Circuits

/-! ## Views -/

/-- `issuerView`, with `publicView` in it. Receipts are shown without their output. -/
structure IssuerView (B : Type) where
  durability : String
  opened : Bool
  domain : JsString
  lineCommit : JsString
  totalReserve : Number
  encumberedReserve : Number
  redeemedReserve : Number
  feeReserve : Number
  pendingFeeReserve : Number
  refundReserve : Number
  reportedRefundReserve : Number
  deliveries : ℕ
  orders : List Receipt
  limit : Number
  outstanding : Number
  remaining : Number
  /-- Order, credit, amount, and whether the refund was reported. -/
  refunds : List (JsString × Number × Number × Bool)

/-- `Number(n)`, of a `bigint`. -/
def toNumber (n : ℤ) : Number := Number.round n

/-- `issuerView`. -/
def issuerView [WordBytes B] : M B (IssuerView B) := do
  ensureAvailable
  let s ← get
  let e := s.evaluation
  let ledger := e.session.state
  pure {
    durability := if s.storage then "encrypted-disk" else "volatile"
    opened := e.opened
    domain := toHex ledger.contractDomain
    lineCommit := toHex ledger.lineCommit
    totalReserve := toNumber ledger.totalReserve.val
    encumberedReserve := toNumber ledger.encumberedReserve.val
    redeemedReserve := toNumber ledger.redeemedReserve.val
    feeReserve := toNumber ledger.feeReserve.val
    pendingFeeReserve := toNumber ledger.pendingFeeReserve.val
    refundReserve := toNumber ledger.refundReserve.val
    reportedRefundReserve := toNumber ledger.reportedRefundReserve.val
    deliveries := e.deliveries
    orders := e.orders.values.map fun order => { order.receipt with output := none }
    limit := toNumber e.limit
    outstanding := toNumber e.outstanding
    remaining := toNumber (e.limit - e.outstanding)
    refunds := e.orders.values.filterMap fun order => order.compensation.map fun record =>
      (order.receipt.orderId, toNumber record.credit, toNumber record.amount,
        record.reported.isSome) }

/-! ## The facility -/

variable [DecidableEq B] [Compact B]

/-- `configure`, when nothing was funded yet. -/
def fundReserve (credit backing : ℕ) : M B Unit := do
  let e ← evaluation
  let _ ← transition { (blankPrivate : PrivateState B) with callerSecret := e.issuerKey }
    (.fundReserve backing)
  assign fun e => { e with fundedReserve := backing, limit := credit }
  checkpoint

/-- `configure`. -/
def configure [WordBytes B] (limit reserve : Unknown) : M B (IssuerView B) := do
  let credit ← attempt (units limit "Credit limit")
  let backing ← attempt (units reserve "Reserve")
  ensureAvailable
  let e ← evaluation
  if e.opened then
    if (credit : ℤ) = e.limit ∧ (backing : ℤ) = e.fundedReserve then issuerView
    else throw (.checkout 409 "This evaluation already has an open line.")
  else do
    refuseIf (e.fundedReserve != 0 && (e.fundedReserve != backing || e.limit != credit)) 409
      "Retry the original facility terms."
    if e.fundedReserve = 0 then fundReserve credit backing
    assign fun e => { e with limit := credit }
    let e ← evaluation
    let expiry ← deadline 10000
    let _ ← transition { e.books with callerSecret := e.issuerKey } (.openLine expiry 0 0)
    assign fun e => { e with opened := true }
    checkpoint
    issuerView

/-! ## Purchases -/

/-- The same order, in its new state. -/
def setOrder (requestId : JsString) (order : Order B) : M B Unit :=
  assign fun e => { e with orders := e.orders.set requestId order }

/-- `receipt.stages.push(…)`. -/
def Receipt.push (receipt : Receipt) (stages : List String) : Receipt :=
  { receipt with stages := receipt.stages ++ stages }

/-! The assignments of `resume` and `reportRefund` to the fields of an order. -/

namespace Order

def expire (order : Order B) : Order B :=
  { order with
    phase := .expired
    receipt := { order.receipt.push ["quote-expired-before-authorization"] with
      outcome := .expired
      message := some ("The quote expired before authorization. No debt or merchant claim was "
        ++ "created; a new purchase requires a new request ID.") } }

def quote (order : Order B) : Order B :=
  { order with phase := .quoted, receipt := order.receipt.push ["merchant-quote-posted"] }

def decline (order : Order B) : Order B :=
  { order with
    phase := .declined
    receipt := { order.receipt.push ["authorization-declined"] with
      message := some "Clearance could not be proven.", outcome := .declined } }

def authorize [WordBytes B] (order : Order B) (D : B) : Order B :=
  { order with
    D := some D
    noteExpiry := some order.expiry
    phase := .authorized
    receipt := { order.receipt.push ["authorization-accepted", "reserve-encumbered"] with
      note := some (toHex D) } }

def compensate (order : Order B) (compensation : Compensation B) : Order B :=
  { order with
    compensation := some compensation
    phase := .compensated
    receipt := { order.receipt.push (["claim-expired", "evaluation-compensation-recorded"]
        ++ if 0 < compensation.amount then ["cash-refund-obligation-recorded"] else []) with
      outcome := .compensated
      message := some ("Expired claim compensation recorded. No service was delivered and no cash "
        ++ "refund was paid.") } }

def redeem (order : Order B) : Order B :=
  { order with phase := .redeemed, receipt := order.receipt.push ["merchant-claim-redeemed"] }

def deliver [Locale] (order : Order B) : Order B :=
  { order with
    phase := .delivered
    receipt := { order.receipt.push ["service-delivered"] with
      output := some (Checkout.deliver order.service order.document), outcome := .delivered } }

def report (order : Order B) (recorded : Compensation B) (reference : JsString) : Order B :=
  { order with
    compensation := some { recorded with reportedReference := some reference }
    receipt := order.receipt.push ["issuer-reported-refund-acknowledgment"] }

end Order

section Purchase

variable [Words B] [WordBytes B] [Locale]

/-- The order as it is now, stored. -/
def keep (requestId : JsString) (order : Order B) : M B (Order B) := do
  setOrder requestId order
  checkpoint
  pure order

/-- `resume`: a quote that expired before it was drawn on. -/
def expireQuote (requestId : JsString) (order : Order B) : M B (Order B) := do
  if order.phase = .prepared ∨ order.phase = .quoted then
    let time ← now
    if order.expiry ≤ (time : ℤ) then keep requestId order.expire else pure order
  else pure order

/-- `resume`: the merchant posts the quote. -/
def postQuote (requestId : JsString) (order : Order B) : M B (Order B) := do
  if order.phase = .prepared then
    let e ← evaluation
    let _ ← transition { (blankPrivate : PrivateState B) with
        callerSecret := e.merchants.key order.service
        invoiceId := order.invoiceId
        quoteNonce := order.quoteNonce
        quoteAmount := order.receipt.amount } (.postQuote order.expiry)
    keep requestId order.quote
  else pure order

/-- `resume`: the draw. After a refusal nothing below applies to the order, so the early return
is the end of the program. -/
def authorize (requestId : JsString) (order : Order B) : M B (Order B) := do
  if order.phase = .quoted then
    let e ← evaluation
    let amount : ℤ := order.receipt.amount
    let merchantPk := Engine.merchantPublicKey (e.merchants.key order.service)
    let newSalt ← randomBytes32
    let drawn ← call { e.books with
        invoiceId := order.invoiceId
        quoteNonce := order.quoteNonce
        quoteMerchantPk := merchantPk
        drawAmount := amount
        newSalt
        noteNonce := order.noteNonce
        noteSalt := order.noteSalt } (.draw order.Q order.expiry 0)
    match drawn with
    | none => keep requestId order.decline
    | some session =>
        assign fun e => { e with
          session, outstanding := e.outstanding + amount, epoch := e.epoch + 1, salt := newSalt }
        record (.drawn requestId amount)
        let price ← attempt (encodable amount)
        let expiry ← attempt (encodable order.expiry)
        let D := Engine.drawNoteCommit session.state.contractDomain session.state.lineGeneration
          (Engine.agentId e.agentKey) order.Q merchantPk price (.zero 64) order.noteNonce expiry
          order.noteSalt
        keep requestId (order.authorize D)
  else pure order

/-- What a compensation credits against the debt. -/
def Evaluation.credit (e : Evaluation B) (amount : ℤ) : ℤ :=
  if e.outstanding < amount then e.outstanding else amount

/-- `resume`: the note expired before it was redeemed. -/
def compensate (requestId : JsString) (order : Order B) (D : B) : M B (Order B) := do
  let newSalt ← randomBytes32
  let e ← evaluation
  let amount : ℤ := order.receipt.amount
  let credit := e.credit amount
  let refund := amount - credit
  let ledger ← transition { e.books with
      callerSecret := e.agentKey
      newSalt
      quoteMerchantPk := Engine.merchantPublicKey (e.merchants.key order.service)
      noteIdentity := Engine.agentId e.agentKey
      noteQuoteCommit := order.Q
      noteNonce := order.noteNonce
      noteSalt := order.noteSalt } (.cancelOrExpireNote D ⟨1, one_lt_u8⟩ 0)
  assign fun e => { e with
    outstanding := e.outstanding - credit, epoch := e.epoch + 1, salt := newSalt }
  record (.compensated requestId credit)
  let note ← attempt (must (ledger.notes.lookup D) "expected a member")
  keep requestId (order.compensate {
    amount := refund, credit, salt := newSalt, commitment := note.refundCommitment })

/-- `resume`: the merchant redeems the note. -/
def redeem (requestId : JsString) (order : Order B) (D : B) (noteExpiry : ℤ) :
    M B (Order B) := do
  let e ← evaluation
  let _ ← transition { (blankPrivate : PrivateState B) with
      callerSecret := e.merchants.key order.service
      noteIdentity := Engine.agentId e.agentKey
      noteQuoteCommit := order.Q
      noteNonce := order.noteNonce
      noteSalt := order.noteSalt
      redeemAmount := order.receipt.amount } (.redeemDraw D noteExpiry)
  keep requestId order.redeem

/-- `resume`: an order with a note. The note and its expiry are there in this phase; without
them the circuit would refuse the call. -/
def settle (requestId : JsString) (order : Order B) : M B (Order B) := do
  if order.phase = .authorized then
    let time ← now
    match order.D, order.noteExpiry with
    | some D, some noteExpiry =>
        if noteExpiry ≤ (time : ℤ) then compensate requestId order D
        else redeem requestId order D noteExpiry
    | _, _ => throw (.checkout 409 "Contract transition rejected.")
  else pure order

/-- `resume`: the service, once the merchant is paid. -/
def fulfil (requestId : JsString) (order : Order B) : M B (Order B) := do
  if order.phase = .redeemed then
    assign fun e => { e with deliveries := e.deliveries + 1 }
    record (.delivered requestId)
    keep requestId order.deliver
  else pure order

/-- `resume`. -/
def resume (requestId : JsString) (order : Order B) : M B Receipt := do
  let order ← expireQuote requestId order
  let order ← postQuote requestId order
  let order ← authorize requestId order
  let order ← settle requestId order
  let order ← fulfil requestId order
  pure order.receipt

/-- `new TextEncoder().encode(text)`; a surrogate alone is replaced. -/
def encodeText (text : JsString) : List UInt8 :=
  (points text).flatMap fun point =>
    Engine.utf8 (if 0xd800 ≤ point.1 ∧ point.1 ≤ 0xdfff then 0xfffd else point.1)

/-- `pad32`. -/
def pad32 (text : JsString) : Except Failure B :=
  let bytes := encodeText text
  if 32 < bytes.length then .error (.error "pad32 overflow") else .ok (Words.word bytes)

/-- `purchase`, of a request id that is new: the intention and its openings are stored before the
first circuit. -/
def prepare (service : Service) (document requestId : JsString) : M B (Order B) := do
  let e ← evaluation
  refuseIf (!e.opened) 409 "Issuer must open the evaluation line first."
  let date ← dateNow
  refuseIf (1800000 < date - e.createdAt) 410 ("New purchases are closed for this evaluation. "
    ++ "Exact retries and issuer reconciliation remain available.")
  refuseIf (100 ≤ e.orders.size) 409 "Evaluation order limit reached. Start a new session."
  let merchantPk := Engine.merchantPublicKey (e.merchants.key service.id)
  let uuid ← randomUUID
  let invoiceId ← attempt (pad32 (uuid.filter fun c => c.toNat != 0x2d))
  let quoteNonce ← randomBytes32
  let ledger := e.session.state
  let expiry ← deadline 600
  let price ← attempt (encodable service.price)
  let expiry64 ← attempt (encodable expiry)
  let Q := Engine.quoteCommit merchantPk invoiceId price expiry64 quoteNonce
    ledger.lineGeneration ledger.contractDomain ledger.feeFlat ledger.feeBps
  let noteNonce ← randomBytes32
  let noteSalt ← randomBytes32
  let order : Order B := {
    document, service := service.id, phase := .prepared
    receipt := {
      orderId := requestId, service := service.id, merchant := service.merchant
      amount := service.price, quote := toHex Q, note := none, outcome := .pending, stages := [] }
    invoiceId, quoteNonce, Q, expiry, noteNonce, noteSalt }
  keep requestId order

/-- The document of a purchase. -/
def documentOf (value : Unknown) : Except Failure JsString :=
  match value with
  | .string s =>
      if nonblank s && s.length ≤ 8000 then .ok s
      else .error (.checkout 400 "Supply a document of 1 to 8000 characters.")
  | _ => .error (.checkout 400 "Supply a document of 1 to 8000 characters.")

/-- `purchase`. -/
def purchase (serviceValue documentValue requestValue : Unknown) : M B Receipt := do
  let service ← match findService serviceValue with
    | some service => pure service
    | none => throw (.checkout 400 "Unknown service.")
  let document ← attempt (documentOf documentValue)
  let requestId ← attempt (intent requestValue)
  ensureAvailable
  match (← evaluation).orders.get requestId with
  | some prior =>
      refuseIf (prior.service != service.id || prior.document != document) 409
        "Request ID was already used for different purchase terms."
      resume requestId prior
  | none =>
      let order ← prepare service document requestId
      resume requestId order

end Purchase

/-! ## Receipts -/

section Receipts

variable [Words B] [WordBytes B]

/-- Some order's refund was reported under the reference. -/
def Evaluation.reports (e : Evaluation B) (reference : JsString) : Bool :=
  e.orders.values.any fun order =>
    (order.compensation.bind Compensation.reportedReference) == some reference

/-- `acknowledge`. -/
def acknowledge (amountValue referenceValue : Unknown) : M B (IssuerView B) := do
  let amount ← attempt (units amountValue "Acknowledgement")
  let reference ← attempt (intent referenceValue)
  ensureAvailable
  let e ← evaluation
  match e.repayments.get reference with
  | some previous =>
      refuseIf (previous != amount) 409
        "Receipt reference was already used with another amount."
      issuerView
  | none =>
      refuseIf (!e.opened || e.outstanding < (amount : ℤ)) 409
        "Acknowledgement exceeds outstanding evaluation debt."
      refuseIf (1000 ≤ e.repayments.size) 409 "Evaluation acknowledgement limit reached."
      let newSalt ← randomBytes32
      refuseIf (e.reports reference) 409 "Receipt reference already reported a refund."
      let paymentRef ← attempt (paymentReference reference)
      let receiptNonce ← randomBytes32
      let expiry ← deadline 600
      let _ ← transition { e.books with
          callerSecret := e.issuerKey
          newSalt
          repayAmount := amount
          paymentRef
          receiptNonce } (.acknowledgeRepayment expiry)
      assign fun e => { e with
        outstanding := e.outstanding - amount
        epoch := e.epoch + 1
        salt := newSalt
        repayments := e.repayments.set reference amount }
      record (.repaid reference amount)
      checkpoint
      issuerView

/-- `reportRefund`, of an order whose refund was not reported before. -/
def report (orderId reference : JsString) (order : Order B) (recorded : Compensation B) :
    M B (IssuerView B) := do
  let e ← evaluation
  refuseIf ((e.repayments.get reference).isSome || e.reports reference) 409
    "Receipt reference was already allocated."
  let paymentRef ← attempt (paymentReference reference)
  let expiry ← deadline 600
  match order.D with
  | some D =>
      let _ ← transition { (blankPrivate : PrivateState B) with
          callerSecret := e.issuerKey
          noteIdentity := Engine.agentId e.agentKey
          repayAmount := recorded.amount
          salt := recorded.salt
          paymentRef } (.cancelOrExpireNote D ⟨2, two_lt_u8⟩ expiry)
      let _ ← keep orderId (order.report recorded reference)
      issuerView
  | none => throw (.checkout 409 "Contract transition rejected.")

/-- `reportRefund`. -/
def reportRefund (orderIdValue referenceValue : Unknown) : M B (IssuerView B) := do
  let orderId ← attempt (intent orderIdValue)
  let reference ← attempt (intent referenceValue)
  ensureAvailable
  let noObligation : Failure :=
    .checkout 409 "No cash refund obligation exists for that order."
  match (← evaluation).orders.get orderId with
  | none => throw noObligation
  | some order =>
      match order.compensation with
      | none => throw noObligation
      | some recorded =>
          if recorded.amount = 0 then throw noObligation
          else
            match recorded.reported with
            | some reported =>
                refuseIf (reported != reference) 409
                  "Refund was already reported with another reference."
                issuerView
            | none => report orderId reference order recorded

end Receipts

/-! ## The process -/

/-- `new CheckoutEvaluation()` and `boot`. -/
def begin [WordBytes B] (storage : Bool) (world : World B) : State B :=
  let r := world.random
  let issuerKey := r.get 2
  let textKey := r.get 4
  let issuerPk := Engine.issuerPublicKey issuerKey
  let merchantPk := Engine.merchantPublicKey textKey
  { evaluation := {
      id := world.uuid.head.text
      issuerToken := toHex (r.get 0)
      agentToken := toHex (r.get 1)
      createdAt := world.date.head.ms
      issuerKey
      agentKey := r.get 3
      merchants := ⟨textKey, r.get 5⟩
      session := {
        state := constructor .canonical ⟨issuerPk, merchantPk, r.get 7, ⟨pad ""⟩, ⟨pad ""⟩, pad ""⟩
        privateState := { (blankPrivate : PrivateState B) with callerSecret := issuerKey } }
      limit := 0
      outstanding := 0
      epoch := 0
      salt := r.get 6
      opened := false
      fundedReserve := 0
      orders := .empty
      repayments := .empty
      deliveries := 0
      failed := false
      checkpointing := false }
    world := { world with
      random := r.drop 8, uuid := world.uuid.tail, date := world.date.tail }
    storage
    disk := none
    checkpoints := []
    effects := [] }

/-- `CheckoutEvaluation.create`. -/
def create [WordBytes B] (storage : Bool) (world : World B) :
    EStateM.Result Failure (State B) Unit :=
  let program : M B Unit := do
    let e ← evaluation
    let _ ← transition { (blankPrivate : PrivateState B) with callerSecret := e.issuerKey }
      (.registerMerchant (Engine.merchantPublicKey e.merchants.costReport))
    checkpoint
  program (begin storage world)

/-- The process starts again: the session that the store holds is recovered, and without one
nothing answers any more. -/
def restart [Words B] [WordBytes B] : M B Unit := do
  match (← get).disk with
  | some stored =>
      match recover stored.snapshot with
      | .ok recovered =>
          modify fun s => { s with evaluation := recovered, effects := stored.effects }
      | .error f =>
          assign fun e => { e with failed := true }
          throw f
  | none => assign fun e => { e with failed := true }

/-- What can be asked of the process. -/
inductive Request where
  | configure (limit reserve : Unknown)
  | purchase (service document requestId : Unknown)
  | acknowledge (amount reference : Unknown)
  | reportRefund (orderId reference : Unknown)
  | restart

/-- What it answers. -/
inductive Answer (B : Type) where
  | view (view : IssuerView B)
  | receipt (receipt : Receipt)
  | restarted

variable [Words B] [WordBytes B] [Locale]

/-- One request. -/
def serve : Request → M B (Answer B)
  | .configure limit reserve => do pure (.view (← configure limit reserve))
  | .purchase service document requestId => do
      pure (.receipt (← purchase service document requestId))
  | .acknowledge amount reference => do pure (.view (← acknowledge amount reference))
  | .reportRefund orderId reference => do pure (.view (← reportRefund orderId reference))
  | .restart => do
      restart
      pure .restarted

/-- What a request comes to: an answer, or the exception. -/
def outcome {α : Type} : EStateM.Result Failure (State B) α → Except Failure α
  | .ok a _ => .ok a
  | .error f _ => .error f

/-- Requests one after another, with what each came to. -/
def serveAll : List Request → State B → List (Except Failure (Answer B)) × State B
  | [], s => ([], s)
  | r :: rs, s =>
      let result := serve r s
      let rest := serveAll rs (Stateful.final result)
      (outcome result :: rest.1, rest.2)

end Operations

end Line.Checkout
