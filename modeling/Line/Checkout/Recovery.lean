import Line.Checkout.Data

/-!
# Recovering an evaluation from a snapshot

`CheckoutEvaluation.recover`: everything in a snapshot is checked again, against itself and
against the ledger in it, before there is an evaluation. What the types of this model
already say (that a word is 32 bytes long, that a phase is one of eight) is not tested.

A snapshot comes out of a file, so nothing may be assumed of it; in particular a private
book that does not open the ledger's commitment, or an order whose note says otherwise,
would be trouble only much later. The checks are those of the source, in its order, and a
snapshot that fails one of them is refused as a whole.
-/

namespace Line.Checkout

open Checked
open Line.Engine (JsString canonicalPaymentReferenceBytes Words)

variable {B : Type} [DecidableEq B] [Compact B] [Words B] [WordBytes B] [StateCodec B]

/-- `if (bad) throw new Error(text);`. -/
def throwIf (bad : Bool) (text : String) : Except Failure Unit :=
  if bad then .error (.error text) else .ok ()

/-- `encodeU64` and `UINT64.toValue` take no other number. -/
def encodable (n : ℤ) : Except Failure U64 :=
  match uint64 n with
  | some u => .ok u
  | none => .error (.error "Uint<64> out of range")

/-- The value that must be there. -/
def must {α : Type} (x : Option α) (text : String) : Except Failure α :=
  match x with
  | some a => .ok a
  | none => .error (.error text)

/-- `canonicalPaymentReferenceBytes`; its exceptions are errors here. -/
def paymentReference (reference : JsString) : Except Failure B :=
  match canonicalPaymentReferenceBytes reference with
  | .ok bytes => .ok bytes
  | .error (.thrown text) => .error (.error text)
  | .error (.fail f) => .error (.error f.message)

/-- `record.reportedReference`, where it is tested: an empty text is as good as none. -/
def Compensation.reported (record : Compensation B) : Option JsString :=
  record.reportedReference.filter fun reference => !reference.isEmpty

/-- One reference of the repayments. -/
def recoverRepayment (entry : JsString × ℕ) : Except Failure Unit := do
  let reference ← intent (.string entry.1)
  throwIf (reference != entry.1 || Number.maxSafe < entry.2 || entry.2 < 1)
    "Invalid checkout receipt record."

/-- The ledger of the snapshot. -/
def recoverLedger (snapshot : Snapshot B) (ledger : Ledger B) : Except Failure Unit :=
  throwIf ((ledger.totalReserve.val : ℤ) != snapshot.fundedReserve
      || ledger.totalReserve.val < lockedReserve ledger || ledger.feeFlat.val != 0
      || ledger.feeBps.val != 0)
    "Checkout ledger does not match its checkpoint."

/-- The private book of the snapshot. -/
def recoverBook (snapshot : Snapshot B) (ledger : Ledger B) : Except Failure Unit :=
  if snapshot.opened then do
    let limit ← encodable snapshot.limit
    let outstanding ← encodable snapshot.outstanding
    let epoch ← encodable snapshot.epoch
    throwIf (toHex (Engine.lineStateCommit ledger.contractDomain
        (Engine.agentId snapshot.agentKey) limit outstanding epoch snapshot.salt)
      != toHex ledger.lineCommit) "Checkout private book does not match its checkpoint."
  else pure ()

/-- The note of an order that was drawn. -/
def recoverNote (snapshot : Snapshot B) (ledger : Ledger B) (order : Order B) (price : U64)
    (merchantPk Q : B) (expiry : U64) : Except Failure Unit := do
  let D := Engine.drawNoteCommit ledger.contractDomain ledger.lineGeneration
    (Engine.agentId snapshot.agentKey) Q merchantPk price (.zero 64) order.noteNonce expiry
    order.noteSalt
  throwIf (order.D.map toHex != some (toHex D) || order.receipt.note != some (toHex D)
      || order.noteExpiry != some order.expiry || decide (D ∉ ledger.notes))
    "Checkout note does not match its checkpoint."
  let note ← must (ledger.notes.lookup D) "expected a member"
  throwIf ((order.phase == .redeemed || order.phase == .delivered) != note.redeemed
      || (order.phase == .compensated) != note.cancelled)
    "Checkout note phase does not match its checkpoint."

/-- The receipt that a compensation's note must name. -/
def recoverReceipt (snapshot : Snapshot B) (ledger : Ledger B) (record : Compensation B) :
    Except Failure B :=
  match record.reported with
  | some reference => do
      let reference ← intent (.string reference)
      let bytes ← paymentReference reference
      pure (Engine.paymentNullifier snapshot.issuerKey bytes ledger.contractDomain)
  | none => pure (pad "")

/-- The compensation of an order. -/
def recoverCompensation (snapshot : Snapshot B) (ledger : Ledger B) (order : Order B) :
    Except Failure Unit := do
  let record ← must order.compensation "Invalid checkout compensation checkpoint."
  throwIf (record.amount < 0 || record.credit < 0
      || record.amount + record.credit != (order.receipt.amount : ℤ))
    "Invalid checkout compensation checkpoint."
  let D ← must order.D "Invalid checkout compensation checkpoint."
  let note ← must (ledger.notes.lookup D) "expected a member"
  let amount ← encodable record.amount
  let commitment := Engine.refundCommit ledger.contractDomain note.lineGeneration
    (Engine.agentId snapshot.agentKey) D amount record.salt
  throwIf (!note.cancelled || !note.compensationAllocated
      || note.cashRefundOwed != decide (0 < record.amount)
      || toHex note.refundCommitment != toHex commitment
      || toHex record.commitment != toHex commitment
      || note.refundAcknowledged != record.reported.isSome)
    "Checkout compensation opening does not match its checkpoint."
  let receipt ← recoverReceipt snapshot ledger record
  throwIf (toHex note.refundPaymentNullifier != toHex receipt
      || (record.reported.isSome && decide (receipt ∉ ledger.nullifiers)))
    "Checkout refund receipt does not match its checkpoint."

/-- One order of the snapshot. -/
def recoverOrder (snapshot : Snapshot B) (ledger : Ledger B) (entry : JsString × Order B) :
    Except Failure Unit := do
  let order := entry.2
  let requestId ← intent (.string entry.1)
  let service ← must (catalog order.service) "Invalid checkout order checkpoint."
  throwIf (requestId != order.receipt.orderId || order.receipt.service != order.service
      || order.receipt.amount != service.price || !nonblank order.document
      || 8000 < order.document.length || order.expiry < 0)
    "Invalid checkout order checkpoint."
  let merchantPk := Engine.merchantPublicKey (snapshot.merchants.key order.service)
  let price ← encodable service.price
  let expiry ← encodable order.expiry
  let Q := Engine.quoteCommit merchantPk order.invoiceId price expiry order.quoteNonce
    ledger.lineGeneration ledger.contractDomain ledger.feeFlat ledger.feeBps
  throwIf (toHex Q != toHex order.Q || order.receipt.quote != toHex Q)
    "Checkout quote does not match its checkpoint."
  if order.phase ∈ [Phase.authorized, .redeemed, .delivered, .compensated] then
    recoverNote snapshot ledger order price merchantPk Q expiry
  if order.phase = .compensated then
    recoverCompensation snapshot ledger order

/-- `CheckoutEvaluation.recover`. -/
def recover (snapshot : Snapshot B) : Except Failure (Evaluation B) := do
  throwIf (snapshot.version != 4 || snapshot.deadlineUnits != "unix-seconds"
      || snapshot.settlement != "private-compensation-v1" || !isSessionId snapshot.id
      || !isToken snapshot.issuerToken || !isToken snapshot.agentToken
      || decide ((Number.maxSafe : ℤ) < |snapshot.createdAt|) || 100 < snapshot.orders.length)
    "Invalid checkout snapshot."
  throwIf ([snapshot.limit, snapshot.outstanding, snapshot.epoch, snapshot.fundedReserve].any
      fun book => book < 0) "Invalid checkout private book."
  throwIf (snapshot.limit < snapshot.outstanding || Number.maxSafe < snapshot.deliveries)
    "Invalid checkout accounting."
  let orders := OrderedMap.ofEntries snapshot.orders
  let repayments := OrderedMap.ofEntries snapshot.repayments
  throwIf (orders.size != snapshot.orders.length
      || repayments.size != snapshot.repayments.length || 1000 < snapshot.repayments.length)
    "Invalid duplicate checkout records."
  repayments.entries.forM recoverRepayment
  let ledger ← must (StateCodec.deserialize snapshot.state) "expected a contract state"
  recoverLedger snapshot ledger
  recoverBook snapshot ledger
  orders.entries.forM (recoverOrder snapshot ledger)
  pure {
    id := snapshot.id
    issuerToken := snapshot.issuerToken
    agentToken := snapshot.agentToken
    createdAt := snapshot.createdAt
    issuerKey := snapshot.issuerKey
    agentKey := snapshot.agentKey
    merchants := snapshot.merchants
    session := ⟨ledger, snapshot.privateState⟩
    limit := snapshot.limit
    outstanding := snapshot.outstanding
    epoch := snapshot.epoch
    salt := snapshot.salt
    opened := snapshot.opened
    fundedReserve := snapshot.fundedReserve
    orders
    repayments
    deliveries := snapshot.deliveries
    failed := false
    checkpointing := false }

end Line.Checkout
