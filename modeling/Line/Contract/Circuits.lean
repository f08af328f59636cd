import Line.Contract.Hashes

/-!
# The twelve circuits

A circuit takes the caller's witnesses, the block time `now`, its public
arguments and the ledger, and returns the new ledger or is refused. Sums of
`Uint<64>`s are natural numbers, as the language widens them; a cast back and a
subtraction are checked. A circuit that is refused leaves the ledger as it was,
since nothing is returned.

The lines that only the organization contract has are the functions of the next
section; for the canonical contract they do nothing.
-/

namespace Line

open Checked

variable {B : Type} [DecidableEq B] [Compact B]

/-! ## Token movements of the organization contract -/

/-- `receiveUnshielded(settlementTokenColor, a)`. -/
def receiveUnshielded (p : Profile) (a : Nat) (c : Custody B) : Custody B :=
  match p with
  | .canonical => c
  | .organization => { c with balance := c.balance + a, received := c.received + a }

/-- `sendUnshielded(settlementTokenColor, a, recipient)`, after the balance was tested. -/
def sendUnshielded (a : Nat) (recipient : UserAddress B) (c : Custody B) : Custody B :=
  { c with balance := c.balance - a, sent := (recipient, a) :: c.sent }

/-- The payout of both withdrawals: to the issuer's fixed recipient. -/
def payIssuer (p : Profile) (a : Nat) (s : Ledger B) : Checked (Custody B) :=
  match p with
  | .canonical => pure s.custody
  | .organization => do
    assert (s.settlementTokenInitialized = true) "test token not initialized"
    assert (a ≤ s.custody.balance) "asset reserve deficit"
    pure (sendUnshielded a s.issuerPayoutRecipient s.custody)

/-- The payout of a redemption: to the recipient registered for the merchant key. -/
def payMerchant (p : Profile) (payoutMerchant : B) (a : Nat) (s : Ledger B) :
    Checked (Custody B) :=
  match p with
  | .canonical => pure s.custody
  | .organization => do
    let recipient ← lookup s.merchantPayoutRecipients payoutMerchant "missing payout recipient"
    assert (s.settlementTokenInitialized = true) "test token not initialized"
    assert (a ≤ s.custody.balance) "asset reserve deficit"
    pure (sendUnshielded a recipient s.custody)

/-- The payout of a refund: an overpayment goes back to the organization. -/
def payRefund (p : Profile) (refund : Nat) (s : Ledger B) : Checked (Custody B) :=
  match p with
  | .canonical => pure s.custody
  | .organization => do
    assert (refund ≤ s.custody.balance) "asset reserve deficit"
    pure (sendUnshielded refund s.issuerPayoutRecipient s.custody)

/-- The backing test of a draw: redeemed principal has left custody, all else is still held. -/
def requireBacking (p : Profile) (locked cost : Nat) (s : Ledger B) : Checked Unit :=
  match p with
  | .canonical => pure ()
  | .organization => do
    assert (s.settlementTokenInitialized = true) "test token not initialized"
    let held ← sub locked s.redeemedReserve.val
    assert (held + cost ≤ s.custody.balance) "asset reserve deficit"

/-! ## Constructor -/

/-- The constructor's arguments; the last three are the organization contract's. -/
structure Deployment (B : Type) where
  issuerPk : B
  initialMerchantPk : B
  instanceNonce : B
  issuerRecipient : UserAddress B
  initialMerchantRecipient : UserAddress B
  assetColor : B

/-- `constructor`. Fields it does not set have their defaults. -/
def constructor (p : Profile) (d : Deployment B) : Ledger B where
  issuer := d.issuerPk
  contractDomain := contractDomain d.issuerPk d.initialMerchantPk d.instanceNonce
  registeredMerchants := (∅ : Finmap _).insert d.initialMerchantPk true
  totalReserve := .zero 64
  encumberedReserve := .zero 64
  redeemedReserve := .zero 64
  feeReserve := .zero 64
  pendingFeeReserve := .zero 64
  refundReserve := .zero 64
  reportedRefundReserve := .zero 64
  feeFlat := .zero 64
  feeBps := .zero 64
  identityCommit := pad ""
  lineCommit := pad ""
  lineExpiry := .zero 64
  status := .NONE
  lineGeneration := .zero 64
  quotes := ∅
  notes := ∅
  nullifiers := ∅
  actionClock := 0
  issuerPayoutRecipient := d.issuerRecipient
  merchantPayoutRecipients :=
    match p with
    | .canonical => ∅
    | .organization => (∅ : Finmap _).insert d.initialMerchantPk d.initialMerchantRecipient
  settlementTokenColor := d.assetColor
  settlementTokenInitialized := true
  custody := ⟨0, 0, []⟩

/-! ## Registry and reserve -/

def requireIssuer (w : Witness B) (s : Ledger B) : Checked Unit :=
  assert (s.issuer = issuerPublicKey (w.callerSecret 0)) "not issuer"

/-- All six locked budgets. -/
def lockedReserve (s : Ledger B) : Nat :=
  s.encumberedReserve.val + s.redeemedReserve.val + s.feeReserve.val + s.pendingFeeReserve.val
    + s.refundReserve.val + s.reportedRefundReserve.val

def registerMerchant (p : Profile) (w : Witness B) (merchantPk : B) (recipient : UserAddress B)
    (s : Ledger B) : Checked (Ledger B) := do
  requireIssuer w s
  assert (merchantPk ∉ s.registeredMerchants) "merchant already registered"
  pure { s with
    registeredMerchants := s.registeredMerchants.insert merchantPk true
    merchantPayoutRecipients :=
      match p with
      | .canonical => s.merchantPayoutRecipients
      | .organization => s.merchantPayoutRecipients.insert merchantPk recipient
    actionClock := s.actionClock + 1 }

def disableMerchant (w : Witness B) (merchantPk : B) (s : Ledger B) : Checked (Ledger B) := do
  requireIssuer w s
  assert (merchantPk ∈ s.registeredMerchants) "unknown merchant"
  pure { s with
    registeredMerchants := s.registeredMerchants.insert merchantPk false
    actionClock := s.actionClock + 1 }

def fundReserve (p : Profile) (w : Witness B) (amount : U64) (s : Ledger B) :
    Checked (Ledger B) := do
  requireIssuer w s
  assert (0 < amount.val) "zero fund"
  let next := s.totalReserve.val + amount.val
  assert (s.totalReserve.val ≤ next) "overflow"
  let totalReserve ← asUint 64 next "totalReserve"
  pure { s with
    totalReserve
    custody := receiveUnshielded p amount.val s.custody
    actionClock := s.actionClock + 1 }

def withdrawUnencumberedReserve (p : Profile) (w : Witness B) (amount : U64) (s : Ledger B) :
    Checked (Ledger B) := do
  requireIssuer w s
  assert (0 < amount.val) "zero withdraw"
  assert (lockedReserve s ≤ s.totalReserve.val) "undercollateralized"
  let withdrawable ← sub s.totalReserve.val (lockedReserve s)
  assert (amount.val ≤ withdrawable) "amount exceeds unencumbered reserve"
  let custody ← payIssuer p amount.val s
  let total ← sub s.totalReserve.val amount.val
  let totalReserve ← asUint 64 total "totalReserve"
  pure { s with totalReserve, custody, actionClock := s.actionClock + 1 }

def withdrawFees (p : Profile) (w : Witness B) (s : Ledger B) : Checked (Ledger B) := do
  requireIssuer w s
  assert (0 < s.feeReserve.val) "no fees"
  assert (lockedReserve s ≤ s.totalReserve.val) "reserve deficit"
  let custody ← payIssuer p s.feeReserve.val s
  let total ← sub s.totalReserve.val s.feeReserve.val
  let totalReserve ← asUint 64 total "totalReserve"
  pure { s with totalReserve, feeReserve := .zero 64, custody, actionClock := s.actionClock + 1 }

/-! ## Line, quotes and draws -/

def openLine (w : Witness B) (now : Nat) (expiry flatFee basisPoints : U64) (s : Ledger B) :
    Checked (Ledger B) := do
  requireIssuer w s
  assert (s.status = .NONE ∨ s.status = .CLOSED) "line already open"
  let limit := w.lineLimit 0
  assert (0 < limit.val) "limit"
  assert (now < expiry.val) "expiry"
  assert (basisPoints.val ≤ 10000) "fee rate"
  let I := agentId (w.agentSecret 0)
  let book : LinePreimage B := {
    domain := s.contractDomain, identity := I, limit,
    outstanding := .zero 64, epoch := .zero 64 }
  let lineGeneration ← asUint 64 (s.lineGeneration.val + 1) "lineGeneration"
  pure { s with
    identityCommit := I
    lineCommit := lineStateCommit book (w.salt 0)
    lineExpiry := expiry
    feeFlat := flatFee
    feeBps := basisPoints
    status := .OPEN
    lineGeneration
    actionClock := s.actionClock + 1 }

def postQuote (w : Witness B) (now : Nat) (expiry : U64) (s : Ledger B) :
    Checked (Ledger B) := do
  let mPk := merchantPublicKey (w.callerSecret 0)
  let enabled ← lookup s.registeredMerchants mPk "unregistered merchant"
  assert (enabled = true) "merchant disabled"
  assert (s.status = .OPEN) "status"
  let amount := w.quoteAmount 0
  assert (0 < amount.val) "zero"
  assert (now < expiry.val) "expiry"
  let Q := quoteCommit mPk (w.invoiceId 0) amount expiry (w.quoteNonce 0) s.lineGeneration
    s.contractDomain s.feeFlat s.feeBps
  assert (Q ∉ s.quotes) "quote exists"
  pure { s with
    quotes := s.quotes.insert Q { expiry, lineGeneration := s.lineGeneration, used := false }
    actionClock := s.actionClock + 1 }

/-- The fee assertions of `draw`: no quotient is computed, the given fee is bracketed. -/
def feePolicy (feeFlat feeBps amount f : U64) : Checked Unit := do
  assert (feeFlat.val ≤ f.val) "fee policy"
  let variableFee ← sub f.val feeFlat.val
  if feeBps.val = 0 then
    assert (variableFee = 0) "fee policy"
  else do
    assert (0 < variableFee) "fee policy"
    let numerator := amount.val * feeBps.val
    let below ← sub variableFee 1
    assert (below * 10000 < numerator) "fee policy"
    assert (numerator ≤ variableFee * 10000) "fee policy"

def draw (p : Profile) (w : Witness B) (now : Nat) (quoteCommitPublic : B)
    (noteExpiry fee : U64) (s : Ledger B) : Checked (Ledger B) := do
  assert (s.status = .OPEN) "status"
  assert (now < s.lineExpiry.val) "line expired"
  let k := w.agentSecret 0
  let I := agentId k
  assert (I = s.identityCommit) "agent"
  let limit := w.lineLimit 0
  let outstanding := w.lineOutstanding 0
  let epoch := w.lineEpoch 0
  let amount := w.drawAmount 0
  let book : LinePreimage B := {
    domain := s.contractDomain, identity := I, limit, outstanding, epoch }
  assert (lineStateCommit book (w.salt 0) = s.lineCommit) "stale"
  let Q := quoteCommitPublic
  let quote ← lookup s.quotes Q "quote"
  assert (quote.used = false) "used"
  assert (now < quote.expiry.val) "expired"
  assert (quote.lineGeneration = s.lineGeneration) "line generation mismatch"
  let wM := w.quoteMerchantPk 0
  let recon := quoteCommit wM (w.invoiceId 0) amount quote.expiry (w.quoteNonce 0)
    quote.lineGeneration s.contractDomain s.feeFlat s.feeBps
  assert (recon = Q) "quote preimage"
  assert (wM ∈ s.registeredMerchants) "quote merchant unregistered"
  assert (0 < amount.val) "zero"
  feePolicy s.feeFlat s.feeBps amount fee
  let cost := amount.val + fee.val
  assert (amount.val ≤ cost) "fee overflow"
  let nextB := outstanding.val + cost
  assert (outstanding.val ≤ nextB) "overflow"
  assert (nextB ≤ limit.val) "capacity"
  assert (lockedReserve s ≤ s.totalReserve.val) "reserve deficit"
  let free ← sub s.totalReserve.val (lockedReserve s)
  assert (cost ≤ free) "insufficient reserve"
  requireBacking p (lockedReserve s) cost s
  assert (noteExpiry = quote.expiry) "note expiry terms"
  assert (now < noteExpiry.val) "note expiry"
  let N := drawNullifier k Q s.contractDomain
  assert (N ∉ s.nullifiers) "nullifier"
  let np : DrawNotePreimage B := {
    domain := s.contractDomain, lineGeneration := s.lineGeneration, identity := I
    quoteCommit := Q, merchantPk := wM, amount, fee, noteNonce := w.noteNonce 0
    expiry := noteExpiry }
  let D := drawNoteCommit np (w.noteSalt 0)
  assert (D ∉ s.notes) "note exists"
  let encumberedReserve ← asUint 64 (s.encumberedReserve.val + amount.val) "encumberedReserve"
  let pendingFeeReserve ← asUint 64 (s.pendingFeeReserve.val + fee.val) "pendingFeeReserve"
  let nextB ← asUint 64 nextB "outstanding"
  let nextEpoch ← asUint 64 (epoch.val + 1) "epoch"
  let book2 : LinePreimage B := {
    domain := s.contractDomain, identity := I, limit, outstanding := nextB, epoch := nextEpoch }
  pure { s with
    quotes := s.quotes.insert Q {
      expiry := quote.expiry, lineGeneration := quote.lineGeneration, used := true }
    notes := s.notes.insert D {
      amount, fee, redeemed := false, cancelled := false, expiry := noteExpiry
      lineGeneration := s.lineGeneration, compensationAllocated := false
      refundCommitment := pad "", cashRefundOwed := false, refundAcknowledged := false
      refundPaymentNullifier := pad "" }
    nullifiers := insert N s.nullifiers
    encumberedReserve
    pendingFeeReserve
    lineCommit := lineStateCommit book2 (w.newSalt 0)
    actionClock := s.actionClock + 1 }

/-! ## Redemption -/

/-- The merchant's opening is checked under the secret answered to the first
`callerSecret()`; the nullifier is built from the second. -/
def redeemDraw (p : Profile) (w : Witness B) (now : Nat) (noteCommitPublic : B)
    (noteExpiry : U64) (s : Ledger B) : Checked (Ledger B) := do
  let D := noteCommitPublic
  let note ← lookup s.notes D "note not found"
  assert (note.redeemed = false) "note already redeemed"
  assert (note.cancelled = false) "note cancelled"
  assert (now < note.expiry.val) "note expired"
  let amount := w.redeemAmount 0
  assert (note.amount = amount) "amount mismatch"
  let mPk := merchantPublicKey (w.callerSecret 0)
  let np : DrawNotePreimage B := {
    domain := s.contractDomain, lineGeneration := note.lineGeneration
    identity := w.noteIdentity 0, quoteCommit := w.noteQuoteCommit 0, merchantPk := mPk
    amount, fee := note.fee, noteNonce := w.noteNonce 0, expiry := noteExpiry }
  assert (drawNoteCommit np (w.noteSalt 0) = D) "note opening invalid"
  let custody ← payMerchant p mPk amount.val s
  let N := redeemNullifier (w.callerSecret 1) D s.contractDomain
  assert (N ∉ s.nullifiers) "redemption nullifier reused"
  let e ← sub s.encumberedReserve.val amount.val
  let encumberedReserve ← asUint 64 e "encumberedReserve"
  let redeemedReserve ← asUint 64 (s.redeemedReserve.val + amount.val) "redeemedReserve"
  let f ← sub s.pendingFeeReserve.val note.fee.val
  let pendingFeeReserve ← asUint 64 f "pendingFeeReserve"
  let feeReserve ← asUint 64 (s.feeReserve.val + note.fee.val) "feeReserve"
  pure { s with
    nullifiers := insert N s.nullifiers
    notes := s.notes.insert D {
      amount := note.amount, fee := note.fee, redeemed := true, cancelled := false
      expiry := note.expiry, lineGeneration := note.lineGeneration
      compensationAllocated := false, refundCommitment := pad "", cashRefundOwed := false
      refundAcknowledged := false, refundPaymentNullifier := pad "" }
    encumberedReserve
    redeemedReserve
    pendingFeeReserve
    feeReserve
    custody
    actionClock := s.actionClock + 1 }

/-! ## Expiry, compensation and refunds -/

/-- The three counter moves of an expiry, made by mode 0 and by mode 1 on a live note. -/
def releaseBudget (note : NoteMeta B) (cost : U64) (s : Ledger B) : Checked (Ledger B) := do
  let e ← sub s.encumberedReserve.val note.amount.val
  let encumberedReserve ← asUint 64 e "encumberedReserve"
  let f ← sub s.pendingFeeReserve.val note.fee.val
  let pendingFeeReserve ← asUint 64 f "pendingFeeReserve"
  let refundReserve ← asUint 64 (s.refundReserve.val + cost.val) "refundReserve"
  pure { s with encumberedReserve, pendingFeeReserve, refundReserve }

/-- `cancelOrExpireNote`, `mode == 0`. -/
def expireNote (now : Nat) (D : B) (note : NoteMeta B) (cost : U64) (s : Ledger B) :
    Checked (Ledger B) := do
  assert (note.cancelled = false) "note already cancelled"
  assert (note.expiry.val ≤ now) "note not expired"
  let s ← releaseBudget note cost s
  pure { s with
    notes := s.notes.insert D {
      amount := note.amount, fee := note.fee, redeemed := false, cancelled := true
      expiry := note.expiry, lineGeneration := note.lineGeneration
      compensationAllocated := false, refundCommitment := pad "", cashRefundOwed := false
      refundAcknowledged := false, refundPaymentNullifier := pad "" } }

/-- `if (!cashOwed) { refundReserve -= cost; }`: a zero remainder releases the whole budget. -/
def releaseRemainder (cashOwed : Bool) (cost : U64) (s : Ledger B) : Checked U64 :=
  if cashOwed then pure s.refundReserve
  else do
    let u ← sub s.refundReserve.val cost.val
    asUint 64 u "refundReserve"

/-- `mode == 1` on a note of the current generation. `lineLimit()` and `lineEpoch()` are called
for the opening and called again for the new book. -/
def allocateCurrent (w : Witness B) (D : B) (note : NoteMeta B) (cost : U64) (owner : B)
    (s : Ledger B) : Checked (Ledger B) := do
  assert (owner = s.identityCommit) "compensation identity"
  let outstanding := w.lineOutstanding 0
  let book : LinePreimage B := {
    domain := s.contractDomain, identity := s.identityCommit, limit := w.lineLimit 0
    outstanding, epoch := w.lineEpoch 0 }
  assert (lineStateCommit book (w.salt 0) = s.lineCommit) "stale compensation book"
  let refundAmount := cashRefundAmount outstanding cost
  let rp : RefundPreimage B := {
    domain := s.contractDomain, lineGeneration := note.lineGeneration, identity := owner
    noteCommit := D, amount := refundAmount }
  let cashOwed := decide (0 < refundAmount.val)
  let refundReserve ← releaseRemainder cashOwed cost s
  let epoch ← asUint 64 ((w.lineEpoch 1).val + 1) "epoch"
  let book2 : LinePreimage B := {
    domain := s.contractDomain, identity := s.identityCommit, limit := w.lineLimit 1
    outstanding := debtAfterCredit outstanding cost, epoch }
  pure { s with
    refundReserve
    lineCommit := lineStateCommit book2 (w.newSalt 0)
    notes := s.notes.insert D {
      amount := note.amount, fee := note.fee, redeemed := false, cancelled := true
      expiry := note.expiry, lineGeneration := note.lineGeneration
      compensationAllocated := true, refundCommitment := refundCommit rp (w.newSalt 1)
      cashRefundOwed := cashOwed, refundAcknowledged := false
      refundPaymentNullifier := pad "" } }

/-- `mode == 1` on a note of an older generation: no book is consulted. -/
def allocateOlder (w : Witness B) (D : B) (note : NoteMeta B) (cost : U64) (owner : B)
    (s : Ledger B) : Checked (Ledger B) := do
  assert (note.lineGeneration.val < s.lineGeneration.val) "compensation generation"
  let rp : RefundPreimage B := {
    domain := s.contractDomain, lineGeneration := note.lineGeneration, identity := owner
    noteCommit := D, amount := cost }
  pure { s with
    notes := s.notes.insert D {
      amount := note.amount, fee := note.fee, redeemed := false, cancelled := true
      expiry := note.expiry, lineGeneration := note.lineGeneration
      compensationAllocated := true, refundCommitment := refundCommit rp (w.newSalt 0)
      cashRefundOwed := true, refundAcknowledged := false
      refundPaymentNullifier := pad "" } }

/-- `if (!meta.cancelled) { … }`: mode 1 expires a note that is still live. -/
def expireIfLive (now : Nat) (note : NoteMeta B) (cost : U64) (s : Ledger B) :
    Checked (Ledger B) :=
  if note.cancelled then pure s
  else do
    assert (note.expiry.val ≤ now) "note not expired"
    releaseBudget note cost s

/-- `cancelOrExpireNote`, `mode == 1`. -/
def allocateCompensation (w : Witness B) (now : Nat) (D : B) (note : NoteMeta B) (cost : U64)
    (s : Ledger B) : Checked (Ledger B) := do
  assert (note.compensationAllocated = false) "compensation already allocated"
  let s ← expireIfLive now note cost s
  let owner := w.noteIdentity 0
  let np : DrawNotePreimage B := {
    domain := s.contractDomain, lineGeneration := note.lineGeneration, identity := owner
    quoteCommit := w.noteQuoteCommit 0, merchantPk := w.quoteMerchantPk 0
    amount := note.amount, fee := note.fee, noteNonce := w.noteNonce 0, expiry := note.expiry }
  assert (drawNoteCommit np (w.noteSalt 0) = D) "compensation note opening"
  let caller := w.callerSecret 0
  assert (issuerPublicKey caller = s.issuer ∨ agentId caller = owner) "compensation authority"
  if note.lineGeneration = s.lineGeneration then allocateCurrent w D note cost owner s
  else allocateOlder w D note cost owner s

/-- The last counter of a refund: the canonical contract keeps the budget locked as reported, the
organization contract has paid the amount out of the total. -/
def retireBudget (p : Profile) (cost amount : U64) (s : Ledger B) : Checked (U64 × U64) :=
  match p with
  | .canonical => do
    let x ← asUint 64 (s.reportedRefundReserve.val + cost.val) "reportedRefundReserve"
    pure (s.totalReserve, x)
  | .organization => do
    let t ← sub s.totalReserve.val amount.val
    let totalReserve ← asUint 64 t "totalReserve"
    pure (totalReserve, s.reportedRefundReserve)

/-- `cancelOrExpireNote`, `mode == 2`. The caller is authenticated by the first
`callerSecret()`; the payment nullifier is built from the second. -/
def acknowledgeRefund (p : Profile) (w : Witness B) (now : Nat) (D : B) (note : NoteMeta B)
    (cost receiptExpiry : U64) (s : Ledger B) : Checked (Ledger B) := do
  requireIssuer w s
  assert (note.cancelled = true ∧ note.compensationAllocated = true ∧ note.cashRefundOwed = true)
    "no cash refund obligation"
  assert (note.refundAcknowledged = false) "refund already acknowledged"
  assert (now < receiptExpiry.val) "refund receipt expiry"
  let amount := w.repayAmount 0
  assert (0 < amount.val ∧ amount.val ≤ cost.val) "refund amount"
  let rp : RefundPreimage B := {
    domain := s.contractDomain, lineGeneration := note.lineGeneration
    identity := w.noteIdentity 0, noteCommit := D, amount }
  assert (refundCommit rp (w.salt 0) = note.refundCommitment) "refund opening"
  let payRef := w.paymentRef 0
  assert (payRef ≠ pad "") "empty payment reference"
  let P := paymentNullifier (w.callerSecret 1) payRef s.contractDomain
  assert (P ∉ s.nullifiers) "payment used"
  let u ← sub s.refundReserve.val cost.val
  let refundReserve ← asUint 64 u "refundReserve"
  let custody ← payRefund p amount.val s
  let retired ← retireBudget p cost amount s
  pure { s with
    nullifiers := insert P s.nullifiers
    notes := s.notes.insert D {
      amount := note.amount, fee := note.fee, redeemed := false, cancelled := true
      expiry := note.expiry, lineGeneration := note.lineGeneration
      compensationAllocated := true, refundCommitment := note.refundCommitment
      cashRefundOwed := true, refundAcknowledged := true, refundPaymentNullifier := P }
    refundReserve
    totalReserve := retired.1
    reportedRefundReserve := retired.2
    custody }

/-- The three actions. -/
def noteAction (p : Profile) (w : Witness B) (now : Nat) (D : B) (note : NoteMeta B)
    (mode : Nat) (cost receiptExpiry : U64) (s : Ledger B) : Checked (Ledger B) :=
  if mode = 0 then expireNote now D note cost s
  else if mode = 1 then allocateCompensation w now D note cost s
  else acknowledgeRefund p w now D note cost receiptExpiry s

def cancelOrExpireNote (p : Profile) (w : Witness B) (now : Nat) (noteCommitPublic : B)
    (action : Uint 8) (receiptExpiry : U64) (s : Ledger B) : Checked (Ledger B) := do
  let D := noteCommitPublic
  let mode := action.val
  assert (mode ≤ 2) "compensation action"
  let note ← lookup s.notes D "note not found"
  assert (note.redeemed = false) "note already redeemed"
  let cost ← asUint 64 (note.amount.val + note.fee.val) "cost"
  let s ← noteAction p w now D note mode cost receiptExpiry s
  pure { s with actionClock := s.actionClock + 1 }

/-! ## Repayment and status -/

/-- The organization's repayment is a real deposit, which the total grows by. -/
def depositRepayment (p : Profile) (incoming : U64) (s : Ledger B) : Checked U64 :=
  match p with
  | .canonical => pure s.totalReserve
  | .organization => do
    let nextReserve := s.totalReserve.val + incoming.val
    assert (s.totalReserve.val ≤ nextReserve) "overflow"
    asUint 64 nextReserve "totalReserve"

/-- As in `acknowledgeRefund`, the payment nullifier is built from the second `callerSecret()`. -/
def acknowledgeRepayment (p : Profile) (w : Witness B) (now : Nat) (receiptExpiry : U64)
    (s : Ledger B) : Checked (Ledger B) := do
  requireIssuer w s
  assert (s.status = .OPEN ∨ s.status = .DEFAULTED) "status"
  let I := s.identityCommit
  let C := s.lineCommit
  let limit := w.lineLimit 0
  let outstanding := w.lineOutstanding 0
  let epoch := w.lineEpoch 0
  let amount := w.repayAmount 0
  let book : LinePreimage B := {
    domain := s.contractDomain, identity := I, limit, outstanding, epoch }
  assert (lineStateCommit book (w.salt 0) = C) "stale"
  assert (0 < amount.val) "zero"
  assert (amount.val ≤ outstanding.val) "range"
  let totalReserve ← depositRepayment p amount s
  assert (now < receiptExpiry.val) "expiry"
  let payRef := w.paymentRef 0
  assert (payRef ≠ pad "") "empty payment reference"
  let P := paymentNullifier (w.callerSecret 1) payRef s.contractDomain
  assert (P ∉ s.nullifiers) "payment used"
  let N := repayNullifier (w.receiptNonce 0) I C amount payRef s.contractDomain
  assert (N ∉ s.nullifiers) "receipt used"
  let b ← sub outstanding.val amount.val
  let nextB ← asUint 64 b "outstanding"
  let nextEpoch ← asUint 64 (epoch.val + 1) "epoch"
  let book2 : LinePreimage B := {
    domain := s.contractDomain, identity := I, limit, outstanding := nextB, epoch := nextEpoch }
  pure { s with
    totalReserve
    custody := receiveUnshielded p amount.val s.custody
    nullifiers := insert N (insert P s.nullifiers)
    lineCommit := lineStateCommit book2 (w.newSalt 0)
    actionClock := s.actionClock + 1 }

/-- `if (n == Status.CLOSED) { … }`: closing needs the current book, opened at zero debt. -/
def requireClosing (w : Witness B) (next : Status) (s : Ledger B) : Checked Unit :=
  if next = .CLOSED then do
    let outstanding := w.lineOutstanding 0
    let book : LinePreimage B := {
      domain := s.contractDomain, identity := s.identityCommit, limit := w.lineLimit 0
      outstanding, epoch := w.lineEpoch 0 }
    assert (lineStateCommit book (w.salt 0) = s.lineCommit) "stale closing book"
    assert (outstanding.val = 0) "outstanding debt"
  else pure ()

/-- `if (n == Status.OPEN) { … }`. -/
def requireReopening (next : Status) (s : Ledger B) : Checked Unit :=
  if next = .OPEN then
    assert (s.status = .OPEN ∨ s.status = .DEFAULTED) "only defaulted reopens"
  else pure ()

def setStatus (w : Witness B) (next : Status) (s : Ledger B) : Checked (Ledger B) := do
  requireIssuer w s
  assert (s.status ≠ .NONE) "no line"
  assert (next ≠ .NONE) "bad status"
  assert (s.status ≠ .CLOSED) "closed"
  requireClosing w next s
  requireReopening next s
  pure { s with status := next, actionClock := s.actionClock + 1 }

/-! ## Calls -/

/-- A circuit with its public arguments. -/
inductive Op (B : Type) where
  | registerMerchant (merchantPk : B) (recipient : UserAddress B)
  | disableMerchant (merchantPk : B)
  | fundReserve (amount : U64)
  | withdrawUnencumberedReserve (amount : U64)
  | withdrawFees
  | openLine (expiry flatFee basisPoints : U64)
  | postQuote (expiry : U64)
  | draw (quoteCommitPublic : B) (noteExpiry fee : U64)
  | redeemDraw (noteCommitPublic : B) (noteExpiry : U64)
  | cancelOrExpireNote (noteCommitPublic : B) (action : Uint 8) (receiptExpiry : U64)
  | acknowledgeRepayment (receiptExpiry : U64)
  | setStatus (next : Status)

/-- One transaction: a circuit, the caller's witnesses and the block time. -/
structure Call (B : Type) where
  op : Op B
  witness : Witness B
  now : Nat

/-- Run the called circuit. -/
def exec (p : Profile) (c : Call B) (s : Ledger B) : Checked (Ledger B) :=
  match c.op with
  | .registerMerchant merchantPk recipient =>
      registerMerchant p c.witness merchantPk recipient s
  | .disableMerchant merchantPk => disableMerchant c.witness merchantPk s
  | .fundReserve amount => fundReserve p c.witness amount s
  | .withdrawUnencumberedReserve amount => withdrawUnencumberedReserve p c.witness amount s
  | .withdrawFees => withdrawFees p c.witness s
  | .openLine expiry flatFee basisPoints =>
      openLine c.witness c.now expiry flatFee basisPoints s
  | .postQuote expiry => postQuote c.witness c.now expiry s
  | .draw Q noteExpiry fee => draw p c.witness c.now Q noteExpiry fee s
  | .redeemDraw D noteExpiry => redeemDraw p c.witness c.now D noteExpiry s
  | .cancelOrExpireNote D action receiptExpiry =>
      cancelOrExpireNote p c.witness c.now D action receiptExpiry s
  | .acknowledgeRepayment receiptExpiry =>
      acknowledgeRepayment p c.witness c.now receiptExpiry s
  | .setStatus next => setStatus c.witness next s

end Line
