import Line.Checkout.Evaluation
import Line.Proof.Allocation

/-!
# From one checkpoint to the next

Between two checkpoints an evaluation does one thing: it makes one circuit call, or none,
and assigns to its fields. `Stage` lists these things with what was tested before them and
the effects that are recorded, so that every invariant of the evaluation is proved by cases
on `Stage`, and no later module looks into an operation.

A stage carries the tests of its operation as hypotheses, and no more than those: what else
holds when it is made has to come from the invariant. The circuit call is there as an
equation of `runCircuit`, since what a circuit checks and changes is the contract's
business. The fields are assigned after the call and before the checkpoint, so a stage never
has the new ledger without the new fields.
-/

namespace Line.Checkout

open Checked
open Line.Engine (JsString Words)

variable {B : Type}

/-! ## Numbers and witnesses -/

theorem uint64_eq_some {n : ℤ} {u : U64} : uint64 n = some u ↔ (u.val : ℤ) = n := by
  unfold uint64
  have hu := u.isLt
  split
  · rename_i h
    rw [Option.some.injEq, ← Uint.val_inj]
    simp only
    omega
  · rename_i h
    simp only [reduceCtorEq, false_iff]
    omega

@[simp] theorem uint64_val (u : U64) : uint64 (u.val : ℤ) = some u := uint64_eq_some.mpr rfl

@[simp] theorem uint64_zero : uint64 0 = some (.zero 64) := uint64_eq_some.mpr rfl

/-- The witness answers from the private state. -/
structure Answers (ps : PrivateState B) (w : Witness B) : Prop where
  callerSecret : ∀ k, w.callerSecret k = ps.callerSecret
  agentSecret : ∀ k, w.agentSecret k = ps.agentSecret
  salt : ∀ k, w.salt k = ps.salt
  newSalt : ∀ k, w.newSalt k = ps.newSalt
  invoiceId : ∀ k, w.invoiceId k = ps.invoiceId
  quoteNonce : ∀ k, w.quoteNonce k = ps.quoteNonce
  receiptNonce : ∀ k, w.receiptNonce k = ps.receiptNonce
  paymentRef : ∀ k, w.paymentRef k = ps.paymentRef
  noteNonce : ∀ k, w.noteNonce k = ps.noteNonce
  noteSalt : ∀ k, w.noteSalt k = ps.noteSalt
  noteIdentity : ∀ k, w.noteIdentity k = ps.noteIdentity
  noteQuoteCommit : ∀ k, w.noteQuoteCommit k = ps.noteQuoteCommit
  lineLimit : ∀ k, ((w.lineLimit k).val : ℤ) = ps.lineLimit
  lineOutstanding : ∀ k, ((w.lineOutstanding k).val : ℤ) = ps.lineOutstanding
  lineEpoch : ∀ k, ((w.lineEpoch k).val : ℤ) = ps.lineEpoch
  quoteAmount : ∀ k, ((w.quoteAmount k).val : ℤ) = ps.quoteAmount
  drawAmount : ∀ k, ((w.drawAmount k).val : ℤ) = ps.drawAmount
  redeemAmount : ∀ k, ((w.redeemAmount k).val : ℤ) = ps.redeemAmount
  repayAmount : ∀ k, ((w.repayAmount k).val : ℤ) = ps.repayAmount
  quoteMerchantPk : ∀ k, w.quoteMerchantPk k = ps.quoteMerchantPk

theorem PrivateState.witness_some {ps : PrivateState B} {w : Witness B} (h : ps.witness = some w) :
    Answers ps w := by
  simp only [PrivateState.witness, Option.bind_eq_bind, Option.bind_eq_some_iff, Option.pure_def,
    Option.some.injEq, uint64_eq_some] at h
  obtain ⟨_, h₁, _, h₂, _, h₃, _, h₄, _, h₅, _, h₆, _, h₇, rfl⟩ := h
  exact ⟨fun _ => rfl, fun _ => rfl, fun _ => rfl, fun _ => rfl, fun _ => rfl, fun _ => rfl,
    fun _ => rfl, fun _ => rfl, fun _ => rfl, fun _ => rfl, fun _ => rfl, fun _ => rfl,
    fun _ => h₁, fun _ => h₂, fun _ => h₃, fun _ => h₄, fun _ => h₅, fun _ => h₆, fun _ => h₇,
    fun _ => rfl⟩

/-- A private state whose amounts are all `Uint<64>`s has a witness. -/
theorem PrivateState.exists_witness {ps : PrivateState B}
    (h : ∀ n ∈ [ps.lineLimit, ps.lineOutstanding, ps.lineEpoch, ps.quoteAmount, ps.drawAmount,
      ps.redeemAmount, ps.repayAmount], ∃ u : U64, (u.val : ℤ) = n) :
    ∃ w, ps.witness = some w := by
  simp only [List.mem_cons, List.not_mem_nil, or_false, forall_eq_or_imp, forall_eq] at h
  obtain ⟨⟨a, ha⟩, ⟨b, hb⟩, ⟨c, hc⟩, ⟨d, hd⟩, ⟨e, he⟩, ⟨f, hf⟩, ⟨g, hg⟩⟩ := h
  simp only [PrivateState.witness, ← ha, ← hb, ← hc, ← hd, ← he, ← hf, ← hg, uint64_val,
    Option.bind_eq_bind, Option.bind_some, Option.pure_def, Option.some.injEq, exists_eq']

section Circuits

variable [DecidableEq B] [Compact B]

/-- A circuit that was not refused made a step of the contract. -/
theorem runCircuit_some {time : ℕ} {session session' : Session B} {ps : PrivateState B}
    {op : CircuitCall B} (h : runCircuit time session ps op = some session') :
    ∃ op' w, op.op = some op' ∧ Answers ps w ∧ session'.privateState = ps
      ∧ Step .canonical ⟨op', w, time⟩ session.state session'.state := by
  simp only [runCircuit, Option.bind_eq_bind, Option.bind_eq_some_iff, Option.pure_def,
    Option.some.injEq] at h
  obtain ⟨op', hop, w, hw, l, hl, rfl⟩ := h
  refine ⟨op', w, hop, PrivateState.witness_some hw, rfl, calls_iff.mp ?_⟩
  cases hx : exec .canonical ⟨op', w, time⟩ session.state with
  | error f =>
    rw [hx] at hl
    cases hl
  | ok l' =>
    rw [hx] at hl
    cases hl
    exact hx

/-- A step of the contract is a circuit that is not refused. -/
theorem runCircuit_of_step {time : ℕ} {session : Session B} {ps : PrivateState B}
    {op : CircuitCall B} {op' : Op B} {w : Witness B} {l : Ledger B} (hop : op.op = some op')
    (hw : ps.witness = some w) (st : Step .canonical ⟨op', w, time⟩ session.state l) :
    runCircuit time session ps op = some ⟨l, ps⟩ := by
  have hx : exec .canonical ⟨op', w, time⟩ session.state = .ok l := calls_iff.mpr st
  simp [runCircuit, hop, hw, hx, Except.toOption]

end Circuits

/-! ## Stages -/

section Stages

variable [DecidableEq B] [Compact B] [Words B] [WordBytes B] [Locale]

/-- The keys of an evaluation. -/
structure Keys (B : Type) where
  issuerKey : B
  agentKey : B
  merchants : Merchants B

def Evaluation.keys (e : Evaluation B) : Keys B := ⟨e.issuerKey, e.agentKey, e.merchants⟩

/-- The terms of an order, which never change: the purchase, and the quote that binds it. -/
structure Terms (l : Ledger B) (k : Keys B) (requestId : JsString) (order : Order B) : Prop where
  intent : isIntent requestId = true
  document : nonblank order.document = true ∧ order.document.length ≤ 8000
  service : ∃ service ∈ CATALOG, service.id = order.service ∧ order.receipt.amount = service.price
  receipt : order.receipt.orderId = requestId ∧ order.receipt.service = order.service
  quote : ∃ price expiry : U64, price.val = order.receipt.amount ∧ (expiry.val : ℤ) = order.expiry
    ∧ order.Q = quoteCommit (merchantPublicKey (k.merchants.key order.service)) order.invoiceId
      price expiry order.quoteNonce l.lineGeneration l.contractDomain l.feeFlat l.feeBps
    ∧ order.receipt.quote = toHex order.Q

/-- An order as `purchase` writes it down. -/
structure NewOrder (e : Evaluation B) (requestId : JsString) (order : Order B) : Prop where
  terms : Terms e.session.state e.keys requestId order
  phase : order.phase = .prepared
  D : order.D = none
  compensation : order.compensation = none

/-- The same order in the map, in a new state. -/
def Evaluation.setOrder (e : Evaluation B) (requestId : JsString) (order : Order B) :
    Evaluation B :=
  { e with orders := e.orders.set requestId order }

/-- The private book after a rotation. -/
def Evaluation.rotate (e : Evaluation B) (session : Session B) (outstanding : ℤ) (salt : B) :
    Evaluation B :=
  { e with session, outstanding, epoch := e.epoch + 1, salt }

/-- The private state of the draw. -/
def Order.drawing (order : Order B) (e : Evaluation B) (newSalt : B) : PrivateState B :=
  { e.books with
    invoiceId := order.invoiceId
    quoteNonce := order.quoteNonce
    quoteMerchantPk := merchantPublicKey (e.merchants.key order.service)
    drawAmount := order.receipt.amount
    newSalt
    noteNonce := order.noteNonce
    noteSalt := order.noteSalt }

/-- The private state of the compensation. -/
def Order.compensating (order : Order B) (e : Evaluation B) (newSalt : B) : PrivateState B :=
  { e.books with
    callerSecret := e.agentKey
    newSalt
    quoteMerchantPk := merchantPublicKey (e.merchants.key order.service)
    noteIdentity := agentId e.agentKey
    noteQuoteCommit := order.Q
    noteNonce := order.noteNonce
    noteSalt := order.noteSalt }

/-- The note of an order on the line of a ledger. -/
def Order.note (order : Order B) (l : Ledger B) (k : Keys B) (price expiry : U64) : B :=
  drawNoteCommit ⟨l.contractDomain, l.lineGeneration, agentId k.agentKey, order.Q,
    merchantPublicKey (k.merchants.key order.service), price, .zero 64, order.noteNonce, expiry⟩
    order.noteSalt

/-- What an evaluation can do between two checkpoints, with the effects. -/
inductive Stage : Evaluation B → List Effect → Evaluation B → Prop
  | fund {e time session} {credit backing : ℕ} :
      e.opened = false → e.fundedReserve = 0 → 1 ≤ credit → 1 ≤ backing →
      runCircuit time e.session { (blankPrivate : PrivateState B) with callerSecret := e.issuerKey }
        (.fundReserve backing) = some session →
      Stage e [] { e with session, fundedReserve := backing, limit := credit }
  | openLine {e time session expiry} :
      e.opened = false →
      runCircuit time e.session { e.books with callerSecret := e.issuerKey }
        (.openLine expiry 0 0) = some session →
      Stage e [] { e with session, opened := true }
  | prepare {e requestId order} :
      e.opened = true → e.orders.size < 100 → e.orders.get requestId = none →
      NewOrder e requestId order →
      Stage e [] (e.setOrder requestId order)
  | expireQuote {e requestId order} {time : ℕ} :
      e.orders.get requestId = some order → order.phase = .prepared ∨ order.phase = .quoted →
      order.expiry ≤ (time : ℤ) →
      Stage e [] (e.setOrder requestId order.expire)
  | postQuote {e time session requestId order} :
      e.orders.get requestId = some order → order.phase = .prepared →
      runCircuit time e.session { (blankPrivate : PrivateState B) with
          callerSecret := e.merchants.key order.service
          invoiceId := order.invoiceId
          quoteNonce := order.quoteNonce
          quoteAmount := order.receipt.amount } (.postQuote order.expiry) = some session →
      Stage e [] ({ e with session }.setOrder requestId order.quote)
  | decline {e requestId order} :
      e.orders.get requestId = some order → order.phase = .quoted →
      Stage e [] (e.setOrder requestId order.decline)
  | draw {e time session requestId order newSalt} {price expiry : U64} :
      e.orders.get requestId = some order → order.phase = .quoted →
      runCircuit time e.session (order.drawing e newSalt) (.draw order.Q order.expiry 0)
        = some session →
      (price.val : ℤ) = order.receipt.amount → (expiry.val : ℤ) = order.expiry →
      Stage e [.drawn requestId order.receipt.amount]
        ((e.rotate session (e.outstanding + order.receipt.amount) newSalt).setOrder requestId
          (order.authorize (order.note session.state e.keys price expiry)))
  | compensate {e time session requestId order newSalt D noteExpiry note} :
      e.orders.get requestId = some order → order.phase = .authorized → order.D = some D →
      order.noteExpiry = some noteExpiry →
      runCircuit time e.session (order.compensating e newSalt)
        (.cancelOrExpireNote D ⟨1, by decide⟩ 0) = some session →
      session.state.notes.lookup D = some note →
      Stage e [.compensated requestId (e.credit order.receipt.amount)]
        ((e.rotate session (e.outstanding - e.credit order.receipt.amount) newSalt).setOrder
          requestId (order.compensate {
            amount := order.receipt.amount - e.credit order.receipt.amount
            credit := e.credit order.receipt.amount
            salt := newSalt, commitment := note.refundCommitment }))
  | redeem {e time session requestId order D noteExpiry} :
      e.orders.get requestId = some order → order.phase = .authorized → order.D = some D →
      order.noteExpiry = some noteExpiry →
      runCircuit time e.session { (blankPrivate : PrivateState B) with
          callerSecret := e.merchants.key order.service
          noteIdentity := agentId e.agentKey
          noteQuoteCommit := order.Q
          noteNonce := order.noteNonce
          noteSalt := order.noteSalt
          redeemAmount := order.receipt.amount } (.redeemDraw D noteExpiry) = some session →
      Stage e [] ({ e with session }.setOrder requestId order.redeem)
  | deliver {e requestId order} :
      e.orders.get requestId = some order → order.phase = .redeemed →
      Stage e [.delivered requestId]
        ({ e with deliveries := e.deliveries + 1 }.setOrder requestId order.deliver)
  | acknowledge {e time session reference expiry newSalt receiptNonce paymentRef} {amount : ℕ} :
      e.opened = true → isIntent reference = true → 1 ≤ amount → amount ≤ 1000000 →
      e.repayments.get reference = none → e.repayments.size < 1000 →
      (amount : ℤ) ≤ e.outstanding →
      runCircuit time e.session { e.books with
          callerSecret := e.issuerKey
          newSalt
          repayAmount := amount
          paymentRef
          receiptNonce } (.acknowledgeRepayment expiry) = some session →
      Stage e [.repaid reference amount]
        { e.rotate session (e.outstanding - amount) newSalt with
          repayments := e.repayments.set reference amount }
  | report {e time session requestId order recorded D reference expiry paymentRef} :
      e.orders.get requestId = some order → order.compensation = some recorded →
      recorded.amount ≠ 0 → recorded.reported = none → order.D = some D →
      isIntent reference = true → paymentReference reference = .ok paymentRef →
      runCircuit time e.session { (blankPrivate : PrivateState B) with
          callerSecret := e.issuerKey
          noteIdentity := agentId e.agentKey
          repayAmount := recorded.amount
          salt := recorded.salt
          paymentRef } (.cancelOrExpireNote D ⟨2, by decide⟩ expiry) = some session →
      Stage e [] ({ e with session }.setOrder requestId (order.report recorded reference))

end Stages

end Line.Checkout
