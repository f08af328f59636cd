import Line.Engine.Protocol
import Line.Proof.Claim

/-!
# Ledgers of the engine and ledgers of the contract

`Related e s` says that the engine's ledger `e` is the ledger `s` of the canonical
contract: the same counters, status and generation, the same registry, quotes and
notes under each key, and the same nullifiers. `Carries` says the same of what a call
is given: the caller of the engine passes the arguments and the witnesses of the
circuit.

A caller of the engine shows more than a caller of the circuit: its books carry a name, its notes
the key of a merchant, and its repayments copies of what is public. These are
asked to be right only where the circuit would find out, that is, for a caller who passes the
circuit. Whoever does not, because the book or the note is somebody else's, may show whatever it
likes; both sides refuse.

The engine counts in `number`s. Its ledgers and inputs keep to the safe integers
(`InRange`, `Counts`), and there each test of the engine is a test of the contract;
the lemmas of the second section say so for one helper of the engine after another.
-/

namespace Line.Engine

open Checked

variable {B : Type}

/-! ## The relation -/

/-- A `Uint<64>` as the `number` of the same value. -/
def num (n : U64) : Number := .ofNat n.val

/-- A `Uint<64>` that is a safe integer. -/
def Safe (n : U64) : Prop := n.val ≤ Number.maxSafe

/-- The number `v` is the safe integer `n`. -/
def Counts (v : Number) (n : U64) : Prop := v = num n ∧ Safe n

/-- The engine's record of a quote. -/
def quoteRecord (Q : B) (quote : QuoteMeta) : QuoteRecord B where
  commitment := Q
  expiry := num quote.expiry
  lineGeneration := num quote.lineGeneration
  used := quote.used

/-- The engine's record of a note. -/
def noteRecord (D : B) (note : NoteMeta B) : NoteRecord B where
  commitment := D
  amount := num note.amount
  fee := num note.fee
  redeemed := note.redeemed
  cancelled := note.cancelled
  expiry := num note.expiry
  lineGeneration := num note.lineGeneration
  compensationAllocated := note.compensationAllocated
  refundCommitment := note.refundCommitment
  cashRefundOwed := note.cashRefundOwed
  refundAcknowledged := note.refundAcknowledged
  refundPaymentNullifier := note.refundPaymentNullifier

/-- The word is `null` in the engine until a line is opened. -/
def opened (s : Line.Ledger B) (word : B) : Option B :=
  if s.status = .NONE then none else some word

/-! ## The helpers of the engine, on safe integers -/

section Numbers

variable {v : Number} {a b : U64} {now : ℕ} {env : Env B}

theorem num_eq_iff : (num a).eq (num b) = true ↔ a = b := by
  rw [num, num, Number.eq_ofNat, decide_eq_true_iff, Uint.ext_iff]

theorem num_le_iff {k : ℕ} : (num a).le (.ofNat k) = false ↔ k < a.val := by
  rw [num, Number.le_ofNat, decide_eq_false_iff_not, not_le]

theorem num_lt_iff : (num a).lt (num b) = false ↔ b.val ≤ a.val := by
  rw [num, num, Number.lt_ofNat, decide_eq_false_iff_not, not_lt]

theorem num_add_ofNat {k : ℕ} (h : a.val + k ≤ Number.maxSafe) :
    (num a).add (.ofNat k) = .ofNat (a.val + k) := Number.add_ofNat h

theorem num_add (h : a.val + b.val ≤ Number.maxSafe) :
    (num a).add (num b) = .ofNat (a.val + b.val) := Number.add_ofNat h

theorem num_sub {k : ℕ} (h : k ≤ a.val) (ha : Safe a) :
    (num a).sub (.ofNat k) = .ofNat (a.val - k) := Number.sub_ofNat h ha

/-- A counter that is raised, and stays safe. -/
theorem num_add_eq {c : U64} (h : c.val = a.val + b.val) (hc : Safe c) :
    (num a).add (num b) = num c := by
  rw [num_add (h ▸ hc), num, h]

/-- A safe counter that is lowered. -/
theorem num_sub_eq {c : U64} (h : c.val + b.val = a.val) (ha : Safe a) :
    (num a).sub (num b) = num c := by
  have hle : b.val ≤ a.val := by omega
  calc (num a).sub (num b) = .ofNat (a.val - b.val) := num_sub hle ha
    _ = num c := by rw [num, ← h, Nat.add_sub_cancel]

@[simp] theorem assertSafeUint_ofNat (k : ℕ) :
    assertSafeUint (.ofNat k) = decide (k ≤ Number.maxSafe) := by
  simp [assertSafeUint]

theorem Counts.assertSafeUint (h : Counts v a) : Engine.assertSafeUint v = true := by
  rw [h.1, num, assertSafeUint_ofNat]
  exact decide_eq_true h.2

/-- `!assertSafeUint(v) || v <= 0`. -/
theorem Counts.positive_iff (h : Counts v a) :
    (!Engine.assertSafeUint v || v.le (.ofNat 0)) = false ↔ 0 < a.val := by
  rw [h.assertSafeUint, h.1, num, Number.le_ofNat]
  simp only [Bool.not_true, Bool.false_or, decide_eq_false_iff_not]
  omega

theorem u64_ofNat {k : ℕ} (hk : k ≤ Number.maxSafe) (hlt : k < 2 ^ 64) :
    u64 (.ofNat k) = .ok ⟨k, hlt⟩ := by
  have hlt' : k < 18446744073709551616 := hlt
  unfold u64 bigInt
  simp [hk, hlt', pure, Except.pure, bind, Except.bind]

theorem Counts.u64 (h : Counts v a) : Engine.u64 v = .ok a := by
  rw [h.1, num, u64_ofNat h.2 a.isLt]

/-- A sum passes for a `Uint<64>` if it stays safe. -/
theorem u64_add_ok_iff {k : ℕ} {u : U64} :
    Engine.u64 ((num a).add (.ofNat k)) = .ok u ↔ Safe u ∧ u.val = a.val + k := by
  have hsafe := Number.isSafeInteger_add a.val k
  by_cases hle : a.val + k ≤ Number.maxSafe
  · have hlt : a.val + k < 2 ^ 64 := lt_of_le_of_lt hle (by decide)
    rw [num, Number.add_ofNat hle, u64_ofNat hle hlt, Except.ok.injEq, Uint.ext_iff]
    exact ⟨fun h => ⟨(h ▸ hle : u.val ≤ _), h.symm⟩, fun h => h.2.symm⟩
  · have hno : ∀ v, Engine.u64 ((num a).add (.ofNat k)) ≠ .ok v := by
      intro v hv
      rw [decide_eq_false hle] at hsafe
      simp [Engine.u64, num, hsafe, raise] at hv
    refine ⟨fun h => absurd h (hno u), ?_⟩
    rintro ⟨hu, hsum⟩
    exact absurd (hsum ▸ hu) hle

/-- `sum < a || !assertSafeUint(sum)`, of a sum. -/
theorem safe_add_iff {k : ℕ} :
    (((num a).add (.ofNat k)).lt (num a) = false
      ∧ Engine.assertSafeUint ((num a).add (.ofNat k)) = true) ↔ a.val + k ≤ Number.maxSafe := by
  have hsafe := Number.isSafeInteger_add a.val k
  constructor
  · rintro ⟨-, hs⟩
    simp only [Engine.assertSafeUint, num, hsafe, Bool.and_eq_true, decide_eq_true_iff] at hs
    exact hs.2
  · intro hle
    rw [num, Number.add_ofNat hle, Number.lt_ofNat, assertSafeUint_ofNat]
    exact ⟨decide_eq_false (by omega), decide_eq_true hle⟩

theorem executionUnixSeconds_eq (hc : env.clock = .ofNat now) (hs : now ≤ Number.maxSafe) :
    executionUnixSeconds env = .ok (.ofNat now) := by
  unfold executionUnixSeconds
  simp [hc, hs, pure, Except.pure]

theorem deadline_ok_iff {reason : String} {u : Unit} (hc : env.clock = .ofNat now)
    (hs : now ≤ Number.maxSafe) (h : Counts v a) :
    deadline env v reason = .ok u ↔ now < a.val := by
  unfold deadline
  simp only [bind_ok_iff, failIf_ok_iff, executionUnixSeconds_eq hc hs, h.assertSafeUint]
  simp [h.1, num]

end Numbers

section Commitments

variable [Compact B]

/-- The engine's commitment to a book of safe integers. -/
theorem lineCommitment_eq {domain I t : B} {L b e : Number} {limit outstanding epoch : U64}
    (hL : Counts L limit) (hb : Counts b outstanding) (he : Counts e epoch) :
    lineCommitment ⟨domain, I, L, b, e, t⟩
      = .ok (Line.lineStateCommit ⟨domain, I, limit, outstanding, epoch⟩ t) := by
  simp [lineCommitment, hL.u64, hb.u64, he.u64, bind, Except.bind, pure, Except.pure]

/-- The engine's commitment to a book of the next epoch, which has to be safe. -/
theorem lineCommitment_next_ok_iff {domain I t C : B} {L b e : Number}
    {limit outstanding epoch : U64} (hL : Counts L limit) (hb : Counts b outstanding)
    (he : Counts e epoch) :
    lineCommitment ⟨domain, I, L, b, e.add (.ofNat 1), t⟩ = .ok C ↔
      ∃ next : U64, Safe next ∧ next.val = epoch.val + 1
        ∧ Line.lineStateCommit ⟨domain, I, limit, outstanding, next⟩ t = C := by
  simp only [lineCommitment, bind_ok_iff, pure_ok_iff, hL.u64, hb.u64, he.1, u64_add_ok_iff,
    Except.ok.injEq, exists_eq_left', and_assoc, lineStateCommit_eq]

theorem quoteCommitment_eq {M inv nonce dom : B} {a x g f b : Number}
    {amount expiry gen flat bps : U64}
    (ha : Counts a amount) (hx : Counts x expiry) (hg : Counts g gen) (hf : Counts f flat)
    (hb : Counts b bps) :
    quoteCommitment ⟨M, a, inv, x, nonce, g, f, b⟩ dom
      = .ok (Line.quoteCommit M inv amount expiry nonce gen dom flat bps) := by
  simp [quoteCommitment, ha.u64, hx.u64, hg.u64, hf.u64, hb.u64, bind, Except.bind, pure,
    Except.pure]

theorem drawNoteCommitment_eq {dom I Q M nonce t : B} {g a f x : Number}
    {gen amount fee expiry : U64}
    (hg : Counts g gen) (ha : Counts a amount) (hf : Counts f fee) (hx : Counts x expiry) :
    drawNoteCommitment ⟨dom, g, I, Q, M, a, f, nonce, x⟩ t
      = .ok (Line.drawNoteCommit ⟨dom, gen, I, Q, M, amount, fee, nonce, expiry⟩ t) := by
  simp [drawNoteCommitment, hg.u64, ha.u64, hf.u64, hx.u64, bind, Except.bind, pure, Except.pure]

theorem refundCommitment_eq {dom I D t : B} {g a : Number} {gen amount : U64} (hg : Counts g gen)
    (ha : Counts a amount) :
    refundCommitment dom g I D a t = .ok (Line.refundCommit ⟨dom, gen, I, D, amount⟩ t) := by
  simp [refundCommitment, hg.u64, ha.u64, bind, Except.bind, pure, Except.pure]

end Commitments

variable [DecidableEq B]

/-- The engine's ledger `e` is the contract's ledger `s`. -/
structure Related (e : Ledger B) (s : Line.Ledger B) : Prop where
  issuer : e.issuerPubKey = s.issuer
  contractDomain : e.contractDomain = s.contractDomain
  registeredMerchants : e.registeredMerchants = s.registeredMerchants
  totalReserve : e.totalReserve = num s.totalReserve
  encumberedReserve : e.encumberedReserve = num s.encumberedReserve
  redeemedReserve : e.redeemedReserve = num s.redeemedReserve
  feeReserve : e.feeReserve = num s.feeReserve
  pendingFeeReserve : e.pendingFeeReserve = num s.pendingFeeReserve
  refundReserve : e.refundReserve = num s.refundReserve
  reportedRefundReserve : e.reportedRefundReserve = num s.reportedRefundReserve
  feeFlat : e.feeFlat = num s.feeFlat
  feeBps : e.feeBps = num s.feeBps
  identityCommitment : e.identityCommitment = opened s s.identityCommit
  lineCommitment : e.lineCommitment = opened s s.lineCommit
  lineExpiry : e.lineExpiry = num s.lineExpiry
  status : e.status = s.status
  lineGeneration : e.lineGeneration = num s.lineGeneration
  quotes : Records.Holds QuoteRecord.commitment quoteRecord e.quotes s.quotes
  notes : Records.Holds NoteRecord.commitment noteRecord e.notes s.notes
  nullifiers : ∀ n, n ∈ e.nullifiers ↔ n ∈ s.nullifiers
  actionClock : e.actionClock = .ofNat s.actionClock

/-- The numbers of the ledger are safe integers. -/
structure InRange (s : Line.Ledger B) : Prop where
  totalReserve : Safe s.totalReserve
  feeFlat : Safe s.feeFlat
  lineExpiry : Safe s.lineExpiry
  lineGeneration : Safe s.lineGeneration
  quotes : ∀ Q quote, s.quotes.lookup Q = some quote →
    Safe quote.expiry ∧ Safe quote.lineGeneration
  notes : ∀ D note, s.notes.lookup D = some note →
    note.cost ≤ Number.maxSafe ∧ Safe note.expiry ∧ Safe note.lineGeneration
  actionClock : s.actionClock ≤ Number.maxSafe

/-- The engine's book has the numbers that the witnesses answer. The circuit has no name in a book:
it takes the identity `I`. -/
structure Shows [Compact B] (w : Witness B) (s : Line.Ledger B) (I : B) (book : LineWitness B) :
    Prop where
  domain : book.domain = s.contractDomain
  /-- The agent of the line, with its current book, shows its own name. Whoever is a stranger to the
  line, or has another book, may show any name, such as the agent's. -/
  identity : I = s.identityCommit →
    Line.lineStateCommit (witnessBook w s) (w.salt 0) = s.lineCommit → book.I = I
  limit : Counts book.L (w.lineLimit 0)
  outstanding : Counts book.B (w.lineOutstanding 0)
  epoch : Counts book.e (w.lineEpoch 0)
  salt : book.s = w.salt 0

section Openings

variable [Compact B] {e : Ledger B} {s : Line.Ledger B} {w : Witness B} {I C : B}
  {book : LineWitness B}

/-- `opens`, of a book shown by the witnesses under its own name. -/
theorem Shows.opens_ok_iff (h : Shows w s I book) (hI : book.I = I) {r : Bool} :
    Engine.opens book (some C) = .ok r ↔ r = decide (Line.lineStateCommit
      ⟨s.contractDomain, I, w.lineLimit 0, w.lineOutstanding 0, w.lineEpoch 0⟩ (w.salt 0) = C) := by
  obtain ⟨domain, I', L, b, e, t⟩ := book
  obtain ⟨rfl, -, hL, hb, he, rfl⟩ := h
  subst hI
  simp only [Engine.opens, lineCommitment_eq hL hb he]
  simp [bind, Except.bind, pure, Except.pure, eq_comm]

omit [Compact B] in
/-- The locked budgets add up without loss as long as the total covers them. -/
theorem Related.lockedReserve (hR : Related e s) (hsol : Line.lockedReserve s ≤ s.totalReserve.val)
    (ht : Safe s.totalReserve) : Engine.lockedReserve e = .ofNat (Line.lockedReserve s) := by
  have hle : Line.lockedReserve s ≤ Number.maxSafe := hsol.trans ht
  unfold Line.lockedReserve at hle ⊢
  unfold Engine.lockedReserve
  rw [hR.encumberedReserve, hR.redeemedReserve, hR.feeReserve, hR.pendingFeeReserve,
    hR.refundReserve, hR.reportedRefundReserve]
  unfold num
  rw [Number.add_ofNat (by omega), Number.add_ofNat (by omega), Number.add_ofNat (by omega),
    Number.add_ofNat (by omega), Number.add_ofNat (by omega)]

theorem Related.isIssuer_iff (hR : Related e s) :
    (!isIssuer e (w.callerSecret 0)) = false ↔ IsIssuer w s := by
  rw [isIssuer, hR.issuer, Bool.not_eq_false', decide_eq_true_iff]
  exact eq_comm

end Openings

section Strangers

variable [Compact B] {s : Line.Ledger B} {w : Witness B} {book : LineWitness B} {D M t : B}

omit [DecidableEq B] in
/-- **A stranger may show the book of the line.** -/
theorem Shows.line (hdomain : book.domain = s.contractDomain) (hname : book.I = s.identityCommit)
    (hlimit : Counts book.L (w.lineLimit 0)) (hout : Counts book.B (w.lineOutstanding 0))
    (hepoch : Counts book.e (w.lineEpoch 0)) (hsalt : book.s = w.salt 0) (I : B) :
    Shows w s I book :=
  ⟨hdomain, fun hI _ => hname.trans hI.symm, hlimit, hout, hepoch, hsalt⟩

omit [DecidableEq B] in
/-- **And the note of a merchant**: no key but the merchant's opens it. -/
theorem opening_stranger [LawfulCompact B] {p : Line.DrawNotePreimage B}
    (hD : Line.drawNoteCommit p t = D)
    (hM : p.merchantPk ≠ Line.merchantPublicKey (w.callerSecret 0))
    (noteExpiry : U64) (n : NoteMeta B) :
    Line.drawNoteCommit (redeemPreimage w noteExpiry n s) (w.noteSalt 0) ≠ D := by
  intro hopen
  exact hM (congrArg Line.DrawNotePreimage.merchantPk (drawNoteCommit_inj (hD.trans hopen.symm)).1)

end Strangers

/-! ## Inputs -/

variable [Compact B] [Words B]

/-- The clock of the engine is at the block time. -/
structure OnTime (env : Env B) (c : Call B) : Prop where
  clock : env.clock = .ofNat c.now
  safe : c.now ≤ Number.maxSafe

/-- What the opening of a line is given. -/
structure OpenCarried (env : Env B) (i : OpenLineInput B) (limit : Option Number)
    (w : Witness B) (expiry flatFee basisPoints : U64) : Prop where
  caller : getCaller i.caller i.callerSk = w.callerSecret 0
  agent : i.agentSecret = w.agentSecret 0
  limit : Counts ((limit.or i.limit).getD (.ofNat 0)) (w.lineLimit 0)
  salt : i.salt.getD (env.randomBytes32 0) = w.salt 0
  expiry : Counts i.expiry expiry
  flat : Counts (i.feeFlat.getD (.ofNat 0)) flatFee
  bps : Counts (i.feeBps.getD (.ofNat 0)) basisPoints

/-- What the posting of a quote is given. -/
structure QuoteCarried (env : Env B) (i : PostQuoteInput B) (amount : Option Number)
    (w : Witness B) (expiry : U64) : Prop where
  caller : (i.callerSk.or (i.merchantSecret.or i.caller)).getD (pad "") = w.callerSecret 0
  amount : Counts ((amount.or i.amount).getD (.ofNat 0)) (w.quoteAmount 0)
  invoice : i.invoiceId = w.invoiceId 0
  nonce : i.nonce.getD (env.randomBytes32 0) = w.quoteNonce 0
  expiry : Counts i.expiry expiry

/-- What a draw is given. The opening of the quote is `wq`. -/
structure DrawCarried (env : Env B) (s : Line.Ledger B) (i : DrawInput B)
    (witness : Option (DrawWitness B)) (w : Witness B) (Q : B) (noteExpiry fee : U64)
    (book : LineWitness B) (wq : QuotePreimage B) : Prop where
  secret : i.secret = some (w.agentSecret 0)
  books : i.books witness = some book
  book : Shows w s (agentId (w.agentSecret 0)) book
  opening : i.opening witness = some wq
  commitment : i.commitment wq s.contractDomain = .ok Q
  merchant : wq.merchantCommitment = w.quoteMerchantPk 0
  invoice : wq.invoiceId = w.invoiceId 0
  nonce : wq.nonce = w.quoteNonce 0
  amount : Counts wq.amount (w.drawAmount 0)
  fee : Counts (i.fee.getD (.ofNat 0)) fee
  /-- The expiry of the note may be left out: it is then the quote's. -/
  noteExpiry : ∀ quote, s.quotes.lookup Q = some quote →
    Counts (i.noteExpiry.getD (num quote.expiry)) noteExpiry
  noteNonce : i.noteNonce.getD (env.randomBytes32 0) = w.noteNonce 0
  noteSalt : i.noteSalt.getD (env.randomBytes32 1) = w.noteSalt 0
  newSalt : i.newSalt.getD (env.randomBytes32 2) = w.newSalt 0

/-- What a redemption is given. -/
structure RedeemCarried (s : Line.Ledger B) (i : RedeemInput B)
    (note : Option (DrawNotePreimage B)) (w : Witness B) (D : B) (noteExpiry : U64)
    (pre : DrawNotePreimage B) : Prop where
  secret : i.secret = w.callerSecret 0
  again : w.callerSecret 1 = w.callerSecret 0
  commitment : i.commitment = some D
  preimage : i.preimage note = some pre
  /-- The merchant whose key opens the note shows this key. Whoever else calls may show any key,
  such as the merchant's: the circuit takes the caller's own. -/
  merchant : ∀ n, s.notes.lookup D = some n →
    Line.drawNoteCommit (redeemPreimage w noteExpiry n s) (w.noteSalt 0) = D →
      pre.merchantPk = Line.merchantPublicKey (w.callerSecret 0)
  amount : Counts pre.amount (w.redeemAmount 0)
  identity : pre.identity = w.noteIdentity 0
  quote : pre.quoteCommit = w.noteQuoteCommit 0
  nonce : pre.noteNonce = w.noteNonce 0
  noteExpiry : Counts (i.noteExpiry.getD pre.expiry) noteExpiry
  salt : i.salt = w.noteSalt 0

/-- What an allocation is given. The book is asked for a note of the current generation only. -/
structure CompensationCarried (s : Line.Ledger B) (proof : Compensation B) (w : Witness B) (D : B) :
    Prop where
  identity : proof.note.identity = w.noteIdentity 0
  quote : proof.note.quoteCommit = w.noteQuoteCommit 0
  merchant : proof.note.merchantPk = w.quoteMerchantPk 0
  nonce : proof.note.noteNonce = w.noteNonce 0
  noteSalt : proof.noteSalt = w.noteSalt 0
  newSalt : proof.newSalt = w.newSalt 0
  saltAgain : w.newSalt 1 = w.newSalt 0
  limitAgain : w.lineLimit 1 = w.lineLimit 0
  epochAgain : w.lineEpoch 1 = w.lineEpoch 0
  books : ∀ note, s.notes.lookup D = some note → note.lineGeneration = s.lineGeneration →
    ∃ book, proof.books = some book ∧ Shows w s s.identityCommit book

/-- What the acknowledgement of a refund is given. -/
structure RefundCarried (i : NoteInput B) (ack : RefundAck B) (w : Witness B)
    (receiptExpiry : U64) : Prop where
  again : w.callerSecret 1 = w.callerSecret 0
  identity : ack.identity = w.noteIdentity 0
  amount : Counts ack.amount (w.repayAmount 0)
  salt : ack.salt = w.salt 0
  reference : canonicalPaymentReferenceBytes ack.paymentRef = .ok (w.paymentRef 0)
  expiry : Counts (i.receiptExpiry.getD ack.receiptExpiry) receiptExpiry

/-- What the three actions on a note are given. -/
structure NoteCarried (s : Line.Ledger B) (i : NoteInput B) (w : Witness B) (D : B)
    (action : Uint 8) (receiptExpiry : U64) : Prop where
  secret : i.secret = w.callerSecret 0
  commitment : i.commitment = some D
  mode : i.action.getD (.ofNat 0) = .ofNat action.val
  compensation : action.val = 1 →
    ∃ proof, i.compensation = some proof ∧ CompensationCarried s proof w D
  refund : action.val = 2 →
    ∃ ack, i.refundAck = some ack ∧ RefundCarried i ack w receiptExpiry

/-- The copies of ledger data in a repayment are those of the ledger. -/
structure RepayCopies (s : Line.Ledger B) (book : LineWitness B) (receipt : RepayReceipt B) :
    Prop where
  book : book.I = s.identityCommit
  domain : receipt.contractDomain = s.contractDomain
  identity : receipt.identity = s.identityCommit
  current : receipt.currentC = s.lineCommit

/-- What a repayment is given. -/
structure RepayCarried (env : Env B) (s : Line.Ledger B) (i : RepayInput B)
    (witness : Option (RepayWitness B)) (w : Witness B) (receiptExpiry : U64)
    (book : LineWitness B) (receipt : RepayReceipt B) : Prop where
  caller : getCaller i.caller i.callerSk = w.callerSecret 0
  again : w.callerSecret 1 = w.callerSecret 0
  books : i.books witness = some book
  /-- The issuer, with the current book, copies the ledger. Any other receipt may say anything. -/
  copies : IsIssuer w s → Line.lineStateCommit (witnessBook w s) (w.salt 0) = s.lineCommit →
    RepayCopies s book receipt
  book : Shows w s s.identityCommit book
  proof : i.proof witness = some receipt
  amount : Counts receipt.amount (w.repayAmount 0)
  nonce : receipt.nonce = w.receiptNonce 0
  reference : canonicalPaymentReferenceBytes receipt.paymentRef = .ok (w.paymentRef 0)
  expiry : Counts (i.receiptExpiry.getD receipt.expiry) receiptExpiry
  newSalt : i.newSalt.getD (env.randomBytes32 0) = w.newSalt 0

/-- What a change of status is given. The book is asked for to close only. -/
structure StatusCarried (s : Line.Ledger B) (i : StatusInput B) (w : Witness B) (next : Status) :
    Prop where
  caller : getCaller i.caller i.callerSk = w.callerSecret 0
  status : i.status = next
  closing : next = .CLOSED → ∃ book, i.witness = some book ∧ Shows w s s.identityCommit book

/-- **The engine is given what the circuit is given**: arguments and witnesses that are safe
integers, and one answer to each witness. What the engine is given besides, and the circuit reads
from its ledger or computes from the caller's secret, is the right copy where the caller has the
right opening; a stranger may show the agent's book or the merchant's note. -/
inductive Carries (env : Env B) (s : Line.Ledger B) : Input B → Call B → Prop
  | registerMerchant {i w now recipient} :
      getCaller i.caller i.callerSk = w.callerSecret 0 →
      Carries env s (.registerMerchant i) ⟨.registerMerchant i.merchantPk recipient, w, now⟩
  | disableMerchant {caller w now merchantPk} : caller = w.callerSecret 0 →
      Carries env s (.disableMerchant caller merchantPk) ⟨.disableMerchant merchantPk, w, now⟩
  | fundReserve {i w now amount} :
      getCaller i.caller i.callerSk = w.callerSecret 0 → Counts i.amount amount →
      Carries env s (.fundReserve i) ⟨.fundReserve amount, w, now⟩
  | withdrawUnencumberedReserve {i w now amount} :
      getCaller i.caller i.callerSk = w.callerSecret 0 → Counts i.amount amount →
      Carries env s (.withdrawUnencumberedReserve i) ⟨.withdrawUnencumberedReserve amount, w, now⟩
  | withdrawFees {caller w now} : caller = w.callerSecret 0 →
      Carries env s (.withdrawFees caller) ⟨.withdrawFees, w, now⟩
  | openLine {i limit w now expiry flatFee basisPoints} :
      OpenCarried env i limit w expiry flatFee basisPoints →
      Carries env s (.openLine i limit) ⟨.openLine expiry flatFee basisPoints, w, now⟩
  | postQuote {i amount w now expiry} : QuoteCarried env i amount w expiry →
      Carries env s (.postQuote i amount) ⟨.postQuote expiry, w, now⟩
  | draw {i witness w now Q noteExpiry fee book wq} :
      DrawCarried env s i witness w Q noteExpiry fee book wq →
      Carries env s (.draw i witness) ⟨.draw Q noteExpiry fee, w, now⟩
  | redeemDraw {i note w now D noteExpiry pre} : RedeemCarried s i note w D noteExpiry pre →
      Carries env s (.redeemDraw i note) ⟨.redeemDraw D noteExpiry, w, now⟩
  | cancelOrExpireNote {i w now D action receiptExpiry} :
      NoteCarried s i w D action receiptExpiry →
      Carries env s (.cancelOrExpireNote i) ⟨.cancelOrExpireNote D action receiptExpiry, w, now⟩
  | acknowledgeRepayment {i witness w now receiptExpiry book receipt} :
      RepayCarried env s i witness w receiptExpiry book receipt →
      Carries env s (.acknowledgeRepayment i witness) ⟨.acknowledgeRepayment receiptExpiry, w, now⟩
  | setStatus {i w now next} : StatusCarried s i w next →
      Carries env s (.setStatus i) ⟨.setStatus next, w, now⟩

end Line.Engine
