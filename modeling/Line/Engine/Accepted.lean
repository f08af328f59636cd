import Line.Engine.Related

/-!
# What an accepted call has checked

Whoever calls the engine, and with whatever numbers: if it returns a ledger, the numbers it
used were counts, and the ledger it returns differs from the one it was given in what is said
here. Nothing is assumed about the ledger.

There is one lemma for each operation. It takes the operation apart once, so that what is shown
of the engine later, that it counts exactly, that it refuses what it cannot count, that its
records are of counts, is read off these lemmas and unfolds nothing. Whether a number was
tested or encoded makes no difference here: `assertSafeUint` answers yes to counts only, and
what `u64` encodes is a count (`u64_ok_iff`).
-/

namespace Line.Engine

open Checked

variable {B : Type}

/-! ## Numbers -/

theorem assertSafeUint_iff {v : Number} : assertSafeUint v = true ↔ v.IsCount := by
  rw [assertSafeUint, Number.isCount_iff, Bool.and_eq_true, Bool.and_eq_true, and_assoc]

@[simp] theorem not_assertSafeUint_iff {v : Number} : (!assertSafeUint v) = false ↔ v.IsCount := by
  rw [Bool.not_eq_false', assertSafeUint_iff]

/-- `!assertSafeUint(v) || v <= 0`. -/
theorem positive_iff {v : Number} :
    (!assertSafeUint v || v.le (.ofNat 0)) = false ↔ v.IsCount ∧ 0 < v.toNat := by
  rw [Bool.or_eq_false_iff, not_assertSafeUint_iff, and_congr_right_iff]
  intro hv
  rw [hv.le_iff (Number.isCount_ofNat.mpr (Nat.zero_le _)), Number.toNat_ofNat]

/-- **What is encoded is a count**, and encoded as it is. -/
theorem u64_ok_iff {v : Number} {n : U64} : u64 v = .ok n ↔ v.IsCount ∧ n.val = v.toNat := by
  constructor
  · intro h
    have hv : v.IsCount := by
      by_contra hno
      rw [Number.isCount_iff] at hno
      -- what is no count fails one of the three tests
      have hbad : (!v.isInteger || v.lt (.ofNat 0) || !v.isSafeInteger) = true := by
        cases v with
        | nan => rfl
        | infinity s => rfl
        | finite q =>
          simp only [Number.le, Number.lt, Number.eq, Number.ofNat, Nat.cast_zero, Bool.or_eq_true,
            decide_eq_true_eq, Bool.not_eq_true', ← le_iff_lt_or_eq, ← not_lt] at hno ⊢
          by_contra hall
          rw [not_or, not_or, Bool.not_eq_false, Bool.not_eq_false] at hall
          exact hno ⟨hall.1.1, hall.1.2, hall.2⟩
      rw [u64, if_pos hbad] at h
      cases h
    -- and a count fits 64 bits
    have hlt : v.toNat < 2 ^ 64 := lt_of_le_of_lt hv.2 (by decide)
    rw [hv.1, u64_ofNat hv.2 hlt, Except.ok.injEq] at h
    exact ⟨hv, h ▸ rfl⟩
  · rintro ⟨hv, hn⟩
    have hu := u64_ofNat (k := v.toNat) hv.2 (hn ▸ n.isLt)
    rw [← hv.1] at hu
    rw [hu, Except.ok.injEq]
    exact Uint.ext hn.symm

/-- A count is encoded. -/
theorem u64_count {v : Number} (hv : v.IsCount) : ∃ n, u64 v = .ok n :=
  ⟨⟨v.toNat, lt_of_le_of_lt hv.2 (by decide)⟩, u64_ok_iff.mpr ⟨hv, rfl⟩⟩

/-- The trusted clock, where it is read. -/
theorem executionUnixSeconds_ok_iff {env : Env B} {now : Number} :
    executionUnixSeconds env = .ok now ↔ env.clock.IsCount ∧ now = env.clock := by
  have hcheck : (!env.clock.isSafeInteger || env.clock.lt (.ofNat 0)) = false ↔
      env.clock.IsCount := by
    rw [Number.isCount_iff, Bool.or_eq_false_iff, Bool.not_eq_false']
    cases env.clock with
    | nan => simp [Number.isSafeInteger, Number.isInteger]
    | infinity s => simp [Number.isSafeInteger, Number.isInteger]
    | finite q =>
      simp only [Number.isSafeInteger, Number.isInteger, Number.le, Number.lt, Number.eq,
        Number.ofNat, Nat.cast_zero, Bool.and_eq_true, Bool.or_eq_true, decide_eq_true_eq,
        decide_eq_false_iff_not, not_lt, ← le_iff_lt_or_eq]
      tauto
  unfold executionUnixSeconds
  rw [← hcheck]
  cases (!env.clock.isSafeInteger || env.clock.lt (.ofNat 0)) with
  | true => simp [raise, bind, Except.bind]
  | false => simp [pure, Except.pure, eq_comm]

theorem deadline_ok {env : Env B} {expiry : Number} {reason : String} {u : Unit}
    (h : deadline env expiry reason = .ok u) : expiry.IsCount ∧ env.clock.IsCount := by
  simp only [deadline, bind_ok_iff, failIf_ok_iff, exists_const, not_assertSafeUint_iff,
    executionUnixSeconds_ok_iff] at h
  obtain ⟨hx, now, ⟨hc, -⟩, -⟩ := h
  exact ⟨hx, hc⟩

theorem badPolicy_iff {feeFlat feeBps : Number} : badPolicy feeFlat feeBps = false ↔
    feeFlat.IsCount ∧ feeBps.IsCount ∧ feeBps.toNat ≤ 10000 := by
  rw [badPolicy, Bool.or_eq_false_iff, Bool.or_eq_false_iff, not_assertSafeUint_iff,
    not_assertSafeUint_iff, and_assoc, and_congr_right_iff]
  intro _
  rw [and_congr_right_iff]
  intro hb
  rw [Number.IsCount.lt_iff (Number.isCount_ofNat.mpr (by decide)) hb, Number.toNat_ofNat]

/-! ## Books -/

/-- A private book in counts. -/
structure LineWitness.InDomain (w : LineWitness B) : Prop where
  limit : w.L.IsCount
  outstanding : w.B.IsCount
  epoch : w.e.IsCount

/-- The opening of a quote in counts. -/
structure QuotePreimage.InDomain (q : QuotePreimage B) : Prop where
  amount : q.amount.IsCount
  expiry : q.expiry.IsCount
  generation : q.generation.IsCount
  feeFlat : q.feeFlat.IsCount
  feeBps : q.feeBps.IsCount

/-- The opening of a note in counts. -/
structure DrawNotePreimage.InDomain (n : DrawNotePreimage B) : Prop where
  lineGeneration : n.lineGeneration.IsCount
  amount : n.amount.IsCount
  fee : n.fee.IsCount
  expiry : n.expiry.IsCount

variable [Compact B]

theorem lineCommitment_ok {w : LineWitness B} {C : B} (h : lineCommitment w = .ok C) :
    w.InDomain := by
  simp only [lineCommitment, bind_ok_iff, u64_ok_iff] at h
  obtain ⟨_, ⟨hL, -⟩, _, ⟨hB, -⟩, _, ⟨he, -⟩, -⟩ := h
  exact ⟨hL, hB, he⟩

theorem quoteCommitment_ok {q : QuotePreimage B} {domain Q : B}
    (h : quoteCommitment q domain = .ok Q) : q.InDomain := by
  simp only [quoteCommitment, bind_ok_iff, u64_ok_iff] at h
  obtain ⟨_, ⟨ha, -⟩, _, ⟨hx, -⟩, _, ⟨hg, -⟩, _, ⟨hf, -⟩, _, ⟨hb, -⟩, -⟩ := h
  exact ⟨ha, hx, hg, hf, hb⟩

theorem drawNoteCommitment_ok {np : DrawNotePreimage B} {salt D : B}
    (h : drawNoteCommitment np salt = .ok D) : np.InDomain := by
  simp only [drawNoteCommitment, bind_ok_iff, u64_ok_iff] at h
  obtain ⟨_, ⟨hg, -⟩, _, ⟨ha, -⟩, _, ⟨hf, -⟩, _, ⟨hx, -⟩, -⟩ := h
  exact ⟨hg, ha, hf, hx⟩

variable [DecidableEq B]

/-- A book that opens the line's commitment is in counts. -/
theorem opens_ok {w : LineWitness B} {C : Option B} (h : opens w C = .ok true) : w.InDomain := by
  unfold opens at h
  split at h
  · simp only [pure_ok_iff, Bool.false_eq_true] at h
  · simp only [bind_ok_iff] at h
    obtain ⟨_, h, -⟩ := h
    exact lineCommitment_ok h

/-! ## Draws -/

/-- The record of the note of a draw. -/
def drawnRecord (D : B) (amount fee expiry generation : Number) : NoteRecord B where
  commitment := D
  amount := amount
  fee := fee
  redeemed := false
  cancelled := false
  expiry := expiry
  lineGeneration := generation
  compensationAllocated := false
  refundCommitment := pad ""
  cashRefundOwed := false
  refundAcknowledged := false
  refundPaymentNullifier := pad ""

/-- `input.fee ?? 0`. -/
def DrawInput.charge (input : DrawInput B) : Number := input.fee.getD (.ofNat 0)

/-- A draw on `books` against the quote `live`, opened by `wq`, for `cost`. -/
structure Draws (env : Env B) (e : Ledger B) (i : DrawInput B) (witness : Option (DrawWitness B))
    (r : Drawn B) (books : LineWitness B) (wq : QuotePreimage B) (live : QuoteRecord B)
    (cost : Number) : Prop where
  clock : env.clock.IsCount
  shown : i.books witness = some books
  book : books.InDomain
  opening : i.opening witness = some wq
  quote : ∃ Q, i.commitment wq e.contractDomain = .ok Q
    ∧ Records.find QuoteRecord.commitment e.quotes Q = some live
  generation : live.lineGeneration.eq e.lineGeneration = true ∧ e.lineGeneration.IsCount
  /-- The terms of the quote are those of the record. -/
  terms : live.expiry.IsCount ∧ live.lineGeneration.IsCount
  amount : wq.amount.IsCount ∧ 0 < wq.amount.toNat
  fee : i.charge.IsCount
  sum : cost = wq.amount.add i.charge ∧ cost.IsCount
  debt : (books.B.add cost).IsCount
  capacity : books.L.lt (books.B.add cost) = false
  solvent : e.totalReserve.lt (lockedReserve e) = false
  reserve : (e.totalReserve.sub (lockedReserve e)).lt cost = false
  noteExpiry : (i.noteExpiry.getD live.expiry).eq live.expiry = true
    ∧ (i.noteExpiry.getD live.expiry).IsCount
  witness : ∃ C salt, r.agent.witness = some ⟨e.contractDomain, books.I, books.L, books.B.add cost,
      books.e.add (.ofNat 1), salt⟩
    ∧ lineCommitment ⟨e.contractDomain, books.I, books.L, books.B.add cost,
      books.e.add (.ofNat 1), salt⟩ = .ok C
  ledger : ∃ Q C N D, r.ledger = pushEvent { e with
      quotes := Records.change QuoteRecord.commitment (fun q => { q with used := true }) Q e.quotes
      lineCommitment := some C
      nullifiers := e.nullifiers ++ [N]
      encumberedReserve := e.encumberedReserve.add wq.amount
      pendingFeeReserve := e.pendingFeeReserve.add i.charge
      notes := e.notes ++ [drawnRecord D wq.amount i.charge (i.noteExpiry.getD live.expiry)
        e.lineGeneration] }

theorem draw_ok {env : Env B} {e : Ledger B} {i : DrawInput B} {witness : Option (DrawWitness B)}
    {r : Drawn B} (h : draw env e i witness = .ok r) :
    ∃ books wq live cost, Draws env e i witness r books wq live cost := by
  simp only [draw, bind_ok_iff, failIf_ok_iff, present_ok_iff, pure_ok_iff, exists_const,
    executionUnixSeconds_ok_iff, Bool.or_eq_false_iff, decide_eq_false_iff_not, not_not,
    Bool.not_eq_false', assertSafeUint_iff] at h
  obtain ⟨now, ⟨hclock, -⟩, -, -, -, secret, -, books, hbooks, ⟨hI, -⟩, opened, hopen, rfl, wq,
    hwq, -, Q, hQ, live, hlive, -, -, hgen, ⟨hA, hpos⟩, recon, hrecon, -, -, hf, x, -, -, fee, -, -,
    ⟨-, hcost⟩, ⟨-, hdebt⟩, hcap, hsol, hfree, hterms, ⟨hnx, -⟩, -, D, hD, -, C, hC, rfl⟩ := h
  obtain ⟨-, hqx, hqg, -, -⟩ := quoteCommitment_ok hrecon
  have hcount := (drawNoteCommitment_ok hD).lineGeneration
  have hA' : 0 < wq.amount.toNat := by
    rwa [hA.le_iff (Number.isCount_ofNat.mpr (Nat.zero_le _)), Number.toNat_ofNat] at hpos
  rw [hI] at hC
  exact ⟨books, wq, live, _, hclock, hbooks, opens_ok hopen, hwq, ⟨Q, hQ, hlive⟩, ⟨hgen, hcount⟩,
    ⟨hqx, hqg⟩, ⟨hA, hA'⟩, hf, ⟨rfl, hcost⟩, hdebt, hcap, hsol, hfree, ⟨hterms, hnx⟩,
    ⟨C, i.newSalt.getD (env.randomBytes32 2), by rw [← hI]; rfl, hC⟩, ⟨_, _, _, _, rfl⟩⟩

/-! ## Redemption -/

/-- A redemption of the note `live`, recorded under `D`. -/
structure Redeems (env : Env B) (e : Ledger B) (i : RedeemInput B)
    (witnessNote : Option (DrawNotePreimage B)) (r : NoteRedeemed B) (D : B) (live : NoteRecord B) :
    Prop where
  clock : env.clock.IsCount
  found : Records.find NoteRecord.commitment e.notes D = some live
  unredeemed : live.redeemed = false
  uncancelled : live.cancelled = false
  preimage : ∃ p, i.preimage witnessNote = some p ∧ p.amount.IsCount
    ∧ p.amount.eq live.amount = true ∧ (i.noteExpiry.getD p.expiry).IsCount
  ledger : ∃ N, r.ledger = pushEvent { e with
    notes := Records.change NoteRecord.commitment (fun n => { n with redeemed := true }) D e.notes
    nullifiers := e.nullifiers ++ [N]
    encumberedReserve := e.encumberedReserve.sub live.amount
    redeemedReserve := e.redeemedReserve.add live.amount
    pendingFeeReserve := e.pendingFeeReserve.sub live.fee
    feeReserve := e.feeReserve.add live.fee }

theorem redeemDraw_ok {env : Env B} {e : Ledger B} {i : RedeemInput B}
    {witnessNote : Option (DrawNotePreimage B)} {r : NoteRedeemed B}
    (h : redeemDraw env e i witnessNote = .ok r) :
    ∃ D live, Redeems env e i witnessNote r D live := by
  simp only [redeemDraw, bind_ok_iff, failIf_ok_iff, present_ok_iff, pure_ok_iff, exists_const,
    executionUnixSeconds_ok_iff, Bool.not_eq_false'] at h
  obtain ⟨D, -, live, hlive, hr, hc, now, ⟨hclock, -⟩, -, p, hp, -, hamount, D', hD, -, -, rfl⟩ := h
  obtain ⟨-, hpa, -, hx⟩ := drawNoteCommitment_ok hD
  exact ⟨D, live, hclock, hlive, hr, hc, ⟨p, hp, hpa, hamount, hx⟩, ⟨_, rfl⟩⟩

/-! ## Expiry, compensation and refunds -/

/-- The budgets of a live note, moved to the refunds. -/
def Ledger.expired (e : Ledger B) (live : NoteRecord B) (cost : Number) : Ledger B :=
  { e with
    encumberedReserve := e.encumberedReserve.sub live.amount
    pendingFeeReserve := e.pendingFeeReserve.sub live.fee
    refundReserve := e.refundReserve.add cost }

omit [Compact B] [DecidableEq B] in
theorem expireLive_ok {env : Env B} {live : NoteRecord B} {cost : Number} {e e' : Ledger B}
    (h : expireLive env live cost e = .ok e') :
    live.cancelled = true ∧ e' = e
      ∨ live.cancelled = false ∧ env.clock.IsCount ∧ e' = e.expired live cost := by
  unfold expireLive at h
  split at h
  · next hc =>
    rw [pure_ok_iff] at h
    exact .inl ⟨hc, h.symm⟩
  · next hc =>
    simp only [bind_ok_iff, failIf_ok_iff, exists_const, pure_ok_iff,
      executionUnixSeconds_ok_iff] at h
    obtain ⟨now, ⟨hclock, -⟩, -, rfl⟩ := h
    exact .inr ⟨Bool.not_eq_true _ ▸ hc, hclock, rfl⟩

/-- A settlement of `cost` against the book `books` of the current generation. -/
structure Settles (next : Ledger B) (cost : Number) (x : Settled B) (books : LineWitness B) :
    Prop where
  book : books.InDomain
  epoch : (books.e.add (.ofNat 1)).IsCount
  credited : x.credited = books.B.min cost
  owed : x.owed = cost.sub (books.B.min cost)
  witness : ∃ salt, x.witness = some { books with
    domain := next.contractDomain, B := books.B.sub x.credited, e := books.e.add (.ofNat 1)
    s := salt }
  ledger : ∃ C, x.ledger = { next with
    lineCommitment := some C
    refundReserve :=
      if x.owed.eq (.ofNat 0) then next.refundReserve.sub cost else next.refundReserve }

/-- Mode 1 settles against the current book, or leaves the line alone. -/
theorem settle_ok {proof : Compensation B} {owner : B} {live : NoteRecord B} {cost : Number}
    {next : Ledger B} {x : Settled B} (h : settle proof owner live cost next = .ok x) :
    (live.lineGeneration.eq next.lineGeneration = true
      ∧ ∃ books, proof.books = some books ∧ Settles next cost x books)
      ∨ live.lineGeneration.eq next.lineGeneration = false ∧ x = ⟨next, none, cost, .ofNat 0⟩ := by
  unfold settle at h
  split at h
  · next hgen =>
    simp only [bind_ok_iff, failIf_ok_iff, present_ok_iff, exists_const, pure_ok_iff,
      Bool.not_eq_false', Bool.or_eq_false_iff, assertSafeUint_iff] at h
    obtain ⟨-, books, hbooks, -, opened, hopen, rfl, ⟨-, he⟩, C, -, rfl⟩ := h
    exact .inl ⟨hgen, books, hbooks, opens_ok hopen, he, rfl, rfl, ⟨_, rfl⟩, ⟨C, rfl⟩⟩
  · next hgen =>
    simp only [bind_ok_iff, failIf_ok_iff, exists_const, pure_ok_iff] at h
    exact .inr ⟨Bool.not_eq_true _ ▸ hgen, h.2.symm⟩

/-- What mode 1 makes of the record of a note. -/
def NoteRecord.allocated (n : NoteRecord B) (refund : B) (owed : Number) : NoteRecord B :=
  { n with
    cancelled := true
    compensationAllocated := true
    refundCommitment := refund
    cashRefundOwed := (Number.ofNat 0).lt owed
    refundAcknowledged := false
    refundPaymentNullifier := pad "" }

omit [Compact B] in
theorem cancelNote_ok {env : Env B} {D : B} {live : NoteRecord B} {cost : Number} {e : Ledger B}
    {r : NoteHandled B} (h : cancelNote env D live cost e = .ok r) :
    live.cancelled = false ∧ env.clock.IsCount ∧ r = ⟨{ e.expired live cost with
      notes := Records.change NoteRecord.commitment (fun n => { n with cancelled := true }) D
        e.notes }, none, none⟩ := by
  simp only [cancelNote, bind_ok_iff, failIf_ok_iff, exists_const, pure_ok_iff] at h
  obtain ⟨hc, e', he, rfl⟩ := h
  rcases expireLive_ok he with ⟨hc', -⟩ | ⟨-, hclock, rfl⟩
  · rw [hc] at hc'
    cases hc'
  · exact ⟨hc, hclock, rfl⟩

theorem allocateCompensation_ok {env : Env B} {caller D : B} {live : NoteRecord B} {cost : Number}
    {compensation : Option (Compensation B)} {e : Ledger B} {r : NoteHandled B}
    (h : allocateCompensation env caller D live cost compensation e = .ok r) :
    live.compensationAllocated = false ∧ ∃ e' proof x refund allocation,
      expireLive env live cost e = .ok e' ∧ compensation = some proof
      ∧ settle proof proof.note.identity live cost e' = .ok x
      ∧ allocation.amount = x.owed ∧ allocation.allocatedCredit = x.credited
      ∧ r = ⟨{ x.ledger with
        notes := Records.change NoteRecord.commitment (·.allocated refund x.owed) D
          x.ledger.notes }, x.witness, some allocation⟩ := by
  simp only [allocateCompensation, bind_ok_iff, failIf_ok_iff, present_ok_iff, exists_const,
    pure_ok_iff] at h
  obtain ⟨ha, e', he', proof, hproof, _, -, -, -, x, hx, refund, -, rfl⟩ := h
  exact ⟨ha, e', proof, x, refund, _, he', hproof, hx, rfl, rfl, rfl⟩

theorem acknowledgeRefund_ok [Words B] {env : Env B} {caller D : B} {live : NoteRecord B}
    {cost : Number} {receiptExpiry : Option Number} {refundAck : Option (RefundAck B)}
    {e : Ledger B} {r : NoteHandled B}
    (h : acknowledgeRefund env caller D live cost receiptExpiry refundAck e = .ok r) :
    live.cancelled = true ∧ live.compensationAllocated = true ∧ live.cashRefundOwed = true
      ∧ live.refundAcknowledged = false ∧ env.clock.IsCount
      ∧ (∃ ack, refundAck = some ack ∧ ack.amount.IsCount
        ∧ (receiptExpiry.getD ack.receiptExpiry).IsCount)
      ∧ ∃ N, r = ⟨{ e with
        nullifiers := e.nullifiers ++ [N]
        notes := Records.change NoteRecord.commitment (fun n => { n with
          refundAcknowledged := true
          refundPaymentNullifier := N }) D e.notes
        refundReserve := e.refundReserve.sub cost
        reportedRefundReserve := e.reportedRefundReserve.add cost }, none, none⟩ := by
  simp only [acknowledgeRefund, bind_ok_iff, failIf_ok_iff, present_ok_iff, exists_const,
    pure_ok_iff, Bool.or_eq_false_iff, Bool.not_eq_false', assertSafeUint_iff] at h
  obtain ⟨-, ⟨⟨hc, ha⟩, ho⟩, hk, ack, hack, _, hx, ⟨⟨hamount, -⟩, -⟩, y, -, -, -, rfl⟩ := h
  obtain ⟨hx, hclock⟩ := deadline_ok hx
  exact ⟨hc, ha, ho, hk, hclock, ⟨ack, hack, hamount, hx⟩, _, rfl⟩

/-- What every mode checks first. -/
theorem cancelOrExpireNote_ok [Words B] {env : Env B} {e : Ledger B} {i : NoteInput B}
    {r : NoteHandled B} (h : cancelOrExpireNote env e i = .ok r) :
    ∃ D live x, i.commitment = some D
      ∧ Records.find NoteRecord.commitment e.notes D = some live ∧ live.redeemed = false
      ∧ live.amount.IsCount ∧ live.fee.IsCount ∧ (live.amount.add live.fee).IsCount
      ∧ ((i.action.getD (.ofNat 0)).eq (.ofNat 0) = true
        ∨ (i.action.getD (.ofNat 0)).eq (.ofNat 1) = true
        ∨ (i.action.getD (.ofNat 0)).eq (.ofNat 2) = true)
      ∧ handleNote env i (i.action.getD (.ofNat 0)) D live (live.amount.add live.fee) e = .ok x
      ∧ r = { x with ledger := pushEvent x.ledger } := by
  simp only [cancelOrExpireNote, bind_ok_iff, failIf_ok_iff, present_ok_iff, exists_const,
    pure_ok_iff, Bool.or_eq_false_iff, Bool.and_eq_false_iff, Bool.not_eq_false',
    assertSafeUint_iff] at h
  obtain ⟨hmode, D, hD, live, hlive, hr, ⟨⟨ha, hf⟩, hcost⟩, x, hx, rfl⟩ := h
  exact ⟨D, live, x, hD, hlive, hr, ha, hf, hcost, by tauto, hx, rfl⟩

/-! ## Repayment, and the calls that move no reserve -/

/-- A repayment of the receipt `receipt` on `books`. -/
structure Repays (env : Env B) (e : Ledger B) (i : RepayInput B) (witness : Option (RepayWitness B))
    (r : Repaid B) (books : LineWitness B) (receipt : RepayReceipt B) : Prop where
  clock : env.clock.IsCount
  shown : i.books witness = some books
  book : books.InDomain
  proof : i.proof witness = some receipt
  amount : receipt.amount.IsCount ∧ 0 < receipt.amount.toNat
  covered : books.B.lt receipt.amount = false
  expiry : (i.receiptExpiry.getD receipt.expiry).IsCount
  witness : ∃ C, r.witness.L = books.L ∧ r.witness.B = books.B.sub receipt.amount
    ∧ r.witness.e = books.e.add (.ofNat 1) ∧ lineCommitment r.witness = .ok C
  ledger : ∃ C Ns, r.ledger = pushEvent { e with
    lineCommitment := some C
    nullifiers := e.nullifiers ++ Ns }

theorem acknowledgeRepayment_ok [Words B] {env : Env B} {e : Ledger B} {i : RepayInput B}
    {witness : Option (RepayWitness B)} {r : Repaid B}
    (h : acknowledgeRepayment env e i witness = .ok r) :
    ∃ books receipt, Repays env e i witness r books receipt := by
  simp only [acknowledgeRepayment, bind_ok_iff, failIf_ok_iff, present_ok_iff, exists_const,
    pure_ok_iff, Bool.or_eq_false_iff, Bool.not_eq_false', assertSafeUint_iff] at h
  obtain ⟨-, -, C, -, books, hbooks, opened, hopen, rfl, receipt, hproof, -, -, -, _, hx,
    ⟨⟨hR, hpos⟩, hcov⟩, _, -, _, -, -, -, C2, hC, rfl⟩ := h
  obtain ⟨hx, hclock⟩ := deadline_ok hx
  rw [hR.le_iff (Number.isCount_ofNat.mpr (Nat.zero_le _)), Number.toNat_ofNat] at hpos
  exact ⟨books, receipt, hclock, hbooks, opens_ok hopen, hproof, ⟨hR, hpos⟩, hcov, hx,
    ⟨C2, rfl, rfl, rfl, hC⟩, ⟨C2, _, rfl⟩⟩

/-- What `openLine` leaves of the ledger, and the book it returns. -/
theorem openLine_ok {env : Env B} {e : Ledger B} {i : OpenLineInput B} {limit : Option Number}
    {r : LineOpened B} (h : openLine env e i limit = .ok r) :
    ((limit.or i.limit).getD (.ofNat 0)).IsCount ∧ i.expiry.IsCount ∧ env.clock.IsCount
      ∧ badPolicy (i.feeFlat.getD (.ofNat 0)) (i.feeBps.getD (.ofNat 0)) = false
      ∧ (∃ I salt, r.agent.witness = some ⟨e.contractDomain, I, (limit.or i.limit).getD (.ofNat 0),
        .ofNat 0, .ofNat 0, salt⟩)
      ∧ ∃ I C, r.ledger = pushEvent { e with
        identityCommitment := some I
        lineCommitment := some C
        lineExpiry := i.expiry
        feeFlat := i.feeFlat.getD (.ofNat 0)
        feeBps := i.feeBps.getD (.ofNat 0)
        status := .OPEN
        lineGeneration := e.lineGeneration.add (.ofNat 1) } := by
  simp only [openLine, bind_ok_iff, failIf_ok_iff, exists_const, pure_ok_iff, positive_iff] at h
  obtain ⟨-, ⟨hL, -⟩, _, hx, -, hpolicy, C, -, rfl⟩ := h
  obtain ⟨hx, hclock⟩ := deadline_ok hx
  exact ⟨hL, hx, hclock, hpolicy, ⟨_, _, rfl⟩, ⟨_, C, rfl⟩⟩

/-- What `postQuote` leaves of the ledger. -/
theorem postQuote_ok {env : Env B} {e : Ledger B} {i : PostQuoteInput B} {amount : Option Number}
    {r : QuotePosted B} (h : postQuote env e i amount = .ok r) :
    ((amount.or i.amount).getD (.ofNat 0)).IsCount ∧ i.expiry.IsCount ∧ env.clock.IsCount
      ∧ e.lineGeneration.IsCount
      ∧ r.ledger = pushEvent { e with
        quotes := e.quotes ++ [⟨r.Q, i.expiry, e.lineGeneration, false⟩] } := by
  simp only [postQuote, bind_ok_iff, failIf_ok_iff, exists_const, pure_ok_iff, positive_iff] at h
  obtain ⟨-, -, -, ⟨hA, -⟩, _, hx, -, Q, hQ, -, rfl⟩ := h
  obtain ⟨hx, hclock⟩ := deadline_ok hx
  exact ⟨hA, hx, hclock, (quoteCommitment_ok hQ).generation, rfl⟩

/-- What `setStatus` leaves of the ledger, and the book that closes a line. -/
theorem setStatus_ok {e e' : Ledger B} {i : StatusInput B} (h : setStatus e i = .ok e') :
    (i.status = .CLOSED → ∃ books, i.witness = some books ∧ books.InDomain)
      ∧ e' = pushEvent { e with status := i.status } := by
  simp only [setStatus, bind_ok_iff, failIf_ok_iff, exists_const, pure_ok_iff] at h
  obtain ⟨-, -, -, -, -, _, hclose, rfl⟩ := h
  refine ⟨fun hs => ?_, rfl⟩
  simp only [closing, if_pos hs, bind_ok_iff, failIf_ok_iff, present_ok_iff, exists_const,
    Bool.not_eq_false'] at hclose
  obtain ⟨books, hbooks, -, opened, hopen, rfl, -⟩ := hclose
  exact ⟨books, hbooks, opens_ok hopen⟩

end Line.Engine
