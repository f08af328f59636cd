import Line.Engine.Accepted
import Line.Proof.Reserve

/-!
# The reserve of the engine in exact numbers

The engine counts its reserve in `number`s. `Reserve.Exact` says what they should be: the total
is what was paid in less what was paid out, each locked budget is the sum of what the notes
account for in it, and all are safe integers, so that none of these sums was rounded.

`Posting` says once what a call can do to the reserve. Every posting keeps the accounts exact
except one: `fundReserve` holds the new total against `2 ^ 64` only.
-/

namespace Line.Engine

open Checked Records

variable {B : Type}

/-! ## Accounts -/

/-- The part of a ledger that counts money. -/
structure Reserve (B : Type) where
  total : Number
  counter : Budget → Number
  notes : List (NoteRecord B)

/-- The engine's counter of a budget. -/
def Ledger.counter (e : Ledger B) : Budget → Number
  | .encumbered => e.encumberedReserve
  | .redeemed => e.redeemedReserve
  | .fee => e.feeReserve
  | .pendingFee => e.pendingFeeReserve
  | .refund => e.refundReserve
  | .reportedRefund => e.reportedRefundReserve

def Ledger.reserve (e : Ledger B) : Reserve B := ⟨e.totalReserve, e.counter, e.notes⟩

/-- `lockedReserve`, as it is added up. -/
def Reserve.locked (s : Reserve B) : Number :=
  (((((s.counter .encumbered).add (s.counter .redeemed)).add (s.counter .fee)).add
    (s.counter .pendingFee)).add (s.counter .refund)).add (s.counter .reportedRefund)

/-- What is locked, in exact numbers. -/
def Reserve.held (s : Reserve B) : ℕ :=
  (s.counter .encumbered).toNat + (s.counter .redeemed).toNat + (s.counter .fee).toNat
    + (s.counter .pendingFee).toNat + (s.counter .refund).toNat
    + (s.counter .reportedRefund).toNat

namespace NoteRecord

/-- Amount and fee. -/
def cost (n : NoteRecord B) : ℕ := n.amount.toNat + n.fee.toNat

/-- Neither redeemed nor cancelled. -/
abbrev Live (n : NoteRecord B) : Prop := n.redeemed = false ∧ n.cancelled = false

/-- Cancelled, and either not compensated yet or with cash still owed. -/
abbrev Refundable (n : NoteRecord B) : Prop :=
  n.cancelled = true ∧ (n.compensationAllocated = false
    ∨ (n.cashRefundOwed = true ∧ n.refundAcknowledged = false))

/-- What one note accounts for in each budget. -/
def books (n : NoteRecord B) : Budget → ℕ
  | .encumbered => if n.Live then n.amount.toNat else 0
  | .redeemed => if n.redeemed = true then n.amount.toNat else 0
  | .fee => if n.redeemed = true then n.fee.toNat else 0
  | .pendingFee => if n.Live then n.fee.toNat else 0
  | .refund => if n.Refundable then n.cost else 0
  | .reportedRefund => if n.refundAcknowledged = true then n.cost else 0

/-- A record in counts, whose flags were raised in order. -/
structure Whole (n : NoteRecord B) : Prop where
  amount : n.amount.IsCount
  fee : n.fee.IsCount
  cost : (n.amount.add n.fee).IsCount
  unallocated : n.cancelled = false → n.compensationAllocated = false
  unacknowledged : n.compensationAllocated = false → n.refundAcknowledged = false

/-- The cost of a note, as the engine adds it up. -/
theorem Whole.cost_eq {n : NoteRecord B} (h : n.Whole) :
    n.cost ≤ Number.maxSafe ∧ n.amount.add n.fee = .ofNat n.cost := by
  have hle := (h.amount.add_iff h.fee).mp h.cost
  exact ⟨hle, h.amount.add_eq h.fee hle⟩

theorem Whole.cost_toNat {n : NoteRecord B} (h : n.Whole) :
    (n.amount.add n.fee).toNat = n.cost := by
  rw [h.cost_eq.2, Number.toNat_ofNat]

end NoteRecord

section Books

variable {n : NoteRecord B}

/-- A live note has its amount and its fee pending, and nothing else. -/
theorem books_live (h : n.Whole) (hr : n.redeemed = false) (hc : n.cancelled = false)
    (k : Budget) :
    n.books k =
      match k with
      | .encumbered => n.amount.toNat
      | .pendingFee => n.fee.toNat
      | _ => 0 := by
  have hk := h.unacknowledged (h.unallocated hc)
  cases k <;> simp [NoteRecord.books, NoteRecord.Live, NoteRecord.Refundable, hr, hc, hk]

/-- A refundable note has its whole cost in the refunds. -/
theorem books_refundable (hr : n.redeemed = false) (hn : n.Refundable)
    (hk : n.refundAcknowledged = false) (k : Budget) :
    n.books k =
      match k with
      | .refund => n.cost
      | _ => 0 := by
  have hc := hn.1
  cases k <;> simp only [NoteRecord.books, NoteRecord.Live, if_pos hn] <;> simp [hr, hc, hk]

theorem books_redeemed (h : n.Whole) (hc : n.cancelled = false) (k : Budget) :
    ({ n with redeemed := true } : NoteRecord B).books k =
      match k with
      | .redeemed => n.amount.toNat
      | .fee => n.fee.toNat
      | _ => 0 := by
  have hk := h.unacknowledged (h.unallocated hc)
  cases k <;> simp [NoteRecord.books, NoteRecord.Live, NoteRecord.Refundable, hc, hk]

theorem books_cancelled (h : n.Whole) (hr : n.redeemed = false) (hc : n.cancelled = false)
    (k : Budget) :
    ({ n with cancelled := true } : NoteRecord B).books k =
      match k with
      | .refund => n.cost
      | _ => 0 := by
  have ha := h.unallocated hc
  have hk := h.unacknowledged ha
  cases k <;>
    simp [NoteRecord.books, NoteRecord.Live, NoteRecord.Refundable, NoteRecord.cost, hr, ha, hk]

theorem books_allocated [Compact B] (hr : n.redeemed = false) (refund : B) (owed : Number)
    (k : Budget) :
    (n.allocated refund owed).books k =
      match k with
      | .refund => if (Number.ofNat 0).lt owed = true then n.cost else 0
      | _ => 0 := by
  cases k <;> cases hlt : (Number.ofNat 0).lt owed <;>
    simp [NoteRecord.books, NoteRecord.Live, NoteRecord.Refundable, NoteRecord.allocated,
      NoteRecord.cost, hr, hlt]

theorem books_acknowledged (hr : n.redeemed = false) (hc : n.cancelled = true)
    (ha : n.compensationAllocated = true) (N : B) (k : Budget) :
    ({ n with refundAcknowledged := true, refundPaymentNullifier := N } : NoteRecord B).books k =
      match k with
      | .reportedRefund => n.cost
      | _ => 0 := by
  cases k <;>
    simp [NoteRecord.books, NoteRecord.Live, NoteRecord.Refundable, NoteRecord.cost, hr, hc, ha]

end Books

/-- **Exact accounts**, after `funded` was paid in, and `withdrawn` and the fees `paid` out. -/
structure Reserve.Exact (s : Reserve B) (funded withdrawn paid : ℕ) : Prop where
  notes : ∀ n ∈ s.notes, n.Whole
  total : s.total.IsCount ∧ s.total.toNat + withdrawn + paid = funded
  counter : ∀ k, (s.counter k).IsCount
  books : ∀ k, (s.counter k).toNat + (if k = .fee then paid else 0)
    = (s.notes.map fun n => n.books k).sum
  covered : s.held ≤ s.total.toNat

section Accounts

variable {s s' : Reserve B} {funded withdrawn paid : ℕ}

/-- **The sum of the locked budgets is not rounded.** -/
theorem Reserve.Exact.locked_eq (h : s.Exact funded withdrawn paid) : s.locked = .ofNat s.held := by
  have hsafe := h.total.1.2
  have hcov := h.covered
  unfold Reserve.held at hcov
  have h1 := (h.counter .encumbered).add_eq (h.counter .redeemed) (by omega)
  have h2 := Number.add_ofNat (a := (s.counter .encumbered).toNat + (s.counter .redeemed).toNat)
    (b := (s.counter .fee).toNat) (by omega)
  have h3 := Number.add_ofNat (b := (s.counter .pendingFee).toNat)
    (a := (s.counter .encumbered).toNat + (s.counter .redeemed).toNat + (s.counter .fee).toNat)
    (by omega)
  have h4 := Number.add_ofNat (b := (s.counter .refund).toNat)
    (a := (s.counter .encumbered).toNat + (s.counter .redeemed).toNat + (s.counter .fee).toNat
      + (s.counter .pendingFee).toNat) (by omega)
  have h5 := Number.add_ofNat (b := (s.counter .reportedRefund).toNat)
    (a := (s.counter .encumbered).toNat + (s.counter .redeemed).toNat + (s.counter .fee).toNat
      + (s.counter .pendingFee).toNat + (s.counter .refund).toNat) (by omega)
  rw [← (h.counter .fee).1] at h2
  rw [← (h.counter .pendingFee).1] at h3
  rw [← (h.counter .refund).1] at h4
  rw [← (h.counter .reportedRefund).1] at h5
  rw [Reserve.locked, h1, h2, h3, h4, h5]
  rfl

theorem Reserve.Exact.locked_count (h : s.Exact funded withdrawn paid) :
    s.locked.IsCount ∧ s.locked.toNat = s.held := by
  rw [h.locked_eq, Number.isCount_ofNat, Number.toNat_ofNat]
  exact ⟨h.covered.trans h.total.1.2, rfl⟩

/-- What is free, as the engine subtracts it. -/
theorem Reserve.Exact.free_eq (h : s.Exact funded withdrawn paid) :
    s.total.sub s.locked = .ofNat (s.total.toNat - s.held) := by
  obtain ⟨hc, hn⟩ := h.locked_count
  rw [h.total.1.sub_eq hc (hn ▸ h.covered), hn]

/-- What is not smaller than the free reserve does not exceed it. -/
theorem Reserve.Exact.free_iff (h : s.Exact funded withdrawn paid) {v : Number} (hv : v.IsCount) :
    (s.total.sub s.locked).lt v = false ↔ v.toNat + s.held ≤ s.total.toNat := by
  have hcov := h.covered
  have hle : s.total.toNat - s.held ≤ Number.maxSafe := (Nat.sub_le _ _).trans h.total.1.2
  rw [h.free_eq, Number.IsCount.lt_iff (Number.isCount_ofNat.mpr hle) hv, Number.toNat_ofNat]
  omega

/-- A note that is found is covered by the budgets. -/
theorem Reserve.Exact.covers [DecidableEq B] (h : s.Exact funded withdrawn paid) {D : B}
    {n : NoteRecord B} (hn : find NoteRecord.commitment s.notes D = some n) {k : Budget}
    (hk : k ≠ .fee) : n.books k ≤ (s.counter k).toNat := by
  have hle := le_sum_of_find (fun n : NoteRecord B => n.books k) hn
  have hbooks := h.books k
  rw [if_neg hk, Nat.add_zero] at hbooks
  omega

/-- **One note's books are exchanged**: the counters follow them, and stay covered. -/
theorem Reserve.Exact.exchange (h : s.Exact funded withdrawn paid) (old new : Budget → ℕ)
    (ht : s'.total = s.total) (hn : ∀ n ∈ s'.notes, n.Whole)
    (hsum : ∀ k, (s'.notes.map fun n => n.books k).sum + old k
      = (s.notes.map fun n => n.books k).sum + new k)
    (hc : ∀ k, (s'.counter k).IsCount
      ∧ (s'.counter k).toNat + old k = (s.counter k).toNat + new k)
    (hcov : s'.held ≤ s.total.toNat) : s'.Exact funded withdrawn paid where
  notes := hn
  total := ht ▸ h.total
  counter k := (hc k).1
  books k := by
    have h1 := h.books k
    have h2 := hsum k
    have h3 := (hc k).2
    omega
  covered := ht ▸ hcov

end Accounts

/-! ## Postings -/

namespace Reserve

variable [DecidableEq B]

/-- The record under `D` rewritten. -/
def rewritten (s : Reserve B) (f : NoteRecord B → NoteRecord B) (D : B) : Reserve B :=
  { s with notes := change NoteRecord.commitment f D s.notes }

omit [DecidableEq B] in
/-- The counters of a draw. -/
def drawn (s : Reserve B) (n : NoteRecord B) : Reserve B where
  total := s.total
  counter
    | .encumbered => (s.counter .encumbered).add n.amount
    | .pendingFee => (s.counter .pendingFee).add n.fee
    | k => s.counter k
  notes := s.notes ++ [n]

/-- The counters of a redemption. -/
def redeemed (s : Reserve B) (n : NoteRecord B) : Reserve B where
  total := s.total
  counter
    | .encumbered => (s.counter .encumbered).sub n.amount
    | .redeemed => (s.counter .redeemed).add n.amount
    | .pendingFee => (s.counter .pendingFee).sub n.fee
    | .fee => (s.counter .fee).add n.fee
    | k => s.counter k
  notes := s.notes

/-- The counters of an expiry. -/
def expired (s : Reserve B) (n : NoteRecord B) : Reserve B where
  total := s.total
  counter
    | .encumbered => (s.counter .encumbered).sub n.amount
    | .pendingFee => (s.counter .pendingFee).sub n.fee
    | .refund => (s.counter .refund).add (n.amount.add n.fee)
    | k => s.counter k
  notes := s.notes

/-- The counters of a compensation that the debt takes up. -/
def released (s : Reserve B) (n : NoteRecord B) : Reserve B where
  total := s.total
  counter
    | .refund => (s.counter .refund).sub (n.amount.add n.fee)
    | k => s.counter k
  notes := s.notes

/-- The counters of a reported refund. -/
def reported (s : Reserve B) (n : NoteRecord B) : Reserve B where
  total := s.total
  counter
    | .refund => (s.counter .refund).sub (n.amount.add n.fee)
    | .reportedRefund => (s.counter .reportedRefund).add (n.amount.add n.fee)
    | k => s.counter k
  notes := s.notes

end Reserve

/-- **All that a call can do to the reserve**, with what it pays in, and out, and in fees. -/
inductive Posting [DecidableEq B] [Compact B] : ℕ → ℕ → ℕ → Reserve B → Reserve B → Prop
  /-- Nothing. -/
  | aside {s} : Posting 0 0 0 s s
  | fund {s} {a : Number} (ha : a.IsCount) : Posting a.toNat 0 0 s { s with total := s.total.add a }
  | withdraw {s} {a : Number} (ha : a.IsCount) (hfree : (s.total.sub s.locked).lt a = false) :
      Posting 0 a.toNat 0 s { s with total := s.total.sub a }
  | fees {s : Reserve B} :
      Posting 0 0 (s.counter .fee).toNat s {
        total := s.total.sub (s.counter .fee)
        counter
          | .fee => .ofNat 0
          | k => s.counter k
        notes := s.notes }
  | draw {s D} {amount fee expiry generation : Number}
      (hn : (drawnRecord D amount fee expiry generation).Whole)
      (hfree : (s.total.sub s.locked).lt (amount.add fee) = false) :
      Posting 0 0 0 s (s.drawn (drawnRecord D amount fee expiry generation))
  | redeem {s D n} (hn : find NoteRecord.commitment s.notes D = some n) (hr : n.redeemed = false)
      (hc : n.cancelled = false) :
      Posting 0 0 0 s ((s.redeemed n).rewritten (fun n => { n with redeemed := true }) D)
  | cancel {s D n} (hn : find NoteRecord.commitment s.notes D = some n) (hr : n.redeemed = false)
      (hc : n.cancelled = false) :
      Posting 0 0 0 s ((s.expired n).rewritten (fun n => { n with cancelled := true }) D)
  /-- After the expiry, if it was not before; the debt takes up `cost` or less, and what is
  left is owed in cash. -/
  | allocate {s D n s₁ refund} {owed : Number} {all : Bool}
      (hn : find NoteRecord.commitment s.notes D = some n)
      (hr : n.redeemed = false) (ha : n.compensationAllocated = false)
      (hx : n.cancelled = true ∧ s₁ = s ∨ n.cancelled = false ∧ s₁ = s.expired n)
      (howed : owed.IsCount)
      (hall : all = true → owed.toNat = 0) (hrest : all = false → owed.toNat = 0 → n.cost = 0) :
      Posting 0 0 0 s ((if all then s₁.released n else s₁).rewritten (·.allocated refund owed) D)
  | acknowledge {s D n N} (hn : find NoteRecord.commitment s.notes D = some n)
      (hr : n.redeemed = false) (hc : n.cancelled = true) (ha : n.compensationAllocated = true)
      (ho : n.cashRefundOwed = true) (hk : n.refundAcknowledged = false) :
      Posting 0 0 0 s ((s.reported n).rewritten (fun n => { n with
        refundAcknowledged := true
        refundPaymentNullifier := N }) D)

section Exact

variable [DecidableEq B] [Compact B] {s s' : Reserve B} {f w p funded withdrawn paid : ℕ} {D : B}
  {n : NoteRecord B}

omit [Compact B] in
/-- A rewritten record exchanges its books. -/
theorem books_rewritten (g : NoteRecord B → NoteRecord B)
    (hn : find NoteRecord.commitment s.notes D = some n) (k : Budget) :
    ((change NoteRecord.commitment g D s.notes).map fun n => n.books k).sum + n.books k
      = (s.notes.map fun n => n.books k).sum + (g n).books k :=
  sum_change (fun n => n.books k) hn

omit [Compact B] in
theorem Reserve.Exact.rewritten_whole (h : s.Exact funded withdrawn paid)
    {g : NoteRecord B → NoteRecord B} (hn : find NoteRecord.commitment s.notes D = some n)
    (hg : (g n).Whole) : ∀ m ∈ change NoteRecord.commitment g D s.notes, m.Whole := by
  intro m hm
  rcases mem_change hn hm with hm | rfl
  · exact h.notes m hm
  · exact hg

omit [Compact B] in
/-- A live note's amount and fee are in their budgets. -/
theorem Reserve.Exact.covers_live (h : s.Exact funded withdrawn paid)
    (hn : find NoteRecord.commitment s.notes D = some n) (hr : n.redeemed = false)
    (hc : n.cancelled = false) : n.amount.toNat ≤ (s.counter .encumbered).toNat
      ∧ n.fee.toNat ≤ (s.counter .pendingFee).toNat := by
  have hbooks := books_live (h.notes n (mem_of_find hn).1) hr hc
  have hE := h.covers hn (k := .encumbered) (by decide)
  have hP := h.covers hn (k := .pendingFee) (by decide)
  rw [hbooks] at hE hP
  exact ⟨hE, hP⟩

omit [Compact B] in
/-- A refundable note's cost is in the refunds. -/
theorem Reserve.Exact.covers_refundable (h : s.Exact funded withdrawn paid)
    (hn : find NoteRecord.commitment s.notes D = some n) (hr : n.redeemed = false)
    (hc : n.Refundable) (hk : n.refundAcknowledged = false) :
    n.cost ≤ (s.counter .refund).toNat := by
  have hU := h.covers hn (k := .refund) (by decide)
  rw [books_refundable hr hc hk] at hU
  exact hU

omit [Compact B] in
theorem Reserve.Exact.redeem (h : s.Exact funded withdrawn paid)
    (hn : find NoteRecord.commitment s.notes D = some n) (hr : n.redeemed = false)
    (hc : n.cancelled = false) :
    ((s.redeemed n).rewritten (fun n => { n with redeemed := true }) D).Exact funded withdrawn
      paid := by
  have hw := h.notes n (mem_of_find hn).1
  have hsafe := h.total.1.2
  have hcov := h.covered
  obtain ⟨hE, hP⟩ := h.covers_live hn hr hc
  unfold Reserve.held at hcov
  have h1 := (h.counter .encumbered).sub_eq hw.amount hE
  have h2 := (h.counter .redeemed).add_eq hw.amount (by omega)
  have h3 := (h.counter .pendingFee).sub_eq hw.fee hP
  have h4 := (h.counter .fee).add_eq hw.fee (by omega)
  refine h.exchange n.books ({ n with redeemed := true } : NoteRecord B).books rfl
    (h.rewritten_whole hn { hw with }) (books_rewritten _ hn) (fun k => ?_) ?_
  · have hsame := h.counter k
    rw [books_live hw hr hc, books_redeemed hw hc]
    cases k <;>
      simp only [Reserve.rewritten, Reserve.redeemed, h1, h2, h3, h4, Number.isCount_ofNat,
        Number.toNat_ofNat, and_true] <;> omega
  · simp only [Reserve.held, Reserve.rewritten, Reserve.redeemed, h1, h2, h3, h4,
      Number.toNat_ofNat]
    omega

omit [Compact B] in
/-- The counters of an expiry, in exact numbers. -/
theorem Reserve.Exact.expired_eq (h : s.Exact funded withdrawn paid)
    (hn : find NoteRecord.commitment s.notes D = some n) (hr : n.redeemed = false)
    (hc : n.cancelled = false) :
    (s.counter .encumbered).sub n.amount
        = .ofNat ((s.counter .encumbered).toNat - n.amount.toNat)
      ∧ (s.counter .pendingFee).sub n.fee
        = .ofNat ((s.counter .pendingFee).toNat - n.fee.toNat)
      ∧ (s.counter .refund).add (n.amount.add n.fee)
        = .ofNat ((s.counter .refund).toNat + n.cost) := by
  have hw := h.notes n (mem_of_find hn).1
  have hsafe := h.total.1.2
  have hcov := h.covered
  obtain ⟨hE, hP⟩ := h.covers_live hn hr hc
  unfold Reserve.held at hcov
  have hcost := hw.cost_toNat
  unfold NoteRecord.cost at hcost ⊢
  refine ⟨(h.counter .encumbered).sub_eq hw.amount hE, (h.counter .pendingFee).sub_eq hw.fee hP, ?_⟩
  rw [(h.counter .refund).add_eq hw.cost (by omega), hcost]

omit [Compact B] in
/-- **An expiry moves the budgets of a live note to the refunds.** -/
theorem Reserve.Exact.cancel (h : s.Exact funded withdrawn paid)
    (hn : find NoteRecord.commitment s.notes D = some n) (hr : n.redeemed = false)
    (hc : n.cancelled = false) :
    ((s.expired n).rewritten (fun n => { n with cancelled := true }) D).Exact funded withdrawn
      paid := by
  have hw := h.notes n (mem_of_find hn).1
  have hsafe := h.total.1.2
  have hcov := h.covered
  obtain ⟨hE, hP⟩ := h.covers_live hn hr hc
  obtain ⟨h1, h2, h3⟩ := h.expired_eq hn hr hc
  unfold Reserve.held at hcov
  have hcost : n.cost = n.amount.toNat + n.fee.toNat := rfl
  refine h.exchange n.books ({ n with cancelled := true } : NoteRecord B).books rfl
    (h.rewritten_whole hn { hw with unallocated := fun hc' => by cases hc' })
    (books_rewritten _ hn) (fun k => ?_) ?_
  · have hsame := h.counter k
    rw [books_live hw hr hc, books_cancelled hw hr hc]
    cases k <;>
      simp only [Reserve.rewritten, Reserve.expired, h1, h2, h3, Number.isCount_ofNat,
        Number.toNat_ofNat, and_true] <;> omega
  · simp only [Reserve.held, Reserve.rewritten, Reserve.expired, h1, h2, h3, Number.toNat_ofNat]
    omega

/-- The debt takes up the cost of a note, or some of it stays owed in cash. -/
theorem Reserve.Exact.allocate (h : s.Exact funded withdrawn paid) {refund : B} {owed : Number}
    {all : Bool} (hn : find NoteRecord.commitment s.notes D = some n) (hr : n.redeemed = false)
    (hc : n.cancelled = true) (ha : n.compensationAllocated = false) (howed : owed.IsCount)
    (hall : all = true → owed.toNat = 0) (hrest : all = false → owed.toNat = 0 → n.cost = 0) :
    ((if all then s.released n else s).rewritten (·.allocated refund owed) D).Exact funded
      withdrawn paid := by
  have hw := h.notes n (mem_of_find hn).1
  have hk := hw.unacknowledged ha
  have hrefundable : n.Refundable := ⟨hc, .inl ha⟩
  have hU := h.covers_refundable hn hr hrefundable hk
  have hsafe := h.total.1.2
  have hcov := h.covered
  unfold Reserve.held at hcov
  have hlt : (Number.ofNat 0).lt owed = true ↔ 0 < owed.toNat := by
    rw [howed.1, Number.lt_ofNat, Number.toNat_ofNat, decide_eq_true_iff]
  -- the refunds cover the cost of the note
  have h1 := (h.counter .refund).sub_eq hw.cost (hw.cost_toNat ▸ hU)
  rw [hw.cost_toNat] at h1
  -- the record is still one of whole numbers
  have hwhole : (n.allocated refund owed).Whole :=
    { hw with unallocated := fun hc' => (by cases hc'), unacknowledged := fun _ => rfl }
  have hnotes : (if all then s.released n else s).notes = s.notes := by cases all <;> rfl
  refine h.exchange n.books (n.allocated refund owed).books (by cases all <;> rfl) ?_ ?_
    (fun k => ?_) ?_
  · rw [Reserve.rewritten, hnotes]
    exact h.rewritten_whole hn hwhole
  · rw [Reserve.rewritten, hnotes]
    exact books_rewritten _ hn
  -- a debt that takes all of the cost takes it out of the refunds
  · have hsame := h.counter k
    rw [books_refundable hr hrefundable hk, books_allocated hr]
    cases hcase : all with
    | true =>
      have hzero := hall hcase
      cases k <;>
        simp only [Reserve.rewritten, Reserve.released, ↓reduceIte, h1, Number.isCount_ofNat,
          Number.toNat_ofNat, hlt, and_true] <;> first | exact hsame | skip
      rw [if_neg (by omega)]
      omega
    -- what stays owed stays there
    | false =>
      have hzero := hrest hcase
      cases k <;> simp only [Reserve.rewritten, Bool.false_eq_true, ↓reduceIte, hlt, and_true] <;>
        first | exact hsame | skip
      refine ⟨hsame, ?_⟩
      split <;> omega
  · cases all with
    | true =>
      simp only [Reserve.held, Reserve.rewritten, Reserve.released, ↓reduceIte, h1,
        Number.toNat_ofNat]
      omega
    | false => exact h.covered

omit [Compact B] in
/-- A reported refund stays locked, in the budget of what was reported. -/
theorem Reserve.Exact.acknowledge (h : s.Exact funded withdrawn paid) {N : B}
    (hn : find NoteRecord.commitment s.notes D = some n) (hr : n.redeemed = false)
    (hc : n.cancelled = true) (ha : n.compensationAllocated = true)
    (ho : n.cashRefundOwed = true) (hk : n.refundAcknowledged = false) :
    ((s.reported n).rewritten (fun n => { n with
      refundAcknowledged := true
      refundPaymentNullifier := N }) D).Exact funded withdrawn paid := by
  have hw := h.notes n (mem_of_find hn).1
  have hrefundable : n.Refundable := ⟨hc, .inr ⟨ho, hk⟩⟩
  have hU := h.covers_refundable hn hr hrefundable hk
  have hsafe := h.total.1.2
  have hcov := h.covered
  unfold Reserve.held at hcov
  -- the cost goes from one budget to the other, so the sum is as it was
  have h1 := (h.counter .refund).sub_eq hw.cost (hw.cost_toNat ▸ hU)
  have h2 := (h.counter .reportedRefund).add_eq hw.cost (by rw [hw.cost_toNat]; omega)
  rw [hw.cost_toNat] at h1 h2
  have hwhole : ({ n with refundAcknowledged := true, refundPaymentNullifier := N } :
      NoteRecord B).Whole := { hw with unacknowledged := fun ha' => by simp [ha] at ha' }
  refine h.exchange n.books
    ({ n with refundAcknowledged := true, refundPaymentNullifier := N } : NoteRecord B).books rfl
    (h.rewritten_whole hn hwhole) (books_rewritten _ hn) (fun k => ?_) ?_
  · have hsame := h.counter k
    rw [books_refundable hr hrefundable hk, books_acknowledged hr hc ha]
    cases k <;>
      simp only [Reserve.rewritten, Reserve.reported, h1, h2, Number.isCount_ofNat,
        Number.toNat_ofNat, and_true] <;> omega
  · simp only [Reserve.held, Reserve.rewritten, Reserve.reported, h1, h2, Number.toNat_ofNat]
    omega

/-- On a live note the allocation expires it first. -/
theorem Reserve.Exact.expire_allocate (h : s.Exact funded withdrawn paid) {refund : B}
    {owed : Number} {all : Bool} (hn : find NoteRecord.commitment s.notes D = some n)
    (hr : n.redeemed = false) (hc : n.cancelled = false) (howed : owed.IsCount)
    (hall : all = true → owed.toNat = 0) (hrest : all = false → owed.toNat = 0 → n.cost = 0) :
    ((if all then (s.expired n).released n else s.expired n).rewritten
      (·.allocated refund owed) D).Exact funded withdrawn paid := by
  have hw := h.notes n (mem_of_find hn).1
  have hfound : find NoteRecord.commitment
      ((s.expired n).rewritten (fun n => { n with cancelled := true }) D).notes D
        = some { n with cancelled := true } := by
    have hchange : find NoteRecord.commitment (change NoteRecord.commitment
        (fun n => { n with cancelled := true }) D s.notes) D = _ := find_change fun _ => rfl
    rw [if_pos rfl, hn] at hchange
    exact hchange
  -- cancelling it and then allocating it are two postings of which each is exact
  have hstep := @Reserve.Exact.allocate _ _ _ _ _ _ _ _ _ (h.cancel hn hr hc) refund _ _ hfound hr
    rfl (hw.unallocated hc) howed hall hrest
  -- and the two changes of the record are one
  have hsame : change NoteRecord.commitment (·.allocated refund owed) D
      (change NoteRecord.commitment (fun n => { n with cancelled := true }) D s.notes)
        = change NoteRecord.commitment (·.allocated refund owed) D s.notes :=
    change_change _ fun _ => rfl
  cases all with
  | true =>
    simp only [Reserve.rewritten, Reserve.released, Reserve.expired, ↓reduceIte, hsame] at hstep ⊢
    exact hstep
  | false =>
    simp only [Reserve.rewritten, Reserve.expired, Bool.false_eq_true, ↓reduceIte, hsame]
      at hstep ⊢
    exact hstep

omit [DecidableEq B] in
/-- **A draw locks its cost** out of what is free. -/
theorem Reserve.Exact.draw (h : s.Exact funded withdrawn paid)
    {amount fee expiry generation : Number}
    (hn : (drawnRecord D amount fee expiry generation).Whole)
    (hfree : (s.total.sub s.locked).lt (amount.add fee) = false) :
    (s.drawn (drawnRecord D amount fee expiry generation)).Exact funded withdrawn paid := by
  have hfree' : (amount.add fee).toNat + s.held ≤ s.total.toNat := (h.free_iff hn.cost).mp hfree
  have hcost := hn.cost_toNat
  have hsafe := h.total.1.2
  simp only [drawnRecord, NoteRecord.cost] at hcost
  rw [hcost] at hfree'
  unfold Reserve.held at hfree'
  have hA : amount.IsCount := hn.amount
  have hF : fee.IsCount := hn.fee
  -- what is free covers the cost, so neither sum is rounded
  have h1 := (h.counter .encumbered).add_eq hA (by omega)
  have h2 := (h.counter .pendingFee).add_eq hF (by omega)
  refine h.exchange (fun _ => 0) (drawnRecord D amount fee expiry generation).books rfl ?_
    (fun k => ?_) (fun k => ?_) ?_
  · intro m hm
    rcases List.mem_append.mp hm with hm | hm
    · exact h.notes m hm
    · rw [List.mem_singleton.mp hm]
      exact hn
  · rw [Reserve.drawn, List.map_append, List.sum_append, List.map_singleton, List.sum_singleton]
    rfl
  · have hsame := h.counter k
    -- a live note accounts for its amount and its fee
    rw [books_live hn rfl rfl]
    cases k <;>
      simp only [Reserve.drawn, drawnRecord, h1, h2, Number.isCount_ofNat, Number.toNat_ofNat,
        and_true] <;> omega
  · simp only [Reserve.held, Reserve.drawn, drawnRecord, h1, h2, Number.toNat_ofNat]
    omega

/-- **Every posting keeps the accounts exact** that leaves a safe total. -/
theorem Posting.exact (hp : Posting f w p s s') (h : s.Exact funded withdrawn paid)
    (hsafe : s.total.toNat + f ≤ Number.maxSafe) :
    s'.Exact (funded + f) (withdrawn + w) (paid + p) := by
  obtain ⟨hT, hflow⟩ := h.total
  cases hp with
  | aside => exact h
  -- the one sum that the engine does not test
  | @fund s a ha =>
    have hsum := hT.add_eq ha hsafe
    refine ⟨h.notes, ?_, h.counter, h.books, ?_⟩
    · simp only [hsum, Number.isCount_ofNat, Number.toNat_ofNat]
      exact ⟨hsafe, by omega⟩
    · have hcov := h.covered
      simp only [Reserve.held, hsum, Number.toNat_ofNat] at hcov ⊢
      omega
  -- what is withdrawn was free
  | @withdraw s a ha hfree =>
    have hfree' := (h.free_iff ha).mp hfree
    have hle := hT.2
    have hdiff := hT.sub_eq ha (by omega)
    refine ⟨h.notes, ?_, h.counter, h.books, ?_⟩
    · simp only [hdiff, Number.isCount_ofNat, Number.toNat_ofNat]
      omega
    · simp only [Reserve.held, hdiff, Number.toNat_ofNat] at hfree' ⊢
      omega
  -- the collected fees leave the total and their budget
  | @fees s =>
    have hcov := h.covered
    have hle := hT.2
    unfold Reserve.held at hcov
    have hdiff := hT.sub_eq (h.counter .fee) (by omega)
    refine ⟨h.notes, ?_, fun k => ?_, fun k => ?_, ?_⟩
    · simp only [hdiff, Number.isCount_ofNat, Number.toNat_ofNat]
      omega
    · cases k <;> first | exact h.counter _ | exact Number.isCount_ofNat.mpr (Nat.zero_le _)
    · have hbooks := h.books k
      cases k <;> simp only [↓reduceIte, reduceCtorEq, Number.toNat_ofNat] at hbooks ⊢ <;> omega
    · simp only [Reserve.held, hdiff, Number.toNat_ofNat]
      omega
  | draw hn hfree => exact h.draw hn hfree
  | redeem hn hr hc => exact h.redeem hn hr hc
  | cancel hn hr hc => exact h.cancel hn hr hc
  | allocate hn hr ha hx howed hall hrest =>
    -- an allocation may find the note expired already
    rcases hx with ⟨hc, rfl⟩ | ⟨hc, rfl⟩
    · exact h.allocate hn hr hc ha howed hall hrest
    · exact h.expire_allocate hn hr hc howed hall hrest
  | acknowledge hn hr hc ha ho hk => exact h.acknowledge hn hr hc ha ho hk

end Exact

end Line.Engine
