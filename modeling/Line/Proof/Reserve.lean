import Line.Proof.Notes
import Line.Contract.Symbolic

/-!
# The reserve is a balance sheet of the notes

Each of the six locked counters is a `Budget`, and `NoteMeta.books` says how much
of each budget a single note accounts for, by its flags. The invariant is one
equation per budget: the counter, plus whatever left the budget for good, is the
total of the books over the note map. A circuit that moves a note changes the
books of that one note, so every branch comes down to six small sums.

The organization contract differs in one budget: a reported refund has really
been paid, so nothing of it stays locked. Its second equation is custody: what the
contract holds is the total reserve less the principal that merchants have
redeemed.
-/

namespace Line

open Checked MapTotal

variable {B : Type}

/-! ## The balance sheet -/

/-- The six locked budgets. -/
inductive Budget where
  | encumbered
  | redeemed
  | fee
  | pendingFee
  | refund
  | reportedRefund
deriving DecidableEq

/-- The ledger's counter of a budget. -/
def Budget.counter (s : Ledger B) : Budget → ℕ
  | .encumbered => s.encumberedReserve.val
  | .redeemed => s.redeemedReserve.val
  | .fee => s.feeReserve.val
  | .pendingFee => s.pendingFeeReserve.val
  | .refund => s.refundReserve.val
  | .reportedRefund => s.reportedRefundReserve.val

/-- The whole budget of a note: its principal and its fee. -/
def NoteMeta.cost (n : NoteMeta B) : ℕ := n.amount.val + n.fee.val

/-- Neither redeemed nor cancelled. -/
abbrev NoteMeta.Live (n : NoteMeta B) : Prop := n.redeemed = false ∧ n.cancelled = false

/-- Cancelled, and either not compensated yet or with cash still owed. -/
abbrev NoteMeta.Refundable (n : NoteMeta B) : Prop :=
  n.cancelled = true ∧ (n.compensationAllocated = false
    ∨ (n.cashRefundOwed = true ∧ n.refundAcknowledged = false))

/-- What one note accounts for in each budget. -/
def NoteMeta.books (p : Profile) (n : NoteMeta B) : Budget → ℕ
  | .encumbered => if n.Live then n.amount.val else 0
  | .redeemed => if n.redeemed = true then n.amount.val else 0
  | .fee => if n.redeemed = true then n.fee.val else 0
  | .pendingFee => if n.Live then n.fee.val else 0
  | .refund => if n.Refundable then n.cost else 0
  | .reportedRefund =>
      if p = .canonical ∧ n.refundAcknowledged = true then n.cost else 0

/-- Everything `withdrawFees` has paid out: each call pays the whole fee reserve. -/
def feesPaid (h : Trace B) : ℕ :=
  (h.map fun e => match e.label.op with
    | .withdrawFees => e.pre.feeReserve.val
    | _ => 0).sum

/-- What left a budget without leaving a note's books. -/
def Budget.paidOut (h : Trace B) : Budget → ℕ
  | .fee => feesPaid h
  | _ => 0

/-- The balance sheet of a ledger after the calls `h`. -/
structure Balanced (p : Profile) (h : Trace B) (s : Ledger B) : Prop where
  /-- Every budget is the total of the notes' books. -/
  books : ∀ k : Budget, k.counter s + k.paidOut h = total (fun n => n.books p k) s.notes
  /-- The budgets are covered. -/
  solvent : lockedReserve s ≤ s.totalReserve.val

/-! ## One note at a time -/

section Books

variable {p : Profile} {n : NoteMeta B}

section Insert

variable [DecidableEq B] {m : Finmap fun _ : B => NoteMeta B} {D : B}

/-- A new note puts its books on top. -/
theorem books_insert_new (hm : D ∉ m) (k : Budget) :
    total (fun n => n.books p k) (m.insert D n) = n.books p k + total (fun n => n.books p k) m :=
  total_insert_new (fun n => n.books p k) n (Finmap.lookup_eq_none.mpr hm)

/-- A rewritten note exchanges its books. -/
theorem books_insert_old (p : Profile) (n' : NoteMeta B) (hm : m.lookup D = some n)
    (k : Budget) :
    n.books p k + total (fun n => n.books p k) (m.insert D n')
      = n'.books p k + total (fun n => n.books p k) m :=
  total_insert_old (fun n => n.books p k) n' hm

end Insert

/-- A live note has principal and fee pending, and nothing else. -/
theorem books_live (hn : n.WF) (hr : n.redeemed = false) (hc : n.cancelled = false)
    (k : Budget) :
    n.books p k =
      match k with
      | .encumbered => n.amount.val
      | .pendingFee => n.fee.val
      | _ => 0 := by
  obtain ⟨_, hk⟩ := hn.unallocated (hn.uncancelled hc)
  cases k <;> simp [NoteMeta.books, NoteMeta.Live, NoteMeta.Refundable, hr, hc, hk]

/-- A refundable note has its whole cost in the refund budget. -/
theorem books_refundable (hr : n.redeemed = false) (hn : n.Refundable)
    (hk : n.refundAcknowledged = false) (k : Budget) :
    n.books p k =
      match k with
      | .refund => n.cost
      | _ => 0 := by
  have hc := hn.1
  cases k <;> simp only [NoteMeta.books, NoteMeta.Live, if_pos hn] <;> simp [hr, hc, hk]

theorem books_acknowledge (P : B) (k : Budget) :
    (n.acknowledge P).books p k =
      match k with
      | .reportedRefund => if p = .canonical then n.cost else 0
      | _ => 0 := by
  cases k <;>
    simp [NoteMeta.books, NoteMeta.Live, NoteMeta.Refundable, NoteMeta.acknowledge, NoteMeta.cost]

variable [Compact B]

theorem books_drawn (amount fee expiry g : U64) (k : Budget) :
    (NoteMeta.drawn (B := B) amount fee expiry g).books p k =
      match k with
      | .encumbered => amount.val
      | .pendingFee => fee.val
      | _ => 0 := by
  cases k <;> simp [NoteMeta.books, NoteMeta.Live, NoteMeta.Refundable, NoteMeta.drawn]

theorem books_redeem (k : Budget) :
    n.redeem.books p k =
      match k with
      | .redeemed => n.amount.val
      | .fee => n.fee.val
      | _ => 0 := by
  cases k <;> simp [NoteMeta.books, NoteMeta.Live, NoteMeta.Refundable, NoteMeta.redeem]

theorem books_expire (k : Budget) :
    n.expire.books p k =
      match k with
      | .refund => n.cost
      | _ => 0 := by
  cases k <;>
    simp [NoteMeta.books, NoteMeta.Live, NoteMeta.Refundable, NoteMeta.expire, NoteMeta.cost]

theorem books_allocate (refund : B) (owed : Bool) (k : Budget) :
    (n.allocate refund owed).books p k =
      match k with
      | .refund => if owed = true then n.cost else 0
      | _ => 0 := by
  cases k <;> cases owed <;>
    simp [NoteMeta.books, NoteMeta.Live, NoteMeta.Refundable, NoteMeta.allocate, NoteMeta.cost]

end Books

/-! ## Token movements -/

section Payouts

variable {s : Ledger B} {a : ℕ} {custody : Custody B}

/-- A payout of the organization contract takes exactly its amount out of custody. -/
theorem payIssuer_balance (hp : payIssuer .organization a s = .ok custody) :
    custody.balance + a = s.custody.balance := by
  simp only [payIssuer, bind_ok_iff, assert_ok_iff, exists_const, pure_ok_iff] at hp
  obtain ⟨_, hle, rfl⟩ := hp
  exact Nat.sub_add_cancel hle

theorem payMerchant_balance [DecidableEq B] {M : B}
    (hp : payMerchant .organization M a s = .ok custody) :
    custody.balance + a = s.custody.balance := by
  simp only [payMerchant, bind_ok_iff, lookup_ok_iff, assert_ok_iff, exists_const,
    pure_ok_iff] at hp
  obtain ⟨_, _, _, hle, rfl⟩ := hp
  exact Nat.sub_add_cancel hle

theorem payRefund_balance (hp : payRefund .organization a s = .ok custody) :
    custody.balance + a = s.custody.balance := by
  simp only [payRefund, bind_ok_iff, assert_ok_iff, exists_const, pure_ok_iff] at hp
  obtain ⟨hle, rfl⟩ := hp
  exact Nat.sub_add_cancel hle

end Payouts

/-! ## Over a run -/

variable {p : Profile} {h : Trace B} {s s' : Ledger B} {c : Call B}

/-- A call other than `withdrawFees` pays no fees out. -/
theorem paidOut_cons (k : Budget) (hc : c.op ≠ .withdrawFees) :
    k.paidOut (⟨c, s, s'⟩ :: h) = k.paidOut h := by
  cases k with
  | fee =>
    cases hop : c.op with
    | withdrawFees => exact absurd hop hc
    | _ => simp [Budget.paidOut, feesPaid, hop]
  | _ => rfl

/-- A step that moves no budget keeps the balance sheet. -/
theorem Balanced.frame (hb : Balanced p h s) (hc : c.op ≠ .withdrawFees)
    (hk : ∀ k : Budget, k.counter s' = k.counter s) (hn : s'.notes = s.notes)
    (hl : lockedReserve s' ≤ s'.totalReserve.val) : Balanced p (⟨c, s, s'⟩ :: h) s' where
  books := by
    intro k
    rw [paidOut_cons k hc, hk k, hn, hb.books k]
  solvent := hl

/-- The budgets of an expiry only change places. -/
theorem Releases.locked {now : ℕ} {n : NoteMeta B} {cost E P U : U64}
    (hR : Releases now n cost s E P U) (hcost : cost.val = n.cost) :
    lockedReserve { s with encumberedReserve := E, pendingFeeReserve := P, refundReserve := U }
      = lockedReserve s := by
  cases hc : n.cancelled with
  | true =>
    obtain ⟨rfl, rfl, rfl⟩ := hR.skipped hc
    rfl
  | false =>
    have hE := hR.encumbered hc
    have hP := hR.pending hc
    have hU := hR.refund hc
    simp only [NoteMeta.cost] at hcost
    simp only [lockedReserve]
    omega

/-- A step that rewrites one note keeps the balance sheet, if the counters move with its books. -/
theorem Balanced.rewrite [DecidableEq B] {D : B} {n n' : NoteMeta B} (hb : Balanced p h s)
    (hc : c.op ≠ .withdrawFees) (hf : s.notes.lookup D = some n)
    (hn : s'.notes = s.notes.insert D n')
    (hk : ∀ k : Budget, k.counter s' + n.books p k = k.counter s + n'.books p k)
    (hl : lockedReserve s' ≤ s'.totalReserve.val) : Balanced p (⟨c, s, s'⟩ :: h) s' where
  books := by
    intro k
    have hins := books_insert_old p n' hf k
    have hbk := hb.books k
    have hkk := hk k
    rw [paidOut_cons k hc, hn]
    omega
  solvent := hl

variable [Compact B]

/-- What an expiry or an allocation moves: from the live budgets to the refund budget, unless the
note was expired before. -/
theorem Releases.books {now : ℕ} {n : NoteMeta B} {cost E P U : U64}
    (hR : Releases now n cost s E P U) (hwf : n.WF) (hr : n.redeemed = false)
    (ha : n.compensationAllocated = false) (hcost : cost.val = n.cost) (k : Budget) :
    k.counter { s with encumberedReserve := E, pendingFeeReserve := P, refundReserve := U }
      + n.books p k = k.counter s + n.expire.books p k := by
  rw [books_expire]
  cases hc : n.cancelled with
  | true =>
    obtain ⟨rfl, rfl, rfl⟩ := hR.skipped hc
    rw [books_refundable hr ⟨hc, .inl ha⟩ (hwf.unallocated ha).2]
  | false =>
    have hE := hR.encumbered hc
    have hP := hR.pending hc
    have hU := hR.refund hc
    rw [books_live hwf hr hc]
    cases k <;> simp only [Budget.counter] <;> omega

variable [DecidableEq B]

theorem balanced_init (d : Deployment B) : Balanced p [] (constructor p d) where
  books := by
    intro k
    cases k <;> simp [constructor, Budget.counter, Budget.paidOut, feesPaid]
  solvent := by simp [constructor, lockedReserve]

/-- **Every step keeps the balance sheet.** -/
theorem balanced_step (r : Reaches p h s) (hb : Balanced p h s) (st : Step p c s s') :
    Balanced p (⟨c, s, s'⟩ :: h) s' := by
  have hsol := hb.solvent
  cases st with
  -- these move what no note accounts for
  | fundReserve hi ha hT =>
    refine hb.frame (by simp) (fun k => by cases k <;> rfl) rfl ?_
    simp only [lockedReserve] at hsol ⊢
    omega
  | withdrawUnencumberedReserve hi ha hl hc hT =>
    refine hb.frame (by simp) (fun k => by cases k <;> rfl) rfl ?_
    simp only [lockedReserve] at hl ⊢
    omega
  | withdrawFees hi hf hl hc hT =>
    refine ⟨fun k => ?_, ?_⟩
    · have hk := hb.books k
      cases k with
      | fee =>
        simp only [Budget.counter, Budget.paidOut, feesPaid, List.map_cons, List.sum_cons,
          Uint.val_zero] at hk ⊢
        omega
      | _ => exact hk
    · simp only [lockedReserve, Uint.val_zero] at hl ⊢
      omega
  -- a new note accounts for what is locked for it
  | draw g hE hP hb' he =>
    have hres := g.reserve
    refine ⟨fun k => ?_, ?_⟩
    · have hk := hb.books k
      rw [paidOut_cons k (by simp), books_insert_new g.free, books_drawn, ← hk]
      cases k <;> simp only [Budget.counter] <;> omega
    · simp only [lockedReserve] at hres ⊢
      omega
  -- and from here on one note accounts for something else
  | redeemDraw g hc hE hR hP hF =>
    refine hb.rewrite (by simp) g.found rfl (fun k => ?_) ?_
    · rw [books_live (r.noteWF g.found) g.unredeemed g.uncancelled, books_redeem]
      cases k <;> simp only [Budget.counter] <;> omega
    · simp only [lockedReserve] at hsol ⊢
      omega
  | expire h0 hn hr hc hcost hR =>
    have hwf := r.noteWF hn
    refine hb.rewrite (by simp) hn rfl (hR.books hwf hr (hwf.uncancelled hc) hcost) ?_
    exact (hR.locked hcost).trans_le hsol
  | @allocateCurrent w _ _ _ _ _ n cost _ _ U U' _ h1 g hcost hR hg ho hst hz hp he =>
    have hwf := r.noteWF g.found
    have hlk := hR.locked hcost
    -- the refund stays locked only as far as the debt does not take it
    have hU : U'.val + n.cost
        = U.val + if (w.lineOutstanding 0).val < cost.val then n.cost else 0 := by
      split
      · rw [hp ‹_›]
      · rw [← hz (by omega), hcost, Nat.add_zero]
        rfl
    refine hb.rewrite (by simp) g.found rfl (fun k => ?_) ?_
    · have hbk := hR.books (p := p) hwf g.unredeemed g.unallocated hcost k
      rw [books_expire] at hbk
      rw [books_allocate]
      cases k with
      | refund =>
        simp only [Budget.counter, decide_eq_true_eq] at hbk ⊢
        omega
      | _ => exact hbk
    · have hle : U'.val ≤ U.val := by
        split at hU <;> omega
      simp only [lockedReserve] at hlk hsol ⊢
      omega
  | allocateOlder h1 g hcost hR hg =>
    refine hb.rewrite (by simp) g.found rfl (fun k => ?_) ?_
    · have hbk := hR.books (p := p) (r.noteWF g.found) g.unredeemed g.unallocated hcost k
      rw [books_expire] at hbk
      rw [books_allocate]
      exact hbk
    · exact (hR.locked hcost).trans_le hsol
  | acknowledgeRefund h2 g hpay hlt hU hcan horg =>
    have hbound := g.bounded
    refine hb.rewrite (by simp) g.found rfl (fun k => ?_) ?_
    · rw [books_refundable g.unredeemed ⟨g.cancelled, .inr ⟨g.owed, g.unacknowledged⟩⟩
        g.unacknowledged, books_acknowledge]
      cases p with
      | canonical =>
        obtain ⟨_, hX⟩ := hcan rfl
        cases k <;> simp only [Budget.counter, NoteMeta.cost, ↓reduceIte] <;> omega
      | organization =>
        obtain ⟨_, rfl⟩ := horg rfl
        cases k <;> simp [Budget.counter, NoteMeta.cost, hU]
    · simp only [lockedReserve] at hsol ⊢
      cases p with
      | canonical =>
        obtain ⟨rfl, hX⟩ := hcan rfl
        omega
      | organization =>
        obtain ⟨hT, rfl⟩ := horg rfl
        omega
  | acknowledgeRepayment g hcan horg hb' he =>
    refine hb.frame (by simp) (fun k => by cases k <;> rfl) rfl (hsol.trans ?_)
    cases p with
    | canonical => rw [hcan rfl]
    | organization =>
      have hT := horg rfl
      simp only
      omega
  | _ => exact hb.frame (by simp) (fun k => by cases k <;> rfl) rfl hsol

/-- **The balance sheet of every reachable ledger.** -/
theorem Reaches.balanced (r : Reaches p h s) : Balanced p h s :=
  r.invariant balanced_init fun _ _ _ _ => balanced_step

/-! ## Custody -/

/-- The organization contract holds its total reserve, less the principal merchants redeemed. -/
theorem Reaches.custody (r : Reaches .organization h s) :
    s.custody.balance + s.redeemedReserve.val = s.totalReserve.val := by
  refine r.stateInvariant
    (I := fun s => s.custody.balance + s.redeemedReserve.val = s.totalReserve.val)
    (fun _ => rfl) ?_
  intro s c s' hI st
  cases st with
  | fundReserve hi ha hT =>
    simp only [receiveUnshielded]
    omega
  -- what is paid out leaves the total as well
  | withdrawUnencumberedReserve hi ha hl hc hT =>
    have hpay := payIssuer_balance hc
    simp only
    omega
  | withdrawFees hi hf hl hc hT =>
    have hpay := payIssuer_balance hc
    simp only
    omega
  -- a redemption leaves it in the total, as redeemed
  | redeemDraw g hc hE hR hP hF =>
    have hpay := payMerchant_balance hc
    simp only
    omega
  | acknowledgeRefund h2 g hpay hlt hU hcan horg =>
    have hpay := payRefund_balance hpay
    obtain ⟨hT, _⟩ := horg rfl
    simp only
    omega
  | acknowledgeRepayment g hcan horg hb he =>
    have hT := horg rfl
    simp only [receiveUnshielded]
    omega
  | _ => exact hI

/-! ## The accounting theorems -/

/-- The sum of `w` over the notes in the class `P`. -/
def noteSum (P : NoteMeta B → Prop) [DecidablePred P] (w : NoteMeta B → ℕ) (s : Ledger B) : ℕ :=
  total (fun n => if P n then w n else 0) s.notes

/--
**The canonical contract.** In every reachable ledger each budget is the sum it
stands for, and together they are covered by the total reserve. No assumption on
the hash is needed: a collision can only make a call fail.
-/
theorem canonical_reserve (r : Reaches .canonical h s) :
    s.encumberedReserve.val = noteSum NoteMeta.Live (fun n => n.amount.val) s
    ∧ s.pendingFeeReserve.val = noteSum NoteMeta.Live (fun n => n.fee.val) s
    ∧ s.redeemedReserve.val = noteSum (fun n => n.redeemed = true) (fun n => n.amount.val) s
    ∧ s.feeReserve.val + feesPaid h
        = noteSum (fun n => n.redeemed = true) (fun n => n.fee.val) s
    ∧ s.refundReserve.val = noteSum NoteMeta.Refundable NoteMeta.cost s
    ∧ s.reportedRefundReserve.val
        = noteSum (fun n => n.refundAcknowledged = true) NoteMeta.cost s
    ∧ s.encumberedReserve.val + s.redeemedReserve.val + s.feeReserve.val
        + s.pendingFeeReserve.val + s.refundReserve.val + s.reportedRefundReserve.val
        ≤ s.totalReserve.val := by
  have hb := r.balanced
  refine ⟨hb.books .encumbered, hb.books .pendingFee, hb.books .redeemed, hb.books .fee,
    hb.books .refund, ?_, hb.solvent⟩
  have hX := hb.books .reportedRefund
  simpa [Budget.counter, Budget.paidOut, NoteMeta.books, noteSum] using hX

/-- A run with a redeemed note, a reported refund, paid fees and a live note. -/
theorem canonical_reserve_run : ∃ (h : Trace Term) (s : Ledger Term),
    Reaches .canonical h s ∧ 0 < feesPaid h
    ∧ s.encumberedReserve.val = noteSum NoteMeta.Live (fun n => n.amount.val) s
    ∧ s.encumberedReserve.val = 100 ∧ s.reportedRefundReserve.val = 102 := by
  obtain ⟨h, s, r, ht⟩ := Demo.reaches_of_check .canonical
    [Demo.fund 1000, Demo.openLine, Demo.post 1 1, Demo.draw 1 1 0 0, Demo.redeem 1 1,
      Demo.withdrawFees, Demo.post 2 1, Demo.draw 2 1 102 1, Demo.repay 7 204 2 150,
      Demo.allocate 2 1 54 3, Demo.refund 2 1 48, Demo.post 3 1, Demo.draw 3 1 0 4]
    (fun h s => decide (0 < feesPaid h) && decide (s.encumberedReserve.val = 100)
      && decide (s.reportedRefundReserve.val = 102)) (by decide +kernel)
  simp only [Bool.and_eq_true, decide_eq_true_eq] at ht
  exact ⟨h, s, r, ht.1.1, (canonical_reserve r).1, ht.1.2, ht.2⟩

/--
**The organization contract.** Custody is exactly the total reserve less what
merchants redeemed, the budgets are the sums they stand for, nothing is ever
reported, and what is held covers every budget still to be paid.
-/
theorem organization_reserve (r : Reaches .organization h s) :
    (s.custody.balance : ℤ) = s.totalReserve.val - s.redeemedReserve.val
    ∧ s.encumberedReserve.val = noteSum NoteMeta.Live (fun n => n.amount.val) s
    ∧ s.pendingFeeReserve.val = noteSum NoteMeta.Live (fun n => n.fee.val) s
    ∧ s.redeemedReserve.val = noteSum (fun n => n.redeemed = true) (fun n => n.amount.val) s
    ∧ s.feeReserve.val + feesPaid h
        = noteSum (fun n => n.redeemed = true) (fun n => n.fee.val) s
    ∧ s.refundReserve.val = noteSum NoteMeta.Refundable NoteMeta.cost s
    ∧ s.reportedRefundReserve.val = 0
    ∧ s.encumberedReserve.val + s.redeemedReserve.val + s.feeReserve.val
        + s.pendingFeeReserve.val + s.refundReserve.val ≤ s.totalReserve.val
    ∧ s.encumberedReserve.val + s.pendingFeeReserve.val + s.feeReserve.val
        + s.refundReserve.val ≤ s.custody.balance := by
  have hb := r.balanced
  have hheld := r.custody
  have hsol := hb.solvent
  simp only [lockedReserve] at hsol
  have hX : s.reportedRefundReserve.val = 0 := by
    have hk := hb.books .reportedRefund
    rw [total_eq_zero (fun _ n _ => by simp [NoteMeta.books])] at hk
    simpa [Budget.counter, Budget.paidOut] using hk
  exact ⟨by omega, hb.books .encumbered, hb.books .pendingFee, hb.books .redeemed, hb.books .fee,
    hb.books .refund, hX, by omega, by omega⟩

/-- The same run on the organization contract: the refund and the redemption were paid. -/
theorem organization_reserve_run : ∃ (h : Trace Term) (s : Ledger Term),
    Reaches .organization h s ∧ 0 < feesPaid h
    ∧ (s.custody.balance : ℤ) = s.totalReserve.val - s.redeemedReserve.val
    ∧ s.encumberedReserve.val = 100 ∧ s.custody.balance = 1000 - 100 - 2 + 150 - 48 := by
  obtain ⟨h, s, r, ht⟩ := Demo.reaches_of_check .organization
    [Demo.fund 1000, Demo.openLine, Demo.post 1 1, Demo.draw 1 1 0 0, Demo.redeem 1 1,
      Demo.withdrawFees, Demo.post 2 1, Demo.draw 2 1 102 1, Demo.repay 7 204 2 150,
      Demo.allocate 2 1 54 3, Demo.refund 2 1 48, Demo.post 3 1, Demo.draw 3 1 0 4]
    (fun h s => decide (0 < feesPaid h) && decide (s.encumberedReserve.val = 100)
      && decide (s.custody.balance = 1000 - 100 - 2 + 150 - 48)) (by decide +kernel)
  simp only [Bool.and_eq_true, decide_eq_true_eq] at ht
  exact ⟨h, s, r, ht.1.1, (organization_reserve r).1, ht.1.2, ht.2⟩

end Line
