import Line.Contract.Symbolic
import Line.Engine.Simulation
import Line.Proof.Reserve

/-!
# The withdrawable reserve

How much of its reserve an issuer may withdraw is computed in five places: by the circuit, by the
reference engine, by the status of either runtime, and by the console where no amount is
given (`doWithdrawReserve`, `src/app/store.ts`). The last one subtracts two of the six locked
budgets only.

So the console asks for too much by exactly what the other four budgets hold
(`requestedAmount_eq`), and the five are one amount where these are empty. A circuit has no
amount of its own: it accepts every positive one up to what is free. For the rest it has to be
said that nothing is rounded. The statuses are `number`s made of 64-bit counters, which are
themselves as long as the total is a safe integer, because a reached ledger is solvent and each
budget is a part of the total.
-/

namespace Line

variable {B : Type}

/-- The reserve that is not locked. -/
def Ledger.withdrawable (s : Ledger B) : ℕ := s.totalReserve.val - lockedReserve s

namespace Engine

/-- `Math.max(0, a)`. -/
def atLeastZero (a : Number) : Number :=
  if a = .nan then .nan else if a.lt (.ofNat 0) then .ofNat 0 else a

/-- `Number(a)`, of a `bigint`. -/
def ofBigint (a : U64) : Number := .round a.val

/-- The reserve of a `LedgerPublicStatus`. -/
structure ReserveStatus where
  totalReserve : Number
  encumberedReserve : Number
  redeemedReserve : Number
  feeReserve : Number
  pendingFeeReserve : Number
  refundReserve : Number
  reportedRefundReserve : Number
  withdrawableReserve : Number

/-- `total - (encumbered + redeemed + …)`, and not below zero. -/
def withdrawable (total encumbered redeemed fee pending refund reported : Number) : Number :=
  atLeastZero (total.sub
    (((((encumbered.add redeemed).add fee).add pending).add refund).add reported))

/-- `getStatus` of the network runtime (`src/lib/runtime/network.ts`). -/
def networkStatus (l : Line.Ledger B) : ReserveStatus where
  totalReserve := ofBigint l.totalReserve
  encumberedReserve := ofBigint l.encumberedReserve
  redeemedReserve := ofBigint l.redeemedReserve
  feeReserve := ofBigint l.feeReserve
  pendingFeeReserve := ofBigint l.pendingFeeReserve
  refundReserve := ofBigint l.refundReserve
  reportedRefundReserve := ofBigint l.reportedRefundReserve
  withdrawableReserve := withdrawable (ofBigint l.totalReserve) (ofBigint l.encumberedReserve)
    (ofBigint l.redeemedReserve) (ofBigint l.feeReserve) (ofBigint l.pendingFeeReserve)
    (ofBigint l.refundReserve) (ofBigint l.reportedRefundReserve)

/-- `getStatus` and `getReserveStatus` of the local runtime (`src/lib/runtime/local.ts`). -/
def localStatus (ledger : Ledger B) : ReserveStatus where
  totalReserve := ledger.totalReserve
  encumberedReserve := ledger.encumberedReserve
  redeemedReserve := ledger.redeemedReserve
  feeReserve := ledger.feeReserve
  pendingFeeReserve := ledger.pendingFeeReserve
  refundReserve := ledger.refundReserve
  reportedRefundReserve := ledger.reportedRefundReserve
  withdrawableReserve := withdrawable ledger.totalReserve ledger.encumberedReserve
    ledger.redeemedReserve ledger.feeReserve ledger.pendingFeeReserve ledger.refundReserve
    ledger.reportedRefundReserve

/-- The amount that `doWithdrawReserve` asks the runtime to withdraw. -/
def requestedAmount (ledger : ReserveStatus) (amount : Option Number) : Number :=
  let total := ledger.totalReserve
  let locked := ledger.encumberedReserve.add ledger.redeemedReserve
  let withdrawable := atLeastZero (total.sub locked)
  amount.getD withdrawable

/-! ## Counters that are safe integers -/

theorem atLeastZero_ofNat (n : ℕ) : atLeastZero (.ofNat n) = .ofNat n := by
  rw [atLeastZero, if_neg (by simp [Number.ofNat]), Number.lt_ofNat, if_neg (by simp)]

theorem ofBigint_eq {a : U64} (h : Safe a) : ofBigint a = num a := by
  rw [ofBigint, num]
  exact Number.round_natCast (by unfold Safe Number.maxSafe at h; omega)

variable {s : Line.Ledger B}

/-- The six budgets of a ledger with a safe total add up without loss. -/
theorem withdrawable_eq (hsol : Line.lockedReserve s ≤ s.totalReserve.val)
    (ht : Safe s.totalReserve) :
    withdrawable (num s.totalReserve) (num s.encumberedReserve) (num s.redeemedReserve)
      (num s.feeReserve) (num s.pendingFeeReserve) (num s.refundReserve)
      (num s.reportedRefundReserve) = .ofNat s.withdrawable := by
  have hle : Line.lockedReserve s ≤ Number.maxSafe := hsol.trans ht
  unfold Line.lockedReserve at hle
  have hsum : (((((num s.encumberedReserve).add (num s.redeemedReserve)).add (num s.feeReserve)).add
      (num s.pendingFeeReserve)).add (num s.refundReserve)).add (num s.reportedRefundReserve)
      = .ofNat (Line.lockedReserve s) := by
    unfold num Line.lockedReserve
    rw [Number.add_ofNat (by omega), Number.add_ofNat (by omega), Number.add_ofNat (by omega),
      Number.add_ofNat (by omega), Number.add_ofNat (by omega)]
  rw [withdrawable, hsum, num, Number.sub_ofNat hsol ht, atLeastZero_ofNat, Ledger.withdrawable]

/-- The default of the console leaves four budgets out. -/
theorem requestedAmount_eq (hsol : Line.lockedReserve s ≤ s.totalReserve.val)
    (ht : Safe s.totalReserve) {status : ReserveStatus}
    (htotal : status.totalReserve = num s.totalReserve)
    (hencumbered : status.encumberedReserve = num s.encumberedReserve)
    (hredeemed : status.redeemedReserve = num s.redeemedReserve) :
    requestedAmount status none = .ofNat (s.withdrawable + (s.feeReserve.val
      + s.pendingFeeReserve.val + s.refundReserve.val + s.reportedRefundReserve.val)) := by
  have hle : Line.lockedReserve s ≤ Number.maxSafe := hsol.trans ht
  rw [Ledger.withdrawable]
  unfold Line.lockedReserve at hle hsol ⊢
  simp only [requestedAmount, Option.getD_none, htotal, hencumbered, hredeemed]
  unfold num
  rw [Number.add_ofNat (by omega), Number.sub_ofNat (by omega) ht, atLeastZero_ofNat]
  congr 1
  omega

/-! ## One amount -/

variable [DecidableEq B] [Compact B]

/-- All five places have the same amount. -/
structure OneAmount (s : Line.Ledger B) : Prop where
  /-- It is the largest amount that the circuit accepts. -/
  circuit : ∀ (w : Witness B) (amount : U64), IsIssuer w s → 0 < amount.val →
    ((∃ s', Line.withdrawUnencumberedReserve .canonical w amount s = .ok s') ↔
      amount.val ≤ s.withdrawable)
  engine : ∀ e : Ledger B, Related e s →
    e.totalReserve.sub (lockedReserve e) = .ofNat s.withdrawable
  network : (networkStatus s).withdrawableReserve = .ofNat s.withdrawable
  localRuntime : ∀ e : Ledger B, Related e s →
    (localStatus e).withdrawableReserve = .ofNat s.withdrawable
  /-- The console proposes it, whichever runtime it has its ledger from. -/
  console : requestedAmount (networkStatus s) none = .ofNat s.withdrawable
    ∧ ∀ e : Ledger B, Related e s → requestedAmount (localStatus e) none = .ofNat s.withdrawable

/-- What the issuer may withdraw in a reachable ledger. -/
theorem withdraw_iff {h : Trace B} (r : Reaches .canonical h s) {w : Witness B} {amount : U64}
    (hi : IsIssuer w s) (hpos : 0 < amount.val) :
    (∃ s', Line.withdrawUnencumberedReserve .canonical w amount s = .ok s') ↔
      amount.val ≤ s.withdrawable := by
  have hsol := r.balanced.solvent
  rw [Ledger.withdrawable]
  constructor
  · rintro ⟨s', hs'⟩
    have st : Step .canonical ⟨.withdrawUnencumberedReserve amount, w, 0⟩ s s' :=
      withdrawUnencumberedReserve_ok_iff.mp hs'
    cases st with
    | withdrawUnencumberedReserve _ _ hle _ _ => omega
  · intro hle
    have hlt := s.totalReserve.isLt
    have st : Step .canonical ⟨.withdrawUnencumberedReserve amount, w, 0⟩ s _ :=
      .withdrawUnencumberedReserve hi hpos (by omega) rfl
        (T := ⟨s.totalReserve.val - amount.val, by omega⟩) (by simp only; omega)
    exact ⟨_, withdrawUnencumberedReserve_ok_iff.mpr st⟩

/-- **One withdrawable amount.** In every reachable ledger whose total is a safe integer, the five
computations agree exactly if no fees, pending fees, refunds and reported refunds are locked. -/
theorem one_withdrawable {h : Trace B} (r : Reaches .canonical h s) (ht : Safe s.totalReserve) :
    OneAmount s ↔ s.feeReserve.val = 0 ∧ s.pendingFeeReserve.val = 0 ∧ s.refundReserve.val = 0
      ∧ s.reportedRefundReserve.val = 0 := by
  have hsol := r.balanced.solvent
  have hle : Line.lockedReserve s ≤ Number.maxSafe := hsol.trans ht
  unfold Line.lockedReserve at hle
  -- nothing is rounded on the way into the status
  have htotal := ofBigint_eq ht
  have hencumbered : ofBigint s.encumberedReserve = num s.encumberedReserve :=
    ofBigint_eq (by unfold Safe; omega)
  have hredeemed : ofBigint s.redeemedReserve = num s.redeemedReserve :=
    ofBigint_eq (by unfold Safe; omega)
  have hnetwork : (networkStatus s).totalReserve = num s.totalReserve := htotal
  have hconsole := requestedAmount_eq hsol ht hnetwork hencumbered hredeemed
  constructor
  -- if the console agrees, what it leaves out is zero
  · intro hone
    have heq := hone.console.1
    rw [hconsole, Number.ofNat, Number.ofNat, Number.finite.injEq] at heq
    have heq' : s.withdrawable + (s.feeReserve.val + s.pendingFeeReserve.val + s.refundReserve.val
        + s.reportedRefundReserve.val) = s.withdrawable := by exact_mod_cast heq
    omega
  -- and if that is zero, all of them have the total less what is locked
  · rintro ⟨hf, hp, hu, hx⟩
    rw [hf, hp, hu, hx] at hconsole
    refine ⟨fun w amount hi hpos => withdraw_iff r hi hpos, fun e hR => ?_, ?_, fun e hR => ?_,
      hconsole, fun e hR => ?_⟩
    · rw [hR.totalReserve, hR.lockedReserve hsol ht, num, Number.sub_ofNat hsol ht,
        Ledger.withdrawable]
    · rw [← withdrawable_eq hsol ht, ← htotal, ← hencumbered, ← hredeemed,
        ← ofBigint_eq (a := s.feeReserve) (by unfold Safe; omega),
        ← ofBigint_eq (a := s.pendingFeeReserve) (by unfold Safe; omega),
        ← ofBigint_eq (a := s.refundReserve) (by unfold Safe; omega),
        ← ofBigint_eq (a := s.reportedRefundReserve) (by unfold Safe; omega)]
      rfl
    · rw [← withdrawable_eq hsol ht, ← hR.totalReserve, ← hR.encumberedReserve,
        ← hR.redeemedReserve, ← hR.feeReserve, ← hR.pendingFeeReserve, ← hR.refundReserve,
        ← hR.reportedRefundReserve]
      rfl
    · have htotal' : (localStatus e).totalReserve = num s.totalReserve := hR.totalReserve
      have hlocal := requestedAmount_eq hsol ht htotal' hR.encumberedReserve hR.redeemedReserve
      rwa [hf, hp, hu, hx] at hlocal

/-- A line without fees, -/
def openFree : Call Term :=
  ⟨.openLine (Demo.u64 100) (.zero 64) (.zero 64), Demo.caller Demo.issuer 0 0 0 0 0, 0⟩

/-- its quote number `n`, -/
def freeQuote (n : ℕ) : Term :=
  Line.quoteCommit (Line.merchantPublicKey Demo.merchant) (.atom 0) (Demo.u64 100) (Demo.u64 50)
    (.atom n) (Demo.u64 1) Demo.domain (.zero 64) (.zero 64)

/-- the draw on it, -/
def freeDraw (n outstanding epoch : ℕ) : Call Term :=
  ⟨.draw (freeQuote n) (Demo.u64 50) (.zero 64),
    Demo.caller Demo.borrower n 1 outstanding epoch 0, 2⟩

/-- and the redemption of its note. -/
def freeRedeem (n : ℕ) : Call Term :=
  ⟨.redeemDraw
      (Line.drawNoteCommit ⟨Demo.domain, Demo.u64 1, Line.agentId Demo.borrower, freeQuote n,
        Line.merchantPublicKey Demo.merchant, Demo.u64 100, .zero 64, .atom n, Demo.u64 50⟩
        (.atom 0))
    (Demo.u64 50),
    { Demo.caller Demo.merchant n 1 0 0 0 with noteQuoteCommit := fun _ => freeQuote n }, 3⟩

/-- With one note drawn and one redeemed, both without a fee, all agree on what is left. -/
theorem one_withdrawable_run : ∃ (h : Trace Term) (s : Line.Ledger Term), Reaches .canonical h s
    ∧ s.encumberedReserve.val = 100 ∧ s.redeemedReserve.val = 100 ∧ s.withdrawable = 800
    ∧ OneAmount s := by
  obtain ⟨h, s, r, ht⟩ := Demo.reaches_of_check .canonical
    [Demo.fund 1000, openFree, Demo.post 1 1, freeDraw 1 0 0, Demo.post 2 1, freeDraw 2 100 1,
      freeRedeem 1]
    (fun _ s => decide (s.withdrawable = 800) && decide (s.totalReserve.val = 1000)
      && decide (s.encumberedReserve.val = 100) && decide (s.redeemedReserve.val = 100)
      && decide (s.feeReserve.val = 0) && decide (s.pendingFeeReserve.val = 0)
      && decide (s.refundReserve.val = 0) && decide (s.reportedRefundReserve.val = 0))
    (by decide +kernel)
  simp only [Bool.and_eq_true, decide_eq_true_eq] at ht
  obtain ⟨⟨⟨⟨⟨⟨⟨hfree, htotal⟩, he⟩, hr⟩, hf⟩, hp⟩, hu⟩, hx⟩ := ht
  have hsafe : Safe s.totalReserve := by
    rw [Safe, htotal]
    decide
  exact ⟨h, s, r, he, hr, hfree, (one_withdrawable r hsafe).mpr ⟨hf, hp, hu, hx⟩⟩

/-- After a draw of 100 at a fee of 2, out of a reserve of 1000, the console proposes 900 where
898 are accepted. -/
theorem one_withdrawable_fails : ∃ (h : Trace Term) (s : Line.Ledger Term), Reaches .canonical h s
    ∧ s.withdrawable = 898 ∧ requestedAmount (networkStatus s) none = .ofNat 900
    ∧ ¬ OneAmount s := by
  obtain ⟨h, s, r, ht⟩ := Demo.reaches_of_check .canonical
    [Demo.fund 1000, Demo.openLine, Demo.post 1 1, Demo.draw 1 1 0 0]
    (fun _ s => decide (s.withdrawable = 898) && decide (s.totalReserve.val = 1000)
      && decide (s.encumberedReserve.val = 100) && decide (s.redeemedReserve.val = 0)
      && decide (s.pendingFeeReserve.val = 2)) (by decide +kernel)
  simp only [Bool.and_eq_true, decide_eq_true_eq] at ht
  obtain ⟨⟨⟨⟨hfree, htotal⟩, he⟩, hr⟩, hp⟩ := ht
  have hproposed : requestedAmount (networkStatus s) none = .ofNat 900 := by
    have hsafe {a : U64} {n : ℕ} (ha : a.val = n) (hn : n ≤ 1000) : ofBigint a = .ofNat n := by
      rw [ofBigint_eq (by unfold Safe Number.maxSafe; omega), num, ha]
    simp only [requestedAmount, networkStatus, Option.getD_none, hsafe htotal le_rfl,
      hsafe he (by omega), hsafe hr (by omega)]
    rw [Number.add_ofNat (by decide), Number.sub_ofNat (by decide) (by decide), atLeastZero_ofNat]
  refine ⟨h, s, r, hfree, hproposed, fun hone => ?_⟩
  have heq := hone.console.1
  rw [hproposed, hfree, Number.ofNat, Number.ofNat, Number.finite.injEq] at heq
  norm_num at heq

end Engine

end Line
