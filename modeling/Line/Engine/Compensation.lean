import Line.Engine.Simulation
import Line.Proof.Arithmetic

/-!
# Notes that do not pay

`cancelOrExpireNote` of the engine against the circuit, in its three modes. An allocation
against the current book rotates it, and fails in the engine when the next epoch is not a
safe integer.

The note is looked up first, for all modes alike (`NoteCarried.ok_iff`). A note that is still
live is expired on the way, if its time has come (`expireLive_ok_iff`); that is all of mode
0. An allocation then asks for the opening of the note and for somebody who may ask for it,
and settles the cost: a note of the current line against the book, which takes up what it
can of it (`settle_current_ok_iff`), a note of an older line in cash
(`settle_older_ok_iff`). An acknowledgement takes the owed cost out of the refunds and
spends the nullifier of the payment.

The settlement is the one place where the two sides count differently: the circuit takes the
smaller of two numbers by comparing them, the engine by `Math.min`. The halves are the same
(`credited_owed`).
-/

namespace Line.Engine

open Checked

variable {B : Type} [DecidableEq B] [Compact B] {e : Ledger B} {s s' : Line.Ledger B}
  {w : Witness B} {now : ℕ} {env : Env B} {h : Trace B} {D : B} {n : NoteMeta B} {cost : U64}

/-- The engine's ledger with the three counters that an expiry moves. -/
def Ledger.budgets (e : Ledger B) (E P U : U64) : Ledger B :=
  { e with encumberedReserve := num E, pendingFeeReserve := num P, refundReserve := num U }

/-- A note that is expired, or was before, releases its budgets. -/
theorem releases_of_expired (r : Reaches .canonical h s) (hn : s.notes.lookup D = some n)
    (hr : n.redeemed = false) (hcost : cost.val = n.cost)
    (hx : n.cancelled = false → n.expiry.val ≤ now) :
    ∃ E P U : U64, Releases now n cost s E P U := by
  cases hc : n.cancelled with
  | true =>
    exact ⟨s.encumberedReserve, s.pendingFeeReserve, s.refundReserve,
      ⟨fun _ => ⟨rfl, rfl, rfl⟩, by simp [hc], by simp [hc], by simp [hc], by simp [hc]⟩⟩
  | false =>
    obtain ⟨hE, hP⟩ := r.live_covered hn ⟨hr, hc⟩
    have hsol := r.balanced.solvent
    have htot := s.totalReserve.isLt
    unfold Line.lockedReserve at hsol
    unfold NoteMeta.cost at hcost
    exact ⟨⟨s.encumberedReserve.val - n.amount.val, by omega⟩,
      ⟨s.pendingFeeReserve.val - n.fee.val, by omega⟩, ⟨s.refundReserve.val + cost.val, by omega⟩,
      ⟨by simp [hc], hx, fun _ => Nat.sub_add_cancel hE, fun _ => Nat.sub_add_cancel hP,
        fun _ => rfl⟩⟩

omit [Compact B] in
/-- What the budgets become stays within the total, and so safe. -/
theorem InRange.releases (hin : InRange s) (hsol : Line.lockedReserve s ≤ s.totalReserve.val)
    (hcost : cost.val = n.cost) {E P U : U64} (hrel : Releases now n cost s E P U) :
    Safe E ∧ Safe P ∧ Safe U := by
  have hlock := hin.locked hsol
  unfold NoteMeta.cost at hcost
  unfold Safe
  cases hc : n.cancelled with
  | true =>
    obtain ⟨rfl, rfl, rfl⟩ := hrel.skipped hc
    omega
  | false =>
    have hE := hrel.encumbered hc
    have hP := hrel.pending hc
    have hU := hrel.refund hc
    omega

/-- **The engine expires a note as the contract does**, in modes 0 and 1. -/
theorem expireLive_ok_iff (r : Reaches .canonical h s) (hR : Related e s) (hin : InRange s)
    (hclock : env.clock = .ofNat now) (hnow : now ≤ Number.maxSafe)
    (hn : s.notes.lookup D = some n) (hr : n.redeemed = false) (hcost : cost.val = n.cost)
    {e₁ : Ledger B} :
    expireLive env (noteRecord D n) (num cost) e = .ok e₁ ↔
      ∃ E P U : U64, Releases now n cost s E P U ∧ e.budgets E P U = e₁ := by
  have hlock := hin.locked r.balanced.solvent
  cases hc : n.cancelled with
  | true =>
    have hskip : expireLive env (noteRecord D n) (num cost) e = .ok e := by
      simp [expireLive, noteRecord, hc, pure, Except.pure]
    rw [hskip, Except.ok.injEq]
    constructor
    · rintro rfl
      refine ⟨s.encumberedReserve, s.pendingFeeReserve, s.refundReserve,
        ⟨fun _ => ⟨rfl, rfl, rfl⟩, by simp [hc], by simp [hc], by simp [hc], by simp [hc]⟩, ?_⟩
      rw [Ledger.budgets, ← hR.encumberedReserve, ← hR.pendingFeeReserve, ← hR.refundReserve]
    · rintro ⟨E, P, U, hrel, rfl⟩
      obtain ⟨rfl, rfl, rfl⟩ := hrel.skipped hc
      rw [Ledger.budgets, ← hR.encumberedReserve, ← hR.pendingFeeReserve, ← hR.refundReserve]
  | false =>
    simp only [expireLive, noteRecord, hc, Bool.false_eq_true, ↓reduceIte, bind_ok_iff,
      failIf_ok_iff, pure_ok_iff, executionUnixSeconds_eq hclock hnow, Except.ok.injEq,
      exists_eq_left', exists_const, hR.encumberedReserve, hR.pendingFeeReserve, hR.refundReserve]
    have hlate : (Number.ofNat now).lt (num n.expiry) = false ↔ n.expiry.val ≤ now := by
      rw [num, Number.lt_ofNat, decide_eq_false_iff_not, not_lt]
    rw [hlate]
    -- whatever the counters of the contract become, those of the engine are the same numbers
    have hsame : ∀ E P U : U64, Releases now n cost s E P U → e.budgets E P U = { e with
        encumberedReserve := (num s.encumberedReserve).sub (num n.amount)
        pendingFeeReserve := (num s.pendingFeeReserve).sub (num n.fee)
        refundReserve := (num s.refundReserve).add (num cost) } := by
      intro E P U hrel
      obtain ⟨-, -, hUs⟩ := hin.releases r.balanced.solvent hcost hrel
      rw [num_sub_eq (hrel.encumbered hc) (by unfold Safe; omega),
        num_sub_eq (hrel.pending hc) (by unfold Safe; omega), num_add_eq (hrel.refund hc) hUs,
        Ledger.budgets]
    constructor
    · rintro ⟨hx, rfl⟩
      obtain ⟨E, P, U, hrel⟩ := releases_of_expired r hn hr hcost (fun _ => hx)
      exact ⟨_, _, _, hrel, hsame _ _ _ hrel⟩
    · rintro ⟨E, P, U, hrel, rfl⟩
      exact ⟨hrel.expired hc, (hsame E P U hrel).symm⟩

/-! ## Up to the action -/

/-- What every action checks first. -/
theorem NoteCarried.ok_iff [Words B] (hR : Related e s) (hin : InRange s) {i : NoteInput B}
    {action : Uint 8} {receiptExpiry : U64} (hi : NoteCarried s i w D action receiptExpiry)
    {e' : Ledger B} :
    (cancelOrExpireNote env e i).map (·.ledger) = .ok e' ↔ action.val ≤ 2
      ∧ ∃ n, ∃ cost : U64, s.notes.lookup D = some n ∧ n.redeemed = false ∧ cost.val = n.cost
        ∧ ∃ x, handleNote env i (.ofNat action.val) D (noteRecord D n) (num cost) e = .ok x
          ∧ pushEvent x.ledger = e' := by
  -- the three modes are the numbers up to 2
  have hmode : (!(Number.ofNat action.val).eq (.ofNat 0) && !(Number.ofNat action.val).eq (.ofNat 1)
      && !(Number.ofNat action.val).eq (.ofNat 2)) = false ↔ action.val ≤ 2 := by
    simp only [Number.eq_ofNat, Bool.and_eq_false_iff, Bool.not_eq_false', decide_eq_true_iff]
    omega
  -- the cost of a saved note is safe, so its sum is exact
  have hsum : ∀ n, s.notes.lookup D = some n → ∀ cost : U64, cost.val = n.cost →
      (num n.amount).add (num n.fee) = num cost
        ∧ (!assertSafeUint (num n.amount) || !assertSafeUint (num n.fee)
          || !assertSafeUint (num cost)) = false := by
    intro n hn cost hcost
    have hsafe : cost.val ≤ Number.maxSafe := hcost ▸ (hin.notes D n hn).1
    refine ⟨num_add_eq hcost hsafe, ?_⟩
    unfold NoteMeta.cost at hcost
    have hamount : n.amount.val ≤ Number.maxSafe := by omega
    have hfee : n.fee.val ≤ Number.maxSafe := by omega
    simp [num, hsafe, hamount, hfee]
  simp only [map_ok_iff, cancelOrExpireNote, bind_ok_iff, failIf_ok_iff, present_ok_iff,
    pure_ok_iff, hi.mode, hmode, hi.commitment, hR.notes D, Option.some.injEq, exists_eq_left',
    Option.map_eq_some_iff, exists_exists_and_eq_and, exists_const]
  -- with that the tests of both sides are the same
  constructor
  · rintro ⟨_, ⟨hle, n, hn, hr, -, x, hx, rfl⟩, he⟩
    have hlt : n.cost < 2 ^ 64 := lt_of_le_of_lt (hin.notes D n hn).1 (by decide)
    obtain ⟨hadd, -⟩ := hsum n hn ⟨n.cost, hlt⟩ rfl
    have hx' : handleNote env i _ D (noteRecord D n) ((num n.amount).add (num n.fee)) e = _ := hx
    rw [hadd] at hx'
    exact ⟨hle, n, ⟨n.cost, hlt⟩, hn, hr, rfl, x, hx', he⟩
  · rintro ⟨hle, n, cost, hn, hr, hcost, x, hx, he⟩
    obtain ⟨hadd, hsafe⟩ := hsum n hn cost hcost
    rw [← hadd] at hx hsafe
    exact ⟨_, ⟨hle, n, hn, hr, hsafe, x, hx, rfl⟩, he⟩

/-! ## Mode 0 -/

theorem cancelNote_ok_iff (r : Reaches .canonical h s) (hR : Related e s) (hin : InRange s)
    (hclock : env.clock = .ofNat now) (hnow : now ≤ Number.maxSafe)
    (hn : s.notes.lookup D = some n) (hr : n.redeemed = false) (hcost : cost.val = n.cost)
    {x : NoteHandled B} :
    cancelNote env D (noteRecord D n) (num cost) e = .ok x ↔ n.cancelled = false
      ∧ ∃ E P U : U64, Releases now n cost s E P U
        ∧ { ledger := { e.budgets E P U with
              notes :=
                Records.change NoteRecord.commitment (fun n => { n with cancelled := true }) D
                  e.notes }
            witness := none
            refund := none } = x := by
  simp only [cancelNote, bind_ok_iff, failIf_ok_iff, pure_ok_iff,
    expireLive_ok_iff r hR hin hclock hnow hn hr hcost, exists_const]
  constructor
  · rintro ⟨hc, _, ⟨E, P, U, hrel, rfl⟩, hx⟩
    exact ⟨hc, E, P, U, hrel, hx⟩
  · rintro ⟨hc, E, P, U, hrel, hx⟩
    exact ⟨hc, _, ⟨E, P, U, hrel, rfl⟩, hx⟩

/-- **The engine cancels an expired note as the contract does.** -/
theorem NoteCarried.cancel_matches [Words B] (r : Reaches .canonical h s) (hR : Related e s)
    (hin : InRange s) {i : NoteInput B} {action : Uint 8} {receiptExpiry : U64}
    (hclock : env.clock = .ofNat now) (hnow : now ≤ Number.maxSafe)
    (hi : NoteCarried s i w D action receiptExpiry) (hmode : action.val = 0) :
    Matches ((cancelOrExpireNote env e i).map (·.ledger))
      ⟨.cancelOrExpireNote D action receiptExpiry, w, now⟩ s := by
  -- mode 0 is the cancellation
  have hhandle : ∀ n cost x, handleNote env i (.ofNat action.val) D (noteRecord D n) (num cost) e
      = .ok x ↔ cancelNote env D (noteRecord D n) (num cost) e = .ok x := by
    intro n cost x
    simp [handleNote, hmode]
  constructor
  · intro e' he
    obtain ⟨-, n, cost, hn, hr, hcost, x, hx, -⟩ := (hi.ok_iff hR hin).mp he
    obtain ⟨hc, E, P, U, hrel, -⟩ :=
      (cancelNote_ok_iff r hR hin hclock hnow hn hr hcost).mp ((hhandle n cost x).mp hx)
    exact ⟨_, .expire hmode hn hr hc hcost hrel⟩
  · intro s' st
    cases st with
    | @expire _ _ _ _ _ _ n cost E P U _ hn hr hc hcost hrel =>
      refine ⟨_, (hi.ok_iff hR hin).mpr ⟨by omega, n, cost, hn, hr, hcost, _,
        (hhandle n cost _).mpr ((cancelNote_ok_iff r hR hin hclock hnow hn hr hcost).mpr
          ⟨hc, E, P, U, hrel, rfl⟩), rfl⟩, ?_⟩
      -- the circuit writes the fields of the refund as well, which are blank on a live note
      have ha := (r.noteWF hn).uncancelled hc
      obtain ⟨ho, hk⟩ := (r.noteWF hn).unallocated ha
      obtain ⟨hw, hx⟩ := r.blank hn ha
      have hrecord : { noteRecord D n with cancelled := true } = noteRecord D n.expire := by
        simp [noteRecord, NoteMeta.expire, hr, ha, ho, hk, hw, hx]
      exact { hR with
        notes := hR.notes.change (fun _ => rfl) hn hrecord
        encumberedReserve := rfl
        pendingFeeReserve := rfl
        refundReserve := rfl
        actionClock := hR.tick hin }
    | allocateCurrent h1 => omega
    | allocateOlder h1 => omega
    | acknowledgeRefund h2 => omega

/-! ## Mode 1 -/

/-- What is credited and what stays owed are the two halves of the cost. -/
theorem credited_owed {outstanding : U64} (hb : Safe outstanding) (hc : Safe cost) :
    (num outstanding).sub ((num outstanding).min (num cost))
        = num (debtAfterCredit outstanding cost)
      ∧ (num cost).sub ((num outstanding).min (num cost))
        = num (cashRefundAmount outstanding cost) := by
  have hmin : (num outstanding).min (num cost) = .ofNat (min outstanding.val cost.val) :=
    Number.min_ofNat _ _
  have hdebt : outstanding.val - min outstanding.val cost.val = outstanding.val - cost.val := by
    omega
  have howed : cost.val - min outstanding.val cost.val = cost.val - outstanding.val := by
    omega
  rw [hmin, num_sub (Nat.min_le_left _ _) hb, num_sub (Nat.min_le_right _ _) hc, num, num,
    debtAfterCredit_val, cashRefundAmount_val, hdebt, howed]
  exact ⟨rfl, rfl⟩

/-- The settlement against the current book: its successor, and what stays owed. -/
def settledBook (e : Ledger B) (s : Line.Ledger B) (w : Witness B) (cost E P U ep : U64) :
    Settled B where
  ledger := { e.budgets E P U with
    lineCommitment := some (Line.lineStateCommit ⟨s.contractDomain, s.identityCommit,
      w.lineLimit 0, debtAfterCredit (w.lineOutstanding 0) cost, ep⟩ (w.newSalt 0))
    refundReserve :=
      if cost.val ≤ (w.lineOutstanding 0).val then (num U).sub (num cost) else num U }
  witness := some ⟨s.contractDomain, s.identityCommit, num (w.lineLimit 0),
    num (debtAfterCredit (w.lineOutstanding 0) cost), num ep, w.newSalt 0⟩
  owed := num (cashRefundAmount (w.lineOutstanding 0) cost)
  credited := (num (w.lineOutstanding 0)).min (num cost)

/-- **On a note of the current generation the engine rotates the book as the contract does.** -/
theorem settle_current_ok_iff (hR : Related e s) {proof : Compensation B}
    (hp : CompensationCarried s proof w D) (hn : s.notes.lookup D = some n) (hsafe : Safe cost)
    (hgen : n.lineGeneration = s.lineGeneration) (hne : s.status ≠ .NONE) {E P U : U64}
    {x : Settled B} :
    settle proof (w.noteIdentity 0) (noteRecord D n) (num cost) (e.budgets E P U) = .ok x ↔
      w.noteIdentity 0 = s.identityCommit
        ∧ Line.lineStateCommit (witnessBook w s) (w.salt 0) = s.lineCommit
        ∧ ∃ ep : U64, Safe ep ∧ ep.val = (w.lineEpoch 0).val + 1
          ∧ settledBook e s w cost E P U ep = x := by
  obtain ⟨book, hbook, hshow⟩ := hp.books n hn hgen
  -- the generations are the same, so the engine settles against the book
  have hcurrent : (noteRecord D n).lineGeneration.eq (e.budgets E P U).lineGeneration = true := by
    simp only [Ledger.budgets, hR.lineGeneration, noteRecord]
    exact num_eq_iff.mpr hgen
  obtain ⟨hdebt, howed⟩ := credited_owed hshow.outstanding.2 hsafe
  have hlimit : Counts (num (w.lineLimit 0)) (w.lineLimit 0) := ⟨rfl, hshow.limit.2⟩
  have hepoch : Counts (num (w.lineEpoch 0)) (w.lineEpoch 0) := ⟨rfl, hshow.epoch.2⟩
  have hout : (w.lineOutstanding 0).val ≤ Number.maxSafe := hshow.outstanding.2
  have hb : Counts (num (debtAfterCredit (w.lineOutstanding 0) cost))
      (debtAfterCredit (w.lineOutstanding 0) cost) := by
    refine ⟨rfl, ?_⟩
    unfold Safe
    rw [debtAfterCredit_val]
    omega
  -- nothing is owed if the debt is at least the cost
  have hzero : (num (cashRefundAmount (w.lineOutstanding 0) cost)).eq (.ofNat 0) = true ↔
      cost.val ≤ (w.lineOutstanding 0).val := by
    rw [num, Number.eq_ofNat, decide_eq_true_iff, cashRefundAmount_val]
    omega
  unfold settle
  rw [if_pos hcurrent]
  by_cases hI : book.I = s.identityCommit
  swap
  · -- the book of a stranger: both sides refuse it
    simp only [bind_ok_iff, failIf_ok_iff, present_ok_iff, hbook, Ledger.budgets,
      hR.identityCommitment, opened_of_status hne, decide_eq_false_iff_not, not_not, exists_const,
      Option.some.injEq, exists_eq_left', ne_eq]
    constructor
    · rintro ⟨ho, hbI, -⟩
      exact absurd (hbI.trans ho) hI
    · rintro ⟨-, hst, -⟩
      exact absurd (hshow.identity rfl hst) hI
  -- now the tests of the book, as they stand in the engine
  simp only [settledBook, Ledger.budgets, bind_ok_iff, failIf_ok_iff, present_ok_iff, pure_ok_iff,
    hR.contractDomain, hbook, hI, hshow.opens_ok_iff hI, hR.identityCommitment,
    hR.lineCommitment, opened_of_status hne, hp.newSalt, decide_eq_false_iff_not, not_not,
    exists_const, Option.some.injEq, exists_eq_left', exists_eq_left, ne_eq]
  rw [hshow.outstanding.1, hshow.limit.1, hshow.epoch.1, hdebt, howed]
  simp only [hzero]
  constructor
  -- the next book is encoded, so its epoch is safe
  · rintro ⟨ho, -, hst, -, C, hC, rfl⟩
    rw [Bool.not_eq_false', decide_eq_true_iff] at hst
    obtain ⟨ep, hes, hep, rfl⟩ := (lineCommitment_next_ok_iff hlimit hb hepoch).mp hC
    have hnext : (num (w.lineEpoch 0)).add (.ofNat 1) = num ep := by
      rw [num_add_ofNat (hep ▸ hes), num, hep]
    refine ⟨ho, hst, ep, hes, hep, ?_⟩
    rw [hnext]
  · rintro ⟨ho, hst, ep, hes, hep, rfl⟩
    have hnext : (num (w.lineEpoch 0)).add (.ofNat 1) = num ep := by
      rw [num_add_ofNat (hep ▸ hes), num, hep]
    -- and the other way it passes the test of the engine
    have hcheck : (!assertSafeUint (num (w.lineOutstanding 0))
        || !assertSafeUint ((num (w.lineEpoch 0)).add (.ofNat 1))) = false := by
      rw [hnext, Counts.assertSafeUint ⟨rfl, hshow.outstanding.2⟩,
        Counts.assertSafeUint ⟨rfl, hes⟩]
      rfl
    refine ⟨ho, ho.symm, ?_, hcheck, _, (lineCommitment_next_ok_iff hlimit hb hepoch).mpr
      ⟨ep, hes, hep, rfl⟩, ?_⟩
    · rw [Bool.not_eq_false', decide_eq_true_iff]
      exact hst
    · rw [hnext]

/-- On a note of an older generation it leaves the line alone. -/
theorem settle_older_ok_iff (hR : Related e s) {proof : Compensation B} {owner : B}
    (hgen : n.lineGeneration ≠ s.lineGeneration) {E P U : U64} {x : Settled B} :
    settle proof owner (noteRecord D n) (num cost) (e.budgets E P U) = .ok x ↔
      n.lineGeneration.val < s.lineGeneration.val
        ∧ { ledger := e.budgets E P U, witness := none, owed := num cost, credited := .ofNat 0 }
          = x := by
  have hother : ¬ (noteRecord D n).lineGeneration.eq (e.budgets E P U).lineGeneration = true := by
    simp only [Ledger.budgets, hR.lineGeneration, noteRecord]
    exact fun h => hgen (num_eq_iff.mp h)
  have hlower : (e.budgets E P U).lineGeneration.le (noteRecord D n).lineGeneration = false ↔
      n.lineGeneration.val < s.lineGeneration.val := by
    simp only [Ledger.budgets, hR.lineGeneration, noteRecord]
    exact num_le_iff
  unfold settle
  rw [if_neg hother]
  simp only [bind_ok_iff, failIf_ok_iff, pure_ok_iff, hlower, exists_const]

/-- The ledger of the engine after the settlement, with the record of the note changed. -/
def allocated (D refund : B) (owed : Bool) (next : Ledger B) : Ledger B :=
  pushEvent { next with
    notes := Records.change NoteRecord.commitment (fun n => { n with
      cancelled := true
      compensationAllocated := true
      refundCommitment := refund
      cashRefundOwed := owed
      refundAcknowledged := false
      refundPaymentNullifier := pad "" }) D next.notes }

/-- What an accepted allocation has passed, up to the settlement and after it. -/
theorem allocateCompensation_ok_iff (r : Reaches .canonical h s) (hR : Related e s)
    (hin : InRange s) (hclock : env.clock = .ofNat now) (hnow : now ≤ Number.maxSafe)
    {proof : Compensation B} (hp : CompensationCarried s proof w D)
    (hn : s.notes.lookup D = some n) (hr : n.redeemed = false) (hcost : cost.val = n.cost)
    {e' : Ledger B} :
    (∃ x, allocateCompensation env (w.callerSecret 0) D (noteRecord D n) (num cost) (some proof) e
      = .ok x ∧ pushEvent x.ledger = e') ↔
      AllocateGuard w D s n ∧ ∃ E P U : U64, Releases now n cost s E P U
        ∧ ∃ y, settle proof (w.noteIdentity 0) (noteRecord D n) (num cost) (e.budgets E P U) = .ok y
          ∧ ∃ C, refundCommitment y.ledger.contractDomain (num n.lineGeneration)
              (w.noteIdentity 0) D y.owed (w.newSalt 0) = .ok C
            ∧ allocated D C ((Number.ofNat 0).lt y.owed) y.ledger = e' := by
  obtain ⟨hsafe, hexp, hgen⟩ := hin.notes D n hn
  unfold NoteMeta.cost at hsafe
  have hamount : Counts (num n.amount) n.amount := ⟨rfl, (Nat.le_add_right _ _).trans hsafe⟩
  have hfee : Counts (num n.fee) n.fee := ⟨rfl, (Nat.le_add_left _ _).trans hsafe⟩
  -- the opening is encoded as the circuit hashes it
  have hopening : ∀ E P U : U64, drawNoteCommitment
        ⟨(e.budgets E P U).contractDomain, num n.lineGeneration, w.noteIdentity 0,
          proof.note.quoteCommit, proof.note.merchantPk, num n.amount, num n.fee,
          proof.note.noteNonce, num n.expiry⟩ proof.noteSalt
      = .ok (Line.drawNoteCommit (compensationPreimage w n s) (w.noteSalt 0)) := by
    intro E P U
    rw [hp.quote, hp.merchant, hp.nonce, hp.noteSalt,
      drawNoteCommitment_eq ⟨rfl, hgen⟩ hamount hfee ⟨rfl, hexp⟩, compensationPreimage]
    simp only [Ledger.budgets, hR.contractDomain]
  -- the issuer may ask for it, and the owner of the note
  have hauthority : ∀ E P U : U64, (!isIssuer (e.budgets E P U) (w.callerSecret 0)
        && decide (identityCommitment (w.callerSecret 0) ≠ w.noteIdentity 0)) = false ↔
      issuerPublicKey (w.callerSecret 0) = s.issuer
        ∨ agentId (w.callerSecret 0) = w.noteIdentity 0 := by
    intro E P U
    rw [Bool.and_eq_false_iff, Bool.not_eq_false', decide_eq_false_iff_not, ne_eq, not_not,
      isIssuer, decide_eq_true_iff]
    simp only [Ledger.budgets, hR.issuer]
    exact Iff.rfl
  simp only [allocateCompensation, bind_ok_iff, failIf_ok_iff, present_ok_iff, pure_ok_iff,
    catchFail_ok_iff, expireLive_ok_iff r hR hin hclock hnow hn hr hcost, hp.identity, hp.newSalt,
    Option.some.injEq, exists_eq_left', exists_const]
  -- what is left of both sides is the settlement
  constructor
  · rintro ⟨_, ⟨ha, _, ⟨E, P, U, hrel, rfl⟩, D', hD, hD', hauth, y, hy, C, hC, rfl⟩, he⟩
    have hD := (hopening E P U).symm.trans hD
    rw [Except.ok.injEq] at hD
    subst hD
    rw [decide_eq_false_iff_not, ne_eq, not_not] at hD'
    exact ⟨⟨hn, hr, ha, hD', (hauthority E P U).mp hauth⟩, E, P, U, hrel, y, hy, C, hC, he⟩
  · rintro ⟨g, E, P, U, hrel, y, hy, C, hC, he⟩
    exact ⟨_, ⟨g.unallocated, _, ⟨E, P, U, hrel, rfl⟩, _, hopening E P U,
      decide_eq_false (not_not.mpr g.opening), (hauthority E P U).mpr g.authority, y, hy, C, hC,
      rfl⟩, he⟩

/-- A note of the current generation is of a line that was opened. -/
theorem line_of_note (r : Reaches .canonical h s) (hn : s.notes.lookup D = some n)
    (hgen : n.lineGeneration = s.lineGeneration) : s.status ≠ .NONE := by
  intro hnone
  have hpos := (r.note_generation hn).1
  rw [hgen, r.status_none_iff.mp hnone] at hpos
  exact absurd hpos (Nat.lt_irrefl 0)

/-- The end of an allocation on a note of the current generation. -/
theorem allocated_current_iff (hR : Related e s) (hin : InRange s) {proof : Compensation B}
    (hp : CompensationCarried s proof w D) (hn : s.notes.lookup D = some n)
    (hcost : cost.val = n.cost)
    (hgen : n.lineGeneration = s.lineGeneration) (hne : s.status ≠ .NONE) {E P U : U64}
    {e' : Ledger B} :
    (∃ y, settle proof (w.noteIdentity 0) (noteRecord D n) (num cost) (e.budgets E P U) = .ok y
      ∧ ∃ C, refundCommitment y.ledger.contractDomain (num n.lineGeneration) (w.noteIdentity 0) D
          y.owed (w.newSalt 0) = .ok C
        ∧ allocated D C ((Number.ofNat 0).lt y.owed) y.ledger = e') ↔
      w.noteIdentity 0 = s.identityCommit
        ∧ Line.lineStateCommit (witnessBook w s) (w.salt 0) = s.lineCommit
        ∧ ∃ ep : U64, Safe ep ∧ ep.val = (w.lineEpoch 0).val + 1
          ∧ allocated D (Line.refundCommit (refundPreimage D n (w.noteIdentity 0)
              (cashRefundAmount (w.lineOutstanding 0) cost) s) (w.newSalt 0))
            (decide ((w.lineOutstanding 0).val < cost.val))
            (settledBook e s w cost E P U ep).ledger = e' := by
  obtain ⟨hsafe, -, hgsafe⟩ := hin.notes D n hn
  have hsafe : Safe cost := (le_of_eq hcost).trans hsafe
  have howed : Safe (cashRefundAmount (w.lineOutstanding 0) cost) := by
    unfold Safe at hsafe ⊢
    rw [cashRefundAmount_val]
    omega
  -- what stays owed is committed to as in the circuit
  have hrefund : ∀ ep, refundCommitment (settledBook e s w cost E P U ep).ledger.contractDomain
      (num n.lineGeneration) (w.noteIdentity 0) D (settledBook e s w cost E P U ep).owed
      (w.newSalt 0)
      = .ok (Line.refundCommit (refundPreimage D n (w.noteIdentity 0)
          (cashRefundAmount (w.lineOutstanding 0) cost) s) (w.newSalt 0)) := by
    intro ep
    simp only [settledBook, Ledger.budgets, hR.contractDomain]
    exact refundCommitment_eq ⟨rfl, hgsafe⟩ ⟨rfl, howed⟩
  -- and the flag says whether anything is
  have hflag : ∀ ep, (Number.ofNat 0).lt (settledBook e s w cost E P U ep).owed
      = decide ((w.lineOutstanding 0).val < cost.val) := by
    intro ep
    simp only [settledBook, num, Number.lt_ofNat, cashRefundAmount_val, Nat.sub_pos_iff_lt]
  simp only [settle_current_ok_iff hR hp hn hsafe hgen hne]
  constructor
  · rintro ⟨_, ⟨ho, hst, ep, hes, hep, rfl⟩, C, hC, he⟩
    rw [hrefund, Except.ok.injEq] at hC
    rw [hflag, ← hC] at he
    exact ⟨ho, hst, ep, hes, hep, he⟩
  · rintro ⟨ho, hst, ep, hes, hep, he⟩
    refine ⟨_, ⟨ho, hst, ep, hes, hep, rfl⟩, _, hrefund ep, ?_⟩
    rw [hflag]
    exact he

/-- The end of an allocation on a note of an older generation. -/
theorem allocated_older_iff (r : Reaches .canonical h s) (hR : Related e s) (hin : InRange s)
    {proof : Compensation B} (hn : s.notes.lookup D = some n) (hcost : cost.val = n.cost)
    (hgen : n.lineGeneration ≠ s.lineGeneration) {E P U : U64} {e' : Ledger B} :
    (∃ y, settle proof (w.noteIdentity 0) (noteRecord D n) (num cost) (e.budgets E P U) = .ok y
      ∧ ∃ C, refundCommitment y.ledger.contractDomain (num n.lineGeneration) (w.noteIdentity 0) D
          y.owed (w.newSalt 0) = .ok C
        ∧ allocated D C ((Number.ofNat 0).lt y.owed) y.ledger = e') ↔
      n.lineGeneration.val < s.lineGeneration.val
        ∧ allocated D (Line.refundCommit (refundPreimage D n (w.noteIdentity 0) cost s)
            (w.newSalt 0)) true (e.budgets E P U) = e' := by
  obtain ⟨hsafe, -, hgsafe⟩ := hin.notes D n hn
  have hrefund : refundCommitment (e.budgets E P U).contractDomain (num n.lineGeneration)
      (w.noteIdentity 0) D (num cost) (w.newSalt 0)
      = .ok (Line.refundCommit (refundPreimage D n (w.noteIdentity 0) cost s) (w.newSalt 0)) := by
    simp only [Ledger.budgets, hR.contractDomain]
    exact refundCommitment_eq ⟨rfl, hgsafe⟩ ⟨rfl, (hcost ▸ hsafe : cost.val ≤ _)⟩
  -- no note is for nothing, so all of it stays owed
  have hflag : (Number.ofNat 0).lt (num cost) = true := by
    have hpos := (r.noteWF hn).positive
    unfold NoteMeta.cost at hcost
    rw [num, Number.lt_ofNat, decide_eq_true_iff]
    omega
  simp only [settle_older_ok_iff hR hgen]
  constructor
  · rintro ⟨_, ⟨hlt, rfl⟩, C, hC, he⟩
    rw [hrefund, Except.ok.injEq] at hC
    rw [hflag, ← hC] at he
    exact ⟨hlt, he⟩
  · rintro ⟨hlt, he⟩
    refine ⟨_, ⟨hlt, rfl⟩, _, hrefund, ?_⟩
    rw [hflag]
    exact he

/-- **What an accepted allocation has passed, and the ledger it leaves**: on a note of the current
generation the book of the next epoch, on an older note the line as it was. -/
theorem NoteCarried.allocate_ok_iff [Words B] (r : Reaches .canonical h s) (hR : Related e s)
    (hin : InRange s) {i : NoteInput B} {action : Uint 8} {receiptExpiry : U64}
    (hclock : env.clock = .ofNat now) (hnow : now ≤ Number.maxSafe)
    (hi : NoteCarried s i w D action receiptExpiry) (hmode : action.val = 1) {e' : Ledger B} :
    (cancelOrExpireNote env e i).map (·.ledger) = .ok e' ↔ ∃ n, ∃ cost : U64, AllocateGuard w D s n
      ∧ cost.val = n.cost ∧ ∃ E P U : U64, Releases now n cost s E P U
        ∧ (n.lineGeneration = s.lineGeneration
            ∧ w.noteIdentity 0 = s.identityCommit
            ∧ Line.lineStateCommit (witnessBook w s) (w.salt 0) = s.lineCommit
            ∧ (∃ ep : U64, Safe ep ∧ ep.val = (w.lineEpoch 0).val + 1
              ∧ allocated D (Line.refundCommit (refundPreimage D n (w.noteIdentity 0)
                  (cashRefundAmount (w.lineOutstanding 0) cost) s) (w.newSalt 0))
                (decide ((w.lineOutstanding 0).val < cost.val))
                (settledBook e s w cost E P U ep).ledger = e')
          ∨ n.lineGeneration.val < s.lineGeneration.val
            ∧ allocated D (Line.refundCommit (refundPreimage D n (w.noteIdentity 0) cost s)
                (w.newSalt 0)) true (e.budgets E P U) = e') := by
  obtain ⟨proof, hproof, hp⟩ := hi.compensation hmode
  -- mode 1 is the allocation
  have hhandle : ∀ n cost, handleNote env i (.ofNat action.val) D (noteRecord D n) (num cost) e
      = allocateCompensation env (w.callerSecret 0) D (noteRecord D n) (num cost) (some proof)
          e := by
    intro n cost
    simp [handleNote, hmode, hi.secret, hproof]
  rw [hi.ok_iff hR hin]
  constructor
  · rintro ⟨-, n, cost, hn, hr, hcost, hx⟩
    simp only [hhandle] at hx
    obtain ⟨g, E, P, U, hrel, hy⟩ :=
      (allocateCompensation_ok_iff r hR hin hclock hnow hp hn hr hcost).mp hx
    refine ⟨n, cost, g, hcost, E, P, U, hrel, ?_⟩
    -- against the book, or in cash
    by_cases hg : n.lineGeneration = s.lineGeneration
    · exact .inl ⟨hg, (allocated_current_iff hR hin hp hn hcost hg (line_of_note r hn hg)).mp hy⟩
    · exact .inr ((allocated_older_iff r hR hin hn hcost hg).mp hy)
  · rintro ⟨n, cost, g, hcost, E, P, U, hrel, hend⟩
    refine ⟨by omega, n, cost, g.found, g.unredeemed, hcost, ?_⟩
    simp only [hhandle]
    refine (allocateCompensation_ok_iff r hR hin hclock hnow hp g.found g.unredeemed hcost).mpr
      ⟨g, E, P, U, hrel, ?_⟩
    rcases hend with ⟨hg, hend⟩ | ⟨hlt, hend⟩
    · exact (allocated_current_iff hR hin hp g.found hcost hg (line_of_note r g.found hg)).mpr hend
    · have hg : n.lineGeneration ≠ s.lineGeneration := by
        intro hg
        rw [hg] at hlt
        exact absurd hlt (Nat.lt_irrefl _)
      exact (allocated_older_iff r hR hin g.found hcost hg).mpr ⟨hlt, hend⟩

omit [DecidableEq B] in
theorem noteRecord_allocate (hr : n.redeemed = false) (C : B) (owed : Bool) :
    { noteRecord D n with
      cancelled := true
      compensationAllocated := true
      refundCommitment := C
      cashRefundOwed := owed
      refundAcknowledged := false
      refundPaymentNullifier := pad "" } = noteRecord D (n.allocate C owed) := by
  simp [noteRecord, NoteMeta.allocate, hr]

/-- The condition under which the allocation of the engine is that of the contract: where the book
is rotated, its next epoch is a safe integer. -/
def EpochLeft (w : Witness B) (now : ℕ) (D : B) (s : Line.Ledger B) : Prop :=
  ∀ n, AllocateGuard w D s n → (n.cancelled = false → n.expiry.val ≤ now) →
    n.lineGeneration = s.lineGeneration → w.noteIdentity 0 = s.identityCommit →
    Line.lineStateCommit (witnessBook w s) (w.salt 0) = s.lineCommit →
    (w.lineEpoch 0).val + 1 ≤ Number.maxSafe

/-- The contract rotates the book of a note of the current generation. -/
theorem allocate_step (r : Reaches .canonical h s) {action : Uint 8} {receiptExpiry : U64}
    (hmode : action.val = 1) (g : AllocateGuard w D s n) (hcost : cost.val = n.cost) {E P U : U64}
    (hrel : Releases now n cost s E P U) (hgen : n.lineGeneration = s.lineGeneration)
    (ho : w.noteIdentity 0 = s.identityCommit)
    (hst : Line.lineStateCommit (witnessBook w s) (w.salt 0) = s.lineCommit)
    (hep : (w.lineEpoch 1).val + 1 < 2 ^ 64) :
    ∃ s', Step .canonical ⟨.cancelOrExpireNote D action receiptExpiry, w, now⟩ s s' := by
  have hU := hrel.covered r g.found g.unallocated hcost
  have hlt := U.isLt
  -- the refund budget after the settlement
  obtain ⟨V, hzero, hpos⟩ : ∃ V : U64,
      (cost.val ≤ (w.lineOutstanding 0).val → V.val + cost.val = U.val)
        ∧ ((w.lineOutstanding 0).val < cost.val → V = U) := by
    by_cases hc : cost.val ≤ (w.lineOutstanding 0).val
    · refine ⟨⟨U.val - cost.val, by omega⟩, fun _ => Nat.sub_add_cancel hU, ?_⟩
      intro hno
      exact absurd hc (Nat.not_le.mpr hno)
    · exact ⟨U, fun hno => absurd hno hc, fun _ => rfl⟩
  exact ⟨_, .allocateCurrent hmode g hcost hrel hgen ho hst hzero hpos (e := ⟨_, hep⟩) rfl⟩

/-- **The engine allocates as the contract does**, unless it rotates the book to an epoch that is
not a safe integer. -/
theorem NoteCarried.allocate_matches_iff [Words B] (r : Reaches .canonical h s) (hR : Related e s)
    (hin : InRange s) {i : NoteInput B} {action : Uint 8} {receiptExpiry : U64}
    (hclock : env.clock = .ofNat now) (hnow : now ≤ Number.maxSafe)
    (hi : NoteCarried s i w D action receiptExpiry) (hmode : action.val = 1) :
    Matches ((cancelOrExpireNote env e i).map (·.ledger))
      ⟨.cancelOrExpireNote D action receiptExpiry, w, now⟩ s ↔ EpochLeft w now D s := by
  have hok : ∀ e', (cancelOrExpireNote env e i).map (·.ledger) = .ok e' ↔ _ :=
    fun _ => hi.allocate_ok_iff r hR hin hclock hnow hmode
  obtain ⟨proof, -, hp⟩ := hi.compensation hmode
  constructor
  -- a step of the circuit that rotates the book is there
  · intro hm n g hx hg ho hst
    have hlt : n.cost < 2 ^ 64 := lt_of_le_of_lt (hin.notes D n g.found).1 (by decide)
    have hcost : (⟨n.cost, hlt⟩ : U64).val = n.cost := rfl
    obtain ⟨E, P, U, hrel⟩ := releases_of_expired r g.found g.unredeemed hcost hx
    obtain ⟨book, -, hshow⟩ := hp.books n g.found hg
    have hep : (w.lineEpoch 1).val + 1 < 2 ^ 64 := by
      rw [hp.epochAgain]
      exact lt_of_le_of_lt (Nat.succ_le_succ hshow.epoch.2) (by decide)
    obtain ⟨s', st⟩ := allocate_step r hmode g hcost hrel hg ho hst hep
    obtain ⟨e', he, -⟩ := hm.complete s' st
    -- so the engine accepts too, and has encoded the next epoch
    obtain ⟨n', _, g', -, _, _, _, -, ⟨-, -, -, ep, hes, hnext, -⟩ | ⟨hlower, -⟩⟩ := (hok e').mp he
    · exact le_of_eq_of_le hnext.symm hes
    · rw [Option.some.inj (g'.found.symm.trans g.found), hg] at hlower
      exact absurd hlower (Nat.lt_irrefl _)
  -- the other way, the epoch is the only thing that could be missing
  · intro hleft
    constructor
    · intro e' he
      obtain ⟨n, cost, g, hcost, E, P, U, hrel, ⟨hg, ho, hst, ep, -, hep, -⟩ | ⟨hlt, -⟩⟩ :=
        (hok e').mp he
      · refine allocate_step r hmode g hcost hrel hg ho hst ?_
        rw [hp.epochAgain, ← hep]
        exact ep.isLt
      · exact ⟨_, .allocateOlder hmode g hcost hrel hlt⟩
    · intro s' st
      cases st with
      | expire h0 => omega
      | acknowledgeRefund h2 => omega
      | @allocateCurrent _ _ _ _ _ _ n cost E P U U' ep _ g hcost hrel hg ho hst hzero hpos hnext =>
        have hes : Safe ep := by
          rw [hp.epochAgain] at hnext
          exact le_of_eq_of_le hnext (hleft n g hrel.expired hg ho hst)
        refine ⟨_, (hok _).mpr ⟨n, cost, g, hcost, E, P, U, hrel,
          .inl ⟨hg, ho, hst, ep, hes, hp.epochAgain ▸ hnext, rfl⟩⟩, ?_⟩
        obtain ⟨-, -, hU⟩ := hin.releases r.balanced.solvent hcost hrel
        -- what the book has taken up leaves the refunds
        have hrefund : (if cost.val ≤ (w.lineOutstanding 0).val then (num U).sub (num cost)
            else num U) = num U' := by
          by_cases hc : cost.val ≤ (w.lineOutstanding 0).val
          · rw [if_pos hc]
            exact num_sub_eq (hzero hc) hU
          · rw [if_neg hc, hpos (Nat.not_le.mp hc)]
        have hne := line_of_note r g.found hg
        rw [hp.limitAgain, hp.saltAgain]
        exact { hR with
          notes := hR.notes.change (fun _ => rfl) g.found (noteRecord_allocate g.unredeemed _ _)
          encumberedReserve := rfl
          pendingFeeReserve := rfl
          refundReserve := hrefund
          lineCommitment := (opened_of_status hne _).symm
          actionClock := hR.tick hin }
      | @allocateOlder _ _ _ _ _ _ n cost E P U _ g hcost hrel hlt =>
        refine ⟨_, (hok _).mpr ⟨n, cost, g, hcost, E, P, U, hrel, .inr ⟨hlt, rfl⟩⟩, ?_⟩
        exact { hR with
          notes := hR.notes.change (fun _ => rfl) g.found (noteRecord_allocate g.unredeemed _ _)
          encumberedReserve := rfl
          pendingFeeReserve := rfl
          refundReserve := rfl
          actionClock := hR.tick hin }

/-! ## Mode 2 -/

/-- **What an accepted acknowledgement has passed, and the ledger it leaves.** -/
theorem NoteCarried.acknowledge_ok_iff [Words B] (hR : Related e s) (hin : InRange s)
    {i : NoteInput B} {action : Uint 8} {receiptExpiry : U64} (hclock : env.clock = .ofNat now)
    (hnow : now ≤ Number.maxSafe) (hi : NoteCarried s i w D action receiptExpiry)
    (hmode : action.val = 2) (href : w.paymentRef 0 ≠ pad "") {e' : Ledger B} :
    (cancelOrExpireNote env e i).map (·.ledger) = .ok e' ↔ ∃ n, ∃ cost : U64,
      RefundGuard w now D receiptExpiry s n ∧ cost.val = n.cost
        ∧ pushEvent { e with
            nullifiers := e.nullifiers ++ [witnessPayment w s]
            notes := Records.change NoteRecord.commitment (fun n => { n with
              refundAcknowledged := true
              refundPaymentNullifier := witnessPayment w s }) D e.notes
            refundReserve := (num s.refundReserve).sub (num cost)
            reportedRefundReserve := (num s.reportedRefundReserve).add (num cost) } = e' := by
  obtain ⟨ack, hack, hc⟩ := hi.refund hmode
  -- mode 2 is the acknowledgement
  have hhandle : ∀ n cost, handleNote env i (.ofNat action.val) D (noteRecord D n) (num cost) e
      = acknowledgeRefund env (w.callerSecret 0) D (noteRecord D n) (num cost) i.receiptExpiry
          (some ack) e := by
    intro n cost
    simp [handleNote, hmode, hi.secret, hack]
  rw [hi.ok_iff hR hin]
  simp only [hhandle, acknowledgeRefund, bind_ok_iff, failIf_ok_iff, present_ok_iff, pure_ok_iff,
    catchFail_ok_iff, hR.isIssuer_iff, deadline_ok_iff hclock hnow hc.expiry, hc.reference,
    hc.identity, hc.salt, hc.amount.assertSafeUint, hR.contractDomain, hR.nullifiers,
    hR.refundReserve, hR.reportedRefundReserve, paymentNullifier_eq, decide_eq_false_iff_not,
    Option.some.injEq, exists_eq_left', exists_const, Except.ok.injEq, not_not, ne_eq,
    Bool.or_eq_false_iff, Bool.not_true]
  have hpay : Line.paymentNullifier (w.callerSecret 0) (w.paymentRef 0) s.contractDomain
      = witnessPayment w s := by
    rw [witnessPayment, hc.again]
  -- the amount that was paid is positive and at most the cost
  have hpositive : ack.amount.eq (.ofNat 0) = false ↔ 0 < (w.repayAmount 0).val := by
    rw [hc.amount.1, num, Number.eq_ofNat, decide_eq_false_iff_not]
    omega
  have hbound : ∀ cost : U64, (num cost).lt ack.amount = false ↔
      (w.repayAmount 0).val ≤ cost.val := by
    intro cost
    rw [hc.amount.1]
    exact num_lt_iff
  -- the refund is opened as the circuit opens it
  have hrefund : ∀ n, s.notes.lookup D = some n →
      refundCommitment s.contractDomain (num n.lineGeneration) (w.noteIdentity 0) D ack.amount
        (w.salt 0) = .ok (Line.refundCommit
          (refundPreimage D n (w.noteIdentity 0) (w.repayAmount 0) s) (w.salt 0)) := by
    intro n hn
    exact refundCommitment_eq ⟨rfl, (hin.notes D n hn).2.2⟩ hc.amount
  simp only [noteRecord, hpositive, hbound, Bool.not_eq_false']
  constructor
  · rintro ⟨-, n, cost, hn, hr, hcost, _, ⟨his, ⟨⟨hcan, hall⟩, howed⟩, hno, hlive,
      ⟨⟨-, hpos⟩, hle⟩, _, ⟨C, hC, rfl⟩, hopen, hfresh, rfl⟩, he⟩
    rw [hrefund n hn, Except.ok.injEq] at hC
    simp only [hpay] at hfresh he
    exact ⟨n, cost, ⟨hn, hr, his, hcan, hall, howed, hno, hlive, hpos, hle.trans_eq hcost,
      hC.trans hopen, href, hfresh⟩, hcost, he⟩
  · rintro ⟨n, cost, g, hcost, he⟩
    have hfresh := g.fresh
    have hle : (w.repayAmount 0).val ≤ cost.val := g.bounded.trans_eq hcost.symm
    rw [← hpay] at hfresh he
    exact ⟨by omega, n, cost, g.found, g.unredeemed, hcost, _, ⟨g.issuer,
      ⟨⟨g.cancelled, g.allocated⟩, g.owed⟩, g.unacknowledged, g.live,
      ⟨⟨trivial, g.positive⟩, hle⟩, _, ⟨_, hrefund n g.found, rfl⟩, g.opening, hfresh, rfl⟩, he⟩

/-- **The engine acknowledges a refund as the contract does.** -/
theorem NoteCarried.acknowledge_matches [Words B] (r : Reaches .canonical h s) (hR : Related e s)
    (hin : InRange s) {i : NoteInput B} {action : Uint 8} {receiptExpiry : U64}
    (hclock : env.clock = .ofNat now) (hnow : now ≤ Number.maxSafe)
    (hi : NoteCarried s i w D action receiptExpiry) (hmode : action.val = 2)
    (href : w.paymentRef 0 ≠ pad "") :
    Matches ((cancelOrExpireNote env e i).map (·.ledger))
      ⟨.cancelOrExpireNote D action receiptExpiry, w, now⟩ s := by
  have hok : ∀ e', (cancelOrExpireNote env e i).map (·.ledger) = .ok e' ↔ _ :=
    fun _ => hi.acknowledge_ok_iff hR hin hclock hnow hmode href
  have hlock := hin.locked r.balanced.solvent
  -- the refunds cover what is owed
  have hcovered : ∀ n, RefundGuard w now D receiptExpiry s n → n.cost ≤ s.refundReserve.val :=
    fun n g => r.refundable_covered g.found ⟨g.cancelled, .inr ⟨g.owed, g.unacknowledged⟩⟩
  constructor
  · intro e' he
    obtain ⟨n, cost, g, -, -⟩ := (hok e').mp he
    have hU := hcovered n g
    have hlt := s.refundReserve.isLt
    unfold Number.maxSafe at hlock
    unfold NoteMeta.cost at hU
    exact ⟨_, .acknowledgeRefund hmode g rfl (by omega) (T := s.totalReserve)
      (U := ⟨s.refundReserve.val - (n.amount.val + n.fee.val), by omega⟩)
      (X := ⟨s.reportedRefundReserve.val + (n.amount.val + n.fee.val), by omega⟩)
      (Nat.sub_add_cancel hU) (fun _ => ⟨rfl, rfl⟩) (by simp)⟩
  · intro s' st
    cases st with
    | expire h0 => omega
    | allocateCurrent h1 => omega
    | allocateOlder h1 => omega
    | @acknowledgeRefund _ _ _ _ _ _ n _ U T X _ g _ hlt hU hcan =>
      obtain ⟨rfl, hX⟩ := hcan rfl
      refine ⟨_, (hok _).mpr ⟨n, ⟨_, hlt⟩, g, rfl, rfl⟩, ?_⟩
      have hXs : X.val ≤ Number.maxSafe := by omega
      have hUs : Safe s.refundReserve := by unfold Safe; omega
      -- the engine sets the two fields that the circuit sets
      have hrecord : { noteRecord D n with
            refundAcknowledged := true
            refundPaymentNullifier := witnessPayment w s }
          = noteRecord D (n.acknowledge (witnessPayment w s)) := by
        simp [noteRecord, NoteMeta.acknowledge, g.unredeemed, g.cancelled, g.allocated, g.owed]
      exact { hR with
        notes := hR.notes.change (fun _ => rfl) g.found hrecord
        nullifiers := mem_spend hR.nullifiers
        refundReserve := num_sub_eq hU hUs
        reportedRefundReserve := num_add_eq hX hXs
        actionClock := hR.tick hin }

/-- An action that is none of the three is refused by both. -/
theorem NoteCarried.unsupported_matches [Words B] (hR : Related e s) (hin : InRange s)
    {i : NoteInput B} {action : Uint 8} {receiptExpiry : U64}
    (hi : NoteCarried s i w D action receiptExpiry) (hmode : 2 < action.val) :
    Matches ((cancelOrExpireNote env e i).map (·.ledger))
      ⟨.cancelOrExpireNote D action receiptExpiry, w, now⟩ s := by
  constructor
  · intro e' he
    obtain ⟨hle, -⟩ := (hi.ok_iff hR hin).mp he
    exact absurd hle (Nat.not_le.mpr hmode)
  · intro s' st
    cases st with
    | expire h0 => omega
    | allocateCurrent h1 => omega
    | allocateOlder h1 => omega
    | acknowledgeRefund h2 => omega

/-- **The engine treats a note as the contract does**, unless an allocation rotates the book to an
epoch that is not a safe integer. -/
theorem NoteCarried.matches_iff [Words B] (r : Reaches .canonical h s) (hR : Related e s)
    (hin : InRange s) {i : NoteInput B} {action : Uint 8} {receiptExpiry : U64}
    (hclock : env.clock = .ofNat now) (hnow : now ≤ Number.maxSafe)
    (hi : NoteCarried s i w D action receiptExpiry)
    (href : action.val = 2 → w.paymentRef 0 ≠ pad "") :
    Matches ((cancelOrExpireNote env e i).map (·.ledger))
      ⟨.cancelOrExpireNote D action receiptExpiry, w, now⟩ s ↔
      (action.val = 1 → EpochLeft w now D s) := by
  by_cases h0 : action.val = 0
  · exact ⟨fun _ h1 => by omega, fun _ => hi.cancel_matches r hR hin hclock hnow h0⟩
  by_cases h1 : action.val = 1
  · rw [hi.allocate_matches_iff r hR hin hclock hnow h1]
    exact ⟨fun hleft _ => hleft, fun hleft => hleft h1⟩
  by_cases h2 : action.val = 2
  · exact ⟨fun _ h1' => by omega, fun _ => hi.acknowledge_matches r hR hin hclock hnow h2 (href h2)⟩
  · exact ⟨fun _ h1' => by omega, fun _ => hi.unsupported_matches hR hin (by omega)⟩

end Line.Engine
