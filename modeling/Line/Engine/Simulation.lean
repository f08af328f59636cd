import Line.Engine.Related

/-!
# The reference engine, operation by operation

`Matches x c s` says that the engine's answer `x` is the contract's to the call `c`:
the engine accepts exactly when there is a step, and is then at the ledger that the
step leads to. Each operation of the engine matches its circuit, four of them under a
condition.

The proofs are alike. First the answer of the engine is taken apart into its tests
(`hok`, or a lemma `ok_iff` where there are many): each test is turned into the test of the
circuit by the lemma about the helper it uses, so that what is left is the guard of the
circuit and the ledger that the engine returns. Then soundness is that the guard makes a
step, and completeness that the step has the guard, with the two ledgers compared field by
field. Sums and differences are the contract's because they are safe, which the solvency of
the reached ledger gives for the budgets; where it does not, there is a condition.
-/

namespace Line.Engine

open Checked

variable {B : Type} [DecidableEq B] [Compact B]

/-- The engine's answer is that of the contract. -/
structure Matches (x : Result (Ledger B)) (c : Call B) (s : Line.Ledger B) : Prop where
  sound : ∀ e', x = .ok e' → ∃ s', Step .canonical c s s'
  complete : ∀ s', Step .canonical c s s' → ∃ e', x = .ok e' ∧ Related e' s'

theorem map_ok_iff {α β : Type} {x : Result α} {f : α → β} {b : β} :
    x.map f = .ok b ↔ ∃ a, x = .ok a ∧ f a = b := by
  cases x <;> simp [Except.map]

omit [DecidableEq B] [Compact B] in
theorem opened_of_status {s : Line.Ledger B} (hs : s.status ≠ .NONE) (x : B) :
    Engine.opened s x = some x := if_neg hs

variable {e : Ledger B} {s s' : Line.Ledger B} {w : Witness B} {now : ℕ} {env : Env B}
  {h : Trace B}

omit [Compact B] in
/-- The clocks of both ledgers tick. -/
theorem Related.tick (hR : Related e s) (hin : InRange s) :
    e.actionClock.add (.ofNat 1) = .ofNat (s.actionClock + 1) := by
  have hclock := hin.actionClock
  unfold Number.maxSafe at hclock
  rw [hR.actionClock, (Number.add_ofNat_iff (by omega)).mpr (.inl (by omega))]

omit [Compact B] in
/-- What is locked is a safe integer, since the total is. -/
theorem InRange.locked (hin : InRange s) (hsol : Line.lockedReserve s ≤ s.totalReserve.val) :
    s.encumberedReserve.val + s.redeemedReserve.val + s.feeReserve.val + s.pendingFeeReserve.val
      + s.refundReserve.val + s.reportedRefundReserve.val ≤ Number.maxSafe :=
  hsol.trans hin.totalReserve

/-- The fee policy of a reachable line passes the engine's check. -/
theorem Related.policy (hR : Related e s) (r : Reaches .canonical h s) (hin : InRange s) :
    badPolicy e.feeFlat e.feeBps = false := by
  have hbps := r.feeBps_le
  have hsafe : Safe s.feeBps := hbps.trans (by decide)
  rw [badPolicy, hR.feeFlat, hR.feeBps, Counts.assertSafeUint ⟨rfl, hin.feeFlat⟩,
    Counts.assertSafeUint ⟨rfl, hsafe⟩, num, Number.lt_ofNat]
  simpa using hbps

/-! ## Registry and reserve -/

/-- **The engine tests the value under the key, the contract the presence of the key**; they
differ on a key that was disabled. -/
theorem registerMerchant_matches (hR : Related e s) (hin : InRange s) {i : MerchantInput B}
    {recipient : UserAddress B} (hc : getCaller i.caller i.callerSk = w.callerSecret 0)
    (hm : IsIssuer w s → s.registeredMerchants.lookup i.merchantPk ≠ some false) :
    Matches (registerMerchant e i) ⟨.registerMerchant i.merchantPk recipient, w, now⟩ s := by
  have hok : ∀ e', registerMerchant e i = .ok e' ↔ IsIssuer w s
      ∧ (s.registeredMerchants.lookup i.merchantPk).getD false = false
      ∧ pushEvent { e with
          registeredMerchants := s.registeredMerchants.insert i.merchantPk true } = e' := by
    intro e'
    simp only [registerMerchant, bind_ok_iff, failIf_ok_iff, pure_ok_iff, hc, hR.isIssuer_iff,
      hR.registeredMerchants, exists_const]
  -- for a key that is not there disabled, the value and the presence say the same
  have hmem : IsIssuer w s → ((s.registeredMerchants.lookup i.merchantPk).getD false = false ↔
      i.merchantPk ∉ s.registeredMerchants) := by
    intro hi
    have hne := hm hi
    rw [← Finmap.lookup_eq_none]
    cases hl : s.registeredMerchants.lookup i.merchantPk with
    | none => simp
    | some b =>
      cases b with
      | true => simp
      | false => exact absurd hl hne
  constructor
  · intro e' he
    obtain ⟨hi, hl, -⟩ := (hok e').mp he
    exact ⟨_, .registerMerchant hi ((hmem hi).mp hl)⟩
  · intro s' st
    cases st with
    | registerMerchant hi hl =>
      refine ⟨_, (hok _).mpr ⟨hi, (hmem hi).mpr hl, rfl⟩, ?_⟩
      exact { hR with registeredMerchants := rfl, actionClock := hR.tick hin }

/-- The key of a disabled merchant is accepted by the engine and refused by the contract. -/
theorem registerMerchant_disabled (hR : Related e s) {i : MerchantInput B}
    {recipient : UserAddress B} (hc : getCaller i.caller i.callerSk = w.callerSecret 0)
    (hi : IsIssuer w s) (hl : s.registeredMerchants.lookup i.merchantPk = some false) :
    ¬ Matches (registerMerchant e i) ⟨.registerMerchant i.merchantPk recipient, w, now⟩ s := by
  intro hm
  obtain ⟨s', st⟩ := hm.sound (pushEvent { e with
      registeredMerchants := s.registeredMerchants.insert i.merchantPk true }) (by
    simp only [registerMerchant, bind_ok_iff, failIf_ok_iff, pure_ok_iff, hc, hR.isIssuer_iff,
      hR.registeredMerchants, hl, exists_const]
    exact ⟨hi, rfl, trivial⟩)
  cases st with
  | registerMerchant _ hno =>
    rw [← Finmap.lookup_eq_none, hl] at hno
    cases hno

theorem disableMerchant_matches (hR : Related e s) (hin : InRange s) {caller M : B}
    (hc : caller = w.callerSecret 0) :
    Matches (disableMerchant e caller M) ⟨.disableMerchant M, w, now⟩ s := by
  have hok : ∀ e', disableMerchant e caller M = .ok e' ↔ IsIssuer w s
      ∧ M ∈ s.registeredMerchants
      ∧ pushEvent { e with
          registeredMerchants := s.registeredMerchants.insert M false } = e' := by
    intro e'
    simp only [disableMerchant, bind_ok_iff, failIf_ok_iff, pure_ok_iff, hc, hR.isIssuer_iff,
      hR.registeredMerchants, decide_eq_false_iff_not, not_not, exists_const]
  constructor
  · intro e' he
    obtain ⟨hi, hM, -⟩ := (hok e').mp he
    exact ⟨_, .disableMerchant hi hM⟩
  · intro s' st
    cases st with
    | disableMerchant hi hM =>
      refine ⟨_, (hok _).mpr ⟨hi, hM, rfl⟩, ?_⟩
      exact { hR with registeredMerchants := rfl, actionClock := hR.tick hin }

/-- The engine funds as the contract does, unless the sum is lost to rounding. -/
theorem fundReserve_matches_iff (hR : Related e s) (hin : InRange s) {i : AmountInput B} {a : U64}
    (hc : getCaller i.caller i.callerSk = w.callerSecret 0) (ha : Counts i.amount a) :
    Matches (fundReserve e i) ⟨.fundReserve a, w, now⟩ s ↔
      (IsIssuer w s → 0 < a.val → Number.Exact (s.totalReserve.val + a.val)) := by
  have htot := hin.totalReserve
  have hsafe := ha.2
  unfold Safe Number.maxSafe at htot hsafe
  have hok : ∀ e', fundReserve e i = .ok e' ↔ IsIssuer w s ∧ 0 < a.val
      ∧ (∃ z, bigInt ((num s.totalReserve).add (num a)) = .ok z ∧ z ≤ UINT64_MAX
        ∧ pushEvent { e with totalReserve := (num s.totalReserve).add (num a) } = e') := by
    intro e'
    simp only [fundReserve, bind_ok_iff, failIf_ok_iff, pure_ok_iff, hc, hR.isIssuer_iff,
      ha.positive_iff, exists_const, decide_eq_false_iff_not, not_lt]
    rw [ha.1, hR.totalReserve]
  -- the engine's sum is the contract's, if it is a number at all
  have hexact : (num s.totalReserve).add (num a) = .ofNat (s.totalReserve.val + a.val) ↔
      Number.Exact (s.totalReserve.val + a.val) := Number.add_ofNat_iff (by omega)
  have hT : s.totalReserve.val + a.val < 2 ^ 64 := by omega
  constructor
  -- a call that both accept leaves related totals, so the sum was exact
  · intro hm hi hpos
    obtain ⟨e', he, hrel⟩ := hm.complete _ (.fundReserve hi hpos (T := ⟨_, hT⟩) rfl)
    obtain ⟨-, -, z, -, -, rfl⟩ := (hok e').mp he
    exact hexact.mp hrel.totalReserve
  -- and where it is exact the call goes the same way on both sides
  · intro hx
    constructor
    · intro e' he
      obtain ⟨hi, hpos, -⟩ := (hok e').mp he
      exact ⟨_, .fundReserve hi hpos (T := ⟨_, hT⟩) rfl⟩
    · intro s' st
      cases st with
      | @fundReserve _ _ _ _ T hi hpos hsum =>
        have hadd := hexact.mpr (hx hi hpos)
        have hnext : (num s.totalReserve).add (num a) = num T := by
          rw [hadd, num, hsum]
        refine ⟨_, (hok _).mpr ⟨hi, hpos, (s.totalReserve.val + a.val : ℕ), ?_, ?_, rfl⟩, ?_⟩
        · rw [hadd, bigInt, Number.toBigInt_ofNat]
          rfl
        · unfold UINT64_MAX
          omega
        · exact { hR with totalReserve := hnext, actionClock := hR.tick hin }

theorem withdrawUnencumberedReserve_matches (r : Reaches .canonical h s) (hR : Related e s)
    (hin : InRange s) {i : AmountInput B} {a : U64}
    (hc : getCaller i.caller i.callerSk = w.callerSecret 0) (ha : Counts i.amount a) :
    Matches (withdrawUnencumberedReserve e i) ⟨.withdrawUnencumberedReserve a, w, now⟩ s := by
  have hsol := r.balanced.solvent
  have htot := hin.totalReserve
  have hok : ∀ e', withdrawUnencumberedReserve e i = .ok e' ↔ IsIssuer w s ∧ 0 < a.val
      ∧ a.val ≤ s.totalReserve.val - Line.lockedReserve s
      ∧ pushEvent { e with totalReserve := (num s.totalReserve).sub (num a) } = e' := by
    intro e'
    simp only [withdrawUnencumberedReserve, bind_ok_iff, failIf_ok_iff, pure_ok_iff, hc,
      hR.isIssuer_iff, ha.positive_iff, hR.lockedReserve hsol htot, exists_const]
    rw [ha.1, hR.totalReserve, num, num, Number.sub_ofNat hsol htot, Number.lt_ofNat,
      decide_eq_false_iff_not, not_lt]
  constructor
  · intro e' he
    obtain ⟨hi, hpos, hle, -⟩ := (hok e').mp he
    have hlt := s.totalReserve.isLt
    exact ⟨_, .withdrawUnencumberedReserve hi hpos (by omega) rfl
      (T := ⟨s.totalReserve.val - a.val, by omega⟩) (by simp only; omega)⟩
  · intro s' st
    cases st with
    | @withdrawUnencumberedReserve _ _ _ _ T _ hi hpos hle hpay hT =>
      refine ⟨_, (hok _).mpr ⟨hi, hpos, by omega, rfl⟩, ?_⟩
      exact { hR with totalReserve := num_sub_eq hT htot, actionClock := hR.tick hin }

theorem withdrawFees_matches (r : Reaches .canonical h s) (hR : Related e s) (hin : InRange s)
    {caller : B} (hc : caller = w.callerSecret 0) :
    Matches ((withdrawFees e caller).map (·.ledger)) ⟨.withdrawFees, w, now⟩ s := by
  have hsol := r.balanced.solvent
  have htot := hin.totalReserve
  have hok : ∀ e', (withdrawFees e caller).map (·.ledger) = .ok e' ↔ IsIssuer w s
      ∧ 0 < s.feeReserve.val
      ∧ pushEvent { e with
          totalReserve := (num s.totalReserve).sub (num s.feeReserve)
          feeReserve := .ofNat 0 } = e' := by
    intro e'
    simp only [map_ok_iff, withdrawFees, bind_ok_iff, failIf_ok_iff, pure_ok_iff, hc,
      hR.isIssuer_iff, hR.feeReserve, hR.totalReserve, hR.lockedReserve hsol htot, exists_const]
    have hpositive : (num s.feeReserve).le (.ofNat 0) = false ↔ 0 < s.feeReserve.val := by
      rw [num, Number.le_ofNat, decide_eq_false_iff_not, not_le]
    -- the engine also asks for a covered reserve, which a reached ledger has
    have hcovered : (num s.totalReserve).lt (.ofNat (Line.lockedReserve s)) = false := by
      rw [num, Number.lt_ofNat, decide_eq_false_iff_not, not_lt]
      exact hsol
    rw [hpositive, hcovered]
    constructor
    · rintro ⟨_, ⟨hi, hf, -, rfl⟩, he⟩
      exact ⟨hi, hf, he⟩
    · rintro ⟨hi, hf, he⟩
      exact ⟨_, ⟨hi, hf, rfl, rfl⟩, he⟩
  -- the fees are part of what is locked
  have hle : s.feeReserve.val ≤ s.totalReserve.val := by
    unfold Line.lockedReserve at hsol
    omega
  have hlt := s.totalReserve.isLt
  constructor
  · intro e' he
    obtain ⟨hi, hf, -⟩ := (hok e').mp he
    exact ⟨_, .withdrawFees hi hf hsol rfl (T := ⟨s.totalReserve.val - s.feeReserve.val, by omega⟩)
      (Nat.sub_add_cancel hle)⟩
  · intro s' st
    cases st with
    | @withdrawFees _ _ _ T _ hi hf _ _ hT =>
      refine ⟨_, (hok _).mpr ⟨hi, hf, rfl⟩, ?_⟩
      exact { hR with
        totalReserve := num_sub_eq hT htot, feeReserve := rfl, actionClock := hR.tick hin }

/-! ## Line and quotes -/

theorem OpenCarried.matches (hR : Related e s) (hin : InRange s) {i : OpenLineInput B}
    {limit : Option Number} {expiry flatFee basisPoints : U64}
    (hclock : env.clock = .ofNat now) (hnow : now ≤ Number.maxSafe)
    (hi : OpenCarried env i limit w expiry flatFee basisPoints) :
    Matches ((openLine env e i limit).map (·.ledger))
      ⟨.openLine expiry flatFee basisPoints, w, now⟩ s := by
  -- of the policy only the rate is left to test, the rest are counts
  have hpolicy : badPolicy (i.feeFlat.getD (.ofNat 0)) (i.feeBps.getD (.ofNat 0)) = false ↔
      basisPoints.val ≤ 10000 := by
    rw [badPolicy, hi.flat.assertSafeUint, hi.bps.assertSafeUint, hi.bps.1, num, Number.lt_ofNat]
    simp
  have hzero : Counts (.ofNat 0) (.zero 64) := ⟨rfl, Nat.zero_le _⟩
  have hok : ∀ e', (openLine env e i limit).map (·.ledger) = .ok e' ↔
      OpenGuard w now expiry basisPoints s
      ∧ pushEvent { e with
          identityCommitment := some (Line.agentId (w.agentSecret 0))
          lineCommitment := some (Line.lineStateCommit ⟨s.contractDomain,
            Line.agentId (w.agentSecret 0), w.lineLimit 0, .zero 64, .zero 64⟩ (w.salt 0))
          lineExpiry := num expiry
          feeFlat := num flatFee
          feeBps := num basisPoints
          status := .OPEN
          lineGeneration := (num s.lineGeneration).add (.ofNat 1) } = e' := by
    intro e'
    simp only [map_ok_iff, openLine, bind_ok_iff, failIf_ok_iff, pure_ok_iff, hi.caller,
      hR.isIssuer_iff, hi.limit.positive_iff, deadline_ok_iff hclock hnow hi.expiry, hpolicy,
      lineCommitment_eq hi.limit hzero hzero, hR.status, hR.contractDomain, hR.lineGeneration,
      hi.agent, hi.salt, identityCommitment, agentId_eq, exists_const]
    rw [hi.expiry.1, hi.flat.1, hi.bps.1]
    -- a line is opened where there is none, or a closed one
    have hstatus : (decide (s.status ≠ .NONE) && decide (s.status ≠ .CLOSED)) = false ↔
        s.status = .NONE ∨ s.status = .CLOSED := by
      cases s.status <;> simp
    rw [hstatus]
    constructor
    · rintro ⟨_, ⟨his, hlim, hlate, hst, hrate, _, ⟨⟩, rfl⟩, he⟩
      exact ⟨⟨his, hst, hlim, hlate, hrate⟩, he⟩
    · rintro ⟨g, he⟩
      exact ⟨_, ⟨g.issuer, g.limit, g.deadline, g.status, g.rate, _, rfl, rfl⟩, he⟩
  have hgen := hin.lineGeneration
  unfold Safe Number.maxSafe at hgen
  constructor
  · intro e' he
    obtain ⟨g, -⟩ := (hok e').mp he
    exact ⟨_, .openLine g (g := ⟨s.lineGeneration.val + 1, by omega⟩) rfl⟩
  · intro s' st
    cases st with
    | @openLine _ _ _ _ _ _ g' g hg =>
      refine ⟨_, (hok _).mpr ⟨g, rfl⟩, ?_⟩
      -- the generation goes up by one, and is safe below the bound
      have hnext : (num s.lineGeneration).add (.ofNat 1) = num g' := by
        rw [num, (Number.add_ofNat_iff (by omega)).mpr (.inl (by omega)), num, hg]
      exact { hR with
        identityCommitment := rfl
        lineCommitment := rfl
        lineExpiry := rfl
        feeFlat := rfl
        feeBps := rfl
        status := rfl
        lineGeneration := hnext
        actionClock := hR.tick hin }

theorem QuoteCarried.matches (r : Reaches .canonical h s) (hR : Related e s) (hin : InRange s)
    {i : PostQuoteInput B} {amount : Option Number} {expiry : U64}
    (hclock : env.clock = .ofNat now) (hnow : now ≤ Number.maxSafe)
    (hi : QuoteCarried env i amount w expiry) :
    Matches ((postQuote env e i amount).map (·.ledger)) ⟨.postQuote expiry, w, now⟩ s := by
  -- the policy was tested when the line was opened, and is not refused now
  have hpolicy := hR.policy r hin
  have hbps : Counts (num s.feeBps) s.feeBps := ⟨rfl, r.feeBps_le.trans (by decide)⟩
  have hok : ∀ e', (postQuote env e i amount).map (·.ledger) = .ok e' ↔
      QuoteGuard w now expiry s
      ∧ pushEvent { e with
          quotes := e.quotes ++ [quoteRecord (witnessQuote w expiry s)
            ⟨expiry, s.lineGeneration, false⟩] } = e' := by
    intro e'
    simp only [map_ok_iff, postQuote]
    rw [hi.caller]
    simp only [bind_ok_iff, failIf_ok_iff, pure_ok_iff, hi.amount.positive_iff,
      deadline_ok_iff hclock hnow hi.expiry, hpolicy, hR.status, hR.registeredMerchants, hi.invoice,
      hi.nonce, hR.quotes.any_eq_false_iff, decide_eq_false_iff_not, not_not, exists_const]
    rw [hR.lineGeneration, hR.contractDomain, hR.feeFlat, hR.feeBps, quoteCommitment_eq hi.amount
      hi.expiry ⟨rfl, hin.lineGeneration⟩ ⟨rfl, hin.feeFlat⟩ hbps, hi.expiry.1]
    -- the tests of the engine are those of the circuit
    constructor
    · rintro ⟨_, ⟨-, hm, hst, hpos, hlate, -, _, ⟨⟩, hfree, rfl⟩, he⟩
      exact ⟨⟨hm, hst, hpos, hlate, hfree⟩, he⟩
    · rintro ⟨g, he⟩
      exact ⟨_, ⟨Finmap.mem_of_lookup_eq_some g.enabled, g.enabled, g.status, g.positive,
        g.deadline, trivial, _, rfl, g.fresh, rfl⟩, he⟩
  constructor
  · intro e' he
    obtain ⟨g, -⟩ := (hok e').mp he
    exact ⟨_, .postQuote g⟩
  · intro s' st
    cases st with
    | postQuote g =>
      refine ⟨_, (hok _).mpr ⟨g, rfl⟩, ?_⟩
      exact { hR with
        quotes := hR.quotes.push (fun _ _ => rfl) g.fresh
        actionClock := hR.tick hin }

/-! ## Draws -/

/-- The fee that the engine computes is the one that the contract brackets. -/
theorem expectedFee_ok_iff {A flat bps : Number} {amount feeFlat feeBps : U64} {x : ℤ}
    {code reason : String} (ha : Counts A amount) (hf : Counts flat feeFlat)
    (hb : Counts bps feeBps) (hrate : feeBps.val ≤ 10000) :
    catchFail code reason (do
      let amount ← u64 A
      let flat ← u64 flat
      let bps ← u64 bps
      requiredDrawFee amount.val flat.val bps.val) = .ok x ↔
      x = requiredFee feeFlat feeBps amount ∧ x < 2 ^ 64 := by
  simp only [catchFail_ok_iff, bind_ok_iff, ha.u64, hf.u64, hb.u64]
  constructor
  · rintro ⟨_, ⟨⟩, _, ⟨⟩, _, ⟨⟩, hx⟩
    exact (requiredDrawFee_ok_iff hrate).mp hx
  · intro hx
    exact ⟨_, rfl, _, rfl, _, rfl, (requiredDrawFee_ok_iff hrate).mpr hx⟩

omit [Compact B] in
/-- Both ledgers spend the nullifier. -/
theorem mem_spend {l : List B} {f : Finset B} {N : B} (h : ∀ n, n ∈ l ↔ n ∈ f) (n : B) :
    n ∈ l ++ [N] ↔ n ∈ insert N f := by
  rw [List.mem_append, List.mem_singleton, Finset.mem_insert, h n, or_comm]

/-- The ledger of the engine after a draw. -/
def drawnLedger (e : Ledger B) (s : Line.Ledger B) (w : Witness B) (Q : B)
    (noteExpiry fee b ep : U64) : Ledger B :=
  pushEvent { e with
    quotes := Records.change QuoteRecord.commitment (fun q => { q with used := true }) Q e.quotes
    lineCommitment := some (Line.lineStateCommit
      ⟨s.contractDomain, s.identityCommit, w.lineLimit 0, b, ep⟩ (w.newSalt 0))
    nullifiers := e.nullifiers ++ [Line.drawNullifier (w.agentSecret 0) Q s.contractDomain]
    encumberedReserve := (num s.encumberedReserve).add (num (w.drawAmount 0))
    pendingFeeReserve := (num s.pendingFeeReserve).add (num fee)
    notes := e.notes ++ [noteRecord (drawnNote w Q noteExpiry fee s)
      (.drawn (w.drawAmount 0) fee noteExpiry s.lineGeneration)] }

theorem DrawCarried.ok_iff (r : Reaches .canonical h s) (hR : Related e s) (hin : InRange s)
    {i : DrawInput B} {witness : Option (DrawWitness B)} {Q : B} {noteExpiry fee : U64}
    {book : LineWitness B} {wq : QuotePreimage B}
    (hclock : env.clock = .ofNat now) (hnow : now ≤ Number.maxSafe)
    (hi : DrawCarried env s i witness w Q noteExpiry fee book wq) (hs : s.status = .OPEN)
    (hI : book.I = Line.agentId (w.agentSecret 0)) {e' : Ledger B} :
    (draw env e i witness).map (·.ledger) = .ok e' ↔
      ∃ quote, DrawGuard .canonical w now Q noteExpiry fee s quote
        ∧ ∃ b ep : U64, b.val = (w.lineOutstanding 0).val + ((w.drawAmount 0).val + fee.val)
          ∧ Safe ep ∧ ep.val = (w.lineEpoch 0).val + 1
          ∧ drawnLedger e s w Q noteExpiry fee b ep = e' := by
  have hne : s.status ≠ .NONE := by simp [hs]
  have hsol := r.balanced.solvent
  have hflat : Counts (num s.feeFlat) s.feeFlat := ⟨rfl, hin.feeFlat⟩
  have hbps : Counts (num s.feeBps) s.feeBps := ⟨rfl, r.feeBps_le.trans (by decide)⟩
  have hgen : Counts (num s.lineGeneration) s.lineGeneration := ⟨rfl, hin.lineGeneration⟩
  have hpolicy := hR.policy r hin
  rw [hR.feeFlat, hR.feeBps] at hpolicy
  -- test by test, with what the call carries in the place of the input
  simp only [map_ok_iff, draw, drawnLedger, bind_ok_iff, failIf_ok_iff, present_ok_iff, pure_ok_iff,
    executionUnixSeconds_eq hclock hnow, hi.secret, hi.books, hi.opening, hR.status, hs,
    hpolicy, hR.contractDomain, hi.commitment, hR.quotes Q, hR.lineExpiry,
    hR.identityCommitment, hR.lineCommitment, opened_of_status hne,
    hi.fee.assertSafeUint, hR.registeredMerchants, hR.lockedReserve hsol hin.totalReserve,
    hR.notes.any_eq_false_iff, hR.nullifiers, hi.book.opens_ok_iff hI, hI,
    identityCommitment, agentId_eq, hi.noteNonce, hi.noteSalt, hi.newSalt, hi.merchant, hi.invoice,
    hi.nonce, hR.totalReserve, hR.lineGeneration, hR.feeFlat, hR.feeBps, hR.encumberedReserve,
    hR.pendingFeeReserve, expectedFee_ok_iff hi.amount hflat hbps r.feeBps_le, hi.fee.u64,
    drawNullifier_eq,
    decide_eq_false_iff_not, not_not, exists_const, Except.ok.injEq, Option.some.injEq,
    exists_eq_left', exists_eq_left, true_and, Option.map_eq_some_iff,
    exists_exists_and_eq_and, Option.isNone_some, Bool.not_true, quoteRecord, Bool.not_eq_false',
    Bool.or_eq_false_iff, ne_eq]
  rw [hi.amount.1, hi.fee.1, hi.book.outstanding.1, hi.book.limit.1, hi.book.epoch.1]
  have hamount : Counts (num (w.drawAmount 0)) (w.drawAmount 0) := ⟨rfl, hi.amount.2⟩
  have hfee : Counts (num fee) fee := ⟨rfl, hi.fee.2⟩
  have hlimit : Counts (num (w.lineLimit 0)) (w.lineLimit 0) := ⟨rfl, hi.book.limit.2⟩
  have hepoch : Counts (num (w.lineEpoch 0)) (w.lineEpoch 0) := ⟨rfl, hi.book.epoch.2⟩
  -- what the engine accepts has the guard
  constructor
  · rintro ⟨_, ⟨hlive, hagent, hst, quote, hq, hu, hqx, hqg, ⟨-, hpos⟩, Q', hrecon, hQ, hM, x,
      ⟨hx, -⟩, -, hfx, hcost, hnextB, hcap, -, hfree, hterms, ⟨-, hlate⟩, hN, D, hD, hnew, C, hC,
      rfl⟩, he⟩
    obtain ⟨hqxs, hqgs⟩ := hin.quotes Q quote hq
    have hnx := hi.noteExpiry quote hq
    have hsame : quote.lineGeneration = s.lineGeneration := num_eq_iff.mp hqg
    rw [hnx.1] at hterms hlate hD he
    have hexp : noteExpiry = quote.expiry := num_eq_iff.mp hterms
    -- the sums are safe, so they are the sums of the contract
    have hcost' := safe_add_iff.mp hcost
    rw [num_add hcost'] at hnextB hcap hfree hC
    have hnextB' := safe_add_iff.mp hnextB
    rw [num_add_ofNat hnextB'] at hcap hC
    rw [num_sub hsol hin.totalReserve, Number.lt_ofNat, decide_eq_false_iff_not, not_lt] at hfree
    rw [num, Number.lt_ofNat, decide_eq_false_iff_not, not_lt] at hcap
    have hb64 := lt_of_le_of_lt hcap (w.lineLimit 0).isLt
    have hb : Counts (.ofNat _) (⟨_, hb64⟩ : U64) := ⟨rfl, hnextB'⟩
    -- the book of the next epoch is encoded, so the epoch is safe
    obtain ⟨ep, hes, hep, rfl⟩ := (lineCommitment_next_ok_iff hlimit hb hepoch).mp hC
    rw [quoteCommitment_eq hamount ⟨rfl, hqxs⟩ ⟨rfl, hqgs⟩ hflat hbps, Except.ok.injEq, hQ,
      hsame] at hrecon
    rw [drawNoteCommitment_eq hgen hamount hfee ⟨rfl, hnx.2⟩, Except.ok.injEq] at hD
    subst hD
    have hprice : fee.val = requiredFee s.feeFlat s.feeBps (w.drawAmount 0) := by
      exact_mod_cast hfx.trans hx
    have hst' := of_decide_eq_true hst
    rw [hagent] at hst' hnew he
    refine ⟨quote, ⟨hs, num_le_iff.mp hlive, hagent, hst', hq, hu,
      num_le_iff.mp hqx, hsame, hrecon, hM, num_le_iff.mp hpos, hprice, hcap, by omega, rfl, hexp,
      hN, hnew⟩, ⟨_, hb64⟩, ep, rfl, hes, hep, he⟩
  -- and the guard passes the tests, with safe sums throughout
  · rintro ⟨quote, g, b, ep, hb, hes, hep, he⟩
    obtain ⟨hqxs, hqgs⟩ := hin.quotes Q quote g.found
    have hnx := hi.noteExpiry quote g.found
    have hcap := g.capacity
    have hres := g.reserve
    have hlim : (w.lineLimit 0).val ≤ Number.maxSafe := hi.book.limit.2
    have hsum : (num (w.drawAmount 0)).add (num fee) = .ofNat ((w.drawAmount 0).val + fee.val) :=
      num_add (by omega)
    have hnextB := num_add_ofNat (a := w.lineOutstanding 0) (k := (w.drawAmount 0).val + fee.val)
      (by omega)
    have hbs : Counts ((num (w.lineOutstanding 0)).add ((num (w.drawAmount 0)).add (num fee))) b :=
      ⟨by rw [hsum, hnextB, num, hb], by unfold Safe; omega⟩
    have hrecon := g.recon
    rw [← g.generation] at hrecon
    have hD := g.free
    rw [drawnNote, drawnPreimage, ← g.agent] at hD
    have hst := g.stale
    rw [witnessBook, ← g.agent] at hst
    refine ⟨_, ⟨num_le_iff.mpr g.lineLive, g.agent, decide_eq_true hst, quote, g.found, g.unused,
      num_le_iff.mpr g.quoteLive, num_eq_iff.mpr g.generation,
      ⟨hamount.assertSafeUint, num_le_iff.mpr g.positive⟩, _,
      quoteCommitment_eq hamount ⟨rfl, hqxs⟩ ⟨rfl, hqgs⟩ hflat hbps, hrecon, g.merchant, _,
      ⟨rfl, ?_⟩, ?_, ?_, ?_, ?_, ?_, ?_, ?_, ?_, ?_, g.fresh, _,
      drawNoteCommitment_eq hgen hamount hfee hnx, hD, _,
      (lineCommitment_next_ok_iff hlimit hbs hepoch).mpr ⟨ep, hes, hep, rfl⟩, rfl⟩, ?_⟩
    · rw [← g.priced]
      exact_mod_cast fee.isLt
    · rw [← g.priced]
      exact_mod_cast not_lt.mpr hi.fee.2
    · rw [g.priced]
    · exact safe_add_iff.mpr (by omega)
    · rw [hsum]
      exact safe_add_iff.mpr (by omega)
    · rw [hsum, hnextB, num, Number.lt_ofNat]
      exact decide_eq_false (by omega)
    · rw [num, Number.lt_ofNat]
      exact decide_eq_false (by omega)
    · rw [hsum, num_sub hsol hin.totalReserve, Number.lt_ofNat]
      exact decide_eq_false (by omega)
    · rw [hnx.1, g.terms]
      exact num_eq_iff.mpr rfl
    · rw [hnx.1]
      exact ⟨Counts.assertSafeUint ⟨rfl, hnx.2⟩, num_le_iff.mpr (g.terms ▸ g.quoteLive)⟩
    · rw [g.agent, hnx.1]
      exact he

/-- A draw on a book with another name than the caller's is refused. -/
theorem draw_stranger {i : DrawInput B} {witness : Option (DrawWitness B)} {k : B}
    {book : LineWitness B} (hsecret : i.secret = some k) (hbook : i.books witness = some book)
    (hI : book.I ≠ Line.agentId k) {e' : Ledger B} :
    (draw env e i witness).map (·.ledger) ≠ .ok e' := by
  intro he
  simp only [map_ok_iff, draw, bind_ok_iff, failIf_ok_iff, present_ok_iff, hsecret, hbook,
    Option.some.injEq, exists_const, exists_eq_left', Bool.or_eq_false_iff,
    decide_eq_false_iff_not, not_not, ne_eq] at he
  obtain ⟨_, ⟨_, -, -, -, -, ⟨hname, -⟩, -⟩, -⟩ := he
  exact hI hname.symm

/-- **The engine draws as the contract does**, unless the next epoch is not a safe integer. -/
theorem DrawCarried.matches_iff (r : Reaches .canonical h s) (hR : Related e s) (hin : InRange s)
    {i : DrawInput B} {witness : Option (DrawWitness B)} {Q : B} {noteExpiry fee : U64}
    {book : LineWitness B} {wq : QuotePreimage B}
    (hclock : env.clock = .ofNat now) (hnow : now ≤ Number.maxSafe)
    (hi : DrawCarried env s i witness w Q noteExpiry fee book wq) :
    Matches ((draw env e i witness).map (·.ledger)) ⟨.draw Q noteExpiry fee, w, now⟩ s ↔
      ∀ quote, DrawGuard .canonical w now Q noteExpiry fee s quote →
        (w.lineEpoch 0).val + 1 ≤ Number.maxSafe := by
  have hep : (w.lineEpoch 0).val + 1 < 2 ^ 64 :=
    lt_of_le_of_lt (Nat.succ_le_succ hi.book.epoch.2) (by decide)
  have hsol := r.balanced.solvent
  have htot := s.totalReserve.isLt
  have htotSafe : s.totalReserve.val ≤ Number.maxSafe := hin.totalReserve
  unfold Line.lockedReserve at hsol
  -- the guard makes a step: the sums of the circuit fit 64 bits
  have hstep : ∀ quote, DrawGuard .canonical w now Q noteExpiry fee s quote →
      ∃ s', Step .canonical ⟨.draw Q noteExpiry fee, w, now⟩ s s' := by
    intro quote g
    have hres := g.reserve
    have hcap := g.capacity
    have hlim := (w.lineLimit 0).isLt
    unfold Line.lockedReserve at hres
    exact ⟨_, .draw g (E := ⟨s.encumberedReserve.val + (w.drawAmount 0).val, by omega⟩)
      (P := ⟨s.pendingFeeReserve.val + fee.val, by omega⟩)
      (b := ⟨(w.lineOutstanding 0).val + ((w.drawAmount 0).val + fee.val), by omega⟩)
      (e := ⟨(w.lineEpoch 0).val + 1, hep⟩) rfl rfl rfl rfl⟩
  -- whoever passes the circuit shows its own name
  have hname : ∀ quote, DrawGuard .canonical w now Q noteExpiry fee s quote →
      book.I = Line.agentId (w.agentSecret 0) := fun quote g => hi.book.identity g.agent g.stale
  constructor
  -- a draw that the engine makes as well has encoded its next epoch
  · intro hm quote g
    obtain ⟨s', st⟩ := hstep quote g
    obtain ⟨e', he, -⟩ := hm.complete s' st
    obtain ⟨_, -, _, ep, -, hes, hnext, -⟩ :=
      (hi.ok_iff r hR hin hclock hnow g.status (hname quote g)).mp he
    exact hnext ▸ hes
  · intro hepoch
    constructor
    · intro e' he
      -- what the engine accepts shows the name of the caller
      have hI : book.I = Line.agentId (w.agentSecret 0) := by
        by_contra hI
        exact draw_stranger hi.secret hi.books hI he
      by_cases hs : s.status = .OPEN
      · obtain ⟨quote, g, -⟩ := (hi.ok_iff r hR hin hclock hnow hs hI).mp he
        exact hstep quote g
      · simp [map_ok_iff, draw, hR.status, hs] at he
    · intro s' st
      cases st with
      | @draw _ _ _ _ _ _ quote E P b ep g hE hP hb hnext =>
        have hres := g.reserve
        unfold Line.lockedReserve at hres
        have hes : Safe ep := le_of_eq_of_le hnext (hepoch quote g)
        refine ⟨_, (hi.ok_iff r hR hin hclock hnow g.status (hname quote g)).mpr
          ⟨quote, g, b, ep, hb, hes, hnext, rfl⟩, ?_⟩
        have hEs : E.val ≤ Number.maxSafe := by omega
        have hPs : P.val ≤ Number.maxSafe := by omega
        have hne : s.status ≠ .NONE := by simp [g.status]
        exact { hR with
          quotes := hR.quotes.change (fun _ => rfl) g.found rfl
          lineCommitment := (opened_of_status hne _).symm
          nullifiers := mem_spend hR.nullifiers
          encumberedReserve := num_add_eq hE hEs
          pendingFeeReserve := num_add_eq hP hPs
          notes := hR.notes.push (fun _ _ => rfl) g.free
          actionClock := hR.tick hin }

/-! ## Notes -/

/-- **The engine redeems as the contract does.** -/
theorem RedeemCarried.matches (r : Reaches .canonical h s) (hR : Related e s) (hin : InRange s)
    {i : RedeemInput B} {note : Option (DrawNotePreimage B)} {D : B} {noteExpiry : U64}
    {pre : DrawNotePreimage B} (hclock : env.clock = .ofNat now) (hnow : now ≤ Number.maxSafe)
    (hi : RedeemCarried s i note w D noteExpiry pre) :
    Matches ((redeemDraw env e i note).map (·.ledger)) ⟨.redeemDraw D noteExpiry, w, now⟩ s := by
  have hok : ∀ e', (redeemDraw env e i note).map (·.ledger) = .ok e' ↔
      ∃ n, RedeemGuard w now D noteExpiry s n
        ∧ pushEvent { e with
            notes := Records.change NoteRecord.commitment (fun n => { n with redeemed := true }) D
              e.notes
            nullifiers := e.nullifiers
              ++ [Line.redeemNullifier (w.callerSecret 1) D s.contractDomain]
            encumberedReserve := (num s.encumberedReserve).sub (num n.amount)
            redeemedReserve := (num s.redeemedReserve).add (num n.amount)
            pendingFeeReserve := (num s.pendingFeeReserve).sub (num n.fee)
            feeReserve := (num s.feeReserve).add (num n.fee) } = e' := by
    intro e'
    by_cases hkey : pre.merchantPk = Line.merchantPublicKey (w.callerSecret 0)
    swap
    · -- another merchant's note: both sides refuse it
      constructor
      · simp only [map_ok_iff, redeemDraw, bind_ok_iff, failIf_ok_iff, present_ok_iff,
          hi.commitment, hi.preimage, hi.secret, Option.some.injEq, exists_const, exists_eq_left',
          decide_eq_false_iff_not, not_not, ne_eq, merchantPublicKey_eq]
        rintro ⟨_, ⟨_, -, -, -, _, -, -, hkey', -⟩, -⟩
        exact absurd hkey'.symm hkey
      · rintro ⟨n, g, -⟩
        exact absurd (hi.merchant n g.found g.opening) hkey
    simp only [map_ok_iff, redeemDraw, bind_ok_iff, failIf_ok_iff, present_ok_iff, pure_ok_iff,
      executionUnixSeconds_eq hclock hnow, hi.commitment, hi.preimage, hi.secret, hi.again,
      hkey, hi.identity, hi.quote, hi.nonce, hi.salt, hi.amount.1, hR.notes D,
      hR.nullifiers, hR.contractDomain, hR.encumberedReserve, hR.redeemedReserve,
      hR.pendingFeeReserve, hR.feeReserve, merchantPublicKey_eq, redeemNullifier_eq,
      decide_eq_false_iff_not, not_not, exists_const, Except.ok.injEq, Option.some.injEq,
      exists_eq_left', true_and, Option.map_eq_some_iff, exists_exists_and_eq_and,
      noteRecord, ne_eq, Bool.not_eq_false']
    constructor
    · rintro ⟨_, ⟨n, hn, hr, hc, hx, ha, D', hD, hD', hN, rfl⟩, he⟩
      obtain ⟨hcost, -, hgen⟩ := hin.notes D n hn
      have hfee : n.fee.val ≤ Number.maxSafe := (Nat.le_add_left _ _).trans hcost
      rw [drawNoteCommitment_eq ⟨rfl, hgen⟩ ⟨rfl, hi.amount.2⟩ ⟨rfl, hfee⟩ hi.noteExpiry,
        Except.ok.injEq, hD'] at hD
      have hamount := num_eq_iff.mp ha
      exact ⟨n, ⟨hn, hr, hc, num_le_iff.mp hx, hamount.symm, hD, hi.again ▸ hN⟩, he⟩
    · rintro ⟨n, g, he⟩
      obtain ⟨hcost, -, hgen⟩ := hin.notes D n g.found
      have hfee : n.fee.val ≤ Number.maxSafe := (Nat.le_add_left _ _).trans hcost
      exact ⟨_, ⟨n, g.found, g.unredeemed, g.uncancelled, num_le_iff.mpr g.live,
        num_eq_iff.mpr g.amount.symm, _,
        drawNoteCommitment_eq ⟨rfl, hgen⟩ ⟨rfl, hi.amount.2⟩ ⟨rfl, hfee⟩ hi.noteExpiry, g.opening,
        hi.again ▸ g.fresh, rfl⟩, he⟩
  -- the budgets are safe, as parts of a safe total
  have hlock := hin.locked r.balanced.solvent
  constructor
  · intro e' he
    obtain ⟨n, g, -⟩ := (hok e').mp he
    -- a live note is covered by them
    obtain ⟨hE, hP⟩ := r.live_covered g.found ⟨g.unredeemed, g.uncancelled⟩
    have hle := (s.totalReserve.isLt)
    have htot : s.totalReserve.val ≤ Number.maxSafe := hin.totalReserve
    unfold Number.maxSafe at hlock
    exact ⟨_, .redeemDraw g rfl (E := ⟨s.encumberedReserve.val - n.amount.val, by omega⟩)
      (R := ⟨s.redeemedReserve.val + n.amount.val, by omega⟩)
      (P := ⟨s.pendingFeeReserve.val - n.fee.val, by omega⟩)
      (F := ⟨s.feeReserve.val + n.fee.val, by omega⟩) (Nat.sub_add_cancel hE) rfl
      (Nat.sub_add_cancel hP) rfl⟩
  · intro s' st
    cases st with
    | @redeemDraw _ _ _ _ _ n _ E R P F g _ hE hRed hP hF =>
      refine ⟨_, (hok _).mpr ⟨n, g, rfl⟩, ?_⟩
      -- the record keeps what the contract writes again, which is blank on a live note
      have ha := (r.noteWF g.found).uncancelled g.uncancelled
      obtain ⟨ho, hk⟩ := (r.noteWF g.found).unallocated ha
      obtain ⟨hw, hx⟩ := r.blank g.found ha
      have hrecord : { noteRecord D n with redeemed := true } = noteRecord D n.redeem := by
        simp [noteRecord, NoteMeta.redeem, g.uncancelled, ha, ho, hk, hw, hx]
      have hRs : R.val ≤ Number.maxSafe := by omega
      have hFs : F.val ≤ Number.maxSafe := by omega
      exact { hR with
        notes := hR.notes.change (fun _ => rfl) g.found hrecord
        nullifiers := mem_spend hR.nullifiers
        encumberedReserve := num_sub_eq hE (by unfold Safe; omega)
        redeemedReserve := num_add_eq hRed hRs
        pendingFeeReserve := num_sub_eq hP (by unfold Safe; omega)
        feeReserve := num_add_eq hF hFs
        actionClock := hR.tick hin }

/-! ## Repayment and status -/

/-- What an accepted repayment has passed, and the ledger it leaves. -/
theorem RepayCarried.ok_iff [Words B] (hR : Related e s) {i : RepayInput B}
    {witness : Option (RepayWitness B)} {receiptExpiry : U64} {book : LineWitness B}
    {receipt : RepayReceipt B} (hclock : env.clock = .ofNat now) (hnow : now ≤ Number.maxSafe)
    (hi : RepayCarried env s i witness w receiptExpiry book receipt)
    (href : w.paymentRef 0 ≠ pad "") (hs : s.status = .OPEN ∨ s.status = .DEFAULTED)
    (hcopy : RepayCopies s book receipt) {e' : Ledger B} :
    (acknowledgeRepayment env e i witness).map (·.ledger) = .ok e' ↔
      RepayGuard w now receiptExpiry s
        ∧ ∃ b ep : U64, b.val + (w.repayAmount 0).val = (w.lineOutstanding 0).val
          ∧ Safe ep ∧ ep.val = (w.lineEpoch 0).val + 1
          ∧ pushEvent { e with
              lineCommitment := some (Line.lineStateCommit
                ⟨s.contractDomain, s.identityCommit, w.lineLimit 0, b, ep⟩ (w.newSalt 0))
              nullifiers := e.nullifiers ++ [witnessReceipt w s, witnessPayment w s] } = e' := by
  have hne : s.status ≠ .NONE := by
    rcases hs with hs | hs <;> simp [hs]
  -- test by test, with what the call carries in the place of the input
  simp only [map_ok_iff, acknowledgeRepayment, bind_ok_iff, failIf_ok_iff, present_ok_iff,
    pure_ok_iff, hi.caller, hR.isIssuer_iff, hi.books, hi.proof, hi.book.opens_ok_iff hcopy.book,
    hcopy.book, hcopy.domain, hcopy.identity, hcopy.current, hi.nonce, hi.newSalt, hi.reference,
    deadline_ok_iff hclock hnow hi.expiry, hi.amount.u64, hR.status, hR.contractDomain,
    hR.identityCommitment, hR.lineCommitment, opened_of_status hne, hR.nullifiers,
    catchFail_ok_iff, repayNullifier_eq, paymentNullifier_eq,
    decide_eq_false_iff_not, not_not, exists_const, Except.ok.injEq, Option.some.injEq,
    exists_eq_left', exists_eq_left, true_and, Bool.or_eq_false_iff, ne_eq,
    hi.amount.assertSafeUint, Bool.not_true]
  rw [hi.amount.1, hi.book.outstanding.1, hi.book.limit.1, hi.book.epoch.1]
  have hstatus : (decide ¬s.status = .OPEN && decide ¬s.status = .DEFAULTED) = false := by
    rcases hs with hs | hs <;> simp [hs]
  have hlimit : Counts (num (w.lineLimit 0)) (w.lineLimit 0) := ⟨rfl, hi.book.limit.2⟩
  have hepoch : Counts (num (w.lineEpoch 0)) (w.lineEpoch 0) := ⟨rfl, hi.book.epoch.2⟩
  have hsafe : (w.lineOutstanding 0).val ≤ Number.maxSafe := hi.book.outstanding.2
  have hlt := (w.lineOutstanding 0).isLt
  constructor
  -- the engine asks that the debt covers the amount, as the circuit does
  · rintro ⟨_, ⟨his, -, hst, hlive, ⟨hpos, hrange⟩, hP, hN, C, hC, rfl⟩, he⟩
    have hle := num_lt_iff.mp hrange
    have hb : Counts ((num (w.lineOutstanding 0)).sub (num (w.repayAmount 0)))
        (⟨(w.lineOutstanding 0).val - (w.repayAmount 0).val, by omega⟩ : U64) :=
      ⟨num_sub_eq (Nat.sub_add_cancel hle) hi.book.outstanding.2, (Nat.sub_le _ _).trans hsafe⟩
    obtain ⟨ep, hes, hep, rfl⟩ := (lineCommitment_next_ok_iff hlimit hb hepoch).mp hC
    have hpay : witnessPayment w s ∉ s.nullifiers := by rwa [witnessPayment, hi.again]
    have hst' : (!decide _) = false := hst
    rw [Bool.not_eq_false', decide_eq_true_iff] at hst'
    refine ⟨⟨his, hs, hst', num_le_iff.mp hpos, hle, hlive, href, hpay, hN⟩,
      ⟨(w.lineOutstanding 0).val - (w.repayAmount 0).val, by omega⟩, ep, Nat.sub_add_cancel hle,
      hes, hep, ?_⟩
    rw [witnessPayment, hi.again]
    exact he
  -- the other way, the difference is the one that the circuit was given
  · rintro ⟨g, b, ep, hb, hes, hep, he⟩
    have hbs : Counts ((num (w.lineOutstanding 0)).sub (num (w.repayAmount 0))) b :=
      ⟨num_sub_eq hb hi.book.outstanding.2, by unfold Safe; omega⟩
    have hpay := g.freshPayment
    rw [witnessPayment, hi.again] at hpay he
    refine ⟨_, ⟨g.issuer, hstatus, ?_, g.live, ⟨num_le_iff.mpr g.positive, num_lt_iff.mpr g.range⟩,
      hpay, g.freshReceipt, _, (lineCommitment_next_ok_iff hlimit hbs hepoch).mpr
        ⟨ep, hes, hep, rfl⟩, rfl⟩, he⟩
    rw [Bool.not_eq_false', decide_eq_true_iff]
    exact g.stale

/-- The engine compares the copies in a repayment with its ledger. -/
theorem RepayCarried.copies_of_ok [Words B] (hR : Related e s) {i : RepayInput B}
    {witness : Option (RepayWitness B)} {receiptExpiry : U64} {book : LineWitness B}
    {receipt : RepayReceipt B} (hi : RepayCarried env s i witness w receiptExpiry book receipt)
    {e' : Ledger B} (he : (acknowledgeRepayment env e i witness).map (·.ledger) = .ok e') :
    (s.status = .OPEN ∨ s.status = .DEFAULTED) ∧ RepayCopies s book receipt := by
  -- a repayment is refused unless the line is open or defaulted
  have hs : s.status = .OPEN ∨ s.status = .DEFAULTED := by
    by_contra hs
    rw [not_or] at hs
    simp [map_ok_iff, acknowledgeRepayment, hR.status, hs] at he
  have hne : s.status ≠ .NONE := by
    rcases hs with hs | hs <;> simp [hs]
  simp only [map_ok_iff, acknowledgeRepayment, bind_ok_iff, failIf_ok_iff, present_ok_iff,
    hi.books, hi.proof, hR.contractDomain, hR.identityCommitment, hR.lineCommitment,
    opened_of_status hne, decide_eq_false_iff_not, not_not, exists_const, Option.some.injEq,
    exists_eq_left', Bool.or_eq_false_iff, ne_eq] at he
  obtain ⟨_, ⟨-, -, _, -, -, hdomain, ⟨hname, hidentity⟩, hcurrent, -⟩, -⟩ := he
  exact ⟨hs, hname.symm.trans hidentity, hdomain, hidentity, hcurrent⟩

/-- **The engine acknowledges a repayment as the contract does**, unless the next epoch is not a
safe integer. -/
theorem RepayCarried.matches_iff [Words B] (hR : Related e s) (hin : InRange s)
    {i : RepayInput B} {witness : Option (RepayWitness B)} {receiptExpiry : U64}
    {book : LineWitness B} {receipt : RepayReceipt B}
    (hclock : env.clock = .ofNat now) (hnow : now ≤ Number.maxSafe)
    (hi : RepayCarried env s i witness w receiptExpiry book receipt)
    (href : w.paymentRef 0 ≠ pad "") :
    Matches ((acknowledgeRepayment env e i witness).map (·.ledger))
      ⟨.acknowledgeRepayment receiptExpiry, w, now⟩ s ↔
      (RepayGuard w now receiptExpiry s → (w.lineEpoch 0).val + 1 ≤ Number.maxSafe) := by
  have hep : (w.lineEpoch 0).val + 1 < 2 ^ 64 :=
    lt_of_le_of_lt (Nat.succ_le_succ hi.book.epoch.2) (by decide)
  -- the guard makes a step: the difference is no less than zero
  have hstep : RepayGuard w now receiptExpiry s →
      ∃ s', Step .canonical ⟨.acknowledgeRepayment receiptExpiry, w, now⟩ s s' := by
    intro g
    have hlt := (w.lineOutstanding 0).isLt
    exact ⟨_, .acknowledgeRepayment g (fun _ => rfl) (by simp)
      (b := ⟨(w.lineOutstanding 0).val - (w.repayAmount 0).val, by omega⟩)
      (e := ⟨(w.lineEpoch 0).val + 1, hep⟩) (Nat.sub_add_cancel g.range) rfl⟩
  constructor
  -- a repayment that the engine makes as well has encoded its next epoch
  · intro hm g
    obtain ⟨s', st⟩ := hstep g
    obtain ⟨e', he, -⟩ := hm.complete s' st
    obtain ⟨-, _, ep, -, hes, hnext, -⟩ :=
      (hi.ok_iff hR hclock hnow href g.status (hi.copies g.issuer g.stale)).mp he
    exact le_of_eq_of_le hnext.symm hes
  · intro hepoch
    constructor
    · intro e' he
      obtain ⟨hs, hcopy⟩ := hi.copies_of_ok hR he
      exact hstep ((hi.ok_iff hR hclock hnow href hs hcopy).mp he).1
    · intro s' st
      cases st with
      | @acknowledgeRepayment _ _ _ _ T b ep g hcan _ hb hnext =>
        have hes : Safe ep := le_of_eq_of_le hnext (hepoch g)
        obtain rfl := hcan rfl
        refine ⟨_, (hi.ok_iff hR hclock hnow href g.status (hi.copies g.issuer g.stale)).mpr
          ⟨g, b, ep, hb, hes, hnext, rfl⟩, ?_⟩
        have hne : s.status ≠ .NONE := by
          rcases g.status with hs | hs <;> simp [hs]
        -- both nullifiers are new, in whichever order they are entered
        have hspent : ∀ n, n ∈ e.nullifiers ++ [witnessReceipt w s, witnessPayment w s] ↔
            n ∈ insert (witnessReceipt w s) (insert (witnessPayment w s) s.nullifiers) := by
          intro n
          simp only [List.mem_append, List.mem_cons, List.not_mem_nil, or_false, Finset.mem_insert,
            hR.nullifiers]
          tauto
        exact { hR with
          lineCommitment := (opened_of_status hne _).symm
          nullifiers := hspent
          actionClock := hR.tick hin }

/-- The closing test of the engine is that of the contract. -/
theorem StatusCarried.closing_ok_iff (hR : Related e s) {i : StatusInput B} {next : Status}
    (hi : StatusCarried s i w next) (hne : s.status ≠ .NONE) {u : Unit} :
    Engine.closing i e = .ok u ↔ (next = .CLOSED →
      Line.lineStateCommit (witnessBook w s) (w.salt 0) = s.lineCommit
        ∧ (w.lineOutstanding 0).val = 0) := by
  unfold Engine.closing
  rw [hi.status]
  by_cases hcl : next = .CLOSED
  · obtain ⟨book, hb, hshow⟩ := hi.closing hcl
    by_cases hI : book.I = s.identityCommit
    swap
    · -- the book of a stranger: both sides refuse it
      simp only [hcl, ↓reduceIte, hb, bind_ok_iff, present_ok_iff, failIf_ok_iff,
        Option.some.injEq, exists_eq_left', hR.identityCommitment, opened_of_status hne,
        exists_const, decide_eq_false_iff_not, not_not, ne_eq]
      constructor
      · rintro ⟨hname, -⟩
        exact absurd hname hI
      · intro hclosing
        exact absurd (hshow.identity rfl (hclosing trivial).1) hI
    simp only [hcl, ↓reduceIte, hb, bind_ok_iff, present_ok_iff, failIf_ok_iff, Option.some.injEq,
      exists_eq_left', hI, hR.identityCommitment, hR.lineCommitment,
      opened_of_status hne, hshow.opens_ok_iff hI, exists_eq_left, hshow.outstanding.1,
      exists_const]
    simp [num, witnessBook]
  · simp [hcl]

/-- **The engine sets the status as the contract does.** -/
theorem StatusCarried.matches (hR : Related e s) (hin : InRange s) {i : StatusInput B}
    {next : Status} (hi : StatusCarried s i w next) :
    Matches (setStatus e i) ⟨.setStatus next, w, now⟩ s := by
  have hok : ∀ e', setStatus e i = .ok e' ↔ StatusGuard w next s
      ∧ pushEvent { e with status := next } = e' := by
    intro e'
    -- without a line both sides refuse
    by_cases hne : s.status = .NONE
    · simp only [setStatus, bind_ok_iff, failIf_ok_iff, pure_ok_iff, hR.status, hne]
      constructor
      · rintro ⟨_, -, _, hno, -⟩
        simp at hno
      · rintro ⟨g, -⟩
        exact absurd hne g.line
    · simp only [setStatus, bind_ok_iff, failIf_ok_iff, pure_ok_iff, hi.caller, hR.isIssuer_iff,
        hR.status, hi.status, hR.lineCommitment, opened_of_status hne, hi.closing_ok_iff hR hne,
        exists_const, decide_eq_false_iff_not]
      constructor
      · rintro ⟨his, -, hnn, hcl, -, hclosing, he⟩
        exact ⟨⟨his, hne, hnn, hcl, hclosing⟩, he⟩
      · rintro ⟨g, he⟩
        -- the engine has a test more, which no status is left to fail
        have hreopen : (decide (next = .OPEN) && decide (s.status ≠ .OPEN)
            && decide (s.status ≠ .DEFAULTED)) = false := by
          have hnone := g.line
          have hclosed := g.notClosed
          cases hs : s.status with
          | NONE => exact absurd hs hnone
          | CLOSED => exact absurd hs hclosed
          | OPEN => simp
          | DEFAULTED => simp
        exact ⟨g.issuer, by simp [hne], g.notNone, g.notClosed, hreopen, g.closing, he⟩
  constructor
  · intro e' he
    exact ⟨_, .setStatus ((hok e').mp he).1⟩
  · intro s' st
    cases st with
    | setStatus g =>
      refine ⟨_, (hok _).mpr ⟨g, rfl⟩, ?_⟩
      exact { hR with
        status := rfl
        identityCommitment := by
          rw [opened_of_status g.notNone]
          exact hR.identityCommitment.trans (opened_of_status g.line _)
        lineCommitment := by
          rw [opened_of_status g.notNone]
          exact hR.lineCommitment.trans (opened_of_status g.line _)
        actionClock := hR.tick hin }

end Line.Engine
