import Line.Proof.Claim

/-!
# Arithmetic strands nothing

A circuit can be refused for a false assertion, for a subtraction that would go below
zero and for a cast that does not fit. `Refusal` lists what is left of that in a
reachable ledger: assertions about the caller and the arguments, and the casts of
three numbers that really grow, the total reserve, the generation and the epoch. No
subtraction is in the list, and none of the assertions about the reserve.

The proof walks through each circuit with the rules of `Meets`. A check is either an
assertion that may be false, or it is true: by the balance sheet, by custody, by the
budgets that cover a note, or by an assertion that came before.

The epoch grows by one with every call, as long as a compensation answers the same
epoch twice. One that does not can commit to an epoch next to the largest, and then
no cast of the next epoch fits.
-/

namespace Line

open Checked

variable {B : Type} [DecidableEq B] [Compact B]

/-- The assertions that the reserve is there. -/
def reserveAssertions : List String :=
  ["undercollateralized", "reserve deficit", "asset reserve deficit", "missing payout recipient",
    "test token not initialized"]

/-- The call commits to the epoch after the one it shows. -/
def Op.rotates : Op B → Bool
  | .draw _ _ _ => true
  | .cancelOrExpireNote _ action _ => action.val = 1
  | .acknowledgeRepayment _ => true
  | _ => false

/-- How the call `c` can be refused in the ledger `s` that the calls `h` led to. -/
inductive Refusal (p : Profile) (h : Trace B) (s : Ledger B) (c : Call B) : Failure → Prop
  /-- An assertion of the circuit is false, and not one of those about the reserve. -/
  | assertion {message} : message ∉ reserveAssertions → Refusal p h s c (.assertion message)
  /-- Funding would take the total reserve out of its range. -/
  | fund {amount} : c.op = .fundReserve amount → 2 ^ 64 ≤ s.totalReserve.val + amount.val →
      Refusal p h s c (.cast "totalReserve")
  /-- A deposited repayment would. -/
  | deposit {receiptExpiry} : p = .organization → c.op = .acknowledgeRepayment receiptExpiry →
      2 ^ 64 ≤ s.totalReserve.val + (c.witness.repayAmount 0).val →
      Refusal p h s c (.cast "totalReserve")
  /-- There were `2 ^ 64 - 1` openings. -/
  | generation : c.op.opens = true → 2 ^ 64 - 1 ≤ h.length →
      Refusal p h s c (.cast "lineGeneration")
  /-- There were `2 ^ 64 - 1` books. -/
  | epoch : c.op.rotates = true → 2 ^ 64 - 1 ≤ h.length → Refusal p h s c (.cast "epoch")

variable {p : Profile} {c : Call B} {w : Witness B} {now : ℕ} {s s' : Ledger B} {h : Trace B}
  {D : B} {n : NoteMeta B} {allowed : Failure → Prop}

omit [DecidableEq B] [Compact B] in
/-- The cast of an epoch is refused after `2 ^ 64 - 1` calls only. -/
theorem Refusal.epoch_length {f : Failure} (hr : Refusal p h s c f) (hf : f = .cast "epoch") :
    2 ^ 64 - 1 ≤ h.length := by
  cases hr with
  | epoch _ hle => exact hle
  | _ => simp at hf

/-! ## Generations and epochs take a call each -/

theorem Reaches.lineGeneration_le_length (r : Reaches p h s) :
    s.lineGeneration.val ≤ h.length := by
  refine r.invariant (I := fun h s => s.lineGeneration.val ≤ h.length) (fun _ => Nat.le_refl 0) ?_
  intro h s c s' _ hI st
  rw [List.length_cons]
  rcases st.line with ⟨g, x, f, b, ho⟩ | ⟨-, hl⟩
  · have hnext := ho.next
    simp only at hnext
    omega
  · rw [hl.lineGeneration]
    omega

omit [Compact B] in
theorem account_epoch_le_length (h : Trace B) : (account h).epoch ≤ h.length := by
  induction h with
  | nil => exact Nat.le_refl 0
  | cons e h ih =>
    have hstep : (Tx.act e (account h)).epoch ≤ (account h).epoch + 1 := by
      unfold Tx.act
      split
      · exact Nat.zero_le _
      · exact Nat.le_refl _
      · exact Nat.le_refl _
      · split
        · exact Nat.le_refl _
        · exact Nat.le_succ _
    rw [account, List.length_cons]
    omega

/-- **The next epoch fits**, up to `2 ^ 64 - 1` calls. -/
theorem Reaches.epoch_lt [LawfulCompact B] (r : Reaches p h s) (hsteady : ∀ e ∈ h, SteadyEpoch e)
    (hs : s.status ≠ .NONE)
    (hst : lineStateCommit (witnessBook w s) (w.salt 0) = s.lineCommit)
    (hfull : 2 ^ 64 ≤ (w.lineEpoch 0).val + 1) : 2 ^ 64 - 1 ≤ h.length := by
  obtain ⟨b, t, hb, hep⟩ := r.epoch hsteady hs
  have heq : witnessBook w s = b := (lineStateCommit_inj (hst.trans hb.symm)).1
  have hshown : (w.lineEpoch 0).val = (account h).epoch := by
    rw [← hep, ← heq]
    rfl
  have hlen := account_epoch_le_length h
  omega

/-! ## The parts of the circuits -/

theorem requireIssuer_meets : Meets (Refusal p h s c) (requireIssuer w s) :=
  .assert fun _ => .assertion (by decide)

theorem Reaches.payIssuer_meets {a : ℕ} (r : Reaches p h s)
    (ha : p = .organization → a ≤ s.custody.balance) : Meets allowed (payIssuer p a s) := by
  cases p with
  | canonical => exact .pure _
  | organization =>
    refine .assert_then (fun hno => absurd r.tokenInitialized hno) fun _ => ?_
    exact .assert_then (fun hno => absurd (ha rfl) hno) fun _ => .pure _

omit [DecidableEq B] [Compact B] in
theorem payRefund_meets {a : ℕ} (ha : p = .organization → a ≤ s.custody.balance) :
    Meets allowed (payRefund p a s) := by
  cases p with
  | canonical => exact .pure _
  | organization => exact .assert_then (fun hno => absurd (ha rfl) hno) fun _ => .pure _

omit [DecidableEq B] [Compact B] in
theorem feePolicy_meets {feeFlat feeBps amount f : U64} :
    Meets (Refusal p h s c) (feePolicy feeFlat feeBps amount f) := by
  refine .assert_then (fun _ => .assertion (by decide)) fun hflat => ?_
  refine .sub_then hflat fun v _ => .ite (fun _ => ?_) fun _ => ?_
  · exact .assert fun _ => .assertion (by decide)
  · refine .assert_then (fun _ => .assertion (by decide)) fun hpos => ?_
    refine .sub_then hpos fun b _ => ?_
    refine .assert_then (fun _ => .assertion (by decide)) fun _ => ?_
    exact .assert fun _ => .assertion (by decide)

/-- What a draw needs is held, once the total reserve covers it. -/
theorem Reaches.requireBacking_meets {cost : ℕ} (r : Reaches p h s)
    (hfree : lockedReserve s + cost ≤ s.totalReserve.val) :
    Meets allowed (requireBacking p (lockedReserve s) cost s) := by
  cases p with
  | canonical => exact .pure _
  | organization =>
    have hheld := r.custody
    refine .assert_then (fun hno => absurd r.tokenInitialized hno) fun _ => ?_
    refine .sub_then (by simp only [lockedReserve]; omega) fun d hd => ?_
    exact .assert fun hno => absurd (by omega) hno

omit [DecidableEq B] [Compact B] in
/-- The budgets of a covered note can be released. -/
theorem releaseBudget_meets {cost : U64} (hE : n.amount.val ≤ s.encumberedReserve.val)
    (hP : n.fee.val ≤ s.pendingFeeReserve.val)
    (hU : s.refundReserve.val + cost.val < 2 ^ 64) :
    Meets allowed (releaseBudget n cost s) := by
  have hEt := s.encumberedReserve.isLt
  have hPt := s.pendingFeeReserve.isLt
  refine .sub_then hE fun e he => .asUint_then (fun hno => absurd hno (by omega)) fun _ _ => ?_
  refine .sub_then hP fun f hf => .asUint_then (fun hno => absurd hno (by omega)) fun _ _ => ?_
  exact .asUint_then (fun hno => absurd hno (by omega)) fun _ _ => .pure _

/-- The release of a live note's budgets never fails. -/
theorem Reaches.releaseBudget_meets {cost : U64} (r : Reaches p h s)
    (hn : s.notes.lookup D = some n) (hlive : n.Live) (hcost : cost.val = n.cost) :
    Meets allowed (releaseBudget n cost s) := by
  obtain ⟨hE, hP⟩ := r.live_covered hn hlive
  have hsol := r.balanced.solvent
  have htot := s.totalReserve.isLt
  simp only [lockedReserve] at hsol
  simp only [NoteMeta.cost] at hcost
  exact Line.releaseBudget_meets hE hP (by omega)

/-- After the expiry part of an allocation the refund budget holds the cost of the note. -/
theorem Releases.covered {cost E P U : U64} (hR : Releases now n cost s E P U)
    (r : Reaches p h s) (hn : s.notes.lookup D = some n) (ha : n.compensationAllocated = false)
    (hcost : cost.val = n.cost) : cost.val ≤ U.val := by
  cases hc : n.cancelled with
  | true =>
    obtain ⟨-, -, rfl⟩ := hR.skipped hc
    rw [hcost]
    exact r.refundable_covered hn ⟨hc, .inl ha⟩
  | false =>
    rw [hR.refund hc]
    exact Nat.le_add_left _ _

omit [DecidableEq B] [Compact B] in
theorem releaseRemainder_meets {owed : Bool} {cost : U64} (hU : cost.val ≤ s.refundReserve.val) :
    Meets allowed (releaseRemainder owed cost s) := by
  have hUt := s.refundReserve.isLt
  refine .ite (fun _ => .pure _) fun _ => ?_
  exact .sub_then hU fun u hu => .asUint fun hno => absurd hno (by omega)

/-- The last counter of a refund never fails: what it adds was locked, what it takes was too. -/
theorem Reaches.retireBudget_meets {cost amount : U64} (r : Reaches p h s)
    (hU : cost.val ≤ s.refundReserve.val) (ha : amount.val ≤ cost.val) :
    Meets allowed (retireBudget p cost amount s) := by
  have hsol := r.balanced.solvent
  have htot := s.totalReserve.isLt
  simp only [lockedReserve] at hsol
  cases p with
  | canonical => exact .asUint_then (fun hno => absurd hno (by omega)) fun _ _ => .pure _
  | organization =>
    refine .sub_then (by omega) fun t ht => ?_
    exact .asUint_then (fun hno => absurd hno (by omega)) fun _ _ => .pure _

/-! ## The circuits -/

theorem fundReserve_meets {amount : U64} (hop : c.op = .fundReserve amount) :
    Meets (Refusal p h s c) (fundReserve p w amount s) := by
  refine .bind requireIssuer_meets fun _ _ => ?_
  refine .assert_then (fun _ => .assertion (by decide)) fun _ => ?_
  refine .assert_then (fun hno => absurd (Nat.le_add_right _ _) hno) fun _ => ?_
  exact .asUint_then (.fund hop) fun _ _ => .pure _

theorem Reaches.withdrawUnencumberedReserve_meets {amount : U64} (r : Reaches p h s) :
    Meets (Refusal p h s c) (withdrawUnencumberedReserve p w amount s) := by
  have hsol := r.balanced.solvent
  have htot := s.totalReserve.isLt
  refine .bind requireIssuer_meets fun _ _ => ?_
  refine .assert_then (fun _ => .assertion (by decide)) fun _ => ?_
  refine .assert_then (fun hno => absurd hsol hno) fun _ => ?_
  refine .sub_then hsol fun d hd => ?_
  refine .assert_then (fun _ => .assertion (by decide)) fun hle => ?_
  have ha : p = .organization → amount.val ≤ s.custody.balance := by
    rintro rfl
    have hheld := r.custody
    simp only [lockedReserve] at hd
    omega
  refine .bind (r.payIssuer_meets ha) fun _ _ => ?_
  refine .sub_then (by omega) fun t ht => ?_
  exact .asUint_then (fun hno => absurd hno (by omega)) fun _ _ => .pure _

theorem Reaches.withdrawFees_meets (r : Reaches p h s) :
    Meets (Refusal p h s c) (withdrawFees p w s) := by
  have hsol := r.balanced.solvent
  have htot := s.totalReserve.isLt
  refine .bind requireIssuer_meets fun _ _ => ?_
  refine .assert_then (fun _ => .assertion (by decide)) fun _ => ?_
  refine .assert_then (fun hno => absurd hsol hno) fun _ => ?_
  simp only [lockedReserve] at hsol
  have ha : p = .organization → s.feeReserve.val ≤ s.custody.balance := by
    rintro rfl
    have hheld := r.held
    omega
  refine .bind (r.payIssuer_meets ha) fun _ _ => ?_
  refine .sub_then (by omega) fun t ht => ?_
  exact .asUint_then (fun hno => absurd hno (by omega)) fun _ _ => .pure _

theorem Reaches.openLine_meets {expiry flatFee basisPoints : U64} (r : Reaches p h s)
    (hop : c.op.opens = true) :
    Meets (Refusal p h s c) (openLine w now expiry flatFee basisPoints s) := by
  have hlen := r.lineGeneration_le_length
  refine .bind requireIssuer_meets fun _ _ => ?_
  refine .assert_then (fun _ => .assertion (by decide)) fun _ => ?_
  refine .assert_then (fun _ => .assertion (by decide)) fun _ => ?_
  refine .assert_then (fun _ => .assertion (by decide)) fun _ => ?_
  refine .assert_then (fun _ => .assertion (by decide)) fun _ => ?_
  exact .asUint_then (fun hfull => .generation hop (by omega)) fun _ _ => .pure _

theorem postQuote_meets {expiry : U64} :
    Meets (Refusal p h s c) (postQuote w now expiry s) := by
  refine .lookup_then (fun _ => .assertion (by decide)) fun _ _ => ?_
  refine .assert_then (fun _ => .assertion (by decide)) fun _ => ?_
  refine .assert_then (fun _ => .assertion (by decide)) fun _ => ?_
  refine .assert_then (fun _ => .assertion (by decide)) fun _ => ?_
  refine .assert_then (fun _ => .assertion (by decide)) fun _ => ?_
  exact .assert_then (fun _ => .assertion (by decide)) fun _ => .pure _

theorem requireClosing_meets {next : Status} :
    Meets (Refusal p h s c) (requireClosing w next s) := by
  refine .ite (fun _ => ?_) fun _ => .pure _
  refine .assert_then (fun _ => .assertion (by decide)) fun _ => ?_
  exact .assert fun _ => .assertion (by decide)

omit [DecidableEq B] [Compact B] in
theorem requireReopening_meets {next : Status} :
    Meets (Refusal p h s c) (requireReopening next s) :=
  .ite (fun _ => .assert fun _ => .assertion (by decide)) fun _ => .pure _

theorem setStatus_meets {next : Status} : Meets (Refusal p h s c) (setStatus w next s) := by
  refine .bind requireIssuer_meets fun _ _ => ?_
  refine .assert_then (fun _ => .assertion (by decide)) fun _ => ?_
  refine .assert_then (fun _ => .assertion (by decide)) fun _ => ?_
  refine .assert_then (fun _ => .assertion (by decide)) fun _ => ?_
  refine .bind requireClosing_meets fun _ _ => ?_
  exact .bind requireReopening_meets fun _ _ => .pure _

/-! ### Circuits that open a book or a note -/

variable [LawfulCompact B]

theorem Reaches.draw_meets {Q : B} {noteExpiry fee : U64} (r : Reaches p h s)
    (hsteady : ∀ e ∈ h, SteadyEpoch e) (hop : c.op.rotates = true) :
    Meets (Refusal p h s c) (draw p w now Q noteExpiry fee s) := by
  have hsol := r.balanced.solvent
  have htot := s.totalReserve.isLt
  refine .assert_then (fun _ => .assertion (by decide)) fun hopen => ?_
  refine .assert_then (fun _ => .assertion (by decide)) fun _ => ?_
  refine .assert_then (fun _ => .assertion (by decide)) fun hagent => ?_
  refine .assert_then (fun _ => .assertion (by decide)) fun hst => ?_
  refine .lookup_then (fun _ => .assertion (by decide)) fun quote _ => ?_
  refine .assert_then (fun _ => .assertion (by decide)) fun _ => ?_
  refine .assert_then (fun _ => .assertion (by decide)) fun _ => ?_
  refine .assert_then (fun _ => .assertion (by decide)) fun _ => ?_
  refine .assert_then (fun _ => .assertion (by decide)) fun _ => ?_
  refine .assert_then (fun _ => .assertion (by decide)) fun _ => ?_
  refine .assert_then (fun _ => .assertion (by decide)) fun _ => ?_
  refine .bind feePolicy_meets fun _ _ => ?_
  refine .assert_then (fun _ => .assertion (by decide)) fun _ => ?_
  refine .assert_then (fun _ => .assertion (by decide)) fun _ => ?_
  refine .assert_then (fun _ => .assertion (by decide)) fun hcap => ?_
  -- the reserve is there: the balance sheet says so
  refine .assert_then (fun hno => absurd hsol hno) fun _ => ?_
  refine .sub_then hsol fun free hfree => ?_
  refine .assert_then (fun _ => .assertion (by decide)) fun hcost => ?_
  refine .bind (r.requireBacking_meets (by omega)) fun _ _ => ?_
  refine .assert_then (fun _ => .assertion (by decide)) fun _ => ?_
  refine .assert_then (fun _ => .assertion (by decide)) fun _ => ?_
  refine .assert_then (fun _ => .assertion (by decide)) fun _ => ?_
  refine .assert_then (fun _ => .assertion (by decide)) fun _ => ?_
  -- what is locked stays below the total, and the debt below the limit
  have hlim := (w.lineLimit 0).isLt
  simp only [lockedReserve] at hfree
  refine .asUint_then (fun hno => absurd hno (by omega)) fun _ _ => ?_
  refine .asUint_then (fun hno => absurd hno (by omega)) fun _ _ => ?_
  refine .asUint_then (fun hno => absurd hno (by omega)) fun _ _ => ?_
  rw [hagent] at hst
  have hs : s.status ≠ .NONE := by simp [hopen]
  exact .asUint_then (fun hfull => .epoch hop (r.epoch_lt hsteady hs hst hfull)) fun _ _ => .pure _

theorem Reaches.redeemDraw_meets {noteExpiry : U64} (r : Reaches p h s) :
    Meets (Refusal p h s c) (redeemDraw p w now D noteExpiry s) := by
  have hsol := r.balanced.solvent
  have htot := s.totalReserve.isLt
  simp only [lockedReserve] at hsol
  refine .lookup_then (fun _ => .assertion (by decide)) fun n hn => ?_
  refine .assert_then (fun _ => .assertion (by decide)) fun hr => ?_
  refine .assert_then (fun _ => .assertion (by decide)) fun hc => ?_
  refine .assert_then (fun _ => .assertion (by decide)) fun _ => ?_
  refine .assert_then (fun _ => .assertion (by decide)) fun hamount => ?_
  refine .assert_then (fun _ => .assertion (by decide)) fun hopen => ?_
  obtain ⟨hE, hP⟩ := r.live_covered hn ⟨hr, hc⟩
  rw [hamount] at hE
  -- the opening names the merchant of the note, who is registered
  obtain ⟨Q, M, k, hprov⟩ := r.provenance hn
  have hreg := r.merchant_registered hprov
  obtain ⟨nonce, salt, hD⟩ := hprov.opening
  have hkey : merchantPublicKey (w.callerSecret 0) = M :=
    congrArg DrawNotePreimage.merchantPk (drawNoteCommit_inj (hopen.trans hD)).1
  rw [← hkey] at hreg
  have ha : p = .organization → (w.redeemAmount 0).val ≤ s.custody.balance := by
    rintro rfl
    have hheld := r.held
    omega
  obtain ⟨custody, hpay, -⟩ := r.payMerchant_ok hreg ha
  have hpaid : Meets (Refusal p h s c)
      (payMerchant p (merchantPublicKey (w.callerSecret 0)) (w.redeemAmount 0).val s) := by
    rw [hpay]
    exact .pure custody
  refine .bind hpaid fun _ _ => ?_
  refine .assert_then (fun _ => .assertion (by decide)) fun _ => ?_
  refine .sub_then hE fun e he => .asUint_then (fun hno => absurd hno (by omega)) fun _ _ => ?_
  refine .asUint_then (fun hno => absurd hno (by omega)) fun _ _ => ?_
  refine .sub_then hP fun f hf => .asUint_then (fun hno => absurd hno (by omega)) fun _ _ => ?_
  exact .asUint_then (fun hno => absurd hno (by omega)) fun _ _ => .pure _

omit [LawfulCompact B] in
theorem Reaches.expireNote_meets {cost : U64} (r : Reaches p h s)
    (hn : s.notes.lookup D = some n) (hr : n.redeemed = false) (hcost : cost.val = n.cost) :
    Meets (Refusal p h s c) (expireNote now D n cost s) := by
  refine .assert_then (fun _ => .assertion (by decide)) fun hc => ?_
  refine .assert_then (fun _ => .assertion (by decide)) fun _ => ?_
  exact .bind (r.releaseBudget_meets hn ⟨hr, hc⟩ hcost) fun _ _ => .pure _

theorem Reaches.allocateCompensation_meets {cost : U64} {action : Uint 8} {receiptExpiry : U64}
    (r : Reaches p h s) (hsteady : ∀ e ∈ h, SteadyEpoch e)
    (hc : SteadyEpoch ⟨c, s, s⟩) (hop : c.op = .cancelOrExpireNote D action receiptExpiry)
    (hw : c.witness = w) (h1 : action.val = 1) (hn : s.notes.lookup D = some n)
    (hr : n.redeemed = false) (hcost : cost.val = n.cost) :
    Meets (Refusal p h s c) (allocateCompensation w now D n cost s) := by
  refine .assert_then (fun _ => .assertion (by decide)) fun ha => ?_
  -- the expiry of a note that is still live
  have hexpire : Meets (Refusal p h s c) (expireIfLive now n cost s) := by
    refine .ite (fun _ => .pure _) fun hlive => ?_
    refine .assert_then (fun _ => .assertion (by decide)) fun _ => ?_
    exact r.releaseBudget_meets hn ⟨hr, by simpa using hlive⟩ hcost
  refine .bind hexpire fun s₁ hs₁ => ?_
  obtain ⟨E, P, U, hR, rfl⟩ := expireIfLive_ok_iff.mp hs₁
  have hU := hR.covered r hn ha hcost
  refine .assert_then (fun _ => .assertion (by decide)) fun _ => ?_
  refine .assert_then (fun _ => .assertion (by decide)) fun _ => ?_
  refine .ite (fun hg => ?_) fun _ => ?_
  · -- a note of the current generation: its book is shown, and closed one epoch later
    have hg : n.lineGeneration = s.lineGeneration := hg
    have hs : s.status ≠ .NONE := fun hnone => by
      have h0 := r.status_none_iff.mp hnone
      have hpos := (r.note_generation hn).1
      rw [hg] at hpos
      omega
    have hcomp := compensated_current hop h1 hn hg
    have hsame : w.lineEpoch 1 = w.lineEpoch 0 := by
      rw [← hw]
      exact hc (by rw [hcomp]; rfl)
    refine .assert_then (fun _ => .assertion (by decide)) fun _ => ?_
    refine .assert_then (fun _ => .assertion (by decide)) fun hst => ?_
    refine .bind (releaseRemainder_meets hU) fun _ _ => ?_
    rw [hsame]
    refine .asUint_then (fun hfull => .epoch ?_ (r.epoch_lt hsteady hs hst hfull))
      fun _ _ => .pure _
    simp [hop, Op.rotates, h1]
  · exact .assert_then (fun _ => .assertion (by decide)) fun _ => .pure _

omit [LawfulCompact B] in
theorem Reaches.acknowledgeRefund_meets {cost receiptExpiry : U64} (r : Reaches p h s)
    (hn : s.notes.lookup D = some n) (hcost : cost.val = n.cost) :
    Meets (Refusal p h s c) (acknowledgeRefund p w now D n cost receiptExpiry s) := by
  have hUt := s.refundReserve.isLt
  refine .bind requireIssuer_meets fun _ _ => ?_
  refine .assert_then (fun _ => .assertion (by decide)) fun hflags => ?_
  refine .assert_then (fun _ => .assertion (by decide)) fun hack => ?_
  have hU : cost.val ≤ s.refundReserve.val := by
    rw [hcost]
    exact r.refundable_covered hn ⟨hflags.1, .inr ⟨hflags.2.2, hack⟩⟩
  refine .assert_then (fun _ => .assertion (by decide)) fun _ => ?_
  refine .assert_then (fun _ => .assertion (by decide)) fun hamount => ?_
  refine .assert_then (fun _ => .assertion (by decide)) fun _ => ?_
  refine .assert_then (fun _ => .assertion (by decide)) fun _ => ?_
  refine .assert_then (fun _ => .assertion (by decide)) fun _ => ?_
  refine .sub_then hU fun u hu => .asUint_then (fun hno => absurd hno (by omega)) fun _ _ => ?_
  have ha : p = .organization → (w.repayAmount 0).val ≤ s.custody.balance := by
    rintro rfl
    have hheld := r.held
    omega
  refine .bind (payRefund_meets ha) fun _ _ => ?_
  exact .bind (r.retireBudget_meets hU hamount.2) fun _ _ => .pure _

theorem Reaches.cancelOrExpireNote_meets {action : Uint 8} {receiptExpiry : U64}
    (r : Reaches p h s) (hsteady : ∀ e ∈ h, SteadyEpoch e) (hc : SteadyEpoch ⟨c, s, s⟩)
    (hop : c.op = .cancelOrExpireNote D action receiptExpiry) (hw : c.witness = w) :
    Meets (Refusal p h s c) (cancelOrExpireNote p w now D action receiptExpiry s) := by
  refine .assert_then (fun _ => .assertion (by decide)) fun _ => ?_
  refine .lookup_then (fun _ => .assertion (by decide)) fun n hn => ?_
  refine .assert_then (fun _ => .assertion (by decide)) fun hr => ?_
  have hfits := (r.noteWF hn).cost
  refine .asUint_then (fun hno => absurd hno (by omega)) fun cost hcost => ?_
  refine .bind ?_ fun _ _ => .pure _
  refine .ite (fun _ => r.expireNote_meets hn hr hcost) fun _ => ?_
  refine .ite (fun h1 => ?_) fun _ => r.acknowledgeRefund_meets hn hcost
  exact r.allocateCompensation_meets hsteady hc hop hw h1 hn hr hcost

theorem Reaches.acknowledgeRepayment_meets {receiptExpiry : U64} (r : Reaches p h s)
    (hsteady : ∀ e ∈ h, SteadyEpoch e) (hop : c.op = .acknowledgeRepayment receiptExpiry)
    (hw : c.witness = w) :
    Meets (Refusal p h s c) (acknowledgeRepayment p w now receiptExpiry s) := by
  have hout := (w.lineOutstanding 0).isLt
  refine .bind requireIssuer_meets fun _ _ => ?_
  refine .assert_then (fun _ => .assertion (by decide)) fun hstatus => ?_
  refine .assert_then (fun _ => .assertion (by decide)) fun hst => ?_
  refine .assert_then (fun _ => .assertion (by decide)) fun _ => ?_
  refine .assert_then (fun _ => .assertion (by decide)) fun hrange => ?_
  -- the tokens of a repayment may not fit the total
  have hdeposit : Meets (Refusal p h s c) (depositRepayment p (w.repayAmount 0) s) := by
    cases p with
    | canonical => exact .pure _
    | organization =>
      refine .assert_then (fun hno => absurd (Nat.le_add_right _ _) hno) fun _ => ?_
      exact .asUint fun hfull => .deposit rfl hop (by rw [hw]; exact hfull)
  refine .bind hdeposit fun _ _ => ?_
  refine .assert_then (fun _ => .assertion (by decide)) fun _ => ?_
  refine .assert_then (fun _ => .assertion (by decide)) fun _ => ?_
  refine .assert_then (fun _ => .assertion (by decide)) fun _ => ?_
  refine .assert_then (fun _ => .assertion (by decide)) fun _ => ?_
  -- the difference was asserted to be there
  refine .sub_then hrange fun b hb => .asUint_then (fun hno => absurd hno (by omega)) fun _ _ => ?_
  have hs : s.status ≠ .NONE := by
    rcases hstatus with h | h <;> simp [h]
  -- the next epoch is the one cast that is left
  refine .asUint_then (fun hfull => .epoch ?_ (r.epoch_lt hsteady hs hst hfull)) fun _ _ => .pure _
  simp [hop, Op.rotates]

/-! ## No call is refused by arithmetic -/

/--
**No arithmetic failure strands funds**, in every run in which a compensation gets one
answer for the epoch, and at every such call: whatever refuses the call is an
assertion, or one of the numbers that grow has reached its end.
-/
theorem arithmetic_safe (r : Reaches p h s) (hsteady : ∀ e ∈ h, SteadyEpoch e)
    (hc : SteadyEpoch ⟨c, s, s⟩) {f : Failure} (hf : exec p c s = .error f) :
    Refusal p h s c f := by
  revert f
  -- circuit by circuit
  change Meets (Refusal p h s c) (exec p c s)
  unfold exec
  split
  · refine .bind requireIssuer_meets fun _ _ => ?_
    exact .assert_then (fun _ => .assertion (by decide)) fun _ => .pure _
  · refine .bind requireIssuer_meets fun _ _ => ?_
    exact .assert_then (fun _ => .assertion (by decide)) fun _ => .pure _
  · rename_i hop
    exact fundReserve_meets hop
  · exact r.withdrawUnencumberedReserve_meets
  · exact r.withdrawFees_meets
  · rename_i hop
    exact r.openLine_meets (by rw [hop]; rfl)
  · exact postQuote_meets
  · rename_i hop
    exact r.draw_meets hsteady (by rw [hop]; rfl)
  · exact r.redeemDraw_meets
  · rename_i hop
    exact r.cancelOrExpireNote_meets hsteady hc hop rfl
  · rename_i hop
    exact r.acknowledgeRepayment_meets hsteady hop rfl
  · exact setStatus_meets

/-- Funding past the range of the total reserve is refused by its cast. -/
theorem arithmetic_safe_run : ∃ (h : Trace Term) (s : Ledger Term),
    Reaches .organization h s
    ∧ exec .organization (Demo.fund (2 ^ 64 - 1)) s = .error (.cast "totalReserve")
    ∧ Refusal .organization h s (Demo.fund (2 ^ 64 - 1)) (.cast "totalReserve") := by
  obtain ⟨h, s, r, ht⟩ := Demo.reaches_of_check .organization
    [Demo.fund 1000, Demo.openLine, Demo.post 1 1, Demo.draw 1 1 0 0]
    (fun h s => (h.all fun e => (compensated e.label e.pre).isNone)
      && match exec .organization (Demo.fund (2 ^ 64 - 1)) s with
        | .ok _ => false
        | .error f => decide (f = .cast "totalReserve")) (by decide +kernel)
  simp only [Bool.and_eq_true, List.all_eq_true] at ht
  obtain ⟨hall, ht⟩ := ht
  have hsteady : ∀ e ∈ h, SteadyEpoch e := fun e he hsome => by
    rw [Option.isNone_iff_eq_none.mp (hall e he)] at hsome
    cases hsome
  split at ht
  · cases ht
  · rename_i f hf
    obtain rfl := of_decide_eq_true ht
    exact ⟨h, s, r, hf, arithmetic_safe r hsteady (fun hsome => by cases hsome) hf⟩

/-- A compensation that shows epoch 2 and commits to the last epoch there is. -/
def Demo.exhaustEpoch : Call Term :=
  ⟨.cancelOrExpireNote (Demo.note 1 1) ⟨1, one_lt_u8⟩ (Demo.u64 0),
    { Demo.caller Demo.borrower 1 1 204 2 0 with
      lineEpoch := fun k => if k = 0 then Demo.u64 2 else Demo.u64 (2 ^ 64 - 2) }, 60⟩

/-- **The epoch is used up after seven calls**: the borrower's remaining debt of 102 can no longer
be repaid. -/
theorem arithmetic_safe_fails : ∃ (h : Trace Term) (s : Ledger Term),
    Reaches .canonical h s
    ∧ exec .canonical (Demo.repay 7 102 (2 ^ 64 - 1) 102) s = .error (.cast "epoch")
    ∧ ¬ Refusal .canonical h s (Demo.repay 7 102 (2 ^ 64 - 1) 102) (.cast "epoch") := by
  obtain ⟨h, s, r, ht⟩ := Demo.reaches_of_check .canonical
    [Demo.fund 1000, Demo.openLine, Demo.post 1 1, Demo.draw 1 1 0 0, Demo.post 2 1,
      Demo.draw 2 1 102 1, Demo.exhaustEpoch]
    (fun h s => decide (h.length = 7)
      && match exec .canonical (Demo.repay 7 102 (2 ^ 64 - 1) 102) s with
        | .ok _ => false
        | .error f => decide (f = .cast "epoch")) (by decide +kernel)
  simp only [Bool.and_eq_true, decide_eq_true_eq] at ht
  obtain ⟨hlen, ht⟩ := ht
  split at ht
  · cases ht
  · rename_i f hf
    obtain rfl := of_decide_eq_true ht
    refine ⟨h, s, r, hf, fun hno => ?_⟩
    have hle := hno.epoch_length rfl
    omega

end Line
