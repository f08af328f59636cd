import Line.Proof.Nullifiers
import Line.Proof.Provenance

/-!
# The merchant's claim

A live note can be redeemed at any time before its expiry, by whoever holds the
merchant's secret and the opening of the note. Nothing that happened since the draw
matters: each check of `redeemDraw` is discharged by an invariant that all circuits
keep.

* The opening is the one the note was drawn with (`Reaches.provenance`), so the
  assertion on it is true.
* Only a redemption of the same note spends its nullifier (`Reaches.redeem_fresh`).
* The budgets hold the note's principal and fee (`Reaches.live_covered`), so no
  subtraction goes below zero, and what they move into stays below the total.
* A merchant is never unregistered, so in the organization contract there is a
  recipient; custody holds the principal.

Until the expiry the note stays as it is, except by being redeemed.
-/

namespace Line

open Checked MapTotal

variable {B : Type} [DecidableEq B] [Compact B] {p : Profile} {c : Call B} {s s' : Ledger B}
  {h h' : Trace B} {D M : B} {n : NoteMeta B}

/-! ## What covers a note -/

/-- The budgets hold the principal and the fee of a live note. -/
theorem Reaches.live_covered (r : Reaches p h s) (hn : s.notes.lookup D = some n)
    (hlive : n.Live) :
    n.amount.val ≤ s.encumberedReserve.val ∧ n.fee.val ≤ s.pendingFeeReserve.val := by
  have hE := r.balanced.books .encumbered
  have hP := r.balanced.books .pendingFee
  have hEle := le_total (fun n => n.books p .encumbered) hn
  have hPle := le_total (fun n => n.books p .pendingFee) hn
  simp only [Budget.counter, Budget.paidOut, Nat.add_zero] at hE hP
  simp only [NoteMeta.books, if_pos hlive] at hEle hPle
  rw [hE, hP]
  exact ⟨hEle, hPle⟩

/-- The refund budget holds the cost of a refundable note. -/
theorem Reaches.refundable_covered (r : Reaches p h s) (hn : s.notes.lookup D = some n)
    (href : n.Refundable) : n.cost ≤ s.refundReserve.val := by
  have hU := r.balanced.books .refund
  have hle := le_total (fun n => n.books p .refund) hn
  simp only [Budget.counter, Budget.paidOut, Nat.add_zero] at hU
  simp only [NoteMeta.books, if_pos href] at hle
  rw [hU]
  exact hle

/-- The encumbered budget is a live note's principal and that of all other live notes. -/
theorem Reaches.encumbered_split (r : Reaches p h s) (hn : s.notes.lookup D = some n)
    (hlive : n.Live) :
    s.encumberedReserve.val = n.amount.val
      + total (fun n => if n.Live then n.amount.val else 0) (s.notes.erase D) := by
  have hE := r.balanced.books .encumbered
  simp only [Budget.counter, Budget.paidOut, Nat.add_zero] at hE
  rw [hE, total_eq_add_erase _ hn]
  simp only [NoteMeta.books, if_pos hlive]

/-- What the organization contract holds covers every budget that is still to be paid. -/
theorem Reaches.held (r : Reaches .organization h s) :
    s.encumberedReserve.val + s.feeReserve.val + s.pendingFeeReserve.val + s.refundReserve.val
      + s.reportedRefundReserve.val ≤ s.custody.balance := by
  have hheld := r.custody
  have hsol := r.balanced.solvent
  simp only [lockedReserve] at hsol
  omega

/-! ## The merchant stays registered -/

/-- A continuation forgets no merchant. -/
theorem Continues.mem_merchants (r : Continues p s h s') (hM : M ∈ s.registeredMerchants) :
    M ∈ s'.registeredMerchants :=
  r.preserves (I := fun s => M ∈ s.registeredMerchants) (fun _ _ _ hI st => st.merchants_mono hI) hM

/-- The merchant of a note is registered, however long ago it was drawn. -/
theorem Reaches.merchant_registered {Q k : B} (r : Reaches p h s)
    (hprov : Provenance h s D n Q M k) : M ∈ s.registeredMerchants := by
  obtain ⟨e, he, _, _, _, henabled, _⟩ := hprov.posted
  obtain ⟨_, _, -, _, st, r₂⟩ := r.of_mem he
  exact r₂.mem_merchants (st.merchants_mono (Finmap.mem_iff.mpr ⟨true, henabled⟩))

/-- **The payout of a redemption is made**: there is a recipient, and enough is held. -/
theorem Reaches.payMerchant_ok {a : ℕ} (r : Reaches p h s) (hM : M ∈ s.registeredMerchants)
    (ha : p = .organization → a ≤ s.custody.balance) :
    ∃ custody, payMerchant p M a s = .ok custody
      ∧ (p = .organization → ∃ recipient, s.merchantPayoutRecipients.lookup M = some recipient
        ∧ custody.sent = (recipient, a) :: s.custody.sent) := by
  cases p with
  | canonical => exact ⟨s.custody, rfl, fun h => by cases h⟩
  | organization =>
    obtain ⟨recipient, hr⟩ := Finmap.mem_iff.mp (r.payoutRecipient hM)
    refine ⟨sendUnshielded a recipient s.custody, ?_, fun _ => ⟨recipient, hr, rfl⟩⟩
    simp only [payMerchant, bind_ok_iff, lookup_ok_iff, assert_ok_iff, exists_const, pure_ok_iff]
    exact ⟨recipient, hr, r.tokenInitialized, ha rfl, rfl⟩

variable [LawfulCompact B]

/-! ## The nullifier is unspent -/

/-- A redemption nullifier is spent by a redemption of its note. -/
theorem redeems_of_spent {sk dom : B} (hmem : redeemNullifier sk D dom ∈ spent c s) :
    c.op.redeems D = true := by
  obtain ⟨f, hf, hhas⟩ := spent_family hmem
  obtain rfl := Family.eq_of_has hhas (redeemNullifier_family sk D dom)
  cases hop : c.op with
  | redeemDraw D' x =>
    simp only [spent, hop, List.mem_singleton] at hmem
    obtain ⟨_, hD, _⟩ := redeemNullifier_inj hmem
    simp [Op.redeems, hD]
  | cancelOrExpireNote D' action x =>
    rw [hop] at hf
    simp only [Op.families] at hf
    split at hf <;> simp at hf
  | _ => simp [hop, Op.families] at hf

/-- **The nullifier of a note that was not redeemed is unspent**, under every secret. -/
theorem Reaches.redeem_fresh (r : Reaches p h s) (hn : s.notes.lookup D = some n)
    (hr : n.redeemed = false) (sk dom : B) : redeemNullifier sk D dom ∉ s.nullifiers := by
  intro hmem
  obtain ⟨e, he, hspent⟩ := r.spent_of_mem hmem
  obtain ⟨_, _, -, r₁, st, r₂⟩ := r.of_mem he
  obtain ⟨_, m, g, hpost⟩ := st.redeems (redeems_of_spent hspent)
  -- the redemption left the note redeemed, and it still is
  have hm : e.post.notes.lookup D = some m.redeem := by rw [hpost, Finmap.lookup_insert]
  have r₁' : Reaches p _ e.post := .next r₁ (calls_iff.mpr st)
  obtain ⟨n', hn', _, hev⟩ := r₂.note hm (r₁'.noteWF hm)
  obtain rfl := Option.some.inj (hn.symm.trans hn')
  have hred := hev.redeemed rfl
  rw [hr] at hred
  cases hred

/-! ## The claim -/

/-- The answers of a party that holds the secret `sk` and the opening `pre`, `salt` of a note. -/
structure HoldsOpening (w : Witness B) (sk : B) (pre : DrawNotePreimage B) (salt : B) : Prop where
  callerSecret : ∀ k, w.callerSecret k = sk
  redeemAmount : w.redeemAmount 0 = pre.amount
  noteIdentity : w.noteIdentity 0 = pre.identity
  noteQuoteCommit : w.noteQuoteCommit 0 = pre.quoteCommit
  noteNonce : w.noteNonce 0 = pre.noteNonce
  noteSalt : w.noteSalt 0 = salt

/-- **Every check of `redeemDraw` is true.** -/
theorem Reaches.redeems_ok {w : Witness B} {now : ℕ} {sk salt : B} {pre : DrawNotePreimage B}
    (r : Reaches p h s) (hn : s.notes.lookup D = some n) (hlive : n.Live)
    (hopen : drawNoteCommit pre salt = D) (hM : pre.merchantPk = merchantPublicKey sk)
    (hw : HoldsOpening w sk pre salt) (hnow : now < n.expiry.val) :
    ∃ s', exec p ⟨.redeemDraw D pre.expiry, w, now⟩ s = .ok s'
      ∧ (p = .organization → ∃ recipient,
          s.merchantPayoutRecipients.lookup pre.merchantPk = some recipient
          ∧ s'.custody.sent = (recipient, n.amount.val) :: s.custody.sent) := by
  obtain ⟨Q, M, k, hprov⟩ := r.provenance hn
  have hreg := r.merchant_registered hprov
  -- the holder's opening is the one the note was drawn with
  obtain ⟨nonce, salt', hD⟩ := hprov.opening
  obtain ⟨rfl, -⟩ := drawNoteCommit_inj (hopen.trans hD)
  simp only at hM ⊢
  subst hM
  have hkey : merchantPublicKey (w.callerSecret 0) = merchantPublicKey sk := by
    rw [hw.callerSecret 0]
  have g : RedeemGuard w now D n.expiry s n := by
    refine ⟨hn, hlive.1, hlive.2, hnow, hw.redeemAmount.symm, ?_,
      r.redeem_fresh hn hlive.1 _ _⟩
    rw [redeemPreimage, hkey, hw.redeemAmount, hw.noteIdentity, hw.noteQuoteCommit, hw.noteNonce,
      hw.noteSalt]
    exact hopen
  obtain ⟨hE, hP⟩ := r.live_covered hn hlive
  -- what the principal and the fee move into stays below the total
  have hsol := r.balanced.solvent
  have htot := s.totalReserve.isLt
  simp only [lockedReserve] at hsol
  have ha : p = .organization → n.amount.val ≤ s.custody.balance := by
    rintro rfl
    have hheld := r.held
    omega
  obtain ⟨custody, hpay, hsent⟩ := r.payMerchant_ok hreg ha
  rw [← hkey] at hpay
  refine ⟨_, exec_ok_iff.mpr (.redeemDraw g hpay
    (E := ⟨s.encumberedReserve.val - n.amount.val, by omega⟩)
    (R := ⟨s.redeemedReserve.val + n.amount.val, by omega⟩)
    (P := ⟨s.pendingFeeReserve.val - n.fee.val, by omega⟩)
    (F := ⟨s.feeReserve.val + n.fee.val, by omega⟩)
    (Nat.sub_add_cancel hE) rfl (Nat.sub_add_cancel hP) rfl), hsent⟩

omit [LawfulCompact B] in
/-- **Before the expiry a live note is only redeemed**: no other call touches its entry. -/
theorem Step.live_kept (st : Step p c s s') (hn : s.notes.lookup D = some n) (hlive : n.Live)
    (hnow : c.now < n.expiry.val) : s'.notes.lookup D = some n ∨ c.op.redeems D = true := by
  obtain ⟨n', hn', rfl | hm⟩ := st.notes.lookup hn
  · exact .inl hn'
  · cases hm with
    | redeem hop => exact .inr (by simp [hop, Op.redeems])
    | expire _ _ _ _ hle => omega
    | allocate _ _ _ hle =>
      have hlate := hle hlive.2
      omega
    | acknowledge _ _ g =>
      have hc := g.cancelled
      rw [hlive.2] at hc
      cases hc

omit [LawfulCompact B] in
theorem Continues.live_kept (r : Continues p s h s') (hn : s.notes.lookup D = some n)
    (hlive : n.Live) (hnow : ∀ e ∈ h, e.label.now < n.expiry.val) :
    s'.notes.lookup D = some n ∨ ∃ e ∈ h, e.label.op.redeems D = true := by
  refine History.Run.invariant (I := fun h s' => (∀ e ∈ h, e.label.now < n.expiry.val) →
    s'.notes.lookup D = some n ∨ ∃ e ∈ h, e.label.op.redeems D = true) ?_ ?_ r hnow
  · rintro _ rfl _
    exact .inl hn
  · intro h s c s' _ hI st hnow
    rcases hI fun e he => hnow e (List.mem_cons_of_mem _ he) with hold | ⟨e, he, hk⟩
    · have hnow' := hnow _ List.mem_cons_self
      rcases (calls_iff.mp st).live_kept hold hlive hnow' with hkeep | hk
      · exact .inl hkeep
      · exact .inr ⟨_, List.mem_cons_self, hk⟩
    · exact .inr ⟨e, List.mem_cons_of_mem _ he, hk⟩

/-- The note `D` with the entry `n` can be claimed in the ledger `s`. -/
structure Claimable (p : Profile) (s : Ledger B) (D : B) (n : NoteMeta B) : Prop where
  note : s.notes.lookup D = some n
  live : n.Live
  /-- Its principal is encumbered, on top of that of every other live note. -/
  locked : s.encumberedReserve.val = n.amount.val
    + total (fun n => if n.Live then n.amount.val else 0) (s.notes.erase D)
  /-- Whoever holds the merchant's secret and the opening can redeem it until it expires, and in
  the organization contract its principal goes to the recipient of the merchant. -/
  redeemable : ∀ (pre : DrawNotePreimage B) (salt sk : B) (w : Witness B) (now : ℕ),
    drawNoteCommit pre salt = D → pre.merchantPk = merchantPublicKey sk →
    HoldsOpening w sk pre salt → now < n.expiry.val →
      ∃ s', exec p ⟨.redeemDraw D pre.expiry, w, now⟩ s = .ok s'
        ∧ (p = .organization → ∃ recipient,
            s.merchantPayoutRecipients.lookup pre.merchantPk = some recipient
            ∧ s'.custody.sent = (recipient, n.amount.val) :: s.custody.sent)

/--
**The merchant's claim.** A note that is live in a reachable ledger can be claimed
there, and after every continuation that stays before its expiry and has not redeemed
it.
-/
theorem merchant_claim (r : Reaches p h s) (hn : s.notes.lookup D = some n) (hlive : n.Live)
    (r' : Continues p s h' s') (hnow : ∀ e ∈ h', e.label.now < n.expiry.val) :
    Claimable p s' D n ∨ ∃ e ∈ h', e.label.op.redeems D = true := by
  have r₂ : Reaches p (h' ++ h) s' := r.append r'
  rcases r'.live_kept hn hlive hnow with hn' | hk
  · left
    refine ⟨hn', hlive, r₂.encumbered_split hn' hlive, ?_⟩
    intro pre salt sk w now hopen hM hw hlt
    exact r₂.redeems_ok hn' hlive hopen hM hw hlt
  · exact .inr hk

/-- A live note of an old generation, whose merchant was disabled, after the issuer withdrew all
it could. -/
theorem merchant_claim_run : ∃ (h : Trace Term) (s : Ledger Term) (n : NoteMeta Term),
    Reaches .organization h s ∧ s.lineGeneration.val = 2
    ∧ s.custody.balance = 102 ∧ Claimable .organization s (Demo.note 1 1) n := by
  obtain ⟨h, s, r, ht⟩ := Demo.reaches_of_check .organization
    [Demo.fund 1000, Demo.openLine, Demo.post 1 1, Demo.draw 1 1 0 0, Demo.disableMerchant,
      Demo.repay 7 102 1 102, Demo.setStatus .DEFAULTED 0 0, Demo.setStatus .CLOSED 0 2,
      Demo.openLine, ⟨.withdrawUnencumberedReserve (Demo.u64 1000),
        Demo.caller Demo.issuer 0 0 0 0 0, 0⟩]
    (fun _ s => decide (s.lineGeneration.val = 2) && decide (s.custody.balance = 102)
      && match s.notes.lookup (Demo.note 1 1) with
        | some n => decide n.Live
        | none => false) (by decide +kernel)
  simp only [Bool.and_eq_true, decide_eq_true_eq] at ht
  obtain ⟨⟨hg, hb⟩, hnote⟩ := ht
  split at hnote
  · rename_i n hn
    refine ⟨h, s, n, r, hg, hb, ?_⟩
    exact (merchant_claim r hn (of_decide_eq_true hnote) (.start rfl)
      (fun e he => by cases he)).resolve_right (by simp)
  · cases hnote

end Line
