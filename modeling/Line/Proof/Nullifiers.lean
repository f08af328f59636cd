import Line.Contract.Symbolic

/-!
# Nullifiers and payment references

The four families of nullifiers share one set. A call spends nullifiers of its own
families only (`spent_family`), and looks for no others, so putting a foreign
nullifier into the set refuses nothing (`Step.independent`).

A payment reference is spent together with a secret: the nullifier hashes both. Two
events that answer the same secret and the same reference exclude each other, always
(`Reaches.pays_once`). The issuer's key has one secret only, but the two circuits
that authenticate the issuer ask for the secret again when they build the nullifier;
where the second answer is the first, the reference alone decides.
-/

namespace Line

open Checked

variable {B : Type}

/-! ## What a call spends -/

/-- The families a call spends from. -/
def Op.families : Op B → List Family
  | .draw _ _ _ => [.draw]
  | .redeemDraw _ _ => [.redeem]
  | .cancelOrExpireNote _ action _ => if action.val = 2 then [.payment] else []
  | .acknowledgeRepayment _ => [.payment, .repay]
  | _ => []

/-- The call credits the payment reference: a repayment, or a refund acknowledgement. -/
def Call.pays [DecidableEq B] (ref : B) (c : Call B) : Bool :=
  match c.op with
  | .cancelOrExpireNote _ action _ => action.val = 2 ∧ c.witness.paymentRef 0 = ref
  | .acknowledgeRepayment _ => c.witness.paymentRef 0 = ref
  | _ => false

/-- The caller answers `callerSecret()` once: the secret that authenticates a payment is the one
that spends its reference. -/
def OneSecret [DecidableEq B] (e : Tx B) : Prop :=
  ∀ ref, e.label.pays ref = true →
    e.label.witness.callerSecret 1 = e.label.witness.callerSecret 0

variable [DecidableEq B] [Compact B] {p : Profile} {c : Call B} {s s' : Ledger B}
  {h h' : Trace B} {ref n : B}

omit [DecidableEq B] in
/-- **A call spends from its own families.** -/
theorem spent_family (hn : n ∈ spent c s) : ∃ f ∈ c.op.families, f.Has n := by
  cases hop : c.op with
  | draw Q x f =>
    simp only [spent, hop, List.mem_singleton] at hn
    exact ⟨.draw, by simp [Op.families], hn ▸ drawNullifier_family _ _ _⟩
  | redeemDraw D x =>
    simp only [spent, hop, List.mem_singleton] at hn
    exact ⟨.redeem, by simp [Op.families], hn ▸ redeemNullifier_family _ _ _⟩
  | cancelOrExpireNote D action x =>
    simp only [spent, hop] at hn
    split at hn
    · rename_i h2
      rw [List.mem_singleton] at hn
      exact ⟨.payment, by simp [Op.families, h2], hn ▸ paymentNullifier_family _ _ _⟩
    · cases hn
  | acknowledgeRepayment x =>
    simp only [spent, hop, List.mem_cons, List.not_mem_nil, or_false] at hn
    rcases hn with hn | hn
    · exact ⟨.payment, by simp [Op.families], hn ▸ paymentNullifier_family _ _ _⟩
    · exact ⟨.repay, by simp [Op.families], hn ▸ repayNullifier_family _ _ _ _ _ _⟩
  | _ => simp [spent, hop] at hn

/-- **What a call does not spend does not stop it.** -/
theorem Step.independent {N : Finset B} (st : Step p c s s') (hN : ∀ n ∈ spent c s, n ∉ N) :
    ∃ t, Step p c { s with nullifiers := s.nullifiers ∪ N } t := by
  -- a nullifier of the call is fresh in the larger set as well
  have fresh : ∀ n ∈ spent c s, n ∉ s.nullifiers ∪ N := by
    intro n hn hmem
    rcases Finset.mem_union.mp hmem with h | h
    · exact st.spent_fresh hn h
    · exact hN n hn h
  cases st with
  | registerMerchant hi hm => exact ⟨_, .registerMerchant hi hm⟩
  | disableMerchant hi hm => exact ⟨_, .disableMerchant hi hm⟩
  | fundReserve hi ha hT => exact ⟨_, .fundReserve hi ha hT⟩
  | withdrawUnencumberedReserve hi ha hl hc hT =>
    exact ⟨_, .withdrawUnencumberedReserve hi ha hl hc hT⟩
  | withdrawFees hi hf hl hc hT => exact ⟨_, .withdrawFees hi hf hl hc hT⟩
  | openLine g hg => exact ⟨_, .openLine { g with } hg⟩
  | postQuote g => exact ⟨_, .postQuote { g with }⟩
  | draw g hE hP hb he =>
    have hfresh := fresh _ (List.mem_singleton.mpr rfl)
    exact ⟨_, .draw { g with fresh := hfresh } hE hP hb he⟩
  | redeemDraw g hc hE hR hP hF =>
    have hfresh := fresh _ (List.mem_singleton.mpr rfl)
    exact ⟨_, .redeemDraw { g with fresh := hfresh } hc hE hR hP hF⟩
  | expire h0 hn hr hc hcost hR => exact ⟨_, .expire h0 hn hr hc hcost { hR with }⟩
  | allocateCurrent h1 g hcost hR hg ho hst hz hp he =>
    exact ⟨_, .allocateCurrent h1 { g with } hcost { hR with } hg ho hst hz hp he⟩
  | allocateOlder h1 g hcost hR hg =>
    exact ⟨_, .allocateOlder h1 { g with } hcost { hR with } hg⟩
  | @acknowledgeRefund w _ _ _ _ _ _ _ _ _ _ h2 g hpay hlt hU hcan horg =>
    have hfresh := fresh (witnessPayment w s) (by simp [spent, h2])
    exact ⟨_, .acknowledgeRefund h2 { g with fresh := hfresh } hpay hlt hU hcan horg⟩
  | @acknowledgeRepayment w _ _ _ _ _ _ g hcan horg hb he =>
    have hfreshP := fresh (witnessPayment w s) (by simp [spent])
    have hfreshN := fresh (witnessReceipt w s) (by simp [spent])
    exact ⟨_, .acknowledgeRepayment { g with freshPayment := hfreshP, freshReceipt := hfreshN }
      hcan horg hb he⟩
  | setStatus g => exact ⟨_, .setStatus { g with }⟩

/-- The nullifier set only grows. -/
theorem Continues.nullifiers_mono (r : Continues p s h s') : s.nullifiers ⊆ s'.nullifiers :=
  r.preserves (I := fun t => s.nullifiers ⊆ t.nullifiers)
    (fun _ _ _ hI st => hI.trans st.nullifiers_mono) (Finset.Subset.refl _)

/-- **Every nullifier in the set was spent by a recorded call.** -/
theorem Reaches.spent_of_mem (r : Reaches p h s) (hn : n ∈ s.nullifiers) :
    ∃ e ∈ h, n ∈ spent e.label e.pre := by
  refine r.invariant (I := fun h s => n ∈ s.nullifiers → ∃ e ∈ h, n ∈ spent e.label e.pre)
    ?_ ?_ hn
  · intro d hn
    simp [constructor] at hn
  · intro h s c s' _ hI st hn
    rcases st.nullifiers.mp hn with hold | hnew
    · obtain ⟨e, he, hs⟩ := hI hold
      exact ⟨e, List.mem_cons_of_mem _ he, hs⟩
    · exact ⟨_, List.mem_cons_self, hnew⟩

/-! ## Payment references -/

/-- A payment is authenticated by the first secret and spends its reference with the second. -/
theorem Step.pays (st : Step p c s s') (hc : c.pays ref = true) :
    IsIssuer c.witness s
      ∧ paymentNullifier (c.witness.callerSecret 1) ref s.contractDomain ∈ spent c s := by
  cases st with
  | acknowledgeRepayment g =>
    obtain rfl := of_decide_eq_true hc
    exact ⟨g.issuer, List.mem_cons_self⟩
  | acknowledgeRefund h2 g =>
    obtain ⟨-, rfl⟩ := of_decide_eq_true hc
    exact ⟨g.issuer, by simp [spent, h2, witnessPayment]⟩
  | expire h0 =>
    obtain ⟨h2, -⟩ := of_decide_eq_true hc
    omega
  | allocateCurrent h1 =>
    obtain ⟨h2, -⟩ := of_decide_eq_true hc
    omega
  | allocateOlder h1 =>
    obtain ⟨h2, -⟩ := of_decide_eq_true hc
    omega
  | _ => cases hc

/-- **A secret and a reference pay at most once together**, for any hash. -/
theorem Reaches.pays_once (r : Reaches p h s) (sk ref : B) :
    h.countP (fun e => e.label.pays ref && decide (e.label.witness.callerSecret 1 = sk)) ≤ 1 := by
  refine r.countP_le_one (fun s => paymentNullifier sk ref s.contractDomain ∈ s.nullifiers) ?_ ?_
  · intro h s c s' _ st hflag
    rw [st.sameInstance.contractDomain]
    exact st.nullifiers_mono hflag
  · intro h s c s' _ st hk
    obtain ⟨hpays, hsk⟩ := Bool.and_eq_true_iff.mp hk
    obtain ⟨-, hmem⟩ := st.pays hpays
    rw [of_decide_eq_true hsk] at hmem
    refine ⟨st.spent_fresh hmem, ?_⟩
    rw [st.sameInstance.contractDomain]
    exact st.nullifiers.mpr (.inr hmem)

variable [LawfulCompact B]

/-- **A reference pays at most once**, where every payment gets one answer for the secret. -/
theorem Reaches.reference_once (r : Reaches p h s) (hone : ∀ e ∈ h, OneSecret e) (ref : B) :
    h.countP (fun e => e.label.pays ref) ≤ 1 := by
  by_cases hex : ∃ e ∈ h, e.label.pays ref = true
  · obtain ⟨e, he, hpays⟩ := hex
    -- all payments answer the secret of this one, for the issuer's key has no other
    have same : ∀ e' ∈ h, e'.label.pays ref = true →
        e'.label.witness.callerSecret 1 = e.label.witness.callerSecret 1 := by
      intro e' he' hpays'
      obtain ⟨_, _, -, _, st, _⟩ := r.of_mem he
      obtain ⟨_, _, -, _, st', _⟩ := r.of_mem he'
      have hi : e.pre.issuer = _ := (st.pays hpays).1
      have hi' : e'.pre.issuer = _ := (st'.pays hpays').1
      rw [r.issuer_of_mem he] at hi
      rw [r.issuer_of_mem he'] at hi'
      rw [hone e he ref hpays, hone e' he' ref hpays']
      exact issuerPublicKey_inj (hi'.symm.trans hi)
    rw [List.countP_congr (q := fun e' => e'.label.pays ref
      && decide (e'.label.witness.callerSecret 1 = e.label.witness.callerSecret 1))]
    · exact r.pays_once _ ref
    · intro e' he'
      simp only [Bool.and_eq_true, decide_eq_true_eq]
      exact ⟨fun h' => ⟨h', same e' he' h'⟩, fun h' => h'.1⟩
  · rw [List.countP_eq_zero.mpr fun e he hpays => hex ⟨e, he, hpays⟩]
    exact Nat.zero_le 1

/-- What the nullifiers of an instance guarantee in any run `h` that reached `s`. -/
structure Separate (p : Profile) (h : Trace B) (s : Ledger B) : Prop where
  /-- The set only grows. -/
  grows : ∀ h' s', Continues p s h' s' → s.nullifiers ⊆ s'.nullifiers
  /-- Whatever is in it was spent by a recorded call, from a family of that call, -/
  traced : ∀ n ∈ s.nullifiers, ∃ e ∈ h, n ∈ spent e.label e.pre
    ∧ ∃ f ∈ e.label.op.families, f.Has n
  /-- and no family has it but that one. -/
  disjoint : ∀ (n : B) (f g : Family), f.Has n → g.Has n → f = g
  /-- Nullifiers of other families stop no call. -/
  independent : ∀ (c : Call B) (t : Ledger B) (N : Finset B),
    (∀ n ∈ N, ∃ f, f.Has n ∧ f ∉ c.op.families) → (∃ t', exec p c t = .ok t') →
      ∃ t', exec p c { t with nullifiers := t.nullifiers ∪ N } = .ok t'

/-- And what they should guarantee of payment references. -/
structure SingleUse (p : Profile) (h : Trace B) (s : Ledger B) : Prop extends
    Separate p h s where
  /-- A payment reference authorizes one event. -/
  reference : ∀ ref, h.countP (fun e => e.label.pays ref) ≤ 1

/-- The families of nullifiers do not meet, in any run. -/
theorem Reaches.separate (r : Reaches p h s) : Separate p h s where
  grows := fun _ _ r' => r'.nullifiers_mono
  traced := by
    intro n hn
    obtain ⟨e, he, hs⟩ := r.spent_of_mem hn
    exact ⟨e, he, hs, spent_family hs⟩
  disjoint := fun _ _ _ => Family.eq_of_has
  independent := by
    rintro c t N hN ⟨t', hc⟩
    have foreign : ∀ n ∈ spent c t, n ∉ N := by
      intro n hn hmem
      obtain ⟨f, hf, hnot⟩ := hN n hmem
      obtain ⟨g, hg, hgn⟩ := spent_family hn
      exact hnot (Family.eq_of_has hf hgn ▸ hg)
    obtain ⟨u, hu⟩ := (exec_ok_iff.mp hc).independent foreign
    exact ⟨u, exec_ok_iff.mpr hu⟩

/-- **Single use of payment references**, in every run whose payments get one answer for the
secret; the rest holds in every run. -/
theorem payment_single_use (r : Reaches p h s) :
    Separate p h s ∧ ((∀ e ∈ h, OneSecret e) → SingleUse p h s) :=
  ⟨r.separate, fun hone => ⟨r.separate, r.reference_once hone⟩⟩

/-- A repayment and a refund, with a reference each. -/
theorem payment_single_use_run : ∃ (h : Trace Term) (s : Ledger Term),
    Reaches .canonical h s ∧ SingleUse .canonical h s
    ∧ h.countP (fun e => e.label.pays (.atom 7)) = 1
    ∧ h.countP (fun e => e.label.pays (.atom 2)) = 1 := by
  obtain ⟨h, s, r, ht⟩ := Demo.reaches_of_check .canonical
    [Demo.fund 1000, Demo.openLine, Demo.post 1 1, Demo.draw 1 1 0 0, Demo.post 2 1,
      Demo.draw 2 1 102 1, Demo.repay 7 204 2 150, Demo.allocate 2 1 54 3, Demo.refund 2 1 48]
    (fun h _ => decide (h.countP (fun e => e.label.pays (.atom 7)) = 1)
      && decide (h.countP (fun e => e.label.pays (.atom 2)) = 1)
      && h.all fun e => decide (e.label.witness.callerSecret 1 = e.label.witness.callerSecret 0))
    (by decide +kernel)
  simp only [Bool.and_eq_true, decide_eq_true_eq, List.all_eq_true] at ht
  obtain ⟨-, hsingle⟩ := payment_single_use r
  exact ⟨h, s, r, hsingle fun e he _ _ => ht.2 e he, ht.1.1, ht.1.2⟩

/-- A repayment under payment reference 7 and receipt nonce `n`, whose second answer for the
secret is `sk`. -/
def Demo.repayAs (sk : Term) (n outstanding epoch amount : ℕ) : Call Term :=
  ⟨.acknowledgeRepayment (Demo.u64 90),
    { Demo.caller Demo.issuer n 0 outstanding epoch amount with
      paymentRef := fun _ => .atom 7
      callerSecret := fun k => if k = 0 then Demo.issuer else sk }, 60⟩

/-- **One reference, two repayments**: the issuer answers its own secret first and another word
second. -/
theorem payment_single_use_fails : ∃ (h : Trace Term) (s : Ledger Term),
    Reaches .canonical h s ∧ ¬ SingleUse .canonical h s := by
  obtain ⟨h, s, r, ht⟩ := Demo.reaches_of_check .canonical
    [Demo.fund 1000, Demo.openLine, Demo.post 1 1, Demo.draw 1 1 0 0,
      Demo.repayAs Demo.issuer 8 102 1 40, Demo.repayAs (.atom 99) 9 62 2 40]
    (fun h _ => decide (h.countP (fun e => e.label.pays (.atom 7)) = 2)) (by decide +kernel)
  refine ⟨h, s, r, fun hs => ?_⟩
  have hle := hs.reference (.atom 7)
  have htwo : h.countP (fun e => e.label.pays (.atom 7)) = 2 := of_decide_eq_true ht
  omega

end Line
