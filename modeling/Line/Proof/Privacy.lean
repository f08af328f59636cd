import Line.Contract.Symbolic
import Line.Proof.Reserve

/-!
# Partial refunds stay private

Two runs of the canonical contract make the same calls, by the same callers and at the
same times, over books that differ: other limits, other balances, other repayments and
other refunds. What the ledger publishes is the same in both, entry by entry and step by
step, as long as the two agree at each allocation on whether cash is left owed.

The proof is relational. `Veiled` is what the witnesses may differ in, `SamePublic` what
the ledgers may not, and one lemma for a pair of steps keeps the second.
-/

namespace Line

open Checked

variable {B : Type} [DecidableEq B] [Compact B]

/-- The witness over another private book and with another private amount. -/
def Witness.veil (w : Witness B) (limit outstanding amount : ℕ → U64) : Witness B :=
  { w with lineLimit := limit, lineOutstanding := outstanding, repayAmount := amount }

/-- The calls differ only in the private limit, balance, repayment and refund. -/
structure Veiled (c c' : Call B) : Prop where
  op : c'.op = c.op
  now : c'.now = c.now
  witness : ∃ limit outstanding amount, c'.witness = c.witness.veil limit outstanding amount

/-- The cash that stays owed when the note is allocated: what the credit of the current book does
not cover, and the whole cost of a note of an older generation. -/
def remainder (w : Witness B) (s : Ledger B) (n : NoteMeta B) : ℕ :=
  if n.lineGeneration = s.lineGeneration then n.cost - (w.lineOutstanding 0).val else n.cost

/-- If the two events are allocations, cash stays owed after both or after neither. -/
def SameRemainder (e e' : Tx B) : Prop :=
  ∀ D action receiptExpiry, e.label.op = .cancelOrExpireNote D action receiptExpiry →
    action.val = 1 → ∀ n n', e.pre.notes.lookup D = some n → e'.pre.notes.lookup D = some n' →
      (0 < remainder e.label.witness e.pre n ↔ 0 < remainder e'.label.witness e'.pre n')

/-- The entry of a note without its refund commitment. -/
def NoteMeta.blind (n : NoteMeta B) : NoteMeta B := { n with refundCommitment := pad "" }

/-- The ledgers publish the same, commitments and nullifiers apart: of these, their number. -/
structure SamePublic (s t : Ledger B) : Prop where
  issuer : s.issuer = t.issuer
  contractDomain : s.contractDomain = t.contractDomain
  registeredMerchants : s.registeredMerchants = t.registeredMerchants
  totalReserve : s.totalReserve = t.totalReserve
  encumberedReserve : s.encumberedReserve = t.encumberedReserve
  redeemedReserve : s.redeemedReserve = t.redeemedReserve
  feeReserve : s.feeReserve = t.feeReserve
  pendingFeeReserve : s.pendingFeeReserve = t.pendingFeeReserve
  refundReserve : s.refundReserve = t.refundReserve
  reportedRefundReserve : s.reportedRefundReserve = t.reportedRefundReserve
  feeFlat : s.feeFlat = t.feeFlat
  feeBps : s.feeBps = t.feeBps
  identityCommit : s.identityCommit = t.identityCommit
  lineExpiry : s.lineExpiry = t.lineExpiry
  status : s.status = t.status
  lineGeneration : s.lineGeneration = t.lineGeneration
  quotes : s.quotes = t.quotes
  notes : ∀ D, (s.notes.lookup D).map NoteMeta.blind = (t.notes.lookup D).map NoteMeta.blind
  nullifiers : s.nullifiers.card = t.nullifiers.card
  actionClock : s.actionClock = t.actionClock

variable {p : Profile} {c c' : Call B} {s s' t t' : Ledger B} {h h' : Trace B} {D : B}
  {n m : NoteMeta B}

theorem SamePublic.refl (s : Ledger B) : SamePublic s s where
  issuer := rfl
  contractDomain := rfl
  registeredMerchants := rfl
  totalReserve := rfl
  encumberedReserve := rfl
  redeemedReserve := rfl
  feeReserve := rfl
  pendingFeeReserve := rfl
  refundReserve := rfl
  reportedRefundReserve := rfl
  feeFlat := rfl
  feeBps := rfl
  identityCommit := rfl
  lineExpiry := rfl
  status := rfl
  lineGeneration := rfl
  quotes := rfl
  notes := fun _ => rfl
  nullifiers := rfl
  actionClock := rfl

/-! ## Notes without their refunds -/

omit [DecidableEq B] in
/-- Entries that are the same but for the refund differ in nothing else. -/
theorem NoteMeta.eq_of_blind (h : n.blind = m.blind) :
    ∃ refund, m = { n with refundCommitment := refund } := by
  cases n
  cases m
  simp only [NoteMeta.blind, NoteMeta.mk.injEq] at h
  obtain ⟨rfl, rfl, rfl, rfl, rfl, rfl, rfl, -, rfl, rfl, rfl⟩ := h
  exact ⟨_, rfl⟩

/-- Both ledgers have a note, with the same entry but for the refund. -/
theorem SamePublic.note (hS : SamePublic s t) (hn : s.notes.lookup D = some n)
    (hm : t.notes.lookup D = some m) : n.blind = m.blind := by
  have h := hS.notes D
  rw [hn, hm, Option.map_some, Option.map_some] at h
  exact Option.some.inj h

/-- Writing entries that are the same but for the refund keeps the maps the same. -/
theorem SamePublic.insert_notes (hS : SamePublic s t) (hnm : n.blind = m.blind) (k : B) :
    ((s.notes.insert D n).lookup k).map NoteMeta.blind
      = ((t.notes.insert D m).lookup k).map NoteMeta.blind := by
  by_cases hk : k = D
  · subst hk
    rw [Finmap.lookup_insert, Finmap.lookup_insert, Option.map_some, Option.map_some, hnm]
  · rw [Finmap.lookup_insert_of_ne _ hk, Finmap.lookup_insert_of_ne _ hk]
    exact hS.notes k

/-! ## The number of nullifiers -/

section Lawful

variable [LawfulCompact B]

omit [DecidableEq B] in
/-- What a call spends, it spends once. -/
theorem spent_nodup (c : Call B) (s : Ledger B) : (spent c s).Nodup := by
  obtain ⟨op, w, now⟩ := c
  cases op with
  | acknowledgeRepayment x =>
    have hne : witnessPayment w s ≠ witnessReceipt w s := by
      intro he
      have hpay := paymentNullifier_family (w.callerSecret 1) (w.paymentRef 0) s.contractDomain
      have hrec := repayNullifier_family (w.receiptNonce 0) s.identityCommit s.lineCommit
        (w.repayAmount 0) (w.paymentRef 0) s.contractDomain
      have hmeet : Family.payment = Family.repay :=
        Family.eq_of_has hpay (n := witnessPayment w s) (he ▸ hrec)
      cases hmeet
    simp only [spent, List.nodup_cons, List.mem_singleton, List.not_mem_nil, not_false_eq_true,
      List.nodup_nil, and_true]
    exact hne
  | cancelOrExpireNote D action x =>
    simp only [spent]
    split <;> simp
  | _ => simp [spent]

theorem Step.nullifiers_card (st : Step p c s s') :
    s'.nullifiers.card = s.nullifiers.card + (spent c s).length := by
  have hunion : s'.nullifiers = s.nullifiers ∪ (spent c s).toFinset := by
    ext n
    rw [st.nullifiers, Finset.mem_union, List.mem_toFinset]
  have hdisjoint : Disjoint s.nullifiers (spent c s).toFinset := by
    rw [Finset.disjoint_right]
    intro n hn
    exact st.spent_fresh (List.mem_toFinset.mp hn)
  rw [hunion, Finset.card_union_of_disjoint hdisjoint,
    List.toFinset_card_of_nodup (spent_nodup c s)]

omit [DecidableEq B] [LawfulCompact B] in
/-- How many nullifiers a call spends is decided by its circuit. -/
theorem spent_length (hop : c'.op = c.op) : (spent c' t).length = (spent c s).length := by
  unfold spent
  rw [hop]
  cases c.op with
  | cancelOrExpireNote D action x =>
    simp only
    split <;> rfl
  | _ => rfl


/-! ## One step of both runs -/

omit [DecidableEq B] [Compact B] [LawfulCompact B] in
/-- Counters that were equal and were raised by the same are equal. -/
theorem raised_eq {a b T T' : U64} {k : ℕ} (hab : a = b) (h : T.val = a.val + k)
    (h' : T'.val = b.val + k) : T = T' := by
  rw [Uint.ext_iff, h, h', hab]

omit [DecidableEq B] [Compact B] [LawfulCompact B] in
/-- Counters that were equal and were lowered by the same are equal. -/
theorem lowered_eq {a b T T' : U64} {k : ℕ} (hab : a = b) (h : T.val + k = a.val)
    (h' : T'.val + k = b.val) : T = T' := by
  rw [Uint.ext_iff]
  rw [hab] at h
  omega

omit [LawfulCompact B] in
/-- The budgets of entries that are the same but for the refund move alike. -/
theorem SamePublic.releases {now : ℕ} {cost E P U cost' E' P' U' : U64} {refund : B}
    (hS : SamePublic s t) (hcost : cost.val = n.amount.val + n.fee.val)
    (hcost' : cost'.val = n.amount.val + n.fee.val) (hR : Releases now n cost s E P U)
    (hR' : Releases now { n with refundCommitment := refund } cost' t E' P' U') :
    cost = cost' ∧ E = E' ∧ P = P' ∧ U = U' := by
  obtain rfl : cost = cost' := Uint.ext (hcost.trans hcost'.symm)
  refine ⟨rfl, ?_⟩
  cases hc : n.cancelled with
  | true =>
    obtain ⟨rfl, rfl, rfl⟩ := hR.skipped hc
    obtain ⟨rfl, rfl, rfl⟩ := hR'.skipped hc
    exact ⟨hS.encumberedReserve, hS.pendingFeeReserve, hS.refundReserve⟩
  | false =>
    exact ⟨lowered_eq hS.encumberedReserve (hR.encumbered hc) (hR'.encumbered hc),
      lowered_eq hS.pendingFeeReserve (hR.pending hc) (hR'.pending hc),
      raised_eq hS.refundReserve (hR.refund hc) (hR'.refund hc)⟩

/-- **One step**: what a circuit publishes does not depend on the private book, nor on the amount
that is repaid or refunded. -/
theorem Step.samePublic (st : Step .canonical c s s') (st' : Step .canonical c' t t')
    (hS : SamePublic s t) (hv : Veiled c c') (hrem : SameRemainder ⟨c, s, s'⟩ ⟨c', t, t'⟩) :
    SamePublic s' t' := by
  have hcard : s'.nullifiers.card = t'.nullifiers.card := by
    rw [st.nullifiers_card, st'.nullifiers_card, hS.nullifiers, spent_length hv.op]
  have hclock : s.actionClock + 1 = t.actionClock + 1 := congrArg (· + 1) hS.actionClock
  obtain ⟨op, w, now⟩ := c
  obtain ⟨op', w', now'⟩ := c'
  obtain ⟨hop, hnow, limit, outstanding, amount, hw⟩ := hv
  simp only at hop hnow hw
  subst hop hnow hw
  cases st with
  | registerMerchant =>
    cases st' with
    | registerMerchant =>
      exact { hS with
        registeredMerchants := by rw [hS.registeredMerchants]
        actionClock := hclock }
  | disableMerchant =>
    cases st' with
    | disableMerchant =>
      exact { hS with
        registeredMerchants := by rw [hS.registeredMerchants]
        actionClock := hclock }
  | fundReserve _ _ h1 =>
    cases st' with
    | fundReserve _ _ h2 =>
      exact { hS with totalReserve := raised_eq hS.totalReserve h1 h2, actionClock := hclock }
  | withdrawUnencumberedReserve _ _ _ _ h1 =>
    cases st' with
    | withdrawUnencumberedReserve _ _ _ _ h2 =>
      exact { hS with totalReserve := lowered_eq hS.totalReserve h1 h2, actionClock := hclock }
  | withdrawFees _ _ _ _ h1 =>
    cases st' with
    | withdrawFees _ _ _ _ h2 =>
      rw [← hS.feeReserve] at h2
      exact { hS with
        totalReserve := lowered_eq hS.totalReserve h1 h2, feeReserve := rfl, actionClock := hclock }
  | openLine _ h1 =>
    cases st' with
    | openLine _ h2 =>
      exact { hS with
        identityCommit := rfl
        lineExpiry := rfl
        feeFlat := rfl
        feeBps := rfl
        status := rfl
        lineGeneration := raised_eq hS.lineGeneration h1 h2
        actionClock := hclock }
  | @postQuote _ _ _ x =>
    cases st' with
    | postQuote =>
      have hQ : witnessQuote (w.veil limit outstanding amount) x t = witnessQuote w x s := by
        unfold witnessQuote
        rw [hS.lineGeneration, hS.contractDomain, hS.feeFlat, hS.feeBps]
        rfl
      exact { hS with
        quotes := by rw [hQ, hS.quotes, hS.lineGeneration]
        actionClock := hclock }
  | @draw _ _ _ Q x fee quote _ _ _ _ g h1 h2 =>
    cases st' with
    | @draw _ _ _ _ _ _ quote' _ _ _ _ g' h3 h4 =>
      have hquote : quote = quote' := by
        have hfound := g.found
        rw [hS.quotes] at hfound
        exact Option.some.inj (hfound.symm.trans g'.found)
      have hD : drawnNote (w.veil limit outstanding amount) Q x fee t = drawnNote w Q x fee s := by
        unfold drawnNote drawnPreimage
        rw [hS.contractDomain, hS.lineGeneration, hS.identityCommit]
        rfl
      have hnote : (NoteMeta.drawn (B := B) (w.drawAmount 0) fee x s.lineGeneration).blind
          = (NoteMeta.drawn (w.drawAmount 0) fee x t.lineGeneration).blind := by
        rw [hS.lineGeneration]
      refine { hS with
        quotes := by rw [hS.quotes, hquote]
        notes := ?_
        nullifiers := hcard
        encumberedReserve := raised_eq hS.encumberedReserve h1 h3
        pendingFeeReserve := raised_eq hS.pendingFeeReserve h2 h4
        actionClock := hclock }
      rw [hD]
      exact hS.insert_notes hnote
  | @redeemDraw _ _ _ _ _ n _ _ _ _ _ g _ h1 h2 h3 h4 =>
    cases st' with
    | @redeemDraw _ _ _ _ _ m _ _ _ _ _ g' _ h5 h6 h7 h8 =>
      obtain ⟨refund, rfl⟩ := NoteMeta.eq_of_blind (hS.note g.found g'.found)
      exact { hS with
        notes := hS.insert_notes rfl
        nullifiers := hcard
        encumberedReserve := lowered_eq hS.encumberedReserve h1 h5
        redeemedReserve := raised_eq hS.redeemedReserve h2 h6
        pendingFeeReserve := lowered_eq hS.pendingFeeReserve h3 h7
        feeReserve := raised_eq hS.feeReserve h4 h8
        actionClock := hclock }
  | expire h0 hn _ _ hc hr =>
    cases st' with
    | expire _ hm _ _ hc' hr' =>
      obtain ⟨refund, rfl⟩ := NoteMeta.eq_of_blind (hS.note hn hm)
      obtain ⟨-, rfl, rfl, rfl⟩ := hS.releases hc hc' hr hr'
      exact { hS with
        notes := hS.insert_notes rfl
        encumberedReserve := rfl
        pendingFeeReserve := rfl
        refundReserve := rfl
        actionClock := hclock }
    | allocateCurrent h1 => omega
    | allocateOlder h1 => omega
    | acknowledgeRefund h2 => omega
  | @allocateCurrent _ _ _ _ _ _ n cost E P U U₁ _ h1 g hc hr hg ho hst hz hp =>
    cases st' with
    | @allocateCurrent _ _ _ _ _ _ m cost' E' P' U' U₂ _ _ g' hc' hr' hg' ho' hst' hz' hp' =>
      obtain ⟨refund, rfl⟩ := NoteMeta.eq_of_blind (hS.note g.found g'.found)
      obtain ⟨rfl, rfl, rfl, rfl⟩ := hS.releases hc hc' hr hr'
      -- the two runs agree on whether cash is left owed, so they agree on the refund budget
      have hsame : (w.lineOutstanding 0).val < cost.val ↔ (outstanding 0).val < cost.val := by
        have h := hrem _ _ _ rfl h1 _ _ g.found g'.found
        simp only [remainder, NoteMeta.cost, if_pos hg, if_pos hg', Nat.sub_pos_iff_lt] at h
        rw [hc]
        exact h
      have hbudget : U₁ = U₂ := by
        by_cases hlt : (w.lineOutstanding 0).val < cost.val
        · rw [hp hlt, hp' (hsame.mp hlt)]
        · exact lowered_eq rfl (hz (Nat.not_lt.mp hlt))
            (hz' (Nat.not_lt.mp fun h => hlt (hsame.mpr h)))
      have hnote : ∀ r r' : B, (n.allocate r (decide ((w.lineOutstanding 0).val < cost.val))).blind
          = (n.allocate r' (decide ((outstanding 0).val < cost.val))).blind := by
        intro r r'
        simp only [NoteMeta.blind, NoteMeta.allocate, hsame]
      exact { hS with
        notes := hS.insert_notes (hnote _ _)
        encumberedReserve := rfl
        pendingFeeReserve := rfl
        refundReserve := hbudget
        actionClock := hclock }
    | allocateOlder _ g' _ _ hlt =>
      obtain ⟨refund, rfl⟩ := NoteMeta.eq_of_blind (hS.note g.found g'.found)
      rw [← hS.lineGeneration, ← hg] at hlt
      exact absurd hlt (Nat.lt_irrefl _)
    | expire h0 => omega
    | acknowledgeRefund h2 => omega
  | allocateOlder h1 g hc hr hlt =>
    cases st' with
    | allocateOlder _ g' hc' hr' =>
      obtain ⟨refund, rfl⟩ := NoteMeta.eq_of_blind (hS.note g.found g'.found)
      obtain ⟨-, rfl, rfl, rfl⟩ := hS.releases hc hc' hr hr'
      exact { hS with
        notes := hS.insert_notes rfl
        encumberedReserve := rfl
        pendingFeeReserve := rfl
        refundReserve := rfl
        actionClock := hclock }
    | allocateCurrent _ g' _ _ hg =>
      obtain ⟨refund, rfl⟩ := NoteMeta.eq_of_blind (hS.note g.found g'.found)
      rw [hS.lineGeneration, ← hg] at hlt
      exact absurd hlt (Nat.lt_irrefl _)
    | expire h0 => omega
    | acknowledgeRefund h2 => omega
  | acknowledgeRefund h2 g _ _ hu hcan =>
    cases st' with
    | acknowledgeRefund _ g' _ _ hu' hcan' =>
      obtain ⟨refund, rfl⟩ := NoteMeta.eq_of_blind (hS.note g.found g'.found)
      obtain ⟨rfl, hx⟩ := hcan rfl
      obtain ⟨rfl, hx'⟩ := hcan' rfl
      have hpay : witnessPayment (w.veil limit outstanding amount) t = witnessPayment w s := by
        unfold witnessPayment
        rw [hS.contractDomain]
        rfl
      refine { hS with
        notes := hS.insert_notes ?_
        nullifiers := hcard
        refundReserve := lowered_eq hS.refundReserve hu hu'
        reportedRefundReserve := raised_eq hS.reportedRefundReserve hx hx'
        actionClock := hclock }
      rw [hpay]
      rfl
    | expire h0 => omega
    | allocateCurrent h1 => omega
    | allocateOlder h1 => omega
  | acknowledgeRepayment _ hcan =>
    cases st' with
    | acknowledgeRepayment _ hcan' =>
      obtain rfl := hcan rfl
      obtain rfl := hcan' rfl
      exact { hS with nullifiers := hcard, actionClock := hclock }
  | setStatus =>
    cases st' with
    | setStatus => exact { hS with status := rfl, actionClock := hclock }

/-! ## What an allocation and an acknowledgement move -/

/-- **The full cost moves**, however much of it is refunded: an allocation that leaves cash owed
takes the cost of a live note from the two draw budgets to the refund budget, and the
acknowledgement takes it from there to the reported budget. -/
def MovesFullCost (e : Tx B) : Prop :=
  ∀ D action receiptExpiry n, e.label.op = .cancelOrExpireNote D action receiptExpiry →
    e.pre.notes.lookup D = some n →
    (action.val = 1 → 0 < remainder e.label.witness e.pre n →
      if n.cancelled then
        e.post.encumberedReserve = e.pre.encumberedReserve
          ∧ e.post.pendingFeeReserve = e.pre.pendingFeeReserve
          ∧ e.post.refundReserve = e.pre.refundReserve
      else
        e.post.encumberedReserve.val + n.amount.val = e.pre.encumberedReserve.val
          ∧ e.post.pendingFeeReserve.val + n.fee.val = e.pre.pendingFeeReserve.val
          ∧ e.post.refundReserve.val = e.pre.refundReserve.val + n.cost)
    ∧ (action.val = 2 → e.post.refundReserve.val + n.cost = e.pre.refundReserve.val
        ∧ e.post.reportedRefundReserve.val = e.pre.reportedRefundReserve.val + n.cost)

omit [DecidableEq B] [Compact B] [LawfulCompact B] in
theorem Releases.moves {now : ℕ} {cost E P U : U64} (hR : Releases now n cost s E P U)
    (hc : cost.val = n.cost) :
    if n.cancelled then E = s.encumberedReserve ∧ P = s.pendingFeeReserve ∧ U = s.refundReserve
    else E.val + n.amount.val = s.encumberedReserve.val
      ∧ P.val + n.fee.val = s.pendingFeeReserve.val ∧ U.val = s.refundReserve.val + n.cost := by
  cases hn : n.cancelled with
  | true => exact hR.skipped hn
  | false => exact ⟨hR.encumbered hn, hR.pending hn, hc ▸ hR.refund hn⟩

omit [LawfulCompact B] in
theorem Step.movesFullCost (st : Step .canonical c s s') : MovesFullCost ⟨c, s, s'⟩ := by
  intro D action x n hop hn
  cases st with
  | expire h0 =>
    obtain ⟨rfl, rfl, rfl⟩ := Op.cancelOrExpireNote.inj hop
    exact ⟨fun h1 => by omega, fun h2 => by omega⟩
  | @allocateCurrent w _ _ _ _ _ m _ _ _ _ _ _ h1 g hc hr hg _ _ _ hp =>
    obtain ⟨rfl, rfl, rfl⟩ := Op.cancelOrExpireNote.inj hop
    obtain rfl : m = n := Option.some.inj (g.found.symm.trans hn)
    refine ⟨fun _ hpos => ?_, fun h2 => by omega⟩
    simp only [remainder, if_pos hg, Nat.sub_pos_iff_lt] at hpos
    obtain rfl := hp (hpos.trans_eq hc.symm)
    exact hr.moves hc
  | @allocateOlder _ _ _ _ _ _ m _ _ _ _ h1 g hc hr =>
    obtain ⟨rfl, rfl, rfl⟩ := Op.cancelOrExpireNote.inj hop
    obtain rfl : m = n := Option.some.inj (g.found.symm.trans hn)
    exact ⟨fun _ _ => hr.moves hc, fun h2 => by omega⟩
  | @acknowledgeRefund _ _ _ _ _ _ m _ _ _ _ h2 g _ _ hU hcan =>
    obtain ⟨rfl, rfl, rfl⟩ := Op.cancelOrExpireNote.inj hop
    obtain rfl : m = n := Option.some.inj (g.found.symm.trans hn)
    exact ⟨fun h1 => by omega, fun _ => ⟨hU, (hcan rfl).2⟩⟩
  | _ => cases hop

/-! ## Runs -/

/-- **Partial-refund privacy.** Two runs from one deployment make the same calls over private books
and with private amounts that differ, and agree at each allocation on whether cash is left owed.
After every step they publish the same; and what an allocation and an acknowledgement move is
the full cost. -/
theorem refund_private (d : Deployment B)
    (r : Continues .canonical (constructor .canonical d) h s)
    (r' : Continues .canonical (constructor .canonical d) h' s')
    (hpair : List.Forall₂ (fun e e' => Veiled e.label e'.label ∧ SameRemainder e e') h h') :
    SamePublic s s' ∧ List.Forall₂ (fun e e' => SamePublic e.post e'.post) h h'
      ∧ ∀ e ∈ h ++ h', MovesFullCost e := by
  have hstart : ∀ s t : Ledger B, s = constructor .canonical d → t = constructor .canonical d →
      SamePublic s t := by
    rintro s t rfl rfl
    exact .refl _
  have hstep : ∀ e e' : Tx B, SamePublic e.pre e'.pre →
      Veiled e.label e'.label ∧ SameRemainder e e' → Calls .canonical e.label e.pre e.post →
      Calls .canonical e'.label e'.pre e'.post → SamePublic e.post e'.post := by
    intro e e' hS hp st st'
    exact (calls_iff.mp st).samePublic (calls_iff.mp st') hS hp.1 hp.2
  obtain ⟨hlast, hall⟩ := History.Run.related hstart (fun _ e _ e' _ _ => hstep e e') r r' hpair
  refine ⟨hlast, hall, ?_⟩
  intro e he
  rcases List.mem_append.mp he with he | he
  · obtain ⟨_, _, -, -, st, -⟩ := r.of_mem he
    exact (calls_iff.mp st).movesFullCost
  · obtain ⟨_, _, -, -, st, -⟩ := r'.of_mem he
    exact (calls_iff.mp st).movesFullCost

end Lawful

/-! ## Two runs over terms -/

namespace Demo

/-- The test of `SameRemainder`. -/
def sameRemainder (e e' : Tx Term) : Bool :=
  match e.label.op with
  | .cancelOrExpireNote D action _ =>
      if action.val = 1 then
        match e.pre.notes.lookup D, e'.pre.notes.lookup D with
        | some n, some n' => decide (0 < remainder e.label.witness e.pre n
            ↔ 0 < remainder e'.label.witness e'.pre n')
        | _, _ => true
      else true
  | _ => true

theorem sameRemainder_sound {e e' : Tx Term} (h : sameRemainder e e' = true) :
    SameRemainder e e' := by
  intro D action x hop h1 n n' hn hn'
  simp only [sameRemainder, hop, h1, ↓reduceIte, hn, hn'] at h
  exact of_decide_eq_true h

/-- Two runs, call by call. -/
def playTwins : List (Call Term × Call Term) → (Trace Term × Ledger Term) →
    (Trace Term × Ledger Term) → Checked ((Trace Term × Ledger Term) × (Trace Term × Ledger Term))
  | [], v, v' => .ok (v, v')
  | (c, c') :: rest, (h, s), (h', s') => do
    let t ← exec .canonical c s
    let t' ← exec .canonical c' s'
    assert (sameRemainder ⟨c, s, t⟩ ⟨c', s', t'⟩ = true) "remainder"
    playTwins rest (⟨c, s, t⟩ :: h, t) (⟨c', s', t'⟩ :: h', t')

/-- Pairs of calls that evaluate are paired runs. -/
theorem twins_of_play {calls : List (Call Term × Call Term)} {s₀ : Ledger Term}
    {v v' w w' : Trace Term × Ledger Term} (hv : ∀ x ∈ calls, Veiled x.1 x.2)
    (r : Continues .canonical s₀ v.1 v.2) (r' : Continues .canonical s₀ v'.1 v'.2)
    (hpair : List.Forall₂ (fun e e' => Veiled e.label e'.label ∧ SameRemainder e e') v.1 v'.1)
    (hp : playTwins calls v v' = .ok (w, w')) :
    Continues .canonical s₀ w.1 w.2 ∧ Continues .canonical s₀ w'.1 w'.2
      ∧ List.Forall₂ (fun e e' => Veiled e.label e'.label ∧ SameRemainder e e') w.1 w'.1 := by
  induction calls generalizing v v' with
  | nil =>
    obtain ⟨rfl, rfl⟩ := Prod.mk.inj (Except.ok.inj hp)
    exact ⟨r, r', hpair⟩
  | cons x rest ih =>
    obtain ⟨c, c'⟩ := x
    simp only [playTwins, bind_ok_iff, assert_ok_iff, exists_const] at hp
    obtain ⟨t, ht, t', ht', hsame, hp⟩ := hp
    refine ih (fun x hx => hv x (List.mem_cons_of_mem _ hx)) (.next r ht) (.next r' ht') ?_ hp
    exact .cons ⟨hv _ List.mem_cons_self, sameRemainder_sound hsame⟩ hpair

/-- A call differs from itself in nothing. -/
theorem veiled_self (c : Call Term) : Veiled c c := ⟨rfl, rfl, _, _, _, rfl⟩

/-- One draw of 102, of which 30 is repaid in one run and 50 in the other; the note expires, is
allocated, and what was repaid is refunded. -/
def twins : List (Call Term × Call Term) :=
  [(fund 1000, fund 1000), (openLine, openLine), (post 1 1, post 1 1), (draw 1 1 0 0, draw 1 1 0 0),
    (repay 7 102 1 30, repay 7 102 1 50), (allocate 1 1 72 2, allocate 1 1 52 2),
    (refund 1 1 30, refund 1 1 50)]

theorem twins_veiled : ∀ x ∈ twins, Veiled x.1 x.2 := by
  have hrepay : Veiled (repay 7 102 1 30) (repay 7 102 1 50) := ⟨rfl, rfl, _, _, _, rfl⟩
  have hallocate : Veiled (allocate 1 1 72 2) (allocate 1 1 52 2) := ⟨rfl, rfl, _, _, _, rfl⟩
  have hrefund : Veiled (refund 1 1 30) (refund 1 1 50) := ⟨rfl, rfl, _, _, _, rfl⟩
  simp only [twins, List.forall_mem_cons]
  exact ⟨veiled_self _, veiled_self _, veiled_self _, veiled_self _, hrepay, hallocate, hrefund,
    List.forall_mem_nil _⟩

end Demo

/-- Refunds of 30 and of 50 publish the same. -/
theorem refund_private_run : ∃ h s h' s',
    Continues .canonical (constructor .canonical Demo.deployment) h s
      ∧ Continues .canonical (constructor .canonical Demo.deployment) h' s'
      ∧ h.length = 7
      ∧ (s.notes.lookup (Demo.note 1 1)).map (·.refundCommitment)
        ≠ (s'.notes.lookup (Demo.note 1 1)).map (·.refundCommitment)
      ∧ SamePublic s s' := by
  have hcheck : (match Demo.playTwins Demo.twins ([], constructor .canonical Demo.deployment)
      ([], constructor .canonical Demo.deployment) with
    | .ok (w, w') => decide (w.1.length = 7
        ∧ (w.2.notes.lookup (Demo.note 1 1)).map (·.refundCommitment)
          ≠ (w'.2.notes.lookup (Demo.note 1 1)).map (·.refundCommitment))
    | .error _ => false) = true := by decide +kernel
  split at hcheck
  · rename_i w w' hplay
    obtain ⟨hlength, hrefund⟩ := of_decide_eq_true hcheck
    have hstart : Continues .canonical (constructor .canonical Demo.deployment) []
        (constructor .canonical Demo.deployment) := .start rfl
    obtain ⟨r, r', hpair⟩ := Demo.twins_of_play Demo.twins_veiled hstart hstart .nil hplay
    exact ⟨w.1, w.2, w'.1, w'.2, r, r', hlength, hrefund,
      (refund_private Demo.deployment r r' hpair).1⟩
  · cases hcheck

end Line
