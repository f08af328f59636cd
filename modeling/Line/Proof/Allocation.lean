import Line.Proof.Arithmetic
import Mathlib.Algebra.BigOperators.Group.Finset.Piecewise
import Mathlib.Algebra.Order.BigOperators.Group.Finset

/-!
# Compensations in any order

Some expired notes of the current generation are still to be compensated. A `Plan` says
which, and which of them are still live; its moves are the calls that compensate them,
one note at a time, in any order and each with or without an expiry of its own before.
Whoever makes them holds the book as the moves so far have left it.

The books in between and the cash left on each note depend on the order, because a credit
stops at zero. Their sums do not. `Follows` carries them along: what a plan has done to
the ledger is a matter of what is left to do. Moves are never refused, except that the
epoch of the book may run out of its 64 bits.
-/

namespace Line

open Checked Credit

variable {B : Type} [DecidableEq B] [Compact B]

/-! ## Plans -/

/-- The value that `f` has on the note `D`, and 0 if there is none. -/
def ofNote (s : Ledger B) (f : NoteMeta B → ℕ) (D : B) : ℕ := (s.notes.lookup D).elim 0 f

/-- The note `D` of the current generation is still to be compensated. -/
structure Pending (s : Ledger B) (D : B) (n : NoteMeta B) : Prop where
  found : s.notes.lookup D = some n
  unredeemed : n.redeemed = false
  unallocated : n.compensationAllocated = false
  current : n.lineGeneration = s.lineGeneration

/-- The caller answers every call with the book of the account, under the salt `t`. -/
structure HoldsBook (w : Witness B) (a : Account) (t : B) : Prop where
  limit : ∀ k, (w.lineLimit k).val = a.limit
  outstanding : ∀ k, (w.lineOutstanding k).val = a.outstanding
  epoch : ∀ k, (w.lineEpoch k).val = a.epoch
  salt : ∀ k, w.salt k = t

/-- Where a plan stands. -/
structure Plan (B : Type) where
  /-- The notes still to be compensated. -/
  todo : Finset B
  /-- Those of them that nothing has expired yet. -/
  live : Finset B
  /-- The book. -/
  account : Account
  /-- The salt the book is committed under. -/
  salt : B
  /-- The cash left owed on the notes done. -/
  refund : B → ℕ

/-- The notes of `S` that nothing has expired yet. -/
def liveOf (s : Ledger B) (S : Finset B) : Finset B :=
  S.filter fun D => (s.notes.lookup D).any fun n => !n.cancelled

/-- A plan for the notes `S`, over a book that is committed under `t`. -/
def Plan.start (s : Ledger B) (S : Finset B) (b : LinePreimage B) (t : B) : Plan B where
  todo := S
  live := liveOf s S
  account := ⟨b.limit.val, b.outstanding.val, b.epoch.val, 0, 0, 0⟩
  salt := t
  refund := fun _ => 0

/-- The calls of a plan for notes of `s`: an expiry by anybody, or an allocation by whoever has
the issuer's or the borrower's secret and the openings. -/
inductive Plan.Move (s : Ledger B) : Call B → Plan B → Plan B → Prop
  | expire {w now D action receiptExpiry n} {q : Plan B} :
      D ∈ q.live → s.notes.lookup D = some n → action.val = 0 → n.expiry.val ≤ now →
      Move s ⟨.cancelOrExpireNote D action receiptExpiry, w, now⟩ q
        { q with live := q.live.erase D }
  | allocate {w now D action receiptExpiry n} {q : Plan B} :
      D ∈ q.todo → s.notes.lookup D = some n → action.val = 1 →
      (D ∈ q.live → n.expiry.val ≤ now) →
      drawNoteCommit (compensationPreimage w n s) (w.noteSalt 0) = D →
      issuerPublicKey (w.callerSecret 0) = s.issuer
        ∨ agentId (w.callerSecret 0) = w.noteIdentity 0 →
      HoldsBook w q.account q.salt →
      Move s ⟨.cancelOrExpireNote D action receiptExpiry, w, now⟩ q
        { todo := q.todo.erase D
          live := q.live.erase D
          account := q.account.credit n.cost
          salt := w.newSalt 0
          refund := Function.update q.refund D (n.cost - q.account.outstanding) }

/-- The moves of a plan from its start. -/
abbrev Plan.Run (s : Ledger B) (S : Finset B) (b : LinePreimage B) (t : B)
    (h : List (History.Event (Plan B) (Call B))) (q : Plan B) : Prop :=
  History.Run (· = Plan.start s S b t) (Plan.Move s) h q

/-! ## What a plan leaves -/

/-- The terms of a note. -/
structure NoteMeta.SameTerms (n n' : NoteMeta B) : Prop where
  amount : n'.amount = n.amount
  fee : n'.fee = n.fee
  expiry : n'.expiry = n.expiry
  lineGeneration : n'.lineGeneration = n.lineGeneration

/-- The note was compensated, with `cash` left owed. -/
def Compensated (s : Ledger B) (D : B) (cash : ℕ) : Prop :=
  ∃ n opening salt, s.notes.lookup D = some n ∧ n.compensationAllocated = true
    ∧ n.refundCommitment = refundCommit opening salt ∧ opening.noteCommit = D
    ∧ opening.amount.val = cash ∧ (n.cashRefundOwed = true ↔ 0 < cash)

/-- The ledger `s'` is what a plan that stands at `q` has made of `s`. -/
structure Follows (s : Ledger B) (S : Finset B) (b : LinePreimage B) (q : Plan B)
    (s' : Ledger B) : Prop where
  same : SameInstance s s'
  line : SameLine s s'
  todo : q.todo ⊆ S
  live : q.live ⊆ q.todo
  limit : q.account.limit = b.limit.val
  book : ∃ out ep : U64, lineStateCommit ⟨s.contractDomain, s.identityCommit, b.limit, out, ep⟩
    q.salt = s'.lineCommit ∧ out.val = q.account.outstanding ∧ ep.val = q.account.epoch
  epoch : q.account.epoch + q.todo.card = b.epoch.val + S.card
  debt : q.account.outstanding = b.outstanding.val
    - (∑ D ∈ S, ofNote s NoteMeta.cost D - ∑ D ∈ q.todo, ofNote s NoteMeta.cost D)
  refunds : ∑ D ∈ S, q.refund D
    = ∑ D ∈ S, ofNote s NoteMeta.cost D - ∑ D ∈ q.todo, ofNote s NoteMeta.cost D
      - b.outstanding.val
  untouched : ∀ D ∈ q.todo, q.refund D = 0
  /-- A note still to be done is as it was, but perhaps expired. -/
  pending : ∀ D ∈ q.todo, ∃ n n', Pending s D n ∧ Pending s' D n' ∧ n.SameTerms n'
    ∧ (n'.cancelled = false ↔ D ∈ q.live)
  done : ∀ D ∈ S, D ∉ q.todo → Compensated s' D (q.refund D)
  encumbered : s'.encumberedReserve.val
      + ∑ D ∈ liveOf s S, ofNote s (fun n => n.amount.val) D
    = s.encumberedReserve.val + ∑ D ∈ q.live, ofNote s (fun n => n.amount.val) D
  pendingFee : s'.pendingFeeReserve.val
      + ∑ D ∈ liveOf s S, ofNote s (fun n => n.fee.val) D
    = s.pendingFeeReserve.val + ∑ D ∈ q.live, ofNote s (fun n => n.fee.val) D

/-! ## What a move makes of the ledger -/

section Sums

variable {s : Ledger B} {D : B} {n : NoteMeta B}

omit [Compact B] in
theorem ofNote_found (hn : s.notes.lookup D = some n) (f : NoteMeta B → ℕ) :
    ofNote s f D = f n := by
  rw [ofNote, hn]
  rfl

omit [Compact B] in
/-- Leaving a note out of a sum takes its value off. -/
theorem sum_erase_note (hn : s.notes.lookup D = some n) (f : NoteMeta B → ℕ) {T : Finset B}
    (hD : D ∈ T) : ∑ D' ∈ T.erase D, ofNote s f D' + f n = ∑ D' ∈ T, ofNote s f D' := by
  rw [← ofNote_found hn f]
  exact Finset.sum_erase_add T _ hD

omit [Compact B] in
theorem mem_liveOf {S : Finset B} (hn : s.notes.lookup D = some n) :
    D ∈ liveOf s S ↔ D ∈ S ∧ n.cancelled = false := by
  rw [liveOf, Finset.mem_filter, hn]
  simp

end Sums

section Frames

variable {s s' : Ledger B} {D D' : B} {n m : NoteMeta B} {cash : ℕ}

/-- Writing another note leaves a compensated one alone. -/
theorem Compensated.frame (hc : Compensated s D' cash) (hs : s'.notes = s.notes.insert D m)
    (hne : D' ≠ D) : Compensated s' D' cash := by
  obtain ⟨n, opening, salt, hn, hrest⟩ := hc
  exact ⟨n, opening, salt, by rw [hs, Finmap.lookup_insert_of_ne _ hne, hn], hrest⟩

omit [Compact B] in
theorem Pending.frame (hp : Pending s D' n) (hs : s'.notes = s.notes.insert D m)
    (hg : s'.lineGeneration = s.lineGeneration) (hne : D' ≠ D) : Pending s' D' n where
  found := by rw [hs, Finmap.lookup_insert_of_ne _ hne, hp.found]
  unredeemed := hp.unredeemed
  unallocated := hp.unallocated
  current := hp.current.trans hg.symm

end Frames

variable {p : Profile} {c : Call B} {s s₁ s₂ : Ledger B} {S : Finset B} {b : LinePreimage B}
  {t : B} {q q' : Plan B} {D : B} {n : NoteMeta B}

omit [DecidableEq B] [Compact B] in
/-- The budgets released for a note, beside the sums over the live notes. -/
theorem Releases.live {now : ℕ} {cost E P U : U64} {n' : NoteMeta B} {live : Finset B}
    [DecidableEq B] (hR : Releases now n' cost s₁ E P U) (hn : s.notes.lookup D = some n)
    (hterms : n.SameTerms n') (hlive : n'.cancelled = false ↔ D ∈ live) :
    E.val + ∑ D ∈ live, ofNote s (fun n => n.amount.val) D
        = s₁.encumberedReserve.val + ∑ D ∈ live.erase D, ofNote s (fun n => n.amount.val) D
    ∧ P.val + ∑ D ∈ live, ofNote s (fun n => n.fee.val) D
        = s₁.pendingFeeReserve.val + ∑ D ∈ live.erase D, ofNote s (fun n => n.fee.val) D := by
  by_cases hD : D ∈ live
  · have hc := hlive.mpr hD
    have hE := hR.encumbered hc
    have hP := hR.pending hc
    have hsumE := sum_erase_note hn (fun n => n.amount.val) hD
    have hsumP := sum_erase_note hn (fun n => n.fee.val) hD
    rw [hterms.amount] at hE
    rw [hterms.fee] at hP
    constructor <;> omega
  · have hc : n'.cancelled = true := by
      rw [← Bool.not_eq_false]
      exact fun h => hD (hlive.mp h)
    obtain ⟨rfl, rfl, -⟩ := hR.skipped hc
    rw [Finset.erase_eq_of_notMem hD]
    exact ⟨rfl, rfl⟩

/-- A plan that has made no move. -/
theorem Follows.start (hb : lineStateCommit b t = s.lineCommit)
    (hdom : b.domain = s.contractDomain) (hid : b.identity = s.identityCommit)
    (hS : ∀ D ∈ S, ∃ n, Pending s D n) : Follows s S b (Plan.start s S b t) s where
  same := .refl s
  line := .refl s
  todo := Finset.Subset.refl S
  live := Finset.filter_subset _ S
  limit := rfl
  book := ⟨b.outstanding, b.epoch, by rw [← hb, ← hdom, ← hid]; rfl, rfl, rfl⟩
  epoch := rfl
  debt := by simp [Plan.start]
  refunds := by simp [Plan.start]
  untouched := fun _ _ => rfl
  pending := by
    intro D hD
    obtain ⟨n, hn⟩ := hS D hD
    refine ⟨n, n, hn, hn, ⟨rfl, rfl, rfl, rfl⟩, ?_⟩
    rw [Plan.start, mem_liveOf hn.found]
    exact ⟨fun hc => ⟨hD, hc⟩, fun h => h.2⟩
  done := fun D hD hno => absurd hD hno
  encumbered := rfl
  pendingFee := rfl

/-- **An expiry** changes which notes are live, and nothing else that a plan looks at. -/
theorem Follows.expire {w : Witness B} {now : ℕ} {action : Uint 8} {receiptExpiry : U64}
    (hf : Follows s S b q s₁) (hD : D ∈ q.live) (h0 : action.val = 0)
    (st : Step p ⟨.cancelOrExpireNote D action receiptExpiry, w, now⟩ s₁ s₂) :
    Follows s S b { q with live := q.live.erase D } s₂ := by
  have hsame := hf.same.trans st.sameInstance
  obtain ⟨n, n', hn, hn', hterms, hlive⟩ := hf.pending D (hf.live hD)
  cases st with
  | @expire _ _ _ _ _ _ m cost E P U _ hm hr hc hcost hR =>
    obtain rfl : n' = m := Option.some.inj (hn'.found.symm.trans hm)
    -- a live note gives its shares to the refunds
    obtain ⟨hE, hP⟩ := hR.live hn.found hterms hlive
    have hencumbered := hf.encumbered
    have hpending := hf.pendingFee
    refine ⟨hsame, hf.line.trans ⟨rfl, rfl, rfl, rfl, rfl⟩, hf.todo,
      (Finset.erase_subset D _).trans hf.live, hf.limit, hf.book, hf.epoch, hf.debt, hf.refunds,
      hf.untouched, ?_, ?_, ?_, ?_⟩
    · intro D' hD'
      obtain ⟨u, u', hu, hu', hterms', hlive'⟩ := hf.pending D' hD'
      -- the note that expired, and any other one of the plan
      by_cases heq : D' = D
      · subst heq
        obtain rfl : n = u := Option.some.inj (hn.found.symm.trans hu.found)
        refine ⟨n, n'.expire, hu, ⟨Finmap.lookup_insert _, rfl, rfl, hn'.current⟩,
          ⟨hterms.amount, hterms.fee, hterms.expiry, hterms.lineGeneration⟩, ?_⟩
        simp [NoteMeta.expire]
      · refine ⟨u, u', hu, hu'.frame rfl rfl heq, hterms', ?_⟩
        rw [hlive', Finset.mem_erase]
        exact ⟨fun h => ⟨heq, h⟩, fun h => h.2⟩
    · intro D' hD' hno
      -- a note that was settled is not live any more
      have hne : D' ≠ D := fun heq => hno (by rw [heq]; exact hf.live hD)
      exact (hf.done D' hD' hno).frame rfl hne
    · simp only
      omega
    · simp only
      omega
  | allocateCurrent h1 => omega
  | allocateOlder h1 => omega
  | acknowledgeRefund h2 => omega

/-- **An allocation** credits the book and settles the note. -/
theorem Follows.allocate {w : Witness B} {now : ℕ} {action : Uint 8} {receiptExpiry : U64}
    (hf : Follows s S b q s₁) (hD : D ∈ q.todo) (hn : s.notes.lookup D = some n)
    (h1 : action.val = 1) (hw : HoldsBook w q.account q.salt)
    (st : Step p ⟨.cancelOrExpireNote D action receiptExpiry, w, now⟩ s₁ s₂) :
    Follows s S b
      { todo := q.todo.erase D
        live := q.live.erase D
        account := q.account.credit n.cost
        salt := w.newSalt 0
        refund := Function.update q.refund D (n.cost - q.account.outstanding) } s₂ := by
  have hsame := hf.same.trans st.sameInstance
  obtain ⟨u, n', hu, hn', hterms, hlive⟩ := hf.pending D hD
  obtain rfl : n = u := Option.some.inj (hn.symm.trans hu.found)
  cases st with
  | @allocateCurrent _ _ _ _ _ _ m cost E P U U' e _ g hcost hR hg ho hst hz hp he =>
    obtain rfl : n' = m := Option.some.inj (hn'.found.symm.trans g.found)
    obtain ⟨hE, hP⟩ := hR.live hn hterms hlive
    -- the entry may be expired by now, its cost is as it was
    have hcost' : cost.val = n.cost := by
      rw [hcost, hterms.amount, hterms.fee]
      rfl
    have hout := hw.outstanding 0
    have hdebt := debtAfterCredit_val (w.lineOutstanding 0) cost
    have hcash := cashRefundAmount_val (w.lineOutstanding 0) cost
    rw [hout, hcost'] at hdebt hcash
    -- the sums over the notes to do are smaller by this note
    have hsum := sum_erase_note hn NoteMeta.cost hD
    have hle : ∑ D ∈ q.todo, ofNote s NoteMeta.cost D ≤ ∑ D ∈ S, ofNote s NoteMeta.cost D :=
      Finset.sum_le_sum_of_subset hf.todo
    have hold := hf.debt
    have hencumbered := hf.encumbered
    have hpending := hf.pendingFee
    refine ⟨hsame, hf.line.trans ⟨rfl, rfl, rfl, rfl, rfl⟩, (Finset.erase_subset D _).trans hf.todo,
      Finset.erase_subset_erase D hf.live, hf.limit, ?_, ?_, ?_, ?_, ?_, ?_, ?_, ?_, ?_⟩
    · -- the new book has the second answers, and a holder of the book gives the first again
      have hlim : w.lineLimit 1 = b.limit := Uint.val_inj.mp ((hw.limit 1).trans hf.limit)
      refine ⟨debtAfterCredit (w.lineOutstanding 0) cost, e, ?_, hdebt, ?_⟩
      · simp only [hf.same.contractDomain, hf.line.identityCommit, hlim]
      · rw [he, hw.epoch 1]
        rfl
    · have hep := hf.epoch
      have hcard := Finset.card_erase_add_one hD
      simp only [Account.credit]
      omega
    · simp only [Account.credit]
      omega
    · dsimp only
      -- what is left in cash on this note is new, on the others as before
      rw [Finset.sum_update_of_mem (hf.todo hD), Finset.sdiff_singleton_eq_erase]
      have hzero := hf.untouched D hD
      have hrest := Finset.sum_erase_add S q.refund (hf.todo hD)
      have hrefunds := hf.refunds
      omega
    · intro D' hD'
      obtain ⟨hne, hmem⟩ := Finset.mem_erase.mp hD'
      simp only [Function.update_of_ne hne]
      exact hf.untouched D' hmem
    · intro D' hD'
      obtain ⟨hne, hmem⟩ := Finset.mem_erase.mp hD'
      obtain ⟨v, v', hv, hv', hterms', hlive'⟩ := hf.pending D' hmem
      refine ⟨v, v', hv, hv'.frame rfl rfl hne, hterms', ?_⟩
      rw [hlive', Finset.mem_erase]
      exact ⟨fun h => ⟨hne, h⟩, fun h => h.2⟩
    · intro D' hD' hno
      -- the note is settled now, and the settled ones stay so
      by_cases heq : D' = D
      · subst heq
        simp only [Function.update_self]
        refine ⟨_, _, _, Finmap.lookup_insert _, rfl, rfl, rfl, hcash, ?_⟩
        simp only [NoteMeta.allocate, decide_eq_true_eq]
        omega
      · simp only [Function.update_of_ne heq]
        refine (hf.done D' hD' ?_).frame rfl heq
        intro hmem
        exact hno (Finset.mem_erase.mpr ⟨heq, hmem⟩)
    · simp only
      omega
    · simp only
      omega
  | @allocateOlder _ _ _ _ _ _ m _ _ _ _ _ g _ _ hg =>
    obtain rfl : n' = m := Option.some.inj (hn'.found.symm.trans g.found)
    rw [hn'.current] at hg
    omega
  | expire h0 => omega
  | acknowledgeRefund h2 => omega

/-- **A move that the contract accepts** leaves a ledger that follows the plan. -/
theorem Follows.step (hf : Follows s S b q s₁) (hm : Plan.Move s c q q') (st : Step p c s₁ s₂) :
    Follows s S b q' s₂ := by
  cases hm with
  | expire hD _ h0 _ => exact hf.expire hD h0 st
  | allocate hD hn h1 _ _ _ hw => exact hf.allocate hD hn h1 hw st

/-! ## Moves are accepted -/

section Accepted

variable {h : Trace B} {w : Witness B} {now : ℕ} {action : Uint 8} {receiptExpiry : U64}

/-- The budgets of a note that is not compensated can be released, once it has expired. -/
theorem Reaches.releases_ok {cost : U64} (r : Reaches p h s) (hn : s.notes.lookup D = some n)
    (hr : n.redeemed = false) (hlate : n.cancelled = false → n.expiry.val ≤ now)
    (hcost : cost.val = n.cost) : ∃ E P U, Releases now n cost s E P U := by
  cases hc : n.cancelled with
  | true =>
    refine ⟨s.encumberedReserve, s.pendingFeeReserve, s.refundReserve, fun _ => ⟨rfl, rfl, rfl⟩,
      ?_, ?_, ?_, ?_⟩ <;> simp [hc]
  | false =>
    have hmeets : Meets (fun _ => False) (releaseBudget n cost s) :=
      r.releaseBudget_meets hn ⟨hr, hc⟩ hcost
    cases hs : releaseBudget n cost s with
    | error f => exact (hmeets f hs).elim
    | ok s₁ =>
      obtain ⟨E, P, U, hE, hP, hU, -⟩ := releaseBudget_ok_iff.mp hs
      exact ⟨E, P, U, by simp [hc], hlate, fun _ => hE, fun _ => hP, fun _ => hU⟩

/-- The cost of a note is a 64-bit number. -/
theorem Reaches.exists_cost (r : Reaches p h s) (hn : s.notes.lookup D = some n) :
    ∃ cost : U64, cost.val = n.cost :=
  ⟨⟨n.cost, (r.noteWF hn).cost⟩, rfl⟩

/-- Anybody can expire a live note that is late. -/
theorem Reaches.expires_ok (r : Reaches p h s) (hn : s.notes.lookup D = some n)
    (hr : n.redeemed = false) (hc : n.cancelled = false) (h0 : action.val = 0)
    (hlate : n.expiry.val ≤ now) :
    ∃ s', Step p ⟨.cancelOrExpireNote D action receiptExpiry, w, now⟩ s s' := by
  obtain ⟨cost, hcost⟩ := r.exists_cost hn
  obtain ⟨E, P, U, hR⟩ := r.releases_ok hn hr (fun _ => hlate) hcost
  exact ⟨_, .expire h0 hn hr hc hcost hR⟩

/-- **A note of the current generation can be allocated** by who has the openings, if there is
another epoch. -/
theorem Reaches.allocates_ok (r : Reaches p h s) (g : AllocateGuard w D s n)
    (hg : n.lineGeneration = s.lineGeneration) (h1 : action.val = 1)
    (hlate : n.cancelled = false → n.expiry.val ≤ now) (hid : w.noteIdentity 0 = s.identityCommit)
    (hst : lineStateCommit (witnessBook w s) (w.salt 0) = s.lineCommit)
    (he : (w.lineEpoch 1).val + 1 < 2 ^ 64) :
    ∃ s', Step p ⟨.cancelOrExpireNote D action receiptExpiry, w, now⟩ s s' := by
  obtain ⟨cost, hcost⟩ := r.exists_cost g.found
  obtain ⟨E, P, U, hR⟩ := r.releases_ok g.found g.unredeemed hlate hcost
  have hU := hR.covered r g.found g.unallocated hcost
  have hUt := U.isLt
  obtain ⟨e, he⟩ : ∃ e : U64, e.val = (w.lineEpoch 1).val + 1 := ⟨⟨_, he⟩, rfl⟩
  by_cases hle : cost.val ≤ (w.lineOutstanding 0).val
  · -- all of the cost is credited: the budget is released
    obtain ⟨U', hU'⟩ : ∃ U' : U64, U'.val + cost.val = U.val :=
      ⟨⟨U.val - cost.val, by omega⟩, Nat.sub_add_cancel hU⟩
    exact ⟨_, .allocateCurrent h1 g hcost hR hg hid hst (fun _ => hU') (fun h => by omega) he⟩
  · exact ⟨_, .allocateCurrent h1 g hcost hR hg hid hst (fun h => absurd h hle)
      (fun _ => Eq.refl U) he⟩

variable [LawfulCompact B]

/-- A note of the current generation is the current borrower's. -/
theorem Reaches.note_identity (r : Reaches p h s) (hn : s.notes.lookup D = some n)
    (hg : n.lineGeneration = s.lineGeneration) {opening : DrawNotePreimage B} {salt : B}
    (hD : drawNoteCommit opening salt = D) : opening.identity = s.identityCommit := by
  obtain ⟨Q, M, k, hprov⟩ := r.provenance hn
  obtain ⟨nonce, salt', hD'⟩ := hprov.opening
  obtain ⟨e, he, x, f, b, ho, hline⟩ := r.opened (hg ▸ (r.note_generation hn).1)
  have hk := (hprov.priced e he x f b (hg ▸ ho)).1
  rw [(drawNoteCommit_inj (hD.trans hD')).1, hline.identityCommit, ho.identity, hk]

/-- **Every move of a plan is accepted**, if there is another epoch for it. -/
theorem Follows.accepted (hf : Follows s S b q s₁) (r : Reaches p h s₁)
    (hm : Plan.Move s c q q') (hroom : b.epoch.val + S.card < 2 ^ 64) :
    ∃ s₂, Step p c s₁ s₂ := by
  cases hm with
  | @expire w now D action receiptExpiry n _ hD hn h0 hlate =>
    obtain ⟨u, n', hu, hn', hterms, hlive⟩ := hf.pending D (hf.live hD)
    obtain rfl : n = u := Option.some.inj (hn.symm.trans hu.found)
    -- nothing can refuse an expiry whose time has come
    rw [← hterms.expiry] at hlate
    exact r.expires_ok hn'.found hn'.unredeemed (hlive.mpr hD) h0 hlate
  | @allocate w now D action receiptExpiry n _ hD hn h1 hlate hopen hauth hw =>
    obtain ⟨u, n', hu, hn', hterms, hlive⟩ := hf.pending D hD
    obtain rfl : n = u := Option.some.inj (hn.symm.trans hu.found)
    -- the opening is of terms that the entry still has
    have hopen' : drawNoteCommit (compensationPreimage w n' s₁) (w.noteSalt 0) = D := by
      rw [← hopen]
      simp only [compensationPreimage, hterms.amount, hterms.fee, hterms.expiry,
        hterms.lineGeneration, hf.same.contractDomain]
    have hid := r.note_identity hn'.found hn'.current hopen'
    rw [← hf.same.issuer] at hauth
    rw [← hterms.expiry] at hlate
    have g : AllocateGuard w D s₁ n' :=
      ⟨hn'.found, hn'.unredeemed, hn'.unallocated, hopen', hauth⟩
    refine r.allocates_ok g hn'.current h1 (fun hc => hlate (hlive.mp hc)) hid ?_ ?_
    · -- what the caller holds is the committed book
      obtain ⟨out, ep, hbook, hout, hep⟩ := hf.book
      have hlim : w.lineLimit 0 = b.limit := Uint.val_inj.mp ((hw.limit 0).trans hf.limit)
      have hout' : w.lineOutstanding 0 = out := Uint.val_inj.mp ((hw.outstanding 0).trans hout.symm)
      have hep' : w.lineEpoch 0 = ep := Uint.val_inj.mp ((hw.epoch 0).trans hep.symm)
      rw [← hbook, witnessBook, hf.same.contractDomain, hf.line.identityCommit, hlim, hout', hep',
        hw.salt 0]
    -- each note to do has an epoch left
    · have hcount := hf.epoch
      have hpos := Finset.card_pos.mpr ⟨D, hD⟩
      rw [hw.epoch 1]
      omega

end Accepted

/-! ## Runs of a plan -/

/-- The recorded calls are the moves of the plan, in the same order. -/
abbrev Makes (hq : List (History.Event (Plan B) (Call B))) (h' : Trace B) : Prop :=
  List.Forall₂ (fun e e' => e.label = e'.label) hq h'

/-- What is left when all the notes `S` are done, in whatever order. -/
structure Totals (s : Ledger B) (S : Finset B) (b : LinePreimage B) (s' : Ledger B) : Prop where
  book : ∃ (out ep : U64) (salt : B),
    lineStateCommit ⟨s.contractDomain, s.identityCommit, b.limit, out, ep⟩ salt = s'.lineCommit
    ∧ out.val = b.outstanding.val - ∑ D ∈ S, ofNote s NoteMeta.cost D
    ∧ ep.val = b.epoch.val + S.card
  refunds : ∃ refund : B → ℕ, (∀ D ∈ S, Compensated s' D (refund D))
    ∧ ∑ D ∈ S, refund D = ∑ D ∈ S, ofNote s NoteMeta.cost D - b.outstanding.val
  encumbered : s'.encumberedReserve.val + ∑ D ∈ liveOf s S, ofNote s (fun n => n.amount.val) D
    = s.encumberedReserve.val
  pendingFee : s'.pendingFeeReserve.val + ∑ D ∈ liveOf s S, ofNote s (fun n => n.fee.val) D
    = s.pendingFeeReserve.val

omit [DecidableEq B] in
theorem Follows.totals [DecidableEq B] (hf : Follows s S b q s₁) (hdone : q.todo = ∅) :
    Totals s S b s₁ := by
  have hlive : q.live = ∅ := Finset.subset_empty.mp (hdone ▸ hf.live)
  obtain ⟨out, ep, hbook, hout, hep⟩ := hf.book
  have hdebt := hf.debt
  have hrefunds := hf.refunds
  have hepoch := hf.epoch
  have hE := hf.encumbered
  have hP := hf.pendingFee
  rw [hdone, Finset.sum_empty] at hdebt hrefunds
  rw [hdone, Finset.card_empty] at hepoch
  rw [hlive, Finset.sum_empty] at hE hP
  refine ⟨⟨out, ep, q.salt, hbook, ?_, ?_⟩, ⟨q.refund, ?_, hrefunds⟩, hE, hP⟩
  · rw [hout, hdebt, Nat.sub_zero]
  · omega
  · intro D hD
    refine hf.done D hD ?_
    rw [hdone]
    exact Finset.notMem_empty D

/-- Whoever compensates the notes `S`, in any order and with or without expiries first, is never
refused, and leaves the same totals. -/
structure AnyOrder (p : Profile) (s : Ledger B) (S : Finset B) (b : LinePreimage B) (t : B) :
    Prop where
  accepted : ∀ hq q, Plan.Run s S b t hq q → ∃ h' s', Continues p s h' s' ∧ Makes hq h'
  totals : ∀ hq q h' s', Plan.Run s S b t hq q → Continues p s h' s' → Makes hq h' →
    q.todo = ∅ → Totals s S b s'

/-- **The ledger follows the plan** all along. -/
theorem Plan.Run.follows {hq : List (History.Event (Plan B) (Call B))} {h' : Trace B}
    (h0 : Follows s S b (Plan.start s S b t) s) (rq : Plan.Run s S b t hq q)
    (r' : Continues p s h' s₁) (hl : Makes hq h') : Follows s S b q s₁ := by
  refine (History.Run.related (R := fun q s₁ => Follows s S b q s₁) ?_ ?_ rq r' hl).1
  · intro q s₁ hq hs
    rw [hq, hs]
    exact h0
  · intro _ e _ e' _ _ hf hlabel hm st
    rw [← hlabel] at st
    exact hf.step hm (calls_iff.mp st)

section Room

variable [LawfulCompact B] {h : Trace B}

/-- **With room for the epochs, every plan is carried out.** -/
theorem Reaches.carries_out {hq : List (History.Event (Plan B) (Call B))} (r : Reaches p h s)
    (h0 : Follows s S b (Plan.start s S b t) s) (hroom : b.epoch.val + S.card < 2 ^ 64)
    (rq : Plan.Run s S b t hq q) : ∃ h' s', Continues p s h' s' ∧ Makes hq h' := by
  have hstart : ∀ q₀, q₀ = Plan.start s S b t → ∃ s₁, s₁ = s ∧ Follows s S b q₀ s₁ := by
    intro q₀ hq₀
    exact ⟨s, rfl, hq₀ ▸ h0⟩
  have hstep : ∀ q₀ c q₁ h' s₁, Continues p s h' s₁ → Follows s S b q₀ s₁ →
      Plan.Move s c q₀ q₁ → ∃ c' s₂, c = c' ∧ Calls p c' s₁ s₂ ∧ Follows s S b q₁ s₂ := by
    intro q₀ c q₁ h' s₁ r' hf hm
    obtain ⟨s₂, st⟩ := hf.accepted (History.Run.append r r') hm hroom
    exact ⟨c, s₂, rfl, calls_iff.mpr st, hf.step hm st⟩
  obtain ⟨h', s', r', -, hl⟩ := History.Run.simulated hstart hstep rq
  exact ⟨h', s', r', hl⟩

omit [DecidableEq B] in
/-- **There is always a next move** for who knows the borrower's secret: any note left can be
allocated, as long as the epoch of the book is a number of 64 bits. -/
theorem Reaches.exists_move [DecidableEq B] (r : Reaches p h s)
    (hS : ∀ D ∈ S, ∃ n, Pending s D n) (hD : D ∈ q.todo) (hsub : q.todo ⊆ S)
    (hl : q.account.limit < 2 ^ 64) (ho : q.account.outstanding < 2 ^ 64)
    (he : q.account.epoch < 2 ^ 64) :
    ∃ c q', Plan.Move s c q q' ∧ q'.todo = q.todo.erase D
      ∧ ∃ cost, q'.account = q.account.credit cost := by
  obtain ⟨n, hn⟩ := hS D (hsub hD)
  obtain ⟨Q, M, k, hprov⟩ := r.provenance hn.found
  obtain ⟨nonce, salt, hopen⟩ := hprov.opening
  let w : Witness B := {
    callerSecret := fun _ => k, agentSecret := fun _ => k, salt := fun _ => q.salt
    newSalt := fun _ => q.salt, invoiceId := fun _ => k, quoteNonce := fun _ => k
    receiptNonce := fun _ => k, paymentRef := fun _ => k, noteNonce := fun _ => nonce
    noteSalt := fun _ => salt, noteIdentity := fun _ => agentId k, noteQuoteCommit := fun _ => Q
    lineLimit := fun _ => ⟨_, hl⟩, lineOutstanding := fun _ => ⟨_, ho⟩
    lineEpoch := fun _ => ⟨_, he⟩, quoteAmount := fun _ => n.amount, drawAmount := fun _ => n.amount
    redeemAmount := fun _ => n.amount, repayAmount := fun _ => n.amount
    quoteMerchantPk := fun _ => M }
  refine ⟨⟨.cancelOrExpireNote D ⟨1, by decide⟩ n.expiry, w, n.expiry.val⟩, _,
    .allocate hD hn.found rfl (fun _ => Nat.le_refl _) hopen.symm (.inr rfl) ?_, rfl, _, rfl⟩
  exact ⟨fun _ => rfl, fun _ => rfl, fun _ => rfl, fun _ => rfl⟩

/-- Plans can be followed until the notes or the epochs run out. -/
theorem Reaches.exists_run (r : Reaches p h s) (hS : ∀ D ∈ S, ∃ n, Pending s D n) (k : ℕ)
    (hk : k ≤ S.card) (hroom : b.epoch.val + k ≤ 2 ^ 64) :
    ∃ hq q, Plan.Run s S b t hq q ∧ q.account.epoch = b.epoch.val + k ∧ q.todo ⊆ S
      ∧ q.todo.card + k = S.card ∧ q.account.limit < 2 ^ 64
      ∧ q.account.outstanding < 2 ^ 64 := by
  induction k with
  | zero =>
    exact ⟨[], _, .start rfl, rfl, Finset.Subset.refl S, rfl, b.limit.isLt, b.outstanding.isLt⟩
  | succ k ih =>
    obtain ⟨hq, q, rq, hep, hsub, hcard, hl, ho⟩ := ih (by omega) (by omega)
    -- some note is still to be done, so it is allocated next
    obtain ⟨D, hD⟩ : q.todo.Nonempty := Finset.card_pos.mp (by omega)
    obtain ⟨c, q', hm, htodo, cost, hacc⟩ := r.exists_move hS hD hsub hl ho (by omega)
    have herase := Finset.card_erase_add_one hD
    refine ⟨_, q', .next rq hm, ?_, ?_, ?_, ?_, ?_⟩
    · rw [hacc]
      simp only [Account.credit]
      omega
    · rw [htodo]
      exact (Finset.erase_subset D _).trans hsub
    · rw [htodo]
      omega
    · rw [hacc]
      exact hl
    · rw [hacc]
      simp only [Account.credit]
      omega

end Room

/-! ## Expiring first makes no difference -/

section Twice

variable {w w₀ : Witness B} {now now₀ : ℕ} {action₀ action : Uint 8} {x₀ x : U64}

/-- The ledger an expiry leaves. -/
def expiredLedger (s : Ledger B) (D : B) (n : NoteMeta B) (E P U : U64) : Ledger B :=
  { s with
    notes := s.notes.insert D n.expire
    encumberedReserve := E
    pendingFeeReserve := P
    refundReserve := U
    actionClock := s.actionClock + 1 }

/-- What an allocation checks about a note is the same after its expiry. -/
theorem AllocateGuard.expired {E P U : U64} (g : AllocateGuard w D s n) :
    AllocateGuard w D (expiredLedger s D n E P U) n.expire :=
  ⟨Finmap.lookup_insert _, rfl, rfl, g.opening, g.authority⟩

/-- An expired note has no budget to release again. -/
theorem Releases.again {cost E P U : U64} :
    Releases now n.expire cost (expiredLedger s D n E P U) E P U :=
  ⟨fun _ => ⟨rfl, rfl, rfl⟩, nofun, nofun, nofun, nofun⟩

/-- An expiry and then an allocation can be had as one allocation. -/
theorem Step.merge (st₀ : Step p ⟨.cancelOrExpireNote D action₀ x₀, w₀, now₀⟩ s s₁)
    (st : Step p ⟨.cancelOrExpireNote D action x, w, now⟩ s₁ s₂) (h0 : action₀.val = 0)
    (h1 : action.val = 1) (hn : s.notes.lookup D = some n) (ha : n.compensationAllocated = false)
    (hlate : n.expiry.val ≤ now) :
    ∃ s₁', Step p ⟨.cancelOrExpireNote D action x, w, now⟩ s s₁'
      ∧ s₂ = { s₁' with actionClock := s₁'.actionClock + 1 } := by
  cases st₀ with
  | @expire _ _ _ _ _ _ m cost E P U _ hm hr hc hcost hR =>
    obtain rfl : n = m := Option.some.inj (hn.symm.trans hm)
    -- the note has expired, so an allocation may release it too
    have hR' : Releases now n cost s E P U :=
      ⟨hR.skipped, fun _ => hlate, hR.encumbered, hR.pending, hR.refund⟩
    cases st with
    | @allocateCurrent _ _ _ _ _ _ m cost' E' P' U' U'' e _ g hcost' hR'' hg ho hst hz hp he =>
      obtain rfl : m = n.expire := Option.some.inj (g.found.symm.trans (Finmap.lookup_insert _))
      -- the second call found nothing left to release
      obtain ⟨rfl, rfl, rfl⟩ := hR''.skipped rfl
      obtain rfl : cost' = cost := Uint.val_inj.mp (hcost'.trans hcost.symm)
      have g' : AllocateGuard w D s n := ⟨hn, hr, ha, g.opening, g.authority⟩
      refine ⟨_, .allocateCurrent h1 g' hcost hR' hg ho hst hz hp he, ?_⟩
      simp only [Finmap.insert_insert]
      rfl
    | @allocateOlder _ _ _ _ _ _ m cost' E' P' U' _ g hcost' hR'' hg =>
      obtain rfl : m = n.expire := Option.some.inj (g.found.symm.trans (Finmap.lookup_insert _))
      obtain ⟨rfl, rfl, rfl⟩ := hR''.skipped rfl
      obtain rfl : cost' = cost := Uint.val_inj.mp (hcost'.trans hcost.symm)
      have g' : AllocateGuard w D s n := ⟨hn, hr, ha, g.opening, g.authority⟩
      refine ⟨_, .allocateOlder h1 g' hcost hR' hg, ?_⟩
      simp only [Finmap.insert_insert]
      rfl
    | expire h0' => omega
    | acknowledgeRefund h2 => omega
  | allocateCurrent h1' => omega
  | allocateOlder h1' => omega
  | acknowledgeRefund h2 => omega

/-- An allocation of a live note can be had as an expiry and an allocation. -/
theorem Step.separate (w₀ : Witness B) (x₀ : U64)
    (st : Step p ⟨.cancelOrExpireNote D action x, w, now⟩ s s₂)
    (h0 : action₀.val = 0) (h1 : action.val = 1) (hn : s.notes.lookup D = some n)
    (hc : n.cancelled = false) (hlate : n.expiry.val ≤ now₀) :
    ∃ s₁, Step p ⟨.cancelOrExpireNote D action₀ x₀, w₀, now₀⟩ s s₁
      ∧ Step p ⟨.cancelOrExpireNote D action x, w, now⟩ s₁
          { s₂ with actionClock := s₂.actionClock + 1 } := by
  cases st with
  | @allocateCurrent _ _ _ _ _ _ m cost E P U U' e _ g hcost hR hg ho hst hz hp he =>
    obtain rfl : n = m := Option.some.inj (hn.symm.trans g.found)
    -- an expiry before would have released the same
    have hR' : Releases now₀ n cost s E P U :=
      ⟨hR.skipped, fun _ => hlate, hR.encumbered, hR.pending, hR.refund⟩
    refine ⟨expiredLedger s D n E P U, .expire h0 hn g.unredeemed hc hcost hR', ?_⟩
    -- and the allocation after it releases nothing
    have st' : Step p ⟨.cancelOrExpireNote D action x, w, now⟩ (expiredLedger s D n E P U) _ :=
      .allocateCurrent h1 g.expired hcost .again hg ho hst hz hp he
    simp only [expiredLedger, Finmap.insert_insert] at st'
    exact st'
  | @allocateOlder _ _ _ _ _ _ m cost E P U _ g hcost hR hg =>
    obtain rfl : n = m := Option.some.inj (hn.symm.trans g.found)
    have hR' : Releases now₀ n cost s E P U :=
      ⟨hR.skipped, fun _ => hlate, hR.encumbered, hR.pending, hR.refund⟩
    refine ⟨expiredLedger s D n E P U, .expire h0 hn g.unredeemed hc hcost hR', ?_⟩
    have st' : Step p ⟨.cancelOrExpireNote D action x, w, now⟩ (expiredLedger s D n E P U) _ :=
      .allocateOlder h1 g.expired hcost .again hg
    simp only [expiredLedger, Finmap.insert_insert] at st'
    exact st'
  | expire h0' => omega
  | acknowledgeRefund h2 => omega

end Twice

/-! ## Any order -/

/--
**Compensation in any order.** From every reachable ledger with a book, the notes `S` can be
compensated in any order, with or without expiries first and by the issuer or the borrower,
and always with the same totals, exactly when there is an epoch left for each of them. And an
expiry before an allocation changes nothing but the clock.
-/
theorem compensation_any_order [LawfulCompact B] {h : Trace B} (r : Reaches p h s)
    (hs : s.status ≠ .NONE) (hb : lineStateCommit b t = s.lineCommit)
    (hS : ∀ D ∈ S, ∃ n, Pending s D n) :
    (AnyOrder p s S b t ↔ b.epoch.val + S.card < 2 ^ 64)
    ∧ ∀ D n w₀ w (now₀ now : ℕ) (action₀ action : Uint 8) x₀ x s₂,
        s.notes.lookup D = some n → n.Live → action₀.val = 0 → action.val = 1 →
        n.expiry.val ≤ now₀ → n.expiry.val ≤ now →
        ((∃ s₁, Calls p ⟨.cancelOrExpireNote D action₀ x₀, w₀, now₀⟩ s s₁
            ∧ Calls p ⟨.cancelOrExpireNote D action x, w, now⟩ s₁ s₂)
          ↔ ∃ s₁, Calls p ⟨.cancelOrExpireNote D action x, w, now⟩ s s₁
            ∧ s₂ = { s₁ with actionClock := s₁.actionClock + 1 }) := by
  obtain ⟨b', t', hb', hdom, hid, -⟩ := r.tracks.book hs
  obtain ⟨rfl, rfl⟩ := lineStateCommit_inj (hb'.trans hb.symm)
  have h0 : Follows s S b' (Plan.start s S b' t') s := .start hb hdom hid hS
  refine ⟨⟨?_, ?_⟩, ?_⟩
  · -- with too few epochs, a plan goes wrong where they run out
    intro hany
    by_contra hfull
    have hlt := b'.epoch.isLt
    obtain ⟨hq, q, rq, hep, -⟩ := r.exists_run (b := b') (t := t') hS (2 ^ 64 - b'.epoch.val)
      (by omega) (by omega)
    obtain ⟨h', s', r', hl⟩ := hany.accepted hq q rq
    obtain ⟨out, ep, -, -, hep'⟩ := (rq.follows h0 r' hl).book
    have hfits := ep.isLt
    omega
  · intro hroom
    exact ⟨fun hq q rq => r.carries_out h0 hroom rq,
      fun hq q h' s' rq r' hl hdone => (rq.follows h0 r' hl).totals hdone⟩
  · intro D n w₀ w now₀ now action₀ action x₀ x s₂ hn hlive h0 h1 hlate₀ hlate
    have ha := (r.noteWF hn).uncancelled hlive.2
    constructor
    · intro htwo
      obtain ⟨s₁, st₀, st⟩ := htwo
      obtain ⟨s₁', st', heq⟩ := (calls_iff.mp st₀).merge (calls_iff.mp st) h0 h1 hn ha hlate
      exact ⟨s₁', calls_iff.mpr st', heq⟩
    · intro hone
      obtain ⟨s₁, st, rfl⟩ := hone
      obtain ⟨s₁', st₀, st'⟩ := (calls_iff.mp st).separate w₀ x₀ h0 h1 hn hlive.2 hlate₀
      exact ⟨s₁', calls_iff.mpr st₀, calls_iff.mpr st'⟩

/-- The note is pending, as a test. -/
def Demo.pending (s : Ledger Term) (D : Term) : Bool :=
  (s.notes.lookup D).any fun n =>
    !n.redeemed && !n.compensationAllocated && decide (n.lineGeneration = s.lineGeneration)

theorem Demo.pending_spec {s : Ledger Term} {D : Term} (hp : Demo.pending s D = true) :
    ∃ n, Pending s D n := by
  unfold Demo.pending at hp
  cases hn : s.notes.lookup D with
  | none => simp [hn] at hp
  | some n =>
    simp only [hn, Option.any_some, Bool.and_eq_true, Bool.not_eq_true', decide_eq_true_eq] at hp
    exact ⟨n, hn, hp.1.1, hp.1.2, hp.2⟩

/-- Two notes of 102 each, on a debt of 204. -/
theorem compensation_any_order_run : ∃ (h : Trace Term) (s : Ledger Term),
    Reaches .organization h s
    ∧ AnyOrder .organization s {Demo.note 1 1, Demo.note 2 1}
        ⟨Demo.domain, agentId Demo.borrower, Demo.u64 500, Demo.u64 204, Demo.u64 2⟩ (.atom 0) := by
  obtain ⟨h, s, r, ht⟩ := Demo.reaches_of_check .organization
    [Demo.fund 1000, Demo.openLine, Demo.post 1 1, Demo.draw 1 1 0 0, Demo.post 2 1,
      Demo.draw 2 1 102 1]
    (fun _ s => Demo.pending s (Demo.note 1 1) && Demo.pending s (Demo.note 2 1)
      && decide (s.status ≠ .NONE)
      && decide (lineStateCommit ⟨Demo.domain, agentId Demo.borrower, Demo.u64 500, Demo.u64 204,
        Demo.u64 2⟩ (.atom 0) = s.lineCommit)) (by decide +kernel)
  simp only [Bool.and_eq_true, decide_eq_true_eq] at ht
  obtain ⟨⟨⟨h1, h2⟩, hs⟩, hb⟩ := ht
  have hS : ∀ D ∈ ({Demo.note 1 1, Demo.note 2 1} : Finset Term), ∃ n, Pending s D n := by
    intro D hD
    rcases Finset.mem_insert.mp hD with rfl | hD
    · exact Demo.pending_spec h1
    · rw [Finset.mem_singleton.mp hD]
      exact Demo.pending_spec h2
  refine ⟨h, s, r, (compensation_any_order r hs hb hS).1.mpr ?_⟩
  have hcard := Finset.card_le_two (a := Demo.note 1 1) (b := Demo.note 2 1)
  have hepoch : (Demo.u64 2).val = 2 := rfl
  simp only [hepoch]
  omega

/-- **No epoch is left for an expired note**: the borrower answered 2 and then `2 ^ 64 - 2` to the
two calls of `lineEpoch()` when note 1 was compensated, and note 2 never can be. -/
theorem compensation_any_order_fails : ∃ (h : Trace Term) (s : Ledger Term),
    Reaches .canonical h s ∧ s.status ≠ .NONE
    ∧ lineStateCommit ⟨Demo.domain, agentId Demo.borrower, Demo.u64 500, Demo.u64 102,
        Demo.u64 (2 ^ 64 - 1)⟩ (.atom 0) = s.lineCommit
    ∧ (∀ D ∈ ({Demo.note 2 1} : Finset Term), ∃ n, Pending s D n)
    ∧ ¬ AnyOrder .canonical s {Demo.note 2 1} ⟨Demo.domain, agentId Demo.borrower, Demo.u64 500,
        Demo.u64 102, Demo.u64 (2 ^ 64 - 1)⟩ (.atom 0) := by
  obtain ⟨h, s, r, ht⟩ := Demo.reaches_of_check .canonical
    [Demo.fund 1000, Demo.openLine, Demo.post 1 1, Demo.draw 1 1 0 0, Demo.post 2 1,
      Demo.draw 2 1 102 1, Demo.exhaustEpoch]
    (fun _ s => Demo.pending s (Demo.note 2 1) && decide (s.status ≠ .NONE)
      && decide (lineStateCommit ⟨Demo.domain, agentId Demo.borrower, Demo.u64 500, Demo.u64 102,
        Demo.u64 (2 ^ 64 - 1)⟩ (.atom 0) = s.lineCommit)
      && decide (s.contractDomain = Demo.domain)
      && decide (s.issuer = issuerPublicKey Demo.issuer)
      && (s.notes.lookup (Demo.note 2 1)).any (fun n => decide (n.amount = Demo.u64 100)
        && decide (n.fee = Demo.u64 2) && decide (n.expiry = Demo.u64 50)
        && decide (n.lineGeneration = Demo.u64 1))
      && match exec .canonical (Demo.allocate 2 1 102 (2 ^ 64 - 1)) s with
        | .ok _ => false
        | .error f => decide (f = .cast "epoch")) (by decide +kernel)
  simp only [Bool.and_eq_true, decide_eq_true_eq] at ht
  obtain ⟨⟨⟨⟨⟨⟨hp, hs⟩, hb⟩, hdom⟩, hissuer⟩, hn⟩, hfail⟩ := ht
  have hS : ∀ D ∈ ({Demo.note 2 1} : Finset Term), ∃ n, Pending s D n := by
    intro D hD
    rw [Finset.mem_singleton.mp hD]
    exact Demo.pending_spec hp
  refine ⟨h, s, r, hs, hb, hS, fun hany => ?_⟩
  obtain ⟨n, hpend⟩ := Demo.pending_spec hp
  rw [hpend.found] at hn
  simp only [Option.any_some, Bool.and_eq_true, decide_eq_true_eq] at hn
  obtain ⟨⟨⟨hamount, hfee⟩, hexpiry⟩, hgen⟩ := hn
  have hm : Plan.Move s (Demo.allocate 2 1 102 (2 ^ 64 - 1)) (Plan.start s {Demo.note 2 1}
      ⟨Demo.domain, agentId Demo.borrower, Demo.u64 500, Demo.u64 102, Demo.u64 (2 ^ 64 - 1)⟩
      (.atom 0)) _ :=
    .allocate (Finset.mem_singleton_self _) hpend.found rfl (fun _ => by rw [hexpiry]; decide)
      (by simp only [compensationPreimage, hdom, hamount, hfee, hexpiry, hgen]; rfl)
      (.inl hissuer.symm) ⟨fun _ => rfl, fun _ => rfl, fun _ => rfl, fun _ => rfl⟩
  obtain ⟨h', s', r', hl⟩ := hany.accepted _ _ (.next (.start rfl) hm)
  cases hl with
  | cons hlabel hnil =>
    cases hnil
    cases r' with
    | next r' st =>
      cases r' with
      | start heq =>
        subst heq
        simp only at hlabel
        rw [← hlabel] at st
        unfold Calls at st
        rw [st] at hfail
        simp at hfail

end Line
