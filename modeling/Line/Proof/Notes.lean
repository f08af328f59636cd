import Line.Contract.Run

/-!
# The entries of the note map

Every circuit that touches a note writes its whole entry again. What an entry may
look like is `NoteMeta.WF`, what a later entry of the same note may differ in is
`NoteMeta.Evolves`, and both are read off the four edges of `NoteMove`.

A redemption, an expiry, an allocation and an acknowledgement raise flags and lower none.
So well-formedness is a matter of which flags imply which: what is allocated is cancelled,
what is owed is allocated, what is acknowledged is owed, and what is redeemed is none of
these. A later entry has the terms of the earlier one, and the flags that were up. No
circuit removes an entry.
-/

namespace Line

open Checked

variable {B : Type} [DecidableEq B] [Compact B]

/-- Which flags of a note may be set together, and what its amounts are. -/
structure NoteMeta.WF (n : NoteMeta B) : Prop where
  /-- No note is both redeemed and cancelled. -/
  exclusive : ¬ (n.redeemed = true ∧ n.cancelled = true)
  /-- Only a cancelled note is compensated. -/
  allocated : n.compensationAllocated = true → n.cancelled = true
  /-- Only a compensation leaves cash owed. -/
  owed : n.cashRefundOwed = true → n.compensationAllocated = true
  /-- Only owed cash is acknowledged. -/
  acknowledged : n.refundAcknowledged = true → n.cashRefundOwed = true
  /-- The cast of the cost in `cancelOrExpireNote` succeeds. -/
  cost : n.amount.val + n.fee.val < 2 ^ 64
  /-- No note is for nothing. -/
  positive : 0 < n.amount.val

/-- What stays of a note's entry, and which way its flags go. -/
structure NoteMeta.Evolves (n n' : NoteMeta B) : Prop where
  amount : n'.amount = n.amount
  fee : n'.fee = n.fee
  expiry : n'.expiry = n.expiry
  lineGeneration : n'.lineGeneration = n.lineGeneration
  redeemed : n.redeemed = true → n'.redeemed = true
  cancelled : n.cancelled = true → n'.cancelled = true
  compensationAllocated : n.compensationAllocated = true → n'.compensationAllocated = true
  cashRefundOwed : n.cashRefundOwed = true → n'.cashRefundOwed = true
  refundAcknowledged : n.refundAcknowledged = true → n'.refundAcknowledged = true
  /-- The refund commitment is fixed by the allocation. -/
  refundCommitment : n.compensationAllocated = true → n'.refundCommitment = n.refundCommitment

omit [DecidableEq B] [Compact B] in
theorem NoteMeta.Evolves.refl (n : NoteMeta B) : n.Evolves n :=
  ⟨rfl, rfl, rfl, rfl, id, id, id, id, id, fun _ => rfl⟩

omit [DecidableEq B] [Compact B] in
theorem NoteMeta.Evolves.trans {a b c : NoteMeta B} (h : a.Evolves b) (h' : b.Evolves c) :
    a.Evolves c where
  amount := h'.amount.trans h.amount
  fee := h'.fee.trans h.fee
  expiry := h'.expiry.trans h.expiry
  lineGeneration := h'.lineGeneration.trans h.lineGeneration
  redeemed := h'.redeemed ∘ h.redeemed
  cancelled := h'.cancelled ∘ h.cancelled
  compensationAllocated := h'.compensationAllocated ∘ h.compensationAllocated
  cashRefundOwed := h'.cashRefundOwed ∘ h.cashRefundOwed
  refundAcknowledged := h'.refundAcknowledged ∘ h.refundAcknowledged
  refundCommitment := fun ha =>
    (h'.refundCommitment (h.compensationAllocated ha)).trans (h.refundCommitment ha)

variable {p : Profile} {c : Call B} {s s' : Ledger B} {h h' : Trace B} {D : B}
  {n n' : NoteMeta B}

/-- A note just drawn costs no more than the limit it was drawn under. -/
theorem NoteNew.wf (hn : NoteNew p c s D n) : n.WF := by
  cases hn with
  | @draw _ _ fee _ _ g =>
    have hcap := g.capacity
    have hlim := (c.witness.lineLimit 0).isLt
    refine ⟨by simp [NoteMeta.drawn], by simp [NoteMeta.drawn], by simp [NoteMeta.drawn],
      by simp [NoteMeta.drawn], ?_, g.positive⟩
    simp only [NoteMeta.drawn]
    omega

theorem NoteMove.wf (hm : NoteMove c s D n n') (hn : n.WF) : n'.WF := by
  cases hm with
  | redeem => exact ⟨by simp [NoteMeta.redeem], by simp [NoteMeta.redeem],
      by simp [NoteMeta.redeem], by simp [NoteMeta.redeem], hn.cost, hn.positive⟩
  | expire => exact ⟨by simp [NoteMeta.expire], by simp [NoteMeta.expire],
      by simp [NoteMeta.expire], by simp [NoteMeta.expire], hn.cost, hn.positive⟩
  | allocate => exact ⟨by simp [NoteMeta.allocate], by simp [NoteMeta.allocate],
      by simp [NoteMeta.allocate], by simp [NoteMeta.allocate], hn.cost, hn.positive⟩
  | acknowledge => exact ⟨by simp [NoteMeta.acknowledge], by simp [NoteMeta.acknowledge],
      by simp [NoteMeta.acknowledge], by simp [NoteMeta.acknowledge], hn.cost, hn.positive⟩

omit [DecidableEq B] [Compact B] in
/-- A note that was not allocated has none of the later flags. -/
theorem NoteMeta.WF.unallocated (hn : n.WF) (ha : n.compensationAllocated = false) :
    n.cashRefundOwed = false ∧ n.refundAcknowledged = false := by
  have ho : n.cashRefundOwed = false := by
    cases hc : n.cashRefundOwed with
    | false => rfl
    | true => rw [hn.owed hc] at ha; cases ha
  refine ⟨ho, ?_⟩
  cases hr : n.refundAcknowledged with
  | false => rfl
  | true => rw [hn.acknowledged hr] at ho; cases ho

omit [DecidableEq B] [Compact B] in
/-- A note that was not cancelled was not allocated. -/
theorem NoteMeta.WF.uncancelled (hn : n.WF) (hc : n.cancelled = false) :
    n.compensationAllocated = false := by
  cases ha : n.compensationAllocated with
  | false => rfl
  | true => rw [hn.allocated ha] at hc; cases hc

/-- **Each edge keeps the terms of the note and only raises flags.** -/
theorem NoteMove.evolves (hm : NoteMove c s D n n') (hn : n.WF) : n.Evolves n' := by
  cases hm with
  -- on a live note all the other flags are down
  | redeem _ g =>
    have ha := hn.uncancelled g.uncancelled
    obtain ⟨ho, hk⟩ := hn.unallocated ha
    refine ⟨rfl, rfl, rfl, rfl, fun _ => rfl, ?_, ?_, ?_, ?_, ?_⟩
    · simp [g.uncancelled]
    · simp [ha]
    · simp [ho]
    · simp [hk]
    · simp [ha]
  | expire _ _ hr hc =>
    have ha := hn.uncancelled hc
    obtain ⟨ho, hk⟩ := hn.unallocated ha
    refine ⟨rfl, rfl, rfl, rfl, ?_, fun _ => rfl, ?_, ?_, ?_, ?_⟩
    · simp [hr]
    · simp [ha]
    · simp [ho]
    · simp [hk]
    · simp [ha]
  -- before an allocation nothing is owed or acknowledged
  | allocate _ _ g =>
    obtain ⟨ho, hk⟩ := hn.unallocated g.unallocated
    refine ⟨rfl, rfl, rfl, rfl, ?_, fun _ => rfl, fun _ => rfl, ?_, ?_, ?_⟩
    · simp [g.unredeemed]
    · simp [ho]
    · simp [hk]
    · simp [g.unallocated]
  -- an acknowledged note has every flag but the redemption
  | acknowledge _ _ g =>
    refine ⟨rfl, rfl, rfl, rfl, ?_, fun _ => rfl, fun _ => rfl, fun _ => rfl, fun _ => rfl,
      fun _ => rfl⟩
    simp [g.unredeemed]

/-- **Every entry of a reachable ledger is well formed.** -/
theorem Reaches.noteWF (r : Reaches p h s) (hn : s.notes.lookup D = some n) : n.WF := by
  refine r.stateInvariant (I := fun s => ∀ D n, s.notes.lookup D = some n → n.WF) ?_ ?_ D n hn
  · intro d D n hn
    simp [constructor] at hn
  · intro s c s' hI st
    exact st.notes.forall (P := fun _ n => n.WF) (fun _ _ => NoteNew.wf) (fun _ _ _ => NoteMove.wf)
      hI

/-- **Until a compensation, no refund is written on a note.** -/
theorem Reaches.blank (r : Reaches p h s) (hn : s.notes.lookup D = some n)
    (ha : n.compensationAllocated = false) :
    n.refundCommitment = pad "" ∧ n.refundPaymentNullifier = pad "" := by
  refine r.stateInvariant (I := fun s => ∀ D n, s.notes.lookup D = some n →
    n.compensationAllocated = false → n.refundCommitment = pad ""
      ∧ n.refundPaymentNullifier = pad "") ?_ ?_ D n hn ha
  · intro d D n hn
    simp [constructor] at hn
  · intro s c s' hI st
    refine st.notes.forall (P := fun _ n => n.compensationAllocated = false →
      n.refundCommitment = pad "" ∧ n.refundPaymentNullifier = pad "") ?_ ?_ hI
    · intro D n hnew ha
      cases hnew
      exact ⟨rfl, rfl⟩
    · intro D n n' hmove hn ha
      cases hmove with
      | redeem => exact ⟨rfl, rfl⟩
      | expire => exact ⟨rfl, rfl⟩
      | allocate => cases ha
      | acknowledge => cases ha

/-- **A note is followed through any continuation.** -/
theorem Continues.note (r : Continues p s h s') (hn : s.notes.lookup D = some n) (hwf : n.WF) :
    ∃ n', s'.notes.lookup D = some n' ∧ n'.WF ∧ n.Evolves n' := by
  obtain ⟨n', hn', hev⟩ := Register.evolves Ledger.notes
    (R := fun _ u v => u.WF → v.WF ∧ u.Evolves v)
    (fun _ u hu => ⟨hu, .refl u⟩)
    (fun _ _ _ _ h₁ h₂ hu =>
      have hv := h₁ hu
      have hx := h₂ hv.1
      ⟨hx.1, hv.2.trans hx.2⟩)
    (fun c s s' st => (calls_iff.mp st).notes.mono (fun _ _ _ _ => trivial)
      (fun _ _ _ _ hm hu => ⟨hm.wf hu, hm.evolves hu⟩)) r hn
  exact ⟨n', hn', hev hwf⟩

end Line
