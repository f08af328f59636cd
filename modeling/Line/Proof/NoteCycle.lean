import Line.Proof.Reserve

/-!
# The life of a note

A note is drawn, and from then on its terms are fixed: amount, fee, expiry and
generation never change and its flags only rise (`NoteMeta.Evolves`). What is left
to say is when the edges are taken and how often.

* A redemption is strictly before the expiry, and whatever cancels a note is at or
  after it. An allocation of a note that was expired earlier is not timed by the
  circuit; it is late because the expiry was, once block times do not go back.
* An allocation splits the cost of the note exactly: what it takes off the debt of
  the current book and what it binds as a refund add up to it.
* Redemption and allocation exclude each other and happen at most once, and so does
  the acknowledgement of a refund. The flags they leave up are the reason.
-/

namespace Line

open Checked

variable {B : Type} [DecidableEq B]

/-! ## Calls on one note -/

/-- The call redeems the note `D`. -/
def Op.redeems (D : B) : Op B → Bool
  | .redeemDraw D' _ => D' = D
  | _ => false

/-- The call is `cancelOrExpireNote` on the note `D`, in the given mode. -/
def Op.cancels (D : B) (mode : ℕ) : Op B → Bool
  | .cancelOrExpireNote D' action _ => D' = D ∧ action.val = mode
  | _ => false

/-- The call pays the note `D` out: to its merchant, or back to its borrower. -/
def Op.settles (D : B) (op : Op B) : Bool := op.redeems D || op.cancels D 1

variable [Compact B] {p : Profile} {c : Call B} {s s' : Ledger B} {h h' : Trace B} {D : B}
  {n : NoteMeta B}

/-- A redemption finds the note live and before its expiry, and leaves it redeemed. -/
theorem Step.redeems (st : Step p c s s') (hc : c.op.redeems D = true) :
    ∃ noteExpiry n, RedeemGuard c.witness c.now D noteExpiry s n
      ∧ s'.notes = s.notes.insert D n.redeem := by
  cases st with
  | redeemDraw g =>
    obtain rfl := of_decide_eq_true hc
    exact ⟨_, _, g, rfl⟩
  | _ => cases hc

/-- An expiry finds the note live and at or after its expiry. -/
theorem Step.expires (st : Step p c s s') (hc : c.op.cancels D 0 = true) :
    ∃ n, s.notes.lookup D = some n ∧ n.redeemed = false ∧ n.cancelled = false
      ∧ n.expiry.val ≤ c.now ∧ s'.notes = s.notes.insert D n.expire := by
  cases st with
  | expire _ hn hr hc' _ hR =>
    obtain ⟨rfl, -⟩ := of_decide_eq_true hc
    exact ⟨_, hn, hr, hc', hR.expired hc', rfl⟩
  | allocateCurrent h1 =>
    obtain ⟨-, h0⟩ := of_decide_eq_true hc
    omega
  | allocateOlder h1 =>
    obtain ⟨-, h0⟩ := of_decide_eq_true hc
    omega
  | acknowledgeRefund h2 =>
    obtain ⟨-, h0⟩ := of_decide_eq_true hc
    omega
  | _ => cases hc

/-- An acknowledgement finds cash owed, and leaves it acknowledged. -/
theorem Step.refunds (st : Step p c s s') (hc : c.op.cancels D 2 = true) :
    ∃ receiptExpiry n, RefundGuard c.witness c.now D receiptExpiry s n
      ∧ s'.notes = s.notes.insert D (n.acknowledge (witnessPayment c.witness s)) := by
  cases st with
  | acknowledgeRefund _ g =>
    obtain ⟨rfl, -⟩ := of_decide_eq_true hc
    exact ⟨_, _, g, rfl⟩
  | expire h0 =>
    obtain ⟨-, h2⟩ := of_decide_eq_true hc
    omega
  | allocateCurrent h1 =>
    obtain ⟨-, h2⟩ := of_decide_eq_true hc
    omega
  | allocateOlder h1 =>
    obtain ⟨-, h2⟩ := of_decide_eq_true hc
    omega
  | _ => cases hc

/-! ## The credit of an allocation -/

/--
What an allocation takes off the debt of the current book. A note of an older
generation has no book any more: nothing is credited and the book is left alone.
-/
inductive Credited (s s' : Ledger B) (n : NoteMeta B) : ℕ → Prop
  | current {b b' : LinePreimage B} {t t' : B} :
      n.lineGeneration = s.lineGeneration →
      lineStateCommit b t = s.lineCommit → lineStateCommit b' t' = s'.lineCommit →
      b'.outstanding.val ≤ b.outstanding.val →
      Credited s s' n (b.outstanding.val - b'.outstanding.val)
  | older :
      n.lineGeneration.val < s.lineGeneration.val → s'.lineCommit = s.lineCommit →
      Credited s s' n 0

/-- The entry that an allocation leaves: what it credits and the refund it binds make the cost. -/
structure Allocated (s s' : Ledger B) (D : B) (n n' : NoteMeta B) : Prop where
  allocated : n'.compensationAllocated = true
  split : ∃ (credit : ℕ) (refund : RefundPreimage B) (salt : B),
    Credited s s' n credit
    ∧ n'.refundCommitment = refundCommit refund salt
    ∧ refund.noteCommit = D ∧ refund.lineGeneration = n.lineGeneration
    ∧ (n'.cashRefundOwed = true ↔ 0 < refund.amount.val)
    ∧ credit + refund.amount.val = n.cost

/-- **An allocation splits the cost exactly**, between the debt and the refund. -/
theorem Step.allocates (st : Step p c s s') (hc : c.op.cancels D 1 = true)
    (hwf : ∀ n, s.notes.lookup D = some n → n.WF) :
    ∃ n n', AllocateGuard c.witness D s n ∧ (n.cancelled = false → n.expiry.val ≤ c.now)
      ∧ s'.notes = s.notes.insert D n' ∧ NoteMove c s D n n' ∧ Allocated s s' D n n' := by
  cases st with
  | @allocateCurrent w _ _ D _ _ n cost _ _ _ _ e h1 g hcost hR hg ho hst hz hp he =>
    obtain ⟨rfl, -⟩ := of_decide_eq_true hc
    refine ⟨n, _, g, hR.expired, rfl, .allocate rfl h1 g hR.expired, rfl, ?_⟩
    -- the cost goes off the debt as far as it reaches
    have hdebt := debtAfterCredit_val (w.lineOutstanding 0) cost
    have hcash := cashRefundAmount_val (w.lineOutstanding 0) cost
    have hle : (debtAfterCredit (w.lineOutstanding 0) cost).val ≤ (w.lineOutstanding 0).val := by
      omega
    refine ⟨_,
      refundPreimage D n (w.noteIdentity 0) (cashRefundAmount (w.lineOutstanding 0) cost) s,
      w.newSalt 1, .current hg hst rfl hle, rfl, rfl, rfl, ?_, ?_⟩
    · simp only [NoteMeta.allocate, refundPreimage, decide_eq_true_eq]
      omega
    -- and the two halves are the whole
    · have hsplit := credit_add_refund (w.lineOutstanding 0) cost
      rw [hcost] at hsplit
      exact hsplit
  | @allocateOlder w _ _ D _ _ n cost _ _ _ h1 g hcost hR hg =>
    obtain ⟨rfl, -⟩ := of_decide_eq_true hc
    refine ⟨n, _, g, hR.expired, rfl, .allocate rfl h1 g hR.expired, rfl, ?_⟩
    refine ⟨0, refundPreimage D n (w.noteIdentity 0) cost s, w.newSalt 0, .older hg rfl, rfl, rfl,
      rfl, ?_, ?_⟩
    · -- the whole cost is owed, and no note is for nothing
      have hpos := (hwf n g.found).positive
      simp only [NoteMeta.allocate, refundPreimage, true_iff]
      omega
    · rw [Nat.zero_add]
      exact hcost
  | expire h0 =>
    obtain ⟨-, h1⟩ := of_decide_eq_true hc
    omega
  | acknowledgeRefund h2 =>
    obtain ⟨-, h1⟩ := of_decide_eq_true hc
    omega
  | _ => cases hc

/-! ## When -/

/-- Block times do not go back: newest first, no call is earlier than one before it. -/
def Chronological (h : Trace B) : Prop :=
  h.Pairwise fun later earlier => earlier.label.now ≤ later.label.now

/-- **A cancelled note was cancelled late**: by a call of its own, at or after its expiry. -/
theorem Reaches.cancelled_late (r : Reaches p h s) (hn : s.notes.lookup D = some n)
    (hc : n.cancelled = true) :
    ∃ e ∈ h, (e.label.op.cancels D 0 = true ∨ e.label.op.cancels D 1 = true)
      ∧ n.expiry.val ≤ e.label.now := by
  refine r.invariant (I := fun h s => ∀ n, s.notes.lookup D = some n → n.cancelled = true →
    ∃ e ∈ h, (e.label.op.cancels D 0 = true ∨ e.label.op.cancels D 1 = true)
      ∧ n.expiry.val ≤ e.label.now) ?_ ?_ n hn hc
  · intro d n hn
    simp [constructor] at hn
  · intro h s c s' r hI st n' hn' hc'
    -- an entry that was cancelled before keeps its witness
    have old : ∀ u, s.notes.lookup D = some u → u.cancelled = true → u.expiry = n'.expiry →
        ∃ e ∈ (⟨c, s, s'⟩ : Tx B) :: h,
          (e.label.op.cancels D 0 = true ∨ e.label.op.cancels D 1 = true)
          ∧ n'.expiry.val ≤ e.label.now := by
      intro u hu huc hexp
      obtain ⟨e, he, hk, hle⟩ := hI u hu huc
      exact ⟨e, List.mem_cons_of_mem _ he, hk, hexp ▸ hle⟩
    rcases st.notes.lookup_back hn' with hu | ⟨_, hnew⟩ | ⟨u, hu, hm⟩
    · exact old n' hu hc' rfl
    · cases hnew with
      | draw => cases hc'
    · cases hm with
      | redeem => cases hc'
      | expire hop h0 _ _ hle =>
        exact ⟨_, List.mem_cons_self, .inl (by simp [hop, Op.cancels, h0]), hle⟩
      | allocate hop h1 g hle =>
        cases huc : u.cancelled with
        | true => exact old u hu huc rfl
        | false => exact ⟨_, List.mem_cons_self, .inr (by simp [hop, Op.cancels, h1]), hle huc⟩
      | acknowledge _ _ g => exact old u hu g.cancelled rfl

/-! ## How often -/

/-- **A note is paid out at most once**, by redemption or by compensation. -/
theorem Reaches.settles_once (r : Reaches p h s) (D : B) :
    h.countP (fun e => e.label.op.settles D) ≤ 1 := by
  refine r.countP_le_one (fun s => ∃ n, s.notes.lookup D = some n ∧
    (n.redeemed = true ∨ n.compensationAllocated = true)) ?_ ?_
  -- both flags stay up
  · rintro h s c s' r st ⟨n, hn, hflag⟩
    obtain ⟨n', hn', hev⟩ := st.notes.lookup hn
    refine ⟨n', hn', ?_⟩
    rcases hev with rfl | hm
    · exact hflag
    · exact hflag.imp (hm.evolves (r.noteWF hn)).redeemed
        (hm.evolves (r.noteWF hn)).compensationAllocated
  · intro h s c s' r st hk
    rcases Bool.or_eq_true_iff.mp hk with hk | hk
    -- a redemption finds both down, and leaves the first up
    · obtain ⟨_, n, g, hs'⟩ := st.redeems hk
      refine ⟨?_, _, by rw [hs', Finmap.lookup_insert], .inl rfl⟩
      rintro ⟨m, hm, hflag⟩
      obtain rfl : n = m := Option.some.inj (g.found.symm.trans hm)
      have ha := (r.noteWF hm).uncancelled g.uncancelled
      rcases hflag with hr | hr
      · exact absurd (g.unredeemed.symm.trans hr) (by simp)
      · exact absurd (ha.symm.trans hr) (by simp)
    -- an allocation likewise, with the second
    · obtain ⟨n, n', g, _, hs', _, ha⟩ := st.allocates hk fun n hn => r.noteWF hn
      refine ⟨?_, _, by rw [hs', Finmap.lookup_insert], .inr ha.allocated⟩
      rintro ⟨m, hm, hflag⟩
      obtain rfl : n = m := Option.some.inj (g.found.symm.trans hm)
      rcases hflag with hr | hr
      · exact absurd (g.unredeemed.symm.trans hr) (by simp)
      · exact absurd (g.unallocated.symm.trans hr) (by simp)

/-- **A refund is acknowledged at most once.** -/
theorem Reaches.refunds_once (r : Reaches p h s) (D : B) :
    h.countP (fun e => e.label.op.cancels D 2) ≤ 1 := by
  refine r.countP_le_one (fun s => ∃ n, s.notes.lookup D = some n ∧
    n.refundAcknowledged = true) ?_ ?_
  · rintro h s c s' r st ⟨n, hn, hflag⟩
    obtain ⟨n', hn', hev⟩ := st.notes.lookup hn
    refine ⟨n', hn', ?_⟩
    rcases hev with rfl | hm
    · exact hflag
    · exact (hm.evolves (r.noteWF hn)).refundAcknowledged hflag
  · intro h s c s' r st hk
    obtain ⟨_, n, g, hs'⟩ := st.refunds hk
    refine ⟨?_, _, by rw [hs', Finmap.lookup_insert], rfl⟩
    rintro ⟨m, hm, hflag⟩
    obtain rfl : n = m := Option.some.inj (g.found.symm.trans hm)
    exact absurd (g.unacknowledged.symm.trans hflag) (by simp)

/-! ## The life cycle -/

/-- What holds of the note `D` in a run `h` to `s` and in any continuation of it to `s'`. -/
structure LifeCycle (h : Trace B) (s s' : Ledger B) (D : B) : Prop where
  /-- The note stays, with its terms; its flags only rise and its refund stays the one allocated. -/
  evolves : ∀ n, s.notes.lookup D = some n → ∃ n', s'.notes.lookup D = some n' ∧ n.Evolves n'
  exclusive : ∀ n, s.notes.lookup D = some n → ¬ (n.redeemed = true ∧ n.cancelled = true)
  allocated : ∀ n, s.notes.lookup D = some n →
    n.compensationAllocated = true → n.cancelled = true
  owed : ∀ n, s.notes.lookup D = some n →
    n.cashRefundOwed = true → n.compensationAllocated = true
  acknowledged : ∀ n, s.notes.lookup D = some n →
    n.refundAcknowledged = true → n.cashRefundOwed = true
  /-- A redemption is strictly before the expiry. -/
  redeemed : ∀ e ∈ h, e.label.op.redeems D = true →
    ∃ n, e.pre.notes.lookup D = some n ∧ e.label.now < n.expiry.val
  /-- An expiry is at or after it. -/
  expired : ∀ e ∈ h, e.label.op.cancels D 0 = true →
    ∃ n, e.pre.notes.lookup D = some n ∧ n.expiry.val ≤ e.label.now
  /-- An allocation splits the cost. It is at or after the expiry, or follows a call that was, and
  so it is at or after the expiry wherever block times do not go back. -/
  compensated : ∀ h₂ e h₁, h = h₂ ++ e :: h₁ → e.label.op.cancels D 1 = true →
    ∃ n n', e.pre.notes.lookup D = some n ∧ e.post.notes.lookup D = some n'
      ∧ Allocated e.pre e.post D n n'
      ∧ (n.expiry.val ≤ e.label.now
        ∨ ∃ e₀ ∈ h₁, e₀.label.op.cancels D 0 = true ∧ n.expiry.val ≤ e₀.label.now)
      ∧ (Chronological h → n.expiry.val ≤ e.label.now)
  /-- Redeemed or credited, at most once in all. -/
  settledOnce : h.countP (fun e => e.label.op.settles D) ≤ 1
  /-- Refunded at most once. -/
  refundedOnce : h.countP (fun e => e.label.op.cancels D 2) ≤ 1

/-- A note that is still to be compensated was cancelled by mode 0. -/
theorem Reaches.expired_before (r : Reaches p h s) (hn : s.notes.lookup D = some n)
    (hc : n.cancelled = true) (ha : n.compensationAllocated = false) :
    ∃ e ∈ h, e.label.op.cancels D 0 = true ∧ n.expiry.val ≤ e.label.now := by
  obtain ⟨e, he, hk | hk, hle⟩ := r.cancelled_late hn hc
  · exact ⟨e, he, hk, hle⟩
  · -- an allocation would have left the note allocated
    exfalso
    obtain ⟨h₁, h₂, -, r₁, st, r₂⟩ := r.of_mem he
    obtain ⟨u, u', g, _, hs', hm, hal⟩ := st.allocates hk fun n hn => r₁.noteWF hn
    have hu' : e.post.notes.lookup D = some u' := by rw [hs', Finmap.lookup_insert]
    obtain ⟨n', hn', _, hev⟩ := r₂.note hu' (hm.wf (r₁.noteWF g.found))
    obtain rfl : n = n' := Option.some.inj (hn.symm.trans hn')
    exact absurd (ha.symm.trans (hev.compensationAllocated hal.allocated)) (by simp)

/-- **The life cycle of every note, over every run.** -/
theorem note_life_cycle (r : Reaches p h s) (r' : Continues p s h' s') (D : B) :
    LifeCycle h s s' D where
  evolves := by
    intro n hn
    obtain ⟨n', hn', _, hev⟩ := r'.note hn (r.noteWF hn)
    exact ⟨n', hn', hev⟩
  exclusive := fun n hn => (r.noteWF hn).exclusive
  allocated := fun n hn => (r.noteWF hn).allocated
  owed := fun n hn => (r.noteWF hn).owed
  acknowledged := fun n hn => (r.noteWF hn).acknowledged
  redeemed := by
    intro e he hk
    obtain ⟨_, _, -, _, st, _⟩ := r.of_mem he
    obtain ⟨_, n, g, _⟩ := st.redeems hk
    exact ⟨n, g.found, g.live⟩
  expired := by
    intro e he hk
    obtain ⟨_, _, -, _, st, _⟩ := r.of_mem he
    obtain ⟨n, hn, _, _, hle, _⟩ := st.expires hk
    exact ⟨n, hn, hle⟩
  -- the entry before and after the call
  compensated := by
    rintro h₂ e h₁ rfl hk
    obtain ⟨r₁, st, _⟩ := History.Run.split r
    have r₁ : Reaches p h₁ e.pre := r₁
    obtain ⟨n, n', g, hlate, hs', _, hal⟩ :=
      (calls_iff.mp st).allocates hk fun n hn => r₁.noteWF hn
    refine ⟨n, n', g.found, by rw [hs', Finmap.lookup_insert], hal, ?_⟩
    cases hc : n.cancelled with
    | false => exact ⟨.inl (hlate hc), fun _ => hlate hc⟩
    -- it was expired by an earlier call, which was late
    | true =>
      obtain ⟨e₀, he₀, hk₀, hle⟩ := r₁.expired_before g.found hc g.unallocated
      refine ⟨.inr ⟨e₀, he₀, hk₀, hle⟩, fun hchr => ?_⟩
      have hpair := (List.pairwise_append.mp hchr).2.1
      exact hle.trans ((List.pairwise_cons.mp hpair).1 e₀ he₀)
  settledOnce := r.settles_once D
  refundedOnce := r.refunds_once D

/-- A note that was expired, compensated in part and refunded. -/
theorem note_life_cycle_run : ∃ (h : Trace Term) (s : Ledger Term),
    Reaches .canonical h s ∧ LifeCycle h s s (Demo.note 1 1)
      ∧ h.countP (fun e => e.label.op.settles (Demo.note 1 1)) = 1
      ∧ h.countP (fun e => e.label.op.cancels (Demo.note 1 1) 2) = 1 := by
  obtain ⟨h, s, r, ht⟩ := Demo.reaches_of_check .canonical
    [Demo.fund 1000, Demo.openLine, Demo.post 1 1, Demo.draw 1 1 0 0, Demo.repay 7 102 1 42,
      Demo.expire 1 1, Demo.allocate 1 1 60 2, Demo.refund 1 1 42]
    (fun h _ => decide (h.countP (fun e => e.label.op.settles (Demo.note 1 1)) = 1)
      && decide (h.countP (fun e => e.label.op.cancels (Demo.note 1 1) 2) = 1))
    (by decide +kernel)
  simp only [Bool.and_eq_true, decide_eq_true_eq] at ht
  exact ⟨h, s, r, note_life_cycle r (.start rfl) _, ht.1, ht.2⟩

end Line
