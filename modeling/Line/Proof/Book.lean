import Line.Proof.Generations
import Line.Lib.Credit

/-!
# The private book

The contract keeps one commitment for the borrower's book and never sees the book.
What the book ought to be is the account of `Line.Lib.Credit`, kept by folding the
recorded calls (`account`): an opening starts it, draws charge it, repayments repay
it and compensations of the current generation credit it.

`Step.book` says what each step does to the commitment, and `Tracks` that the
commitment opens to the account's debt whatever the callers answer. Limit and epoch
need one thing more. A compensation asks for them twice, `lineLimit()` and
`lineEpoch()` for the book it checks and again for the book it commits to, and
nothing ties the second answers to the first (`Steady`). Every other circuit asks
once.
-/

namespace Line

open Checked Credit

variable {B : Type} [DecidableEq B] [Compact B]

/-! ## The account of a run -/

/-- The note of the current generation that the call compensates, if it does. -/
def compensated (c : Call B) (s : Ledger B) : Option (NoteMeta B) :=
  match c.op with
  | .cancelOrExpireNote D action _ =>
      if action.val = 1 then
        (s.notes.lookup D).filter fun n => n.lineGeneration = s.lineGeneration
      else none
  | _ => none

/-- What a recorded call does to the account. -/
def Tx.act (e : Tx B) (a : Account) : Account :=
  match e.label.op with
  | .openLine _ _ _ => .opened (e.label.witness.lineLimit 0).val
  | .draw _ _ fee => a.charge ((e.label.witness.drawAmount 0).val + fee.val)
  | .acknowledgeRepayment _ => a.repay (e.label.witness.repayAmount 0).val
  | _ =>
      match compensated e.label e.pre with
      | some n => a.credit n.cost
      | none => a

/-- The account that a run describes: of the generation it last opened. -/
def account : Trace B → Account
  | [] => .opened 0
  | e :: h => e.act (account h)

/-- What the notes of the current generation cost. -/
def charged (s : Ledger B) : ℕ :=
  noteSum (fun n => n.lineGeneration = s.lineGeneration) NoteMeta.cost s

/-- The call asks for the limit twice, if it does, and gets one answer. -/
def SteadyLimit (e : Tx B) : Prop :=
  (compensated e.label e.pre).isSome →
    e.label.witness.lineLimit 1 = e.label.witness.lineLimit 0

/-- The call asks for the epoch twice, if it does, and gets one answer. -/
def SteadyEpoch (e : Tx B) : Prop :=
  (compensated e.label e.pre).isSome →
    e.label.witness.lineEpoch 1 = e.label.witness.lineEpoch 0

/-- The call has one answer for the limit and one for the epoch. -/
def Steady (e : Tx B) : Prop := SteadyLimit e ∧ SteadyEpoch e

/-! ## One step -/

/-- What a step does to the committed book, and to an account that is kept beside it. -/
inductive BookMove (c : Call B) (s s' : Ledger B) (a a' : Account) : Prop
  /-- A generation is opened: the book is new. -/
  | opens :
      c.op.opens = true → s'.status = .OPEN →
      s'.lineCommit = lineStateCommit ⟨s.contractDomain, s'.identityCommit,
        c.witness.lineLimit 0, .zero 64, .zero 64⟩ (c.witness.salt 0) →
      s'.notes = s.notes → a' = .opened (c.witness.lineLimit 0).val →
      BookMove c s s' a a'
  /-- A draw: the book is opened, and closed again with the cost on top. -/
  | charge {b e : U64} {cost : ℕ} :
      s.status = .OPEN → s'.status = .OPEN → SameLine s s' →
      lineStateCommit (witnessBook c.witness s) (c.witness.salt 0) = s.lineCommit →
      s'.lineCommit = lineStateCommit ⟨s.contractDomain, s.identityCommit,
        c.witness.lineLimit 0, b, e⟩ (c.witness.newSalt 0) →
      b.val = (c.witness.lineOutstanding 0).val + cost → b.val ≤ (c.witness.lineLimit 0).val →
      e.val = (c.witness.lineEpoch 0).val + 1 →
      charged s' = charged s + cost → a' = a.charge cost →
      BookMove c s s' a a'
  /-- A repayment of debt that is there. -/
  | repay {b e : U64} {amount : ℕ} :
      s.status ≠ .NONE → s.status ≠ .CLOSED → s'.status = s.status → SameLine s s' →
      lineStateCommit (witnessBook c.witness s) (c.witness.salt 0) = s.lineCommit →
      s'.lineCommit = lineStateCommit ⟨s.contractDomain, s.identityCommit,
        c.witness.lineLimit 0, b, e⟩ (c.witness.newSalt 0) →
      b.val + amount = (c.witness.lineOutstanding 0).val →
      e.val = (c.witness.lineEpoch 0).val + 1 →
      charged s' = charged s → a' = a.repay amount →
      BookMove c s s' a a'
  /-- A compensation: limit and epoch of the new book are the second answers. -/
  | credit {b e : U64} {cost : ℕ} :
      (compensated c s).isSome → s'.status = s.status → SameLine s s' →
      lineStateCommit (witnessBook c.witness s) (c.witness.salt 0) = s.lineCommit →
      s'.lineCommit = lineStateCommit ⟨s.contractDomain, s.identityCommit,
        c.witness.lineLimit 1, b, e⟩ (c.witness.newSalt 0) →
      b.val = (c.witness.lineOutstanding 0).val - cost →
      e.val = (c.witness.lineEpoch 1).val + 1 →
      charged s' = charged s → a' = a.credit cost →
      BookMove c s s' a a'
  /-- Everything else leaves the book alone. -/
  | keep :
      SameLine s s' → s'.lineCommit = s.lineCommit → s'.status = s.status →
      charged s' = charged s → a' = a →
      BookMove c s s' a a'
  /-- A change of status: closing shows the current book at no debt. -/
  | status :
      SameLine s s' → s'.lineCommit = s.lineCommit → StatusGuard c.witness s'.status s →
      charged s' = charged s → a' = a →
      BookMove c s s' a a'

section Charged

variable {s s' : Ledger B} {D : B} {n n' : NoteMeta B}

omit [Compact B] in
/-- Rewriting a note leaves the charges as they were. -/
theorem charged_rewrite (hl : s'.lineGeneration = s.lineGeneration)
    (hn : s'.notes = s.notes.insert D n') (hf : s.notes.lookup D = some n)
    (hg : n'.lineGeneration = n.lineGeneration) (hc : n'.cost = n.cost) :
    charged s' = charged s := by
  unfold charged noteSum
  rw [hl, hn]
  have hins := MapTotal.total_insert_old
    (fun n : NoteMeta B => if n.lineGeneration = s.lineGeneration then n.cost else 0) n' hf
  rw [hg, hc] at hins
  exact Nat.add_left_cancel hins

omit [Compact B] in
/-- A note of the current generation is charged when it is added. -/
theorem charged_insert (hl : s'.lineGeneration = s.lineGeneration)
    (hn : s'.notes = s.notes.insert D n) (hf : D ∉ s.notes)
    (hg : n.lineGeneration = s.lineGeneration) :
    charged s' = charged s + n.cost := by
  unfold charged noteSum
  rw [hl, hn, MapTotal.total_insert_new _ n (Finmap.lookup_eq_none.mpr hf), if_pos hg]
  exact Nat.add_comm _ _

variable {c : Call B} {action : Uint 8} {receiptExpiry : U64}

omit [Compact B] in
theorem compensated_current (hop : c.op = .cancelOrExpireNote D action receiptExpiry)
    (h1 : action.val = 1) (hf : s.notes.lookup D = some n)
    (hg : n.lineGeneration = s.lineGeneration) : compensated c s = some n := by
  simp [compensated, hop, h1, hf, hg, Option.filter]

omit [Compact B] in
theorem compensated_older (hop : c.op = .cancelOrExpireNote D action receiptExpiry)
    (hf : s.notes.lookup D = some n) (hg : n.lineGeneration.val < s.lineGeneration.val) :
    compensated c s = none := by
  have hne : n.lineGeneration ≠ s.lineGeneration := fun heq => by rw [heq] at hg; omega
  simp [compensated, hop, hf, hne, Option.filter]

omit [Compact B] in
theorem compensated_mode (hop : c.op = .cancelOrExpireNote D action receiptExpiry)
    (h1 : action.val ≠ 1) : compensated c s = none := by
  simp [compensated, hop, h1]

end Charged

variable {p : Profile} {c : Call B} {s s' : Ledger B} {h h' : Trace B}

/-- **What a step does to the book.** -/
theorem Step.book (st : Step p c s s') (a : Account) :
    BookMove c s s' a (Tx.act ⟨c, s, s'⟩ a) := by
  cases st with
  | openLine => exact .opens rfl rfl rfl rfl rfl
  | draw g hE hP hb he =>
    have hcap := g.capacity
    rw [← hb] at hcap
    refine .charge g.status g.status ⟨rfl, rfl, rfl, rfl, rfl⟩ g.stale rfl hb hcap he ?_ rfl
    exact charged_insert (n := .drawn _ _ _ _) rfl rfl g.free rfl
  | acknowledgeRepayment g hcan horg hb he =>
    refine .repay ?_ ?_ rfl ⟨rfl, rfl, rfl, rfl, rfl⟩ g.stale rfl hb he rfl rfl
    · rcases g.status with hs | hs <;> simp [hs]
    · rcases g.status with hs | hs <;> simp [hs]
  | @allocateCurrent w now _ D action r n cost _ _ _ _ e h1 g hcost hR hg ho hst hz hp he =>
    have hcomp :=
      compensated_current (c := ⟨.cancelOrExpireNote D action r, w, now⟩) rfl h1 g.found hg
    have hdebt : (debtAfterCredit (w.lineOutstanding 0) cost).val
        = (w.lineOutstanding 0).val - n.cost := by
      rw [debtAfterCredit_val, hcost]
      rfl
    refine .credit (by rw [hcomp]; rfl) rfl ⟨rfl, rfl, rfl, rfl, rfl⟩ hst rfl hdebt he ?_ ?_
    · exact charged_rewrite rfl rfl g.found rfl rfl
    · simp only [Tx.act, hcomp]
  | @allocateOlder w now _ D action r n cost _ _ _ h1 g hcost hR hg =>
    have hcomp := compensated_older (c := ⟨.cancelOrExpireNote D action r, w, now⟩) rfl g.found hg
    refine .keep ⟨rfl, rfl, rfl, rfl, rfl⟩ rfl rfl ?_ ?_
    · exact charged_rewrite rfl rfl g.found rfl rfl
    · simp only [Tx.act, hcomp]
  | redeemDraw g =>
    exact .keep ⟨rfl, rfl, rfl, rfl, rfl⟩ rfl rfl (charged_rewrite rfl rfl g.found rfl rfl) rfl
  | @expire w now _ D action r _ _ _ _ _ h0 hn =>
    have hcomp := compensated_mode (s := s) (c := ⟨.cancelOrExpireNote D action r, w, now⟩) rfl
      (by omega)
    refine .keep ⟨rfl, rfl, rfl, rfl, rfl⟩ rfl rfl (charged_rewrite rfl rfl hn rfl rfl) ?_
    simp only [Tx.act, hcomp]
  | @acknowledgeRefund w now _ D action r _ _ _ _ _ h2 g =>
    have hcomp := compensated_mode (s := s) (c := ⟨.cancelOrExpireNote D action r, w, now⟩) rfl
      (by omega)
    refine .keep ⟨rfl, rfl, rfl, rfl, rfl⟩ rfl rfl (charged_rewrite rfl rfl g.found rfl rfl) ?_
    simp only [Tx.act, hcomp]
  | setStatus g => exact .status ⟨rfl, rfl, rfl, rfl, rfl⟩ rfl g rfl rfl
  | _ => exact .keep ⟨rfl, rfl, rfl, rfl, rfl⟩ rfl rfl rfl rfl

/-! ## The commitment opens to the account's debt -/

/-- What the committed book shares with the account, whatever the callers answer. -/
structure Tracks (h : Trace B) (s : Ledger B) : Prop where
  sound : (account h).Sound
  charged : (account h).charged = charged s
  /-- A line that does not exist or is closed has no debt. -/
  settled : s.status = .NONE ∨ s.status = .CLOSED → (account h).outstanding = 0
  book : s.status ≠ .NONE → ∃ b t, lineStateCommit b t = s.lineCommit
    ∧ b.domain = s.contractDomain ∧ b.identity = s.identityCommit
    ∧ b.outstanding.val = (account h).outstanding

theorem tracks_init (d : Deployment B) : Tracks [] (constructor p d) where
  sound := Account.sound_opened 0
  charged := by simp [account, Account.opened, Line.charged, noteSum, constructor]
  settled := fun _ => rfl
  book := fun hs => absurd rfl hs

/-- No note belongs to the generation that an opening starts. -/
theorem charged_opened (r : Reaches p h s) (hl : s.lineGeneration.val < s'.lineGeneration.val)
    (hn : s'.notes = s.notes) : charged s' = 0 := by
  unfold charged noteSum
  rw [hn]
  refine MapTotal.total_eq_zero fun D n hf => if_neg fun heq => ?_
  have hle := (r.note_generation hf).2
  rw [heq] at hle
  omega

variable [LawfulCompact B]

/-- A book that passes the stale check is the account's. -/
theorem Tracks.witness {w : Witness B} {t : B} (ht : Tracks h s) (hs : s.status ≠ .NONE)
    (hst : lineStateCommit (witnessBook w s) t = s.lineCommit) :
    (w.lineOutstanding 0).val = (account h).outstanding := by
  obtain ⟨b, u, hb, -, -, hout⟩ := ht.book hs
  have heq : witnessBook w s = b := (lineStateCommit_inj (hst.trans hb.symm)).1
  rw [← hout, ← heq]
  rfl

/-- **Every step keeps the commitment on the account.** -/
theorem tracks_step (r : Reaches p h s) (ht : Tracks h s) (st : Step p c s s') :
    Tracks (⟨c, s, s'⟩ :: h) s' := by
  have hdom := st.sameInstance.contractDomain
  have hacc : account (⟨c, s, s'⟩ :: h) = Tx.act ⟨c, s, s'⟩ (account h) := rfl
  rcases st.book (account h) with ⟨hop, hopen, hcom, hn, ha⟩
    | ⟨hs, hs', hl, hst, hcom, hb, hle, he, hch, ha⟩
    | ⟨hs, hnc, hs', hl, hst, hcom, hb, he, hch, ha⟩
    | ⟨hcomp, hs', hl, hst, hcom, hb, he, hch, ha⟩ | ⟨hl, hcom, hs', hch, ha⟩
    | ⟨hl, hcom, hg, hch, ha⟩
  · -- opening: a new account, and no note of its generation
    rw [ha] at hacc
    have hgen : s.lineGeneration.val < s'.lineGeneration.val := by
      rcases st.line with ⟨g, x, f, b, ho⟩ | ⟨hno, -⟩
      · have hnext := ho.next
        simp only at hnext
        omega
      · rw [hop] at hno
        cases hno
    refine ⟨?_, ?_, ?_, ?_⟩
    · rw [hacc]
      exact Account.sound_opened _
    · rw [hacc, charged_opened r hgen hn]
      rfl
    · rw [hopen]
      rintro (h | h) <;> cases h
    · intro _
      exact ⟨_, _, hcom.symm, hdom.symm, rfl, by rw [hacc]; rfl⟩
  · -- a draw
    rw [ha] at hacc
    have hne : s.status ≠ .NONE := by simp [hs]
    have hout := ht.witness hne hst
    refine ⟨?_, ?_, ?_, ?_⟩
    · rw [hacc]
      exact ht.sound.charge
    · rw [hacc, hch, ← ht.charged]
      rfl
    · rw [hs']
      rintro (h | h) <;> cases h
    · intro _
      refine ⟨_, _, hcom.symm, hdom.symm, hl.identityCommit.symm, ?_⟩
      rw [hacc, hb, hout]
      rfl
  · -- a repayment
    rw [ha] at hacc
    have hout := ht.witness hs hst
    refine ⟨?_, ?_, ?_, ?_⟩
    · rw [hacc]
      exact ht.sound.repay (by omega)
    · rw [hacc, hch, ← ht.charged]
      rfl
    · rw [hs']
      rintro (h | h)
      · exact absurd h hs
      · exact absurd h hnc
    · intro _
      refine ⟨_, _, hcom.symm, hdom.symm, hl.identityCommit.symm, ?_⟩
      rw [hacc]
      simp only [Account.repay]
      omega
  · -- a compensation: closed lines have no debt to lose
    rw [ha] at hacc
    refine ⟨?_, ?_, ?_, ?_⟩
    · rw [hacc]
      exact ht.sound.credit
    · rw [hacc, hch, ← ht.charged]
      rfl
    · rw [hs', hacc]
      intro h
      have h0 := ht.settled h
      simp only [Account.credit]
      omega
    · rw [hs']
      intro hs
      have hout := ht.witness hs hst
      refine ⟨_, _, hcom.symm, hdom.symm, hl.identityCommit.symm, ?_⟩
      rw [hacc, hb, hout]
      rfl
  · -- the book is not touched
    rw [ha] at hacc
    refine ⟨?_, ?_, ?_, ?_⟩
    · rw [hacc]
      exact ht.sound
    · rw [hacc, hch, ht.charged]
    · rw [hs', hacc]
      exact ht.settled
    · rw [hs', hcom, hdom, hl.identityCommit, hacc]
      exact ht.book
  · -- a change of status: closing showed the current book at zero
    rw [ha] at hacc
    refine ⟨?_, ?_, ?_, ?_⟩
    · rw [hacc]
      exact ht.sound
    · rw [hacc, hch, ht.charged]
    · rw [hacc]
      rintro (h | h)
      · exact absurd h hg.notNone
      · obtain ⟨hst, h0⟩ := hg.closing h
        rw [← ht.witness hg.line hst, h0]
    · rw [hcom, hdom, hl.identityCommit, hacc]
      exact fun _ => ht.book hg.line

/-- **In every reachable ledger the commitment opens to the account's debt.** -/
theorem Reaches.tracks (r : Reaches p h s) : Tracks h s :=
  r.invariant tracks_init fun _ _ _ _ => tracks_step

/-! ## Limit and epoch -/

/-- The committed limit is the account's and covers the debt. -/
theorem Reaches.limit (r : Reaches p h s) (hsteady : ∀ e ∈ h, SteadyLimit e)
    (hs : s.status ≠ .NONE) :
    ∃ b t, lineStateCommit b t = s.lineCommit ∧ b.limit.val = (account h).limit
      ∧ b.outstanding.val ≤ b.limit.val := by
  refine r.invariant (I := fun h s => (∀ e ∈ h, SteadyLimit e) → s.status ≠ .NONE →
    ∃ b t, lineStateCommit b t = s.lineCommit ∧ b.limit.val = (account h).limit
      ∧ b.outstanding.val ≤ b.limit.val) ?_ ?_ hsteady hs
  · intro d _ hs
    exact absurd rfl hs
  · intro h s c s' r hI st hsteady hs
    have hacc : account (⟨c, s, s'⟩ :: h) = Tx.act ⟨c, s, s'⟩ (account h) := rfl
    have hsteady' : ∀ e ∈ h, SteadyLimit e := fun e he => hsteady e (List.mem_cons_of_mem _ he)
    -- the witnesses that open the old book answer its limit and its debt
    have shown : ∀ t, lineStateCommit (witnessBook c.witness s) t = s.lineCommit →
        s.status ≠ .NONE → (c.witness.lineLimit 0).val = (account h).limit
          ∧ (c.witness.lineOutstanding 0).val ≤ (c.witness.lineLimit 0).val := by
      intro t hst hs
      obtain ⟨b, u, hb, hlim, hle⟩ := hI hsteady' hs
      have heq : witnessBook c.witness s = b := (lineStateCommit_inj (hst.trans hb.symm)).1
      rw [← heq] at hlim hle
      exact ⟨hlim, hle⟩
    rcases st.book (account h) with ⟨hop, hopen, hcom, hn, ha⟩
      | ⟨hs₀, hs', hl, hst, hcom, hb, hle, he, hch, ha⟩
      | ⟨hs₀, hnc, hs', hl, hst, hcom, hb, he, hch, ha⟩
      | ⟨hcomp, hs', hl, hst, hcom, hb, he, hch, ha⟩ | ⟨hl, hcom, hs', hch, ha⟩
      | ⟨hl, hcom, hg, hch, ha⟩
    · exact ⟨_, _, hcom.symm, by rw [hacc, ha]; rfl, Nat.zero_le _⟩
    · obtain ⟨hlim, -⟩ := shown _ hst (by simp [hs₀])
      exact ⟨_, _, hcom.symm, by rw [hacc, ha]; exact hlim, hle⟩
    · obtain ⟨hlim, hcov⟩ := shown _ hst hs₀
      refine ⟨_, _, hcom.symm, by rw [hacc, ha]; exact hlim, ?_⟩
      simp only
      omega
    · -- the second answer is the first
      rw [hs'] at hs
      obtain ⟨hlim, hcov⟩ := shown _ hst hs
      have hsame := hsteady _ List.mem_cons_self hcomp
      simp only at hsame
      refine ⟨_, _, hcom.symm, by rw [hacc, ha, hsame]; exact hlim, ?_⟩
      rw [hsame]
      simp only
      omega
    · rw [hs'] at hs
      rw [hcom, hacc, ha]
      exact hI hsteady' hs
    · rw [hcom, hacc, ha]
      exact hI hsteady' hg.line

/-- The committed epoch is the account's. -/
theorem Reaches.epoch (r : Reaches p h s) (hsteady : ∀ e ∈ h, SteadyEpoch e)
    (hs : s.status ≠ .NONE) :
    ∃ b t, lineStateCommit b t = s.lineCommit ∧ b.epoch.val = (account h).epoch := by
  refine r.invariant (I := fun h s => (∀ e ∈ h, SteadyEpoch e) → s.status ≠ .NONE →
    ∃ b t, lineStateCommit b t = s.lineCommit ∧ b.epoch.val = (account h).epoch) ?_ ?_ hsteady hs
  · intro d _ hs
    exact absurd rfl hs
  · intro h s c s' r hI st hsteady hs
    have hacc : account (⟨c, s, s'⟩ :: h) = Tx.act ⟨c, s, s'⟩ (account h) := rfl
    have hsteady' : ∀ e ∈ h, SteadyEpoch e := fun e he => hsteady e (List.mem_cons_of_mem _ he)
    -- a book that is shown is the committed one
    have shown : ∀ t, lineStateCommit (witnessBook c.witness s) t = s.lineCommit →
        s.status ≠ .NONE → (c.witness.lineEpoch 0).val = (account h).epoch := by
      intro t hst hs
      obtain ⟨b, u, hb, hep⟩ := hI hsteady' hs
      have heq : witnessBook c.witness s = b := (lineStateCommit_inj (hst.trans hb.symm)).1
      rw [← heq] at hep
      exact hep
    -- the kinds of steps: an opening, a draw, a repayment, a compensation, and the two that keep
    -- the book
    rcases st.book (account h) with ⟨hop, hopen, hcom, hn, ha⟩
      | ⟨hs₀, hs', hl, hst, hcom, hb, hle, he, hch, ha⟩
      | ⟨hs₀, hnc, hs', hl, hst, hcom, hb, he, hch, ha⟩
      | ⟨hcomp, hs', hl, hst, hcom, hb, he, hch, ha⟩ | ⟨hl, hcom, hs', hch, ha⟩
      | ⟨hl, hcom, hg, hch, ha⟩
    · exact ⟨_, _, hcom.symm, by rw [hacc, ha]; rfl⟩
    · refine ⟨_, _, hcom.symm, ?_⟩
      rw [hacc, ha, he, shown _ hst (by simp [hs₀])]
      rfl
    · refine ⟨_, _, hcom.symm, ?_⟩
      rw [hacc, ha, he, shown _ hst hs₀]
      rfl
    · rw [hs'] at hs
      -- a compensation rotates with its second answer, which is the first here
      have hsame := hsteady _ List.mem_cons_self hcomp
      simp only at hsame
      refine ⟨_, _, hcom.symm, ?_⟩
      rw [hacc, ha, he, hsame, shown _ hst hs]
      rfl
    · rw [hs'] at hs
      rw [hcom, hacc, ha]
      exact hI hsteady' hs
    · rw [hcom, hacc, ha]
      exact hI hsteady' hg.line

/-! ## Integrity of the book -/

/--
The book of a ledger reached by `h`: the commitment has one opening, and it is the
account that the calls since the opening describe. The debt is what the notes of the
generation cost, less repayments and credits.
-/
def BookIntegrity (h : Trace B) (s : Ledger B) : Prop :=
  ∃ b t, lineStateCommit b t = s.lineCommit
    ∧ (∀ b' t', lineStateCommit b' t' = s.lineCommit → b' = b ∧ t' = t)
    ∧ b.domain = s.contractDomain ∧ b.identity = s.identityCommit
    ∧ b.limit.val = (account h).limit
    ∧ b.outstanding.val ≤ b.limit.val
    ∧ (b.outstanding.val : ℤ) = charged s - (account h).repaid - (account h).credited
    ∧ b.outstanding.val = (account h).outstanding
    ∧ b.epoch.val = (account h).epoch

omit [LawfulCompact B] in
/-- The account's limit is the one the issuer witnessed when the generation was opened. -/
theorem Reaches.account_limit {e : Tx B} {x f b : U64} (r : Reaches p h s) (he : e ∈ h)
    (ho : Opening e s.lineGeneration x f b) :
    (account h).limit = (e.label.witness.lineLimit 0).val := by
  refine r.invariant (I := fun h s => ∀ e ∈ h, ∀ x f b, Opening e s.lineGeneration x f b →
    (account h).limit = (e.label.witness.lineLimit 0).val) ?_ ?_ e he x f b ho
  · intro d e he
    cases he
  · intro h s c s' r hI st e he x f b ho
    have hacc : account (⟨c, s, s'⟩ :: h) = Tx.act ⟨c, s, s'⟩ (account h) := rfl
    have r' : Reaches p (⟨c, s, s'⟩ :: h) s' := .next r (calls_iff.mpr st)
    rcases st.line with ⟨g, x', f', b', ho'⟩ | ⟨hop, hl⟩
    · -- the step is the opening, and there is no other
      obtain rfl := ho'.generation
      obtain rfl := r'.opening_unique he List.mem_cons_self ho ho'
      have hop : c.op = .openLine x' f' b' := ho'.op
      rw [hacc]
      simp only [Tx.act, hop]
      rfl
    -- any other step is no opening, and the account keeps its limit
    · have hne : e ≠ ⟨c, s, s'⟩ := by
        rintro rfl
        have hopens := ho.opens
        simp only at hopens
        rw [hop] at hopens
        cases hopens
      rw [hl.lineGeneration] at ho
      have hold := hI e ((List.mem_cons.mp he).resolve_left hne) x f b ho
      rw [hacc, ← hold]
      rcases st.book (account h) with ⟨hop', -⟩ | ⟨_, _, _, _, _, _, _, _, _, ha⟩
        | ⟨_, _, _, _, _, _, _, _, _, ha⟩ | ⟨_, _, _, _, _, _, _, _, ha⟩ | ⟨_, _, _, _, ha⟩
        | ⟨_, _, _, _, ha⟩
      · rw [hop] at hop'
        cases hop'
      · rw [ha]; rfl
      · rw [ha]; rfl
      · rw [ha]; rfl
      · rw [ha]
      · rw [ha]

/--
**Integrity of the private book**, in every run in which a compensation gets one
answer for the limit and one for the epoch. With the second part, no commitment of
an earlier epoch of the generation is current again.
-/
theorem book_integrity (r : Reaches p h s) (hsteady : ∀ e ∈ h, Steady e)
    (hg : 0 < s.lineGeneration.val) :
    BookIntegrity h s
    ∧ (∃ e ∈ h, ∃ x f b, Opening e s.lineGeneration x f b
        ∧ (account h).limit = (e.label.witness.lineLimit 0).val
        ∧ s.identityCommit = agentId (e.label.witness.agentSecret 0))
    ∧ ∀ h₂ h₁ s₁, h = h₂ ++ h₁ → Reaches p h₁ s₁ → s₁.lineGeneration = s.lineGeneration →
        (account h₁).epoch ≠ (account h).epoch → s₁.lineCommit ≠ s.lineCommit := by
  -- limit and epoch are followed separately, and both are of the committed book
  have exists_book : ∀ {h : Trace B} {s : Ledger B}, Reaches p h s → (∀ e ∈ h, Steady e) →
      0 < s.lineGeneration.val → BookIntegrity h s := by
    intro h s r hsteady hg
    have hs : s.status ≠ .NONE := fun hn => by
      have h0 := r.status_none_iff.mp hn
      omega
    have ht := r.tracks
    obtain ⟨b, t, hb, hdom, hid, hout⟩ := ht.book hs
    obtain ⟨b₁, t₁, hb₁, hlim, hle⟩ := r.limit (fun e he => (hsteady e he).1) hs
    obtain ⟨b₂, t₂, hb₂, hep⟩ := r.epoch (fun e he => (hsteady e he).2) hs
    obtain ⟨rfl, -⟩ := lineStateCommit_inj (hb₁.trans hb.symm)
    obtain ⟨rfl, -⟩ := lineStateCommit_inj (hb₂.trans hb.symm)
    have hsound := ht.sound
    have hch := ht.charged
    unfold Account.Sound at hsound
    refine ⟨b₂, t, hb, fun b' t' hb' => lineStateCommit_inj (hb'.trans hb.symm), hdom, hid, hlim,
      hle, by omega, hout, hep⟩
  refine ⟨exists_book r hsteady hg, ?_, ?_⟩
  · obtain ⟨e, he, x, f, b, ho, hsame⟩ := r.opened hg
    exact ⟨e, he, x, f, b, ho, r.account_limit he ho, hsame.identityCommit.trans ho.identity⟩
  -- two books of one commitment are one, so an epoch has its own
  · intro h₂ h₁ s₁ hh r₁ hgen hne heq
    have hsteady₁ : ∀ e ∈ h₁, Steady e := fun e he =>
      hsteady e (by rw [hh]; exact List.mem_append_right _ he)
    obtain ⟨b₁, t₁, hb₁, -, -, -, -, -, -, -, hep₁⟩ := exists_book r₁ hsteady₁
      (by rw [hgen]; exact hg)
    obtain ⟨b, t, hb, -, -, -, -, -, -, -, hep⟩ := exists_book r hsteady hg
    obtain ⟨rfl, -⟩ := lineStateCommit_inj ((hb₁.trans heq).trans hb.symm)
    exact hne (hep₁.symm.trans hep)

/-- Draws, a repayment and a compensation, with one answer each. -/
theorem book_integrity_run : ∃ (h : Trace Term) (s : Ledger Term),
    Reaches .canonical h s ∧ BookIntegrity h s ∧ (account h) = ⟨500, 54, 4, 204, 48, 102⟩ := by
  obtain ⟨h, s, r, ht⟩ := Demo.reaches_of_check .canonical
    [Demo.fund 1000, Demo.openLine, Demo.post 1 1, Demo.draw 1 1 0 0, Demo.post 2 1,
      Demo.draw 2 1 102 1, Demo.repay 7 204 2 48, Demo.allocate 2 1 156 3]
    (fun h s => decide (account h = ⟨500, 54, 4, 204, 48, 102⟩)
      && decide (0 < s.lineGeneration.val)
      && h.all fun e => decide (e.label.witness.lineLimit 1 = e.label.witness.lineLimit 0
        ∧ e.label.witness.lineEpoch 1 = e.label.witness.lineEpoch 0)) (by decide +kernel)
  simp only [Bool.and_eq_true, decide_eq_true_eq, List.all_eq_true] at ht
  obtain ⟨⟨hacc, hg⟩, hall⟩ := ht
  have hsteady : ∀ e ∈ h, Steady e := fun e he => ⟨fun _ => (hall e he).1, fun _ => (hall e he).2⟩
  exact ⟨h, s, r, (book_integrity r hsteady hg).1, hacc⟩

/-- A compensation by the borrower that answers 500 for the limit and then 9999. -/
def Demo.raiseLimit : Call Term :=
  ⟨.cancelOrExpireNote (Demo.note 1 1) ⟨1, one_lt_u8⟩ (Demo.u64 0),
    { Demo.caller Demo.borrower 1 1 102 1 0 with
      lineLimit := fun k => if k = 0 then Demo.u64 500 else Demo.u64 9999 }, 60⟩

/-- **The borrower raises the limit**: the line was opened with 500, and the book says 9999. -/
theorem book_integrity_fails : ∃ (h : Trace Term) (s : Ledger Term),
    Reaches .canonical h s ∧ 0 < s.lineGeneration.val ∧ ¬ BookIntegrity h s := by
  obtain ⟨h, s, r, ht⟩ := Demo.reaches_of_check .canonical
    [Demo.fund 1000, Demo.openLine, Demo.post 1 1, Demo.draw 1 1 0 0, Demo.raiseLimit]
    (fun h s => decide ((account h).limit = 500) && decide (0 < s.lineGeneration.val)
      && decide (s.lineCommit = lineStateCommit ⟨Demo.domain, agentId Demo.borrower,
        Demo.u64 9999, Demo.u64 0, Demo.u64 2⟩ (.atom 0))) (by decide +kernel)
  simp only [Bool.and_eq_true, decide_eq_true_eq] at ht
  obtain ⟨⟨hlim, hg⟩, hcom⟩ := ht
  refine ⟨h, s, r, hg, ?_⟩
  rintro ⟨b, t, hb, -, -, -, hb', -⟩
  obtain ⟨rfl, -⟩ := lineStateCommit_inj (hb.trans hcom)
  rw [hlim] at hb'
  revert hb'
  decide

end Line
