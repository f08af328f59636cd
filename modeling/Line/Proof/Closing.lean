import Line.Proof.Book

/-!
# No debt is deleted

A generation can be replaced, and with it the borrower's book. What keeps that from
deleting debt is the closing: it shows the current book at zero, nothing that is
still possible afterwards raises it again, and only a closed line can be opened
anew. So at every opening the account of the generation before is settled.

The account is kept beside the run, from what the calls carry, and it agrees with the
committed book (`Tracks`); that is what turns "the book is at zero" into "all that was
charged was repaid or credited". What is said of the generation, the statuses and the debt
needs no assumption about the witnesses. The committed limit does: a compensation asks for
it twice, and commits to the second answer.
-/

namespace Line

open Checked Credit

variable {B : Type} [DecidableEq B] [Compact B]

/-- What the history of a line looks like in any run `h` that reached `s`. -/
structure Accounted (p : Profile) (h : Trace B) (s : Ledger B) : Prop where
  /-- The generation stays, or an opening of an absent or closed line adds one. -/
  generation : ∀ e ∈ h, e.post.lineGeneration = e.pre.lineGeneration
    ∨ (e.label.op.opens = true ∧ (e.pre.status = .NONE ∨ e.pre.status = .CLOSED)
      ∧ e.post.lineGeneration.val = e.pre.lineGeneration.val + 1)
  /-- Closing is done on a book with no debt. -/
  closing : ∀ e ∈ h, e.pre.status ≠ .CLOSED → e.post.status = .CLOSED →
    ∃ b t, lineStateCommit b t = e.pre.lineCommit ∧ b.outstanding.val = 0
  /-- While a line is closed every opening of its book has no debt. -/
  closed : s.status = .CLOSED →
    (∃ b t, lineStateCommit b t = s.lineCommit)
      ∧ ∀ b t, lineStateCommit b t = s.lineCommit → b.outstanding.val = 0
  /-- Two ledgers of one generation have the same borrower, deadline and fee policy. -/
  terms : ∀ h₂ h₁ s₁, h = h₂ ++ h₁ → Reaches p h₁ s₁ → Continues p s₁ h₂ s →
    s.lineGeneration = s₁.lineGeneration → SameLine s₁ s
  /-- A line that exists is never absent again. -/
  persists : ∀ e ∈ h, e.pre.status ≠ .NONE → e.post.status ≠ .NONE
  /-- A defaulted line is reopened, left defaulted or closed. -/
  defaulted : ∀ e ∈ h, e.pre.status = .DEFAULTED →
    e.post.status = .OPEN ∨ e.post.status = .DEFAULTED ∨ e.post.status = .CLOSED
  /-- At an opening, everything the generation before drew has been repaid or credited. -/
  settled : ∀ h₂ e h₁, h = h₂ ++ e :: h₁ → e.label.op.opens = true →
    charged e.pre = (account h₁).repaid + (account h₁).credited
  /-- Only a quote of the current generation can be drawn. -/
  drawn : ∀ c s', exec p c s = .ok s' → ∀ Q x f, c.op = .draw Q x f →
    ∀ q, s.quotes.lookup Q = some q → q.lineGeneration = s.lineGeneration

/-- And what it should look like, the committed limit included. -/
structure NoDebtDeletion (p : Profile) (h : Trace B) (s : Ledger B) : Prop extends
    Accounted p h s where
  /-- Two ledgers of one generation are committed to the same limit. -/
  limit : ∀ h₂ h₁ s₁, h = h₂ ++ h₁ → Reaches p h₁ s₁ → Continues p s₁ h₂ s →
    s.lineGeneration = s₁.lineGeneration → 0 < s.lineGeneration.val →
    ∀ b t b₁ t₁, lineStateCommit b t = s.lineCommit → lineStateCommit b₁ t₁ = s₁.lineCommit →
      b.limit = b₁.limit

variable {p : Profile} {c : Call B} {s s' : Ledger B} {h h' : Trace B}

/-- A quote of another generation is refused. -/
theorem Step.draw_generation {Q : B} {x f : U64} {q : QuoteMeta} (st : Step p c s s')
    (hop : c.op = .draw Q x f) (hq : s.quotes.lookup Q = some q) :
    q.lineGeneration = s.lineGeneration := by
  cases st with
  | draw g =>
    obtain ⟨rfl, rfl, rfl⟩ : _ ∧ _ ∧ _ := by simpa using hop
    obtain rfl := Option.some.inj (g.found.symm.trans hq)
    exact g.generation
  | _ => cases hop

variable [LawfulCompact B]

/-- Every generation of a line is accounted for before the next one, in any run. -/
theorem Reaches.accounted (r : Reaches p h s) : Accounted p h s where
  generation := by
    intro e he
    obtain ⟨_, _, -, _, st, _⟩ := r.of_mem he
    rcases st.line with ⟨g, x, f, b, ho⟩ | ⟨-, hl⟩
    · exact .inr ⟨ho.opens, ho.status, ho.next⟩
    · exact .inl hl.lineGeneration
  -- a closing shows the current book at zero
  closing := by
    intro e he hne hcl
    obtain ⟨_, _, -, r₁, st, _⟩ := r.of_mem he
    rcases st.status with hs | ⟨-, hs⟩ | hg
    · exact absurd (hs.symm.trans hcl) hne
    · rw [hcl] at hs
      cases hs
    · obtain ⟨hst, h0⟩ := hg.closing hcl
      exact ⟨_, _, hst, h0⟩
  -- afterwards the account has no debt, hence no book of the commitment has
  closed := by
    intro hcl
    have ht := r.tracks
    obtain ⟨b, t, hb, -, -, hout⟩ := ht.book (by simp [hcl])
    refine ⟨⟨b, t, hb⟩, fun b' t' hb' => ?_⟩
    obtain ⟨rfl, -⟩ := lineStateCommit_inj (hb'.trans hb.symm)
    rw [hout, ht.settled (.inr hcl)]
  terms := fun h₂ h₁ s₁ _ _ r₂ heq => r₂.line.2 heq
  persists := by
    intro e he hs
    obtain ⟨_, _, -, _, st, _⟩ := r.of_mem he
    exact st.status_ne_none hs
  defaulted := by
    intro e he hs
    obtain ⟨_, _, -, _, st, _⟩ := r.of_mem he
    have hne := st.status_ne_none (by simp [hs])
    cases hp : e.post.status with
    | NONE => exact absurd hp hne
    | OPEN => exact .inl rfl
    | DEFAULTED => exact .inr (.inl rfl)
    | CLOSED => exact .inr (.inr rfl)
  -- only a line that was closed, or never opened, is opened
  settled := by
    rintro h₂ e h₁ rfl hop
    obtain ⟨r₁, st, _⟩ := History.Run.split r
    have r₁ : Reaches p h₁ e.pre := r₁
    have ht := r₁.tracks
    rcases (calls_iff.mp st).line with ⟨g, x, f, b, ho⟩ | ⟨hno, -⟩
    · rw [← ht.charged, ht.sound.settled (ht.settled ho.status)]
    · rw [hop] at hno
      cases hno
  drawn := fun c s' hc Q x f hop q hq => (exec_ok_iff.mp hc).draw_generation hop hq

/-- The committed limit is constant within a generation, if the compensations get one answer. -/
theorem Reaches.limit_constant {h₁ h₂ : Trace B} {s₁ : Ledger B} (r : Reaches p h s)
    (hsteady : ∀ e ∈ h, SteadyLimit e) (hh : h = h₂ ++ h₁) (r₁ : Reaches p h₁ s₁)
    (heq : s.lineGeneration = s₁.lineGeneration) (hpos : 0 < s.lineGeneration.val)
    {b b₁ : LinePreimage B} {t t₁ : B} (hb : lineStateCommit b t = s.lineCommit)
    (hb₁ : lineStateCommit b₁ t₁ = s₁.lineCommit) : b.limit = b₁.limit := by
  have hne : ∀ {h : Trace B} {s : Ledger B}, Reaches p h s → 0 < s.lineGeneration.val →
      s.status ≠ .NONE := fun r hpos hn => by
    have h0 := r.status_none_iff.mp hn
    omega
  have hpos₁ : 0 < s₁.lineGeneration.val := by rw [← heq]; exact hpos
  have hsteady₁ : ∀ e ∈ h₁, SteadyLimit e := fun e he =>
    hsteady e (by rw [hh]; exact List.mem_append_right _ he)
  obtain ⟨c, u, hc, hlim, -⟩ := r.limit hsteady (hne r hpos)
  obtain ⟨c₁, u₁, hc₁, hlim₁, -⟩ := r₁.limit hsteady₁ (hne r₁ hpos₁)
  obtain ⟨rfl, -⟩ := lineStateCommit_inj (hb.trans hc.symm)
  obtain ⟨rfl, -⟩ := lineStateCommit_inj (hb₁.trans hc₁.symm)
  -- both limits are the one answered at the opening of the generation
  obtain ⟨e, he, x, f, k, ho, -⟩ := r₁.opened hpos₁
  have hacc₁ := r₁.account_limit he ho
  rw [← heq] at ho
  have hacc := r.account_limit (by rw [hh]; exact List.mem_append_right _ he) ho
  exact Uint.val_inj.mp (by rw [hlim, hlim₁, hacc, hacc₁])

/-- **No debt is deleted**, in every run in which a compensation gets one answer for the limit;
all but the constancy of the limit holds in every run. -/
theorem no_debt_deletion (r : Reaches p h s) :
    Accounted p h s ∧ ((∀ e ∈ h, SteadyLimit e) → NoDebtDeletion p h s) :=
  ⟨r.accounted, fun hsteady => ⟨r.accounted, fun _ _ _ hh r₁ _ heq hpos _ _ _ _ hb hb₁ =>
    r.limit_constant hsteady hh r₁ heq hpos hb hb₁⟩⟩

/-- A line that is drawn on, repaid, closed and opened again. -/
theorem no_debt_deletion_run : ∃ (h : Trace Term) (s : Ledger Term),
    Reaches .organization h s ∧ NoDebtDeletion .organization h s ∧ s.lineGeneration.val = 2 := by
  obtain ⟨h, s, r, ht⟩ := Demo.reaches_of_check .organization
    [Demo.fund 1000, Demo.openLine, Demo.post 1 1, Demo.draw 1 1 0 0, Demo.post 2 1,
      Demo.draw 2 1 102 1, Demo.repay 7 204 2 150, Demo.allocate 2 1 54 3,
      Demo.setStatus .DEFAULTED 0 0, Demo.setStatus .CLOSED 0 4, Demo.openLine]
    (fun h s => decide (s.lineGeneration.val = 2)
      && h.all fun e => decide (e.label.witness.lineLimit 1 = e.label.witness.lineLimit 0))
    (by decide +kernel)
  simp only [Bool.and_eq_true, decide_eq_true_eq, List.all_eq_true] at ht
  obtain ⟨-, hlimit⟩ := no_debt_deletion r
  exact ⟨h, s, r, hlimit fun e he _ => ht.2 e he, ht.1⟩

/-- **The committed limit changes within a generation**: the borrower's compensation raises it
from 500 to 9999. -/
theorem no_debt_deletion_fails : ∃ (h : Trace Term) (s : Ledger Term),
    Reaches .canonical h s ∧ ¬ NoDebtDeletion .canonical h s := by
  obtain ⟨h₁, s₁, r₁, ht₁⟩ := Demo.reaches_of_check .canonical
    [Demo.fund 1000, Demo.openLine, Demo.post 1 1, Demo.draw 1 1 0 0]
    (fun _ s => decide (s.lineGeneration.val = 1)
      && decide (s.lineCommit = lineStateCommit ⟨Demo.domain, agentId Demo.borrower,
        Demo.u64 500, Demo.u64 102, Demo.u64 1⟩ (.atom 0))
      && match exec .canonical Demo.raiseLimit s with
        | .ok s' => decide (s'.lineCommit = lineStateCommit ⟨Demo.domain, agentId Demo.borrower,
            Demo.u64 9999, Demo.u64 0, Demo.u64 2⟩ (.atom 0))
        | .error _ => false) (by decide +kernel)
  -- the two commitments of the run, before and after the compensation
  simp only [Bool.and_eq_true, decide_eq_true_eq] at ht₁
  obtain ⟨⟨hg, hcom₁⟩, hraise⟩ := ht₁
  split at hraise
  · rename_i s hs
    have hcom := of_decide_eq_true hraise
    have step : Calls .canonical Demo.raiseLimit s₁ s := hs
    refine ⟨_, s, .next r₁ step, fun hno => ?_⟩
    have hl : s.lineGeneration = s₁.lineGeneration := by
      rcases (calls_iff.mp step).line with ⟨_, _, _, _, ho⟩ | ⟨-, hl⟩
      · cases ho.op
      · exact hl.lineGeneration
    -- with one limit in the generation the two would be equal
    have hlim := hno.limit [⟨Demo.raiseLimit, s₁, s⟩] h₁ s₁ rfl r₁ (.next (.start rfl) step) hl
      (by rw [hl]; omega) _ _ _ _ hcom.symm hcom₁.symm
    revert hlim
    decide
  · cases hraise

end Line
