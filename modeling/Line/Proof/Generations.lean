import Line.Proof.NoteCycle

/-!
# Generations of the line

Only `openLine` starts a generation, and everything about a generation except its
book and its status is fixed there: the borrower, the deadline and the fee policy.
So the terms a later step reads are those of one recorded call, the opening of the
current generation (`Reaches.opened`), and that call is unique
(`Reaches.opening_unique`).

`Step.line` says this of one step: it is an opening, with a new generation and new terms,
or it leaves all of them alone. Generations are numbered without gaps, so a note or a quote
of generation `g` belongs to the one opening with that number, and whoever wants to know
under which terms it was made finds them there.
-/

namespace Line

open Checked

variable {B : Type}

/-- The call opens the line. -/
def Op.opens : Op B → Bool
  | .openLine _ _ _ => true
  | _ => false

/-- The line's terms, which a generation keeps. -/
structure SameLine (s s' : Ledger B) : Prop where
  lineGeneration : s'.lineGeneration = s.lineGeneration
  identityCommit : s'.identityCommit = s.identityCommit
  lineExpiry : s'.lineExpiry = s.lineExpiry
  feeFlat : s'.feeFlat = s.feeFlat
  feeBps : s'.feeBps = s.feeBps

theorem SameLine.refl (s : Ledger B) : SameLine s s := ⟨rfl, rfl, rfl, rfl, rfl⟩

theorem SameLine.trans {s t u : Ledger B} (h₁ : SameLine s t) (h₂ : SameLine t u) :
    SameLine s u where
  lineGeneration := h₂.lineGeneration.trans h₁.lineGeneration
  identityCommit := h₂.identityCommit.trans h₁.identityCommit
  lineExpiry := h₂.lineExpiry.trans h₁.lineExpiry
  feeFlat := h₂.feeFlat.trans h₁.feeFlat
  feeBps := h₂.feeBps.trans h₁.feeBps

variable [Compact B] {e e' : Tx B}

/-- The call `e` opened generation `g`, with these terms. -/
structure Opening (e : Tx B) (g : U64) (lineExpiry feeFlat feeBps : U64) : Prop where
  op : e.label.op = .openLine lineExpiry feeFlat feeBps
  issuer : IsIssuer e.label.witness e.pre
  status : e.pre.status = .NONE ∨ e.pre.status = .CLOSED
  next : e.post.lineGeneration.val = e.pre.lineGeneration.val + 1
  generation : e.post.lineGeneration = g
  opened : e.post.status = .OPEN
  identity : e.post.identityCommit = agentId (e.label.witness.agentSecret 0)
  expiry : e.post.lineExpiry = lineExpiry
  flat : e.post.feeFlat = feeFlat
  bps : e.post.feeBps = feeBps

theorem Opening.opens {g x f b : U64} (ho : Opening e g x f b) : e.label.op.opens = true := by
  rw [ho.op]
  rfl

variable [DecidableEq B] {p : Profile} {c : Call B} {s s' : Ledger B} {h h' : Trace B} {D : B}
  {n : NoteMeta B}

/-! ## One step -/

/-- **A step opens a generation, or keeps the line's terms.** -/
theorem Step.line (st : Step p c s s') :
    (∃ g x f b, Opening ⟨c, s, s'⟩ g x f b) ∨ (c.op.opens = false ∧ SameLine s s') := by
  cases st with
  | openLine g hg =>
    exact .inl ⟨_, _, _, _, rfl, g.issuer, g.status, hg, rfl, rfl, rfl, rfl, rfl, rfl⟩
  | _ => exact .inr ⟨rfl, rfl, rfl, rfl, rfl, rfl⟩

theorem Step.lineGeneration_le (st : Step p c s s') :
    s.lineGeneration.val ≤ s'.lineGeneration.val := by
  rcases st.line with ⟨g, x, f, b, ho⟩ | ⟨-, hl⟩
  · have hnext := ho.next
    simp only at hnext
    omega
  · rw [hl.lineGeneration]

/-- A line that exists never ceases to. -/
theorem Step.status_ne_none (st : Step p c s s') (hs : s.status ≠ .NONE) : s'.status ≠ .NONE := by
  cases st with
  | openLine => simp
  | setStatus g => exact g.notNone
  | _ => exact hs

/-- The status changes in `openLine` and in `setStatus` only. -/
theorem Step.status (st : Step p c s s') :
    s'.status = s.status ∨ (c.op.opens = true ∧ s'.status = .OPEN)
      ∨ StatusGuard c.witness s'.status s := by
  cases st with
  | openLine => exact .inr (.inl ⟨rfl, rfl⟩)
  | setStatus g => exact .inr (.inr g)
  | _ => exact .inl rfl

/-! ## A whole run -/

/-- The rate was checked when the line was opened. -/
theorem Reaches.feeBps_le (r : Reaches p h s) : s.feeBps.val ≤ 10000 := by
  refine r.stateInvariant (I := fun s => s.feeBps.val ≤ 10000) (fun _ => Nat.zero_le _) ?_
  intro s c s' hI st
  cases st with
  | openLine g => exact g.rate
  | _ => exact hI

theorem Reaches.status_none_iff (r : Reaches p h s) :
    s.status = .NONE ↔ s.lineGeneration.val = 0 := by
  refine r.stateInvariant (I := fun s => s.status = .NONE ↔ s.lineGeneration.val = 0) ?_ ?_
  · intro d
    simp [constructor]
  · intro s c s' hI st
    rcases st.line with ⟨g, x, f, b, ho⟩ | ⟨hop, hl⟩
    -- an opening leaves a line, and a generation above zero
    · have hnext := ho.next
      have hopen := ho.opened
      simp only at hnext hopen
      constructor
      · intro hn
        rw [hopen] at hn
        cases hn
      · omega
    · rw [hl.lineGeneration, ← hI]
      constructor
      · intro hn
        by_contra hs
        exact st.status_ne_none hs hn
      · intro hn
        -- no other step takes the line away
        rcases st.status with hst | ⟨hop', -⟩ | hg
        · rw [hst, hn]
        · rw [hop] at hop'
          cases hop'
        · exact absurd hn hg.line

/-- **Generations only go up, and one generation has one set of terms.** -/
theorem Continues.line (r : Continues p s h s') :
    s.lineGeneration.val ≤ s'.lineGeneration.val
      ∧ (s'.lineGeneration = s.lineGeneration → SameLine s s') := by
  refine r.preserves (I := fun t => s.lineGeneration.val ≤ t.lineGeneration.val
    ∧ (t.lineGeneration = s.lineGeneration → SameLine s t)) ?_ ⟨Nat.le_refl _, fun _ => .refl s⟩
  rintro t c t' ⟨hle, hsame⟩ st
  rcases st.line with ⟨g, x, f, b, ho⟩ | ⟨-, hl⟩
  · have hnext := ho.next
    simp only at hnext
    refine ⟨by omega, fun heq => ?_⟩
    rw [heq] at hnext
    omega
  · rw [hl.lineGeneration]
    exact ⟨hle, fun heq => (hsame heq).trans hl⟩

/-- **The current generation was opened by a recorded call**, and its terms still stand. -/
theorem Reaches.opened (r : Reaches p h s) (hg : 0 < s.lineGeneration.val) :
    ∃ e ∈ h, ∃ x f b, Opening e s.lineGeneration x f b ∧ SameLine e.post s := by
  refine r.invariant (I := fun h s => 0 < s.lineGeneration.val →
    ∃ e ∈ h, ∃ x f b, Opening e s.lineGeneration x f b ∧ SameLine e.post s) ?_ ?_ hg
  · intro d hd
    simp [constructor] at hd
  · intro h s c s' r hI st hpos
    rcases st.line with ⟨g, x, f, b, ho⟩ | ⟨-, hl⟩
    · obtain rfl := ho.generation
      exact ⟨_, List.mem_cons_self, x, f, b, ho, .refl _⟩
    · rw [hl.lineGeneration] at hpos ⊢
      obtain ⟨e, he, x, f, b, ho, hsame⟩ := hI hpos
      exact ⟨e, List.mem_cons_of_mem _ he, x, f, b, ho, hsame.trans hl⟩

/-- The calls that open generation `g`. -/
def Tx.opensAs (g : U64) (e : Tx B) : Bool :=
  e.label.op.opens && decide (e.post.lineGeneration = g)

/-- **A generation is opened once.** -/
theorem Reaches.opening_unique {g x f b x' f' b' : U64} (r : Reaches p h s) (he : e ∈ h)
    (he' : e' ∈ h) (ho : Opening e g x f b) (ho' : Opening e' g x' f' b') : e = e' := by
  have honce : h.countP (Tx.opensAs g) ≤ 1 := by
    refine r.countP_le_one (fun s => g.val ≤ s.lineGeneration.val) ?_ ?_
    · intro h s c s' _ st hle
      exact hle.trans st.lineGeneration_le
    · intro h s c s' _ st hk
      obtain ⟨hop, hgen⟩ := Bool.and_eq_true_iff.mp hk
      obtain rfl : s'.lineGeneration = g := of_decide_eq_true hgen
      rcases st.line with ⟨g', y, k, l, ho⟩ | ⟨hno, -⟩
      · have hnext := ho.next
        simp only at hnext
        exact ⟨by omega, Nat.le_refl _⟩
      · simp only at hop
        rw [hno] at hop
        cases hop
  refine History.eq_of_countP_le_one honce he he' ?_ ?_
  · simp [Tx.opensAs, ho.opens, ho.generation]
  · simp [Tx.opensAs, ho'.opens, ho'.generation]

/-- No note belongs to a generation that is still to come, or to none. -/
theorem Reaches.note_generation (r : Reaches p h s) (hn : s.notes.lookup D = some n) :
    0 < n.lineGeneration.val ∧ n.lineGeneration.val ≤ s.lineGeneration.val := by
  refine r.invariant (I := fun _ s => ∀ D n, s.notes.lookup D = some n →
    0 < n.lineGeneration.val ∧ n.lineGeneration.val ≤ s.lineGeneration.val) ?_ ?_ D n hn
  · intro d D n hn
    simp [constructor] at hn
  · intro h s c s' r hI st D n hn
    have hmono := st.lineGeneration_le
    rcases st.notes.lookup_back hn with hu | ⟨_, hnew⟩ | ⟨u, hu, hm⟩
    · exact ⟨(hI D n hu).1, (hI D n hu).2.trans hmono⟩
    · -- a draw finds the line open, so its generation is not zero
      cases hnew with
      | draw _ g =>
        refine ⟨?_, hmono⟩
        by_contra h0
        have hnone := r.status_none_iff.mpr (by simpa [NoteMeta.drawn] using h0)
        rw [g.status] at hnone
        cases hnone
    · have hgen : n.lineGeneration = u.lineGeneration := by
        cases hm <;> rfl
      rw [hgen]
      exact ⟨(hI D u hu).1, (hI D u hu).2.trans hmono⟩

end Line
