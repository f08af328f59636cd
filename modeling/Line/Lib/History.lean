import Line.Lib.Checked

/-!
# Runs that remember their steps

A run of a labelled transition system is recorded with the steps it took, newest
first. Facts about "everything that ever happened" (how much was paid out, how
often a claim was paid) are then facts about a list, and each of them is carried
along the run by the same induction as a state invariant.

A few rules cover the uses below. `Run.invariant` is that induction.
`Run.split` cuts a run at one of its steps, so a recorded step is known to have
been taken from a reached state. `Run.countP_le_one` is the exactly-once rule:
steps that need a flag down and leave it up happen at most once, provided nothing
takes the flag down again. `Run.related` and `Run.simulated` carry a relation along
two runs, of one system or of two.
-/

namespace History

universe u

variable {σ ℓ : Type u}

/-- One step taken, with the states around it. -/
structure Event (σ ℓ : Type u) where
  /-- What was called. -/
  label : ℓ
  /-- The state it was called in. -/
  pre : σ
  /-- The state it left. -/
  post : σ

/-- `Run init step h s`: from an initial state, the steps `h` (newest first) lead to `s`. -/
inductive Run (init : σ → Prop) (step : ℓ → σ → σ → Prop) : List (Event σ ℓ) → σ → Prop
  | start {s : σ} : init s → Run init step [] s
  | next {h : List (Event σ ℓ)} {s s' : σ} {l : ℓ} :
      Run init step h s → step l s s' → Run init step (⟨l, s, s'⟩ :: h) s'

variable {init : σ → Prop} {step : ℓ → σ → σ → Prop} {h : List (Event σ ℓ)} {s : σ}

/-- **The invariant rule.** -/
theorem Run.invariant {I : List (Event σ ℓ) → σ → Prop} (h0 : ∀ s, init s → I [] s)
    (hs : ∀ h s l s', Run init step h s → I h s → step l s s' → I (⟨l, s, s'⟩ :: h) s')
    (r : Run init step h s) : I h s := by
  induction r with
  | start hi => exact h0 _ hi
  | next r st ih => exact hs _ _ _ _ r ih st

/-- A property of states that every step keeps is kept by a whole continuation. -/
theorem Run.preserves {P : σ → Prop} {s' : σ} (hP : ∀ l s s', P s → step l s s' → P s')
    (r : Run (· = s) step h s') (h0 : P s) : P s' := by
  induction r with
  | start hi => exact hi ▸ h0
  | next _ st ih => exact hP _ _ _ ih st

/-- A run and a continuation of it are one run. -/
theorem Run.append {h' : List (Event σ ℓ)} {s' : σ} (r : Run init step h s)
    (r' : Run (· = s) step h' s') : Run init step (h' ++ h) s' := by
  induction r' with
  | start hi => exact hi ▸ r
  | next _ st ih => exact .next ih st

/-- **Cutting a run at a step**: the step was taken from a reached state, and the rest of the run
continues it. -/
theorem Run.split {h₁ h₂ : List (Event σ ℓ)} {e : Event σ ℓ}
    (r : Run init step (h₂ ++ e :: h₁) s) :
    Run init step h₁ e.pre ∧ step e.label e.pre e.post ∧ Run (· = e.post) step h₂ s := by
  induction h₂ generalizing s with
  | nil =>
      cases r with
      | next r st => exact ⟨r, st, .start rfl⟩
  | cons e' h₂ ih =>
      cases r with
      | next r st =>
          obtain ⟨h1, h2, h3⟩ := ih r
          exact ⟨h1, h2, .next h3 st⟩

/-- Every recorded step was taken, from a state reached before it. -/
theorem Run.of_mem {e : Event σ ℓ} (r : Run init step h s) (he : e ∈ h) :
    ∃ h₁ h₂, h = h₂ ++ e :: h₁ ∧ Run init step h₁ e.pre ∧ step e.label e.pre e.post
      ∧ Run (· = e.post) step h₂ s := by
  obtain ⟨h₂, h₁, rfl⟩ := List.append_of_mem he
  exact ⟨h₁, h₂, rfl, r.split⟩

/--
**Exactly once.** Steps that find a flag down and leave it up happen at most once,
and not at all while the flag is down.
-/
theorem Run.countP_le_one {K : Event σ ℓ → Bool} (flag : σ → Prop)
    (hkeep : ∀ h s l s', Run init step h s → step l s s' → flag s → flag s')
    (hK : ∀ h s l s', Run init step h s → step l s s' → K ⟨l, s, s'⟩ = true → ¬ flag s ∧ flag s')
    (r : Run init step h s) : h.countP K ≤ 1 ∧ (¬ flag s → h.countP K = 0) := by
  induction r with
  | start _ => simp
  | @next h s s' l r st ih =>
      rw [List.countP_cons]
      by_cases hk : K ⟨l, s, s'⟩ = true
      · -- the step itself is counted: nothing was counted before it
        obtain ⟨hdown, hup⟩ := hK h s l s' r st hk
        rw [if_pos hk, ih.2 hdown]
        exact ⟨Nat.le_refl _, fun hf => absurd hup hf⟩
      · rw [if_neg hk]
        exact ⟨ih.1, fun hf => ih.2 fun hs => hf (hkeep h s l s' r st hs)⟩

section TwoSystems

variable {σ' ℓ' : Type u} {init' : σ' → Prop} {step' : ℓ' → σ' → σ' → Prop}
  {R : σ → σ' → Prop}

/--
**The rule for two runs.** If paired steps keep a relation of states, then runs of paired
steps keep it throughout.
-/
theorem Run.related {h' : List (Event σ' ℓ')} {t : σ'} {paired : Event σ ℓ → Event σ' ℓ' → Prop}
    (h0 : ∀ s t, init s → init' t → R s t)
    (hs : ∀ h e h' e', Run init step h e.pre → Run init' step' h' e'.pre → R e.pre e'.pre →
      paired e e' → step e.label e.pre e.post → step' e'.label e'.pre e'.post → R e.post e'.post)
    (r : Run init step h s) (r' : Run init' step' h' t) (hp : List.Forall₂ paired h h') :
    R s t ∧ List.Forall₂ (fun e e' => R e.post e'.post) h h' := by
  induction hp generalizing s t with
  | nil =>
      cases r with
      | start hi =>
          cases r' with
          | start hi' => exact ⟨h0 _ _ hi hi', .nil⟩
  | @cons e e' h h' hee _ ih =>
      cases r with
      | next r st =>
          cases r' with
          | next r' st' =>
              obtain ⟨hR, hall⟩ := ih r r'
              have hnext := hs h _ h' _ r r' hR hee st st'
              exact ⟨hnext, .cons hnext hall⟩

/--
**The simulation rule.** If every step of one system can be answered by a paired step of the
other, then so can every run.
-/
theorem Run.simulated {paired : ℓ → ℓ' → Prop} (h0 : ∀ s, init s → ∃ t, init' t ∧ R s t)
    (hs : ∀ s l s' h' t, Run init' step' h' t → R s t → step l s s' →
      ∃ l' t', paired l l' ∧ step' l' t t' ∧ R s' t')
    (r : Run init step h s) :
    ∃ h' t, Run init' step' h' t ∧ R s t
      ∧ List.Forall₂ (fun e e' => paired e.label e'.label) h h' := by
  induction r with
  | @start s hi =>
      obtain ⟨t, ht, hR⟩ := h0 s hi
      exact ⟨[], t, .start ht, hR, .nil⟩
  | @next h s s' l _ st ih =>
      obtain ⟨h', t, r', hR, hall⟩ := ih
      obtain ⟨l', t', hl, st', hR'⟩ := hs s l s' h' t r' hR st
      exact ⟨⟨l', t, t'⟩ :: h', t', .next r' st', hR', .cons hl hall⟩

end TwoSystems

/-- Two members of a list that at most one member satisfies are the same. -/
theorem eq_of_countP_le_one {α : Type u} {K : α → Bool} {l : List α} {a b : α}
    (hl : l.countP K ≤ 1) (ha : a ∈ l) (hb : b ∈ l) (hKa : K a = true) (hKb : K b = true) :
    a = b := by
  rw [List.countP_eq_length_filter] at hl
  have ha' : a ∈ l.filter K := List.mem_filter.mpr ⟨ha, hKa⟩
  have hb' : b ∈ l.filter K := List.mem_filter.mpr ⟨hb, hKb⟩
  cases hf : l.filter K with
  | nil => rw [hf] at ha'; cases ha'
  | cons x rest =>
      rw [hf] at hl ha' hb'
      have hlen : rest.length = 0 := by
        rw [List.length_cons] at hl
        omega
      obtain rfl := List.eq_nil_of_length_eq_zero hlen
      rw [List.mem_singleton.mp ha', List.mem_singleton.mp hb']

/-! ## Executable steps -/

/-- Calls made one after another, recorded. -/
def play (exec : ℓ → σ → Checked σ) : List ℓ → List (Event σ ℓ) × σ →
    Checked (List (Event σ ℓ) × σ)
  | [], w => .ok w
  | l :: ls, (h, s) => do
    let s' ← exec l s
    play exec ls (⟨l, s, s'⟩ :: h, s')

/-- Calls that are all accepted make a run. -/
theorem play_run {exec : ℓ → σ → Checked σ} {ls : List ℓ} {w : List (Event σ ℓ) × σ}
    (r : Run init (fun l s s' => exec l s = .ok s') h s) (hp : play exec ls (h, s) = .ok w) :
    Run init (fun l s s' => exec l s = .ok s') w.1 w.2 := by
  induction ls generalizing h s with
  | nil =>
      have : (h, s) = w := by simpa [play] using hp
      exact this ▸ r
  | cons l ls ih =>
      rw [play, Checked.bind_ok_iff] at hp
      obtain ⟨s', hs', hp⟩ := hp
      exact ih (.next r hs') hp

end History
