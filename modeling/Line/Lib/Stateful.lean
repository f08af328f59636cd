import Mathlib.Logic.Relation
import Mathlib.Tactic.Common

/-!
# Computations that keep their state when they throw

`EStateM`: a computation that throws leaves what it had changed. What a run says is read
off one step at a time, for a success (`bind_ok_iff`) and for a failure
(`bind_error_iff`).

What is true however a run ends is said by `Moves R x`: `x` takes the state only along
steps of `R`. It is closed under sequencing, so it holds of a program if it holds of the
few operations that touch the state, and every invariant of `R` is one of the program
(`Moves.preserves`).

`Ends R s r Q` is the same of one run from `s`, with what is true of its result. It is for
programs whose steps depend on what they read before: a step of `R` may span several
operations, and is found when the last of them has run.

`Runs R s r Q E` also says what is true when the run throws, for programs that catch some
of their exceptions (`rescue`) or do something at the end in any case (`ensure`).
-/

namespace Stateful

universe u

variable {ε σ α β : Type u} {s s' : σ} {a b : α} {e e' : ε}

@[simp] theorem pure_ok_iff : (pure a : EStateM ε σ α) s = .ok b s' ↔ a = b ∧ s = s' := by
  simp [pure, EStateM.pure]

@[simp] theorem pure_error_iff : (pure a : EStateM ε σ α) s = .error e s' ↔ False := by
  simp [pure, EStateM.pure]

@[simp] theorem throw_ok_iff : (throw e : EStateM ε σ α) s = .ok b s' ↔ False := by
  show EStateM.Result.error e s = .ok b s' ↔ False
  simp

@[simp] theorem throw_error_iff :
    (throw e : EStateM ε σ α) s = .error e' s' ↔ e = e' ∧ s = s' := by
  show (EStateM.Result.error e s : EStateM.Result ε σ α) = .error e' s' ↔ _
  simp

@[simp] theorem get_ok_iff {t : σ} :
    (get : EStateM ε σ σ) s = .ok t s' ↔ s = t ∧ s = s' := by
  show (EStateM.Result.ok s s : EStateM.Result ε σ σ) = .ok t s' ↔ _
  simp

@[simp] theorem get_error_iff : (get : EStateM ε σ σ) s = .error e s' ↔ False := by
  show EStateM.Result.ok s s = .error e s' ↔ False
  simp

@[simp] theorem modify_ok_iff {f : σ → σ} {u : PUnit.{u + 1}} :
    (modify f : EStateM ε σ PUnit.{u + 1}) s = .ok u s' ↔ f s = s' := by
  show (EStateM.Result.ok ⟨⟩ (f s) : EStateM.Result ε σ PUnit.{u + 1}) = .ok u s' ↔ _
  simp

@[simp] theorem modify_error_iff {f : σ → σ} :
    (modify f : EStateM ε σ PUnit.{u + 1}) s = .error e s' ↔ False := by
  show EStateM.Result.ok _ (f s) = .error e s' ↔ False
  simp

@[simp] theorem bind_ok_iff {x : EStateM ε σ α} {f : α → EStateM ε σ β} {r : β} :
    (x >>= f) s = .ok r s' ↔ ∃ a t, x s = .ok a t ∧ f a t = .ok r s' := by
  simp only [bind, EStateM.bind]
  cases x s <;> simp

@[simp] theorem bind_error_iff {x : EStateM ε σ α} {f : α → EStateM ε σ β} :
    (x >>= f) s = .error e s' ↔
      x s = .error e s' ∨ ∃ a t, x s = .ok a t ∧ f a t = .error e s' := by
  simp only [bind, EStateM.bind]
  cases x s <;> simp

/-! ### The state inside a sequence -/

theorem get_bind {f : σ → EStateM ε σ β} : (get >>= f) s = f s s := rfl

theorem modify_bind {g : σ → σ} {f : PUnit.{u + 1} → EStateM ε σ β} :
    (modify g >>= f) s = f ⟨⟩ (g s) := rfl

theorem bind_of_ok {x : EStateM ε σ α} {f : α → EStateM ε σ β} (h : x s = .ok a s') :
    (x >>= f) s = f a s' := by
  simp only [bind, EStateM.bind, h]

theorem bind_of_error {x : EStateM ε σ α} {f : α → EStateM ε σ β} (h : x s = .error e s') :
    (x >>= f) s = .error e s' := by
  simp only [bind, EStateM.bind, h]

/-! ### Wherever a computation ends -/

/-- The state that a computation ends in. -/
def final : EStateM.Result ε σ α → σ
  | .ok _ s => s
  | .error _ s => s

/-- Whether it succeeds or throws, the computation takes the state along steps of `R`. -/
def Moves (R : σ → σ → Prop) (x : EStateM ε σ α) : Prop :=
  ∀ s, Relation.ReflTransGen R s (final (x s))

section Rules

variable {R : σ → σ → Prop} {x : EStateM ε σ α} {f : α → EStateM ε σ β}

theorem Moves.pure (a : α) : Moves R (pure a : EStateM ε σ α) := fun _ => .refl

theorem Moves.throw (e : ε) : Moves R (throw e : EStateM ε σ α) := fun _ => .refl

theorem Moves.bind (hx : Moves R x) (hf : ∀ a, Moves R (f a)) : Moves R (x >>= f) := by
  intro s
  have hs := hx s
  simp only [Bind.bind, EStateM.bind]
  cases h : x s with
  | error e t =>
      rw [h] at hs
      exact hs
  | ok a t =>
      rw [h] at hs
      exact hs.trans (hf a t)

theorem Moves.ite {c : Prop} [Decidable c] {y : EStateM ε σ α} (hx : Moves R x)
    (hy : Moves R y) : Moves R (if c then x else y) := by
  split
  · exact hx
  · exact hy

end Rules

/-! ### From one state -/

/-- The run that ended as `r` took the state from `s` along steps of `R`; a result satisfies `Q`. -/
structure Ends (R : σ → σ → Prop) (s : σ) (r : EStateM.Result ε σ α) (Q : α → σ → Prop) :
    Prop where
  moves : Relation.ReflTransGen R s (final r)
  result : ∀ a t, r = .ok a t → Q a t

namespace Ends

variable {R : σ → σ → Prop} {r : EStateM.Result ε σ α} {x : EStateM ε σ α}
  {f : α → EStateM ε σ β} {Q : α → σ → Prop} {Q' : β → σ → Prop} {t : σ}

theorem ok (hQ : Q a s) : Ends R s (.ok a s : EStateM.Result ε σ α) Q where
  moves := .refl
  result := by
    intro b t h
    cases h
    exact hQ

theorem error : Ends R s (.error e s : EStateM.Result ε σ α) Q where
  moves := .refl
  result := by
    intro b t h
    cases h

/-- A step first. -/
theorem head (hst : R s t) (h : Ends R t r Q) : Ends R s r Q :=
  ⟨.head hst h.moves, h.result⟩

/-- Steps first. -/
theorem after (hst : Relation.ReflTransGen R s t) (h : Ends R t r Q) : Ends R s r Q :=
  ⟨hst.trans h.moves, h.result⟩

/-- One program after another. Before the first there may be a part whose step is still open. -/
theorem bind (hx : Ends R s (x s') Q) (hf : ∀ a t, Q a t → Ends R t (f a t) Q') :
    Ends R s ((x >>= f) s') Q' := by
  simp only [Bind.bind, EStateM.bind]
  cases h : x s' with
  | error e t =>
      have hm := hx.moves
      rw [h] at hm
      exact ⟨hm, by intro b u hb; cases hb⟩
  | ok a t =>
      have hm := hx.moves
      rw [h] at hm
      exact .after hm (hf a t (hx.result a t h))

end Ends

/-! ### Programs that catch -/

/-- `try { x } catch`: the exceptions that `h` has a handler for are handled by it. -/
def rescue (x : EStateM ε σ α) (h : ε → Option (EStateM ε σ α)) : EStateM ε σ α := fun s =>
  match x s with
  | .ok a t => .ok a t
  | .error e t =>
      match h e with
      | some y => y t
      | none => .error e t

/-- `try { x } finally { y }`: an exception of `y` takes the place of the result. Of the
exceptions of `x` only the caught ones let `y` run. -/
def ensure (x : EStateM ε σ α) (caught : ε → Bool) (y : EStateM ε σ PUnit.{u + 1}) :
    EStateM ε σ α :=
  fun s =>
    match x s with
    | .ok a t =>
        match y t with
        | .ok _ u => .ok a u
        | .error e u => .error e u
    | .error e t =>
        if caught e then
          match y t with
          | .ok _ u => .error e u
          | .error e' u => .error e' u
        else .error e t

/-- The run that ended as `r` took the state from `s` along steps of `R`; a result satisfies `Q`,
an exception `E`. -/
structure Runs (R : σ → σ → Prop) (s : σ) (r : EStateM.Result ε σ α) (Q : α → σ → Prop)
    (E : ε → σ → Prop) : Prop where
  moves : Relation.ReflTransGen R s (final r)
  result : ∀ a t, r = .ok a t → Q a t
  failure : ∀ e t, r = .error e t → E e t

namespace Runs

variable {R : σ → σ → Prop} {r : EStateM.Result ε σ α} {x : EStateM ε σ α}
  {f : α → EStateM ε σ β} {Q P : α → σ → Prop} {Q' : β → σ → Prop} {E F : ε → σ → Prop} {t : σ}

theorem ok (hQ : Q a s) : Runs R s (.ok a s : EStateM.Result ε σ α) Q E where
  moves := .refl
  result := by
    intro b t h
    cases h
    exact hQ
  failure := by
    intro e t h
    cases h

theorem error (hE : E e s) : Runs R s (.error e s : EStateM.Result ε σ α) Q E where
  moves := .refl
  result := by
    intro b t h
    cases h
  failure := by
    intro e' t h
    cases h
    exact hE

/-- Steps first. -/
theorem after (hst : Relation.ReflTransGen R s t) (h : Runs R t r Q E) : Runs R s r Q E :=
  ⟨hst.trans h.moves, h.result, h.failure⟩

theorem mono (h : Runs R s r Q E) (hQ : ∀ a t, Q a t → P a t) (hE : ∀ e t, E e t → F e t) :
    Runs R s r P F :=
  ⟨h.moves, fun a t hr => hQ a t (h.result a t hr), fun e t hr => hE e t (h.failure e t hr)⟩

/-- One program after another. Before the first there may be a part whose step is still open. -/
theorem bind (hx : Runs R s (x s') Q E) (hf : ∀ a t, Q a t → Runs R t (f a t) Q' E) :
    Runs R s ((x >>= f) s') Q' E := by
  simp only [Bind.bind, EStateM.bind]
  cases h : x s' with
  | error e t =>
      have hm := hx.moves
      rw [h] at hm
      refine ⟨hm, fun b u hb => ?_, fun e' u he => ?_⟩
      · cases hb
      · cases he
        exact hx.failure e t h
  | ok a t =>
      have hm := hx.moves
      rw [h] at hm
      exact .after hm (hf a t (hx.result a t h))

/-- One program after another, of which the first may leave its step open. -/
theorem seq (hx : ∀ e t, x s' = .error e t → Relation.ReflTransGen R s t ∧ E e t)
    (hf : ∀ a t, x s' = .ok a t → Runs R s (f a t) Q' E) : Runs R s ((x >>= f) s') Q' E := by
  simp only [Bind.bind, EStateM.bind]
  cases h : x s' with
  | error e t =>
      obtain ⟨hm, hE⟩ := hx e t h
      exact .after hm (.error hE)
  | ok a t => exact hf a t h

/-- The last program. -/
theorem last (hx : ∀ e t, x s' = .error e t → Relation.ReflTransGen R s t ∧ E e t)
    (hf : ∀ a t, x s' = .ok a t → Relation.ReflTransGen R s t ∧ Q a t) : Runs R s (x s') Q E := by
  cases h : x s' with
  | error e t =>
      obtain ⟨hm, hE⟩ := hx e t h
      exact .after hm (.error hE)
  | ok a t =>
      obtain ⟨hm, hQ⟩ := hf a t h
      exact .after hm (.ok hQ)

/-- A handler takes over where the program threw. -/
theorem rescue {h : ε → Option (EStateM ε σ α)} (hx : Runs R s (x s') Q F)
    (hh : ∀ e t y, F e t → h e = some y → Runs R t (y t) Q E)
    (hn : ∀ e t, F e t → h e = none → E e t) : Runs R s (Stateful.rescue x h s') Q E := by
  simp only [Stateful.rescue]
  cases hr : x s' with
  | ok a t =>
      have hm := hx.moves
      rw [hr] at hm
      exact .after hm (.ok (hx.result a t hr))
  | error e t =>
      have hm := hx.moves
      rw [hr] at hm
      have hF := hx.failure e t hr
      simp only
      cases hy : h e with
      | none => exact .after hm (.error (hn e t hF hy))
      | some y => exact .after hm (hh e t y hF hy)

/-- What is done in any case keeps what is known. -/
theorem ensure {caught : ε → Bool} {y : EStateM ε σ PUnit.{u + 1}} (hx : Runs R s (x s') Q E)
    (hy : ∀ a t, Q a t → Runs R t (y t) (fun _ u => Q a u) E)
    (hz : ∀ e t, E e t → caught e = true → Runs R t (y t) (fun _ u => E e u) E) :
    Runs R s (Stateful.ensure x caught y s') Q E := by
  simp only [Stateful.ensure]
  cases hr : x s' with
  | ok a t =>
      have hm := hx.moves
      rw [hr] at hm
      have hyt := hy a t (hx.result a t hr)
      simp only
      cases hyr : y t with
      | ok u v =>
          rw [hyr] at hyt
          exact .after (hm.trans hyt.moves) (.ok (hyt.result u v rfl))
      | error e v =>
          rw [hyr] at hyt
          exact .after (hm.trans hyt.moves) (.error (hyt.failure e v rfl))
  | error e t =>
      have hm := hx.moves
      rw [hr] at hm
      have hE := hx.failure e t hr
      simp only
      split
      · rename_i hc
        have hyt := hz e t hE hc
        cases hyr : y t with
        | ok u v =>
            rw [hyr] at hyt
            exact .after (hm.trans hyt.moves) (.error (hyt.result u v rfl))
        | error e' v =>
            rw [hyr] at hyt
            exact .after (hm.trans hyt.moves) (.error (hyt.failure e' v rfl))
      · exact .after hm (.error hE)

end Runs

end Stateful
