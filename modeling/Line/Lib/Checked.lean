import Mathlib.Data.Finmap
import Mathlib.Tactic.Common

/-!
# Checked computations

A step of a metered or proved program either yields a value or is refused, and
it is refused for one of three reasons: an assertion the author wrote, a
subtraction that would go below zero, or a cast into an integer type too small
for the value. Keeping the three apart is what lets a later theorem say that a
program is refused *only* by its own assertions.

Two ways of reasoning about a checked computation are set up here.

* `… = .ok r` is turned into the conjunction of everything that was checked on
  the way (`bind_ok_iff` and the lemmas of the single checks, all `simp`).
* `Meets allowed x` says that `x` is refused only for reasons in `allowed`; it
  is closed under sequencing (`Meets.bind`), so the refusals of a whole program
  are read off one check at a time.
-/

namespace Checked

/-- Why a computation was refused. -/
inductive Failure where
  /-- An assertion of the program, with its text. -/
  | assertion (message : String)
  /-- A subtraction whose result would be negative. -/
  | underflow
  /-- A cast into a smaller unsigned type; `target` names what was computed. -/
  | cast (target : String)
deriving DecidableEq, Repr

end Checked

universe u v

/-- A computation that may be refused. -/
abbrev Checked (α : Type u) := Except Checked.Failure α

namespace Checked

variable {α β : Type u} {κ : Type v}

/-- An unsigned integer of `w` bits. -/
@[ext]
structure Uint (w : Nat) where
  /-- The number itself. -/
  val : Nat
  /-- It fits the width. -/
  isLt : val < 2 ^ w
deriving DecidableEq, Repr

/-- Zero, at any width. -/
def Uint.zero (w : Nat) : Uint w := ⟨0, Nat.two_pow_pos w⟩

@[simp] theorem Uint.val_zero (w : Nat) : (Uint.zero w).val = 0 := rfl

theorem Uint.val_inj {w : Nat} {a b : Uint w} : a.val = b.val ↔ a = b :=
  ⟨fun h => Uint.ext h, fun h => congrArg Uint.val h⟩

/-! ## The single checks -/

/-- `assert(c, message)`. -/
def assert (c : Prop) [Decidable c] (message : String) : Checked Unit :=
  if c then .ok () else .error (.assertion message)

/-- `n as Uint<w>`; `target` says what the number is for. -/
def asUint (w n : Nat) (target : String) : Checked (Uint w) :=
  if h : n < 2 ^ w then .ok ⟨n, h⟩ else .error (.cast target)

/-- `a - b` on unsigned integers. -/
def sub (a b : Nat) : Checked Nat :=
  if b ≤ a then .ok (a - b) else .error .underflow

/-- `assert(m.member(k), message)` followed by `m.lookup(k)`. -/
def lookup [DecidableEq κ] (m : Finmap fun _ : κ => β) (k : κ) (message : String) : Checked β :=
  match m.lookup k with
  | some v => .ok v
  | none => .error (.assertion message)

/-! ## What a success says -/

@[simp] theorem pure_ok_iff {ε : Type v} {a b : α} : (pure a : Except ε α) = .ok b ↔ a = b := by
  simp [pure, Except.pure]

@[simp] theorem bind_ok_iff {ε : Type v} {x : Except ε α} {f : α → Except ε β} {r : β} :
    (x >>= f) = .ok r ↔ ∃ a, x = .ok a ∧ f a = .ok r := by
  cases x <;> simp [bind, Except.bind]

/-- Every result of a sequence of computations is the result of one of them. -/
theorem mem_of_mapM_ok {γ δ : Type u} {ε : Type v} {f : γ → Except ε δ} {l : List γ}
    {ys : List δ} (h : l.mapM f = .ok ys) : ∀ y ∈ ys, ∃ x ∈ l, f x = .ok y := by
  induction l generalizing ys with
  | nil =>
      rw [List.mapM_nil, pure_ok_iff] at h
      subst h
      intro y hy
      cases hy
  | cons x l ih =>
      simp only [List.mapM_cons, bind_ok_iff, pure_ok_iff] at h
      obtain ⟨y, hy, ys', hys', rfl⟩ := h
      intro z hz
      rcases List.mem_cons.mp hz with rfl | hz
      · exact ⟨x, List.mem_cons_self, hy⟩
      · obtain ⟨w, hw, hwz⟩ := ih hys' z hz
        exact ⟨w, List.mem_cons_of_mem _ hw, hwz⟩

/-- Computations that give what a function does are its values, item by item. -/
theorem map_of_mapM_ok {γ δ : Type u} {ε : Type v} {f : γ → Except ε δ} {g : γ → δ} {l : List γ}
    {ys : List δ} (hf : ∀ x y, f x = .ok y → y = g x) (h : l.mapM f = .ok ys) :
    ys = l.map g := by
  induction l generalizing ys with
  | nil =>
      rw [List.mapM_nil, pure_ok_iff] at h
      exact h.symm
  | cons x l ih =>
      simp only [List.mapM_cons, bind_ok_iff, pure_ok_iff] at h
      obtain ⟨y, hy, ys', hys', rfl⟩ := h
      rw [List.map_cons, hf x y hy, ih hys']

/-- A test of every entry passes exactly if each passes. -/
theorem forM_ok_iff {γ : Type u} {ε : Type v} {f : γ → Except ε PUnit} {l : List γ} :
    l.forM f = .ok () ↔ ∀ a ∈ l, f a = .ok () := by
  induction l with
  | nil => exact iff_of_true rfl (fun a ha => absurd ha List.not_mem_nil)
  | cons a l ih =>
      have hcons : (a :: l).forM f = (f a >>= fun _ => l.forM f) := rfl
      rw [hcons, List.forall_mem_cons, ← ih, bind_ok_iff]
      exact ⟨fun ⟨(), h⟩ => h, fun h => ⟨(), h⟩⟩

@[simp] theorem assert_ok_iff {c : Prop} [Decidable c] {message : String} {u : Unit} :
    assert c message = .ok u ↔ c := by
  by_cases h : c <;> simp [assert, h]

@[simp] theorem asUint_ok_iff {w n : Nat} {target : String} {u : Uint w} :
    asUint w n target = .ok u ↔ u.val = n := by
  unfold asUint
  split
  · simp [Uint.ext_iff, eq_comm]
  · rename_i h
    have := u.isLt
    simp only [reduceCtorEq, false_iff]
    omega

@[simp] theorem sub_ok_iff {a b d : Nat} : sub a b = .ok d ↔ b ≤ a ∧ d = a - b := by
  by_cases h : b ≤ a <;> simp [sub, h, eq_comm]

@[simp] theorem lookup_ok_iff [DecidableEq κ] {m : Finmap fun _ : κ => β} {k : κ}
    {message : String} {v : β} : lookup m k message = .ok v ↔ m.lookup k = some v := by
  unfold lookup
  split <;> rename_i h <;> simp [h]

/-! ## What a refusal says -/

/-- The computation is refused only for reasons in `allowed`. -/
def Meets {ε : Type v} (allowed : ε → Prop) (x : Except ε α) : Prop :=
  ∀ e, x = .error e → allowed e

section Rules

variable {ε : Type v} {allowed : ε → Prop}

theorem Meets.pure (a : α) : Meets allowed (pure a : Except ε α) := by
  intro e he
  simp [Pure.pure, Except.pure] at he

/-- **Sequencing.** The rest only has to be checked at values the first part can yield. -/
theorem Meets.bind {x : Except ε α} {f : α → Except ε β} (hx : Meets allowed x)
    (hf : ∀ a, x = .ok a → Meets allowed (f a)) : Meets allowed (x >>= f) := by
  intro e he
  cases x with
  | error e' =>
      have : e' = e := by simpa [Bind.bind, Except.bind] using he
      exact hx e (by rw [this])
  | ok a => exact hf a rfl e he

theorem Meets.ite {c : Prop} [Decidable c] {x y : Except ε α} (hx : c → Meets allowed x)
    (hy : ¬ c → Meets allowed y) : Meets allowed (if c then x else y) := by
  by_cases h : c
  · rw [if_pos h]; exact hx h
  · rw [if_neg h]; exact hy h

end Rules

variable {allowed : Failure → Prop}

/-- An assertion is refused, if it is false, with its own text. -/
theorem Meets.assert {c : Prop} [Decidable c] {message : String}
    (h : ¬ c → allowed (.assertion message)) : Meets allowed (assert c message) := by
  intro e he
  by_cases hc : c
  · simp [Checked.assert, hc] at he
  · have : Failure.assertion message = e := by simpa [Checked.assert, hc] using he
    exact this ▸ h hc

/-- A cast is refused, if the number does not fit, under its own name. -/
theorem Meets.asUint {w n : Nat} {target : String}
    (h : 2 ^ w ≤ n → allowed (.cast target)) : Meets allowed (Checked.asUint w n target) := by
  intro e he
  unfold Checked.asUint at he
  split at he
  · simp at he
  · rename_i hn
    injection he with he
    exact he ▸ h (by omega)

/-- A subtraction that stays at or above zero is never refused. -/
theorem Meets.sub {a b : Nat} (h : b ≤ a) : Meets allowed (Checked.sub a b) := by
  intro e he
  simp [Checked.sub, h] at he

/-! ### The single checks in front of a continuation -/

section Then

variable {γ : Type}

/-- After an assertion its condition holds. -/
theorem Meets.assert_then {c : Prop} [Decidable c] {message : String} {f : Unit → Checked γ}
    (h : ¬ c → allowed (.assertion message)) (hf : c → Meets allowed (f ())) :
    Meets allowed (Checked.assert c message >>= f) :=
  .bind (.assert h) fun _ hc => hf (assert_ok_iff.mp hc)

/-- After a lookup the key is there. -/
theorem Meets.lookup_then [DecidableEq κ] {m : Finmap fun _ : κ => β} {k : κ} {message : String}
    {f : β → Checked α} (h : k ∉ m → allowed (.assertion message))
    (hf : ∀ v, m.lookup k = some v → Meets allowed (f v)) :
    Meets allowed (Checked.lookup m k message >>= f) := by
  refine .bind ?_ fun v hv => hf v (lookup_ok_iff.mp hv)
  intro e he
  unfold Checked.lookup at he
  split at he
  · simp at he
  · rename_i hn
    injection he with he
    exact he ▸ h (Finmap.lookup_eq_none.mp hn)

/-- After a cast the number is what it was. -/
theorem Meets.asUint_then {w n : Nat} {target : String} {f : Uint w → Checked γ}
    (h : 2 ^ w ≤ n → allowed (.cast target))
    (hf : ∀ u : Uint w, u.val = n → Meets allowed (f u)) :
    Meets allowed (Checked.asUint w n target >>= f) :=
  .bind (.asUint h) fun u hu => hf u (asUint_ok_iff.mp hu)

/-- After a subtraction the numbers add up again. -/
theorem Meets.sub_then {a b : Nat} {f : Nat → Checked γ} (h : b ≤ a)
    (hf : ∀ d, d + b = a → Meets allowed (f d)) : Meets allowed (Checked.sub a b >>= f) := by
  refine .bind (.sub h) fun d hd => hf d ?_
  obtain ⟨_, rfl⟩ := sub_ok_iff.mp hd
  exact Nat.sub_add_cancel h

end Then

end Checked
