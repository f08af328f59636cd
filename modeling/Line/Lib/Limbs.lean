import Mathlib.Data.Nat.ModEq
import Mathlib.Tactic.Common
import Mathlib.Tactic.Ring

/-!
# Numbers of two limbs

A number is written with two digits to a radix, the low limb and the high limb. Numbers are
compared limb by limb (`value_lt_iff`), and a division with remainder is checked by one equation
for each limb, with a carry from the low one to the high one (`division_iff`): quotient, remainder
and carry are then determined.

A program that cannot divide uses this the other way around: it is given quotient, remainder and
carry by whoever calls it, checks the two equations and that the remainder is below the divisor,
and has the division that it could not compute.
-/

namespace Limbs

/-- The number with the limbs `lo` and `hi`. -/
def value (radix lo hi : ℕ) : ℕ := hi * radix + lo

variable {radix lo hi lo' hi' : ℕ}

theorem value_mod (hlo : lo < radix) : value radix lo hi % radix = lo := by
  rw [value, Nat.mul_add_mod_self_right, Nat.mod_eq_of_lt hlo]

theorem value_div (hlo : lo < radix) : value radix lo hi / radix = hi := by
  rw [value, Nat.add_comm, Nat.add_mul_div_right _ _ (by omega), Nat.div_eq_of_lt hlo,
    Nat.zero_add]

theorem value_mod_div (n : ℕ) : value radix (n % radix) (n / radix) = n := by
  rw [value, Nat.mul_comm]
  exact Nat.div_add_mod n radix

/-- The limbs are read off the number. -/
theorem value_inj (hlo : lo < radix) (hlo' : lo' < radix) :
    value radix lo hi = value radix lo' hi' ↔ lo = lo' ∧ hi = hi' := by
  constructor
  · intro h
    have hmod := congrArg (· % radix) h
    have hdiv := congrArg (· / radix) h
    simp only [value_mod hlo, value_mod hlo'] at hmod
    simp only [value_div hlo, value_div hlo'] at hdiv
    exact ⟨hmod, hdiv⟩
  · rintro ⟨rfl, rfl⟩
    rfl

/-- **Numbers are compared limb by limb**, the high limbs first. -/
theorem value_lt_iff (hlo : lo < radix) (hlo' : lo' < radix) :
    value radix lo hi < value radix lo' hi' ↔ hi < hi' ∨ hi = hi' ∧ lo < lo' := by
  unfold value
  rcases Nat.lt_trichotomy hi hi' with h | h | h
  · -- one more of the high limb outweighs every low limb
    have hstep : (hi + 1) * radix ≤ hi' * radix := Nat.mul_le_mul_right radix h
    rw [Nat.add_mul, Nat.one_mul] at hstep
    omega
  · subst h
    omega
  · have hstep : (hi' + 1) * radix ≤ hi * radix := Nat.mul_le_mul_right radix h
    rw [Nat.add_mul, Nat.one_mul] at hstep
    omega

/-- What is carried from the low limb is added to the high one. -/
theorem value_carry (radix lo hi carry : ℕ) :
    value radix (lo + carry * radix) hi = value radix lo (hi + carry) := by
  unfold value
  ring

theorem value_mul_add (radix quotient qlo qhi rlo rhi : ℕ) :
    quotient * value radix qlo qhi + value radix rlo rhi =
      value radix (quotient * qlo + rlo) (quotient * qhi + rhi) := by
  unfold value
  ring

/-- **The equations of the limbs are the division.** -/
theorem division_iff {qlo qhi rlo rhi quotient carry : ℕ} (hlo : lo < radix)
    (hr : value radix rlo rhi < value radix qlo qhi) :
    quotient * qlo + rlo = lo + carry * radix ∧ quotient * qhi + rhi + carry = hi ↔
      quotient = value radix lo hi / value radix qlo qhi ∧
        value radix rlo rhi = value radix lo hi % value radix qlo qhi ∧
        carry = (quotient * qlo + rlo) / radix := by
  have hradix : 0 < radix := by omega
  constructor
  · rintro ⟨hlow, hhigh⟩
    have hsum : value radix lo hi = quotient * value radix qlo qhi + value radix rlo rhi :=
      calc value radix lo hi
          = value radix lo (quotient * qhi + rhi + carry) := by rw [hhigh]
        _ = value radix (quotient * qlo + rlo) (quotient * qhi + rhi) := by
            rw [hlow, value_carry]
        _ = quotient * value radix qlo qhi + value radix rlo rhi := by rw [value_mul_add]
    rw [hsum, Nat.mul_comm]
    refine ⟨?_, ?_, ?_⟩
    · rw [Nat.mul_add_div (by omega), Nat.div_eq_of_lt hr, Nat.add_zero]
    · rw [Nat.mul_add_mod, Nat.mod_eq_of_lt hr]
    · rw [hlow, Nat.add_mul_div_right _ _ hradix, Nat.div_eq_of_lt hlo, Nat.zero_add]
  · rintro ⟨hquotient, hremainder, hcarry⟩
    have hsplit : (quotient * qlo + rlo) % radix + carry * radix = quotient * qlo + rlo := by
      rw [hcarry]
      exact Nat.mod_add_div' _ _
    have hsum : value radix lo hi
        = value radix ((quotient * qlo + rlo) % radix) (quotient * qhi + rhi + carry) :=
      calc value radix lo hi
          = quotient * value radix qlo qhi + value radix rlo rhi := by
            rw [hquotient, hremainder]
            exact (Nat.div_add_mod' _ _).symm
        _ = value radix ((quotient * qlo + rlo) % radix + carry * radix)
              (quotient * qhi + rhi) := by rw [value_mul_add, hsplit]
        _ = _ := value_carry _ _ _ _
    -- the low limb of the sum is what the carry leaves
    obtain ⟨hlow, hhigh⟩ := (value_inj hlo (Nat.mod_lt _ hradix)).mp hsum
    exact ⟨by omega, hhigh.symm⟩

end Limbs
