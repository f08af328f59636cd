import Mathlib.Data.Int.Log
import Mathlib.Algebra.Order.Floor.Ring
import Mathlib.Data.Rat.Floor
import Mathlib.Tactic.Common
import Mathlib.Tactic.Linarith
import Mathlib.Tactic.FieldSimp

/-!
# The numbers of JavaScript

A `number` is a binary64 value, and an operation rounds its exact result to the
nearest one, ties to the even mantissa. The values are kept exactly, as rationals;
`round` is the only place where anything is lost. Negative zero is not told apart
from zero, since no comparison or integer test does.

Programs that count in `number`s stay within the safe integers, up to `2 ^ 53 - 1`.
`ofNat` embeds the natural numbers, and the lemmas about it say that within the safe
range the operations and comparisons are those of the natural numbers
(`add_ofNat`, `sub_ofNat`, `lt_ofNat`), and that a sum that leaves the range is
noticed by the test for it (`isSafeInteger_add`).
-/

/-- A `number`: a finite binary64 value, an infinity, or `NaN`. -/
inductive Number where
  | nan
  | infinity (negative : Bool)
  | finite (q : ℚ)
deriving DecidableEq

namespace Number

/-! ## Rounding -/

/-- The nearest integer, ties to even. -/
def roundHalfEven (q : ℚ) : ℤ :=
  let f := ⌊q⌋
  if q - f < 1 / 2 then f
  else if 1 / 2 < q - f then f + 1
  else if f % 2 = 0 then f
  else f + 1

/-- The exponent of the last bit of the mantissa: 53 bits, or fewer for a subnormal number. -/
def exponent (q : ℚ) : ℤ := max (Int.log 2 |q| - 52) (-1074)

/-- The nearest binary64 value; beyond the largest finite one, an infinity. -/
def round (q : ℚ) : Number :=
  let k := exponent q
  let v := (roundHalfEven (q / 2 ^ k) : ℚ) * 2 ^ k
  if |v| < 2 ^ 1024 then .finite v else .infinity (v < 0)

/-! ## Operations -/

/-- `a + b`. -/
def add : Number → Number → Number
  | .finite p, .finite q => round (p + q)
  | .nan, _ => .nan
  | _, .nan => .nan
  | .infinity s, .infinity t => if s = t then .infinity s else .nan
  | .infinity s, .finite _ => .infinity s
  | .finite _, .infinity t => .infinity t

/-- `-a`. -/
def neg : Number → Number
  | .finite q => .finite (-q)
  | .infinity s => .infinity (!s)
  | .nan => .nan

/-- `a - b`. -/
def sub (a b : Number) : Number := a.add b.neg

/-- `a < b`; false if either is `NaN`. -/
def lt : Number → Number → Bool
  | .finite p, .finite q => p < q
  | .nan, _ => false
  | _, .nan => false
  | .infinity s, .infinity t => s && !t
  | .infinity s, .finite _ => s
  | .finite _, .infinity t => !t

/-- `a === b`; `NaN` equals nothing. -/
def eq : Number → Number → Bool
  | .finite p, .finite q => p = q
  | .infinity s, .infinity t => s = t
  | _, _ => false

/-- `a <= b`. -/
def le (a b : Number) : Bool := a.lt b || a.eq b

/-- `Math.min(a, b)`. -/
def min (a b : Number) : Number :=
  if a = .nan ∨ b = .nan then .nan else if a.lt b then a else b

/-- `Number.isInteger(a)`. -/
def isInteger : Number → Bool
  | .finite q => q.isInt
  | _ => false

/-- `Number.MAX_SAFE_INTEGER`. -/
def maxSafe : ℕ := 2 ^ 53 - 1

/-- `Number.isSafeInteger(a)`. -/
def isSafeInteger : Number → Bool
  | .finite q => q.isInt && decide (|q| ≤ maxSafe)
  | _ => false

/-- `BigInt(a)`; anything but an integer is refused. -/
def toBigInt : Number → Option ℤ
  | .finite q => if q.isInt then some q.num else none
  | _ => none

/-- A literal. -/
def ofNat (n : ℕ) : Number := .finite n

/-! ## Rounding is exact on multiples of the last bit -/

theorem roundHalfEven_intCast (z : ℤ) : roundHalfEven z = z := by
  unfold roundHalfEven
  simp

/-- A multiple of its last bit is a binary64 value. -/
theorem round_eq {q : ℚ} {m : ℤ} (hm : q = m * 2 ^ exponent q) (hq : |q| < 2 ^ 1024) :
    round q = .finite q := by
  have hpow : (2 : ℚ) ^ exponent q ≠ 0 := zpow_ne_zero _ two_ne_zero
  have hdiv : q / 2 ^ exponent q = (m : ℚ) := by
    rw [div_eq_iff hpow]
    exact hm
  have hv : ((roundHalfEven (q / 2 ^ exponent q) : ℤ) : ℚ) * 2 ^ exponent q = q := by
    rw [hdiv, roundHalfEven_intCast, ← hm]
  unfold round
  simp only [hv, hq, ↓reduceIte]

/-- Integers below `2 ^ 53` are multiples of their last bit. -/
theorem exponent_nonpos {n : ℕ} (hn : n < 2 ^ 53) : exponent (n : ℚ) ≤ 0 := by
  unfold exponent
  rw [Nat.abs_cast, max_le_iff]
  refine ⟨?_, by omega⟩
  rcases Nat.eq_zero_or_pos n with rfl | hpos
  · simp
  · have hlog : Int.log 2 (n : ℚ) < 53 := by
      rw [← Int.lt_zpow_iff_log_lt (by norm_num) (by exact_mod_cast hpos)]
      exact_mod_cast hn
    omega

theorem round_natCast {n : ℕ} (hn : n < 2 ^ 53) : round (n : ℚ) = ofNat n := by
  have hk := exponent_nonpos hn
  obtain ⟨j, hj⟩ := Int.eq_ofNat_of_zero_le (neg_nonneg.mpr hk)
  have hj' : exponent (n : ℚ) = -(j : ℤ) := by omega
  refine round_eq (m := n * 2 ^ j) ?_ ?_
  · rw [hj', zpow_neg, zpow_natCast]
    push_cast
    field_simp
  · rw [Nat.abs_cast]
    have hlt : (n : ℚ) < 2 ^ 53 := by exact_mod_cast hn
    exact hlt.trans (pow_lt_pow_right₀ (by norm_num) (by norm_num))

/-- The first integers beyond the safe ones have 2 for their last bit. -/
theorem exponent_eq {n : ℕ} (hlo : 2 ^ 53 ≤ n) (hhi : n < 2 ^ 54) : exponent (n : ℚ) = 1 := by
  have hpos : (0 : ℚ) < n := by
    have : 0 < n := lt_of_lt_of_le (by norm_num) hlo
    exact_mod_cast this
  have hge : 53 ≤ Int.log 2 (n : ℚ) := by
    rw [← Int.zpow_le_iff_le_log (by norm_num) hpos]
    exact_mod_cast hlo
  have hlt : Int.log 2 (n : ℚ) < 54 := by
    rw [← Int.lt_zpow_iff_log_lt (by norm_num) hpos]
    exact_mod_cast hhi
  unfold exponent
  rw [Nat.abs_cast]
  omega

/-- Which natural numbers below `2 ^ 54` are binary64 values. -/
def Exact (n : ℕ) : Prop := n ≤ 2 ^ 53 ∨ 2 ∣ n

theorem round_natCast_iff {n : ℕ} (hn : n < 2 ^ 54) : round (n : ℚ) = ofNat n ↔ Exact n := by
  -- every number of 53 bits is exact; beyond, the last bit is lost
  rcases Nat.lt_or_ge n (2 ^ 53) with hlt | hge
  · exact ⟨fun _ => .inl hlt.le, fun _ => round_natCast hlt⟩
  · have hk := exponent_eq hge hn
    constructor
    · intro hr
      right
      unfold round at hr
      simp only at hr
      split at hr
      · rw [hk] at hr
        -- what is rounded to is a multiple of two
        have hv := Number.finite.inj hr
        rw [zpow_one] at hv
        have hz : roundHalfEven ((n : ℚ) / 2 ^ (1 : ℤ)) * 2 = (n : ℤ) := by exact_mod_cast hv
        omega
      · cases hr
    · intro h
      have heven : 2 ∣ n := by
        rcases h with h | h
        · exact (le_antisymm h hge) ▸ ⟨2 ^ 52, by norm_num⟩
        · exact h
      obtain ⟨m, rfl⟩ := heven
      refine round_eq (m := m) ?_ ?_
      · rw [hk, zpow_one]
        push_cast
        ring
      · rw [Nat.abs_cast]
        have hlt : ((2 * m : ℕ) : ℚ) < 2 ^ 54 := by exact_mod_cast hn
        exact hlt.trans (pow_lt_pow_right₀ (by norm_num) (by norm_num))

/-- A natural number is rounded to a natural number. -/
theorem round_natCast_nat {n : ℕ} (hn : n < 2 ^ 54) : ∃ m : ℕ, round (n : ℚ) = ofNat m := by
  rcases Nat.lt_or_ge n (2 ^ 53) with hlt | hge
  · exact ⟨n, round_natCast hlt⟩
  · have hk := exponent_eq hge hn
    have hbounds : 0 ≤ roundHalfEven ((n : ℚ) / 2) ∧ roundHalfEven ((n : ℚ) / 2) ≤ 2 ^ 53 := by
      have hfloor : ⌊(n : ℚ) / 2⌋ = (n / 2 : ℕ) := by
        rw [Int.floor_eq_iff]
        have hdiv : ((n / 2 : ℕ) : ℚ) = (n : ℚ) / 2 - (n % 2 : ℕ) / 2 := by
          have hsum : ((2 * (n / 2) + n % 2 : ℕ) : ℚ) = n := by rw [Nat.div_add_mod]
          push_cast at hsum
          linarith
        have hmod : ((n % 2 : ℕ) : ℚ) ≤ 1 := by
          exact_mod_cast Nat.le_of_lt_succ (Nat.mod_lt n two_pos)
        have hmod0 : (0 : ℚ) ≤ ((n % 2 : ℕ) : ℚ) := Nat.cast_nonneg _
        rw [Int.cast_natCast, hdiv]
        constructor <;> linarith
      unfold roundHalfEven
      simp only [hfloor]
      split
      · omega
      · split
        · omega
        · split <;> omega
    obtain ⟨m, hm⟩ := Int.eq_ofNat_of_zero_le hbounds.1
    refine ⟨m * 2, ?_⟩
    unfold round
    simp only [hk, zpow_one, hm]
    have hle : m ≤ 2 ^ 53 := by omega
    have hsmall : |((m : ℤ) : ℚ) * 2| < 2 ^ 1024 := by
      have hcast : ((m : ℤ) : ℚ) * 2 = ((m * 2 : ℕ) : ℚ) := by push_cast; rfl
      have hlt : ((m * 2 : ℕ) : ℚ) < 2 ^ 55 := by
        have hnat : m * 2 < 2 ^ 55 := by omega
        exact_mod_cast hnat
      rw [hcast, Nat.abs_cast]
      exact hlt.trans (pow_lt_pow_right₀ (by norm_num) (by norm_num))
    rw [if_pos hsmall, ofNat]
    push_cast
    rfl

/-- From `2 ^ 53` on, rounding stays there. -/
theorem le_of_round {n : ℕ} {v : ℚ} (hn : 2 ^ 53 ≤ n) (hv : round (n : ℚ) = .finite v) :
    2 ^ 53 ≤ v := by
  have hpos : (0 : ℚ) < n := by
    have : 0 < n := lt_of_lt_of_le (by norm_num) hn
    exact_mod_cast this
  -- the last bit is at least 2, and the mantissa at least `2 ^ 52`
  have hlog : 53 ≤ Int.log 2 (n : ℚ) := by
    rw [← Int.zpow_le_iff_le_log (by norm_num) hpos]
    exact_mod_cast hn
  have hk : exponent (n : ℚ) = Int.log 2 (n : ℚ) - 52 := by
    unfold exponent
    rw [Nat.abs_cast]
    omega
  have hpow : (0 : ℚ) < 2 ^ exponent (n : ℚ) := zpow_pos (by norm_num) _
  have hmant : (2 : ℚ) ^ 52 ≤ n / 2 ^ exponent (n : ℚ) := by
    rw [le_div_iff₀ hpow, hk, ← zpow_natCast, ← zpow_add₀ two_ne_zero]
    have hle := Int.zpow_log_le_self (b := 2) (by norm_num) hpos
    have hexp : ((52 : ℕ) : ℤ) + (Int.log 2 (n : ℚ) - 52) = Int.log 2 (n : ℚ) := by
      push_cast
      omega
    rw [hexp]
    exact_mod_cast hle
  have hround : (2 : ℤ) ^ 52 ≤ roundHalfEven (n / 2 ^ exponent (n : ℚ)) := by
    have hfloor : (2 : ℤ) ^ 52 ≤ ⌊(n : ℚ) / 2 ^ exponent (n : ℚ)⌋ := by
      rw [Int.le_floor]
      exact_mod_cast hmant
    unfold roundHalfEven
    simp only
    split
    · exact hfloor
    · split
      · omega
      · split <;> omega
  have htwo : (2 : ℚ) ≤ 2 ^ exponent (n : ℚ) := by
    have hone : (1 : ℤ) ≤ exponent (n : ℚ) := by omega
    have hmono := zpow_le_zpow_right₀ (a := (2 : ℚ)) (by norm_num) hone
    simpa using hmono
  have hvalue : (2 : ℚ) ^ 53
      ≤ (roundHalfEven (n / 2 ^ exponent (n : ℚ)) : ℚ) * 2 ^ exponent (n : ℚ) := by
    have hround' : (2 : ℚ) ^ 52 ≤ roundHalfEven (n / 2 ^ exponent (n : ℚ)) := by
      exact_mod_cast hround
    calc (2 : ℚ) ^ 53 = 2 ^ 52 * 2 := by norm_num
      _ ≤ _ := mul_le_mul hround' htwo (by norm_num) (le_trans (by norm_num) hround')
  unfold round at hv
  simp only at hv
  split at hv
  · exact (Number.finite.inj hv) ▸ hvalue
  · cases hv

/-! ## Counting in safe integers -/

@[simp] theorem isInteger_ofNat (n : ℕ) : (ofNat n).isInteger = true := by
  simp [isInteger, ofNat, Rat.isInt]

@[simp] theorem isSafeInteger_ofNat (n : ℕ) : (ofNat n).isSafeInteger = decide (n ≤ maxSafe) := by
  simp [isSafeInteger, ofNat, Rat.isInt]

@[simp] theorem toBigInt_ofNat (n : ℕ) : (ofNat n).toBigInt = some (n : ℤ) := by
  simp [toBigInt, ofNat, Rat.isInt]

@[simp] theorem lt_ofNat (a b : ℕ) : (ofNat a).lt (ofNat b) = decide (a < b) := by
  simp [lt, ofNat]

@[simp] theorem eq_ofNat (a b : ℕ) : (ofNat a).eq (ofNat b) = decide (a = b) := by
  simp [eq, ofNat]

@[simp] theorem le_ofNat (a b : ℕ) : (ofNat a).le (ofNat b) = decide (a ≤ b) := by
  rw [le, lt_ofNat, eq_ofNat, ← Bool.decide_or]
  exact decide_eq_decide.mpr Nat.le_iff_lt_or_eq.symm

@[simp] theorem ofNat_inj {a b : ℕ} : ofNat a = ofNat b ↔ a = b := by
  simp [ofNat]

theorem min_ofNat (a b : ℕ) : (ofNat a).min (ofNat b) = ofNat (Nat.min a b) := by
  have hnan : ¬ (ofNat a = .nan ∨ ofNat b = .nan) := by simp [ofNat]
  rw [min, if_neg hnan, lt_ofNat]
  by_cases h : a < b
  · rw [if_pos (by simpa using h)]
    exact congrArg ofNat (Nat.min_eq_left h.le).symm
  · rw [if_neg (by simpa using h)]
    exact congrArg ofNat (Nat.min_eq_right (by omega)).symm

/-- A sum in the safe range is exact. -/
theorem add_ofNat {a b : ℕ} (h : a + b ≤ maxSafe) : (ofNat a).add (ofNat b) = ofNat (a + b) := by
  have hsum : ((a : ℚ) + b) = ((a + b : ℕ) : ℚ) := by push_cast; rfl
  rw [ofNat, ofNat, add, hsum]
  exact round_natCast (by unfold maxSafe at h; omega)

/-- **A sum of safe integers is exact if it is a binary64 value**, and wrong otherwise. -/
theorem add_ofNat_iff {a b : ℕ} (h : a + b < 2 ^ 54) :
    (ofNat a).add (ofNat b) = ofNat (a + b) ↔ Exact (a + b) := by
  have hsum : ((a : ℚ) + b) = ((a + b : ℕ) : ℚ) := by push_cast; rfl
  rw [ofNat, ofNat, add, hsum]
  exact round_natCast_iff h

/-- A difference of safe integers that is not negative is exact. -/
theorem sub_ofNat {a b : ℕ} (hb : b ≤ a) (ha : a ≤ maxSafe) :
    (ofNat a).sub (ofNat b) = ofNat (a - b) := by
  have hdiff : ((a : ℚ) + -(b : ℚ)) = ((a - b : ℕ) : ℚ) := by
    rw [Nat.cast_sub hb]
    exact (sub_eq_add_neg _ _).symm
  rw [sub, ofNat, ofNat, neg, add, hdiff]
  exact round_natCast (by unfold maxSafe at ha; omega)

/-- **A sum that leaves the safe range is no safe integer**, however it is rounded. -/
theorem isSafeInteger_add (a b : ℕ) :
    ((ofNat a).add (ofNat b)).isSafeInteger = decide (a + b ≤ maxSafe) := by
  by_cases h : a + b ≤ maxSafe
  · rw [add_ofNat h, isSafeInteger_ofNat]
  · have hsum : ((a : ℚ) + b) = ((a + b : ℕ) : ℚ) := by push_cast; rfl
    rw [ofNat, ofNat, add, hsum, decide_eq_false h]
    cases hv : round ((a + b : ℕ) : ℚ) with
    | nan => rfl
    | infinity s => rfl
    | finite v =>
      have hle := le_of_round (by unfold maxSafe at h; omega) hv
      have hgt : (maxSafe : ℚ) < |v| := by
        refine lt_of_lt_of_le ?_ (le_abs_self v)
        refine lt_of_lt_of_le ?_ hle
        norm_num [maxSafe]
      simp only [isSafeInteger, Bool.and_eq_false_iff, decide_eq_false_iff_not, not_le]
      exact .inr hgt

/-! ## Counts -/

/-- The natural number that a `number` is, if it is one. -/
def toNat : Number → ℕ
  | .finite q => q.num.toNat
  | _ => 0

@[simp] theorem toNat_ofNat (n : ℕ) : (ofNat n).toNat = n := by
  simp [toNat, ofNat]

/-- A safe integer that is not negative. -/
def IsCount (v : Number) : Prop := v = ofNat v.toNat ∧ v.toNat ≤ maxSafe

instance (v : Number) : Decidable v.IsCount := inferInstanceAs (Decidable (_ ∧ _))

@[simp] theorem isCount_ofNat {n : ℕ} : (ofNat n).IsCount ↔ n ≤ maxSafe := by
  simp [IsCount]

theorem IsCount.of_eq {v : Number} {n : ℕ} (h : v = ofNat n) (hn : n ≤ maxSafe) : v.IsCount := by
  rw [h, isCount_ofNat]
  exact hn

/-- The test for a count that programs make. -/
theorem isCount_iff {v : Number} :
    v.IsCount ↔ v.isInteger = true ∧ (ofNat 0).le v = true ∧ v.isSafeInteger = true := by
  constructor
  · rintro ⟨h, hle⟩
    rw [h, isInteger_ofNat, le_ofNat, isSafeInteger_ofNat]
    exact ⟨rfl, by simp, decide_eq_true hle⟩
  · intro h
    cases v with
    | nan => cases h.1
    | infinity s => cases h.1
    | finite q =>
      -- an integer has the denominator one, so it is its numerator
      obtain ⟨hint, hpos, hsafe⟩ := h
      simp only [le, lt, eq, ofNat, Nat.cast_zero, Bool.or_eq_true, decide_eq_true_eq] at hpos
      simp only [isSafeInteger, Bool.and_eq_true, decide_eq_true_eq] at hsafe
      have hq0 : 0 ≤ q := hpos.elim le_of_lt le_of_eq
      have hnum : (q.num : ℚ) = q := (Rat.den_eq_one_iff q).mp (by
        simpa [isInteger, Rat.isInt] using hint)
      obtain ⟨n, hn⟩ := Int.eq_ofNat_of_zero_le (Rat.num_nonneg.mpr hq0)
      have hq : q = n := by rw [← hnum, hn, Int.cast_natCast]
      have hle : n ≤ maxSafe := by
        have habs := hsafe.2
        rw [hq, Nat.abs_cast] at habs
        exact_mod_cast habs
      rw [hq]
      exact isCount_ofNat.mpr hle

/-- A safe integer that is at least one. -/
theorem eq_ofNat_of_safe {v : Number} (hsafe : v.isSafeInteger = true)
    (hone : v.lt (ofNat 1) = false) : ∃ n, v = ofNat n := by
  cases v with
  | nan => cases hsafe
  | infinity s => cases hsafe
  | finite q =>
    simp only [lt, ofNat, Nat.cast_one, decide_eq_false_iff_not, not_lt] at hone
    simp only [isSafeInteger, Bool.and_eq_true, decide_eq_true_eq] at hsafe
    have hnum : (q.num : ℚ) = q := (Rat.den_eq_one_iff q).mp (by simpa [Rat.isInt] using hsafe.1)
    have hq0 : 0 ≤ q := le_trans zero_le_one hone
    obtain ⟨n, hn⟩ := Int.eq_ofNat_of_zero_le (Rat.num_nonneg.mpr hq0)
    refine ⟨n, ?_⟩
    rw [← hnum, hn, Int.cast_natCast]
    rfl

section Counts

variable {u v : Number}

theorem eq_of_eq (h : u.eq v = true) : u = v := by
  cases u <;> cases v <;> first | cases h | exact congrArg _ (of_decide_eq_true h)

/-- A sum of counts that is a count is exact. -/
theorem IsCount.add_eq (hu : u.IsCount) (hv : v.IsCount) (h : u.toNat + v.toNat ≤ maxSafe) :
    u.add v = ofNat (u.toNat + v.toNat) := by
  rw [hu.1, hv.1, toNat_ofNat, toNat_ofNat, add_ofNat h]

theorem IsCount.add_iff (hu : u.IsCount) (hv : v.IsCount) :
    (u.add v).IsCount ↔ u.toNat + v.toNat ≤ maxSafe := by
  constructor
  · intro h
    have hsafe := (isCount_iff.mp h).2.2
    rw [hu.1, hv.1, isSafeInteger_add] at hsafe
    exact of_decide_eq_true hsafe
  · intro h
    rw [hu.add_eq hv h]
    exact isCount_ofNat.mpr h

/-- A difference of counts that is not negative is exact. -/
theorem IsCount.sub_eq (hu : u.IsCount) (hv : v.IsCount) (h : v.toNat ≤ u.toNat) :
    u.sub v = ofNat (u.toNat - v.toNat) := by
  have hsub := sub_ofNat h hu.2
  rwa [← hu.1, ← hv.1] at hsub

/-- A sum of counts is a natural number, if not the right one. -/
theorem IsCount.add_nat (hu : u.IsCount) (hv : v.IsCount) : ∃ m : ℕ, u.add v = ofNat m := by
  have hsum : ((u.toNat : ℚ) + v.toNat) = ((u.toNat + v.toNat : ℕ) : ℚ) := by push_cast; rfl
  have hlt : u.toNat + v.toNat < 2 ^ 54 := by
    have hu' := hu.2
    have hv' := hv.2
    unfold maxSafe at hu' hv'
    omega
  obtain ⟨m, hm⟩ := round_natCast_nat hlt
  refine ⟨m, ?_⟩
  rw [hu.1, hv.1, ofNat, ofNat, add, hsum]
  exact hm

theorem IsCount.lt_iff (hu : u.IsCount) (hv : v.IsCount) : u.lt v = false ↔ v.toNat ≤ u.toNat := by
  rw [hu.1, hv.1, lt_ofNat, toNat_ofNat, toNat_ofNat, decide_eq_false_iff_not, not_lt]

theorem IsCount.le_iff (hu : u.IsCount) (hv : v.IsCount) : u.le v = false ↔ v.toNat < u.toNat := by
  rw [hu.1, hv.1, le_ofNat, toNat_ofNat, toNat_ofNat, decide_eq_false_iff_not, not_le]

theorem IsCount.eq_iff (hu : u.IsCount) (hv : v.IsCount) : u.eq v = true ↔ u.toNat = v.toNat := by
  rw [hu.1, hv.1, eq_ofNat, toNat_ofNat, toNat_ofNat, decide_eq_true_iff]

theorem IsCount.min_eq (hu : u.IsCount) (hv : v.IsCount) :
    u.min v = ofNat (Min.min u.toNat v.toNat) := by
  have hmin := min_ofNat u.toNat v.toNat
  rwa [← hu.1, ← hv.1] at hmin

end Counts

end Number
