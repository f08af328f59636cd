import Mathlib.Data.List.Induction
import Mathlib.Tactic.Common
import Mathlib.Tactic.IntervalCases

/-!
# Decimal numerals

The texts of whole numbers, as JavaScript prints and reads a `bigint`: no leading zero,
a sign only in front of a number below zero.

Such a text is canonical: a number has exactly one. So reading what was printed gives the number
back (`readInt_printInt`), and printing what was read gives the text back (`toDigits_read`), which
is what makes two accepted texts of one number the same text (`read_inj`). Both directions go by
the last digit, since that is the digit a division by ten splits off; the first digit is followed
through the induction, since that is the one that must not be zero.
-/

namespace Decimal

/-- `0|[1-9][0-9]*`. -/
def canonical : List Char → Bool
  | [] => false
  | c :: cs => if c = '0' then cs.isEmpty else c.isDigit && cs.all Char.isDigit

/-- The number a numeral stands for. -/
def read (cs : List Char) : ℕ := Nat.ofDigitChars 10 cs 0

/-- `value.toString()`. -/
def printInt : ℤ → String
  | .ofNat n => .ofList (Nat.toDigits 10 n)
  | .negSucc n => .ofList ('-' :: Nat.toDigits 10 (n + 1))

/-- `BigInt(value)` for the texts `0|-?[1-9][0-9]*`; nothing for others. -/
def readInt (s : String) : Option ℤ :=
  match s.toList with
  | '-' :: cs => if canonical cs && cs != ['0'] then some (-(read cs : ℤ)) else none
  | cs => if canonical cs then some (read cs : ℤ) else none

theorem digitChar_spec {d : ℕ} (hd : d < 10) :
    (Nat.digitChar d).isDigit = true ∧ (Nat.digitChar d = '0' ↔ d = 0) ∧ Nat.digitChar d ≠ '-' := by
  interval_cases d <;> decide

/-- The first digit of a printed number is zero only for zero. -/
theorem toDigits_cons (n : ℕ) : ∃ c cs, Nat.toDigits 10 n = c :: cs ∧ c.isDigit = true ∧ c ≠ '-'
    ∧ (c = '0' ↔ n = 0) := by
  induction n using Nat.strongRecOn with
  | ind n ih =>
      rcases Nat.lt_or_ge n 10 with hlt | hge
      · obtain ⟨hd, h0, hm⟩ := digitChar_spec hlt
        exact ⟨_, [], Nat.toDigits_of_lt_base hlt, hd, hm, h0⟩
      · -- the first digit is that of the number without its last digit
        obtain ⟨c, cs, hc, hd, hm, h0⟩ := ih (n / 10) (by omega)
        refine ⟨c, cs ++ [Nat.digitChar (n % 10)], ?_, hd, hm, ?_⟩
        · rw [Nat.toDigits_of_base_le (by omega) hge, hc, List.cons_append]
        · rw [h0]
          omega

theorem canonical_toDigits (n : ℕ) : canonical (Nat.toDigits 10 n) = true := by
  obtain ⟨c, cs, hc, hd, -, h0⟩ := toDigits_cons n
  -- zero is the one numeral that begins with the digit zero
  by_cases hn : n = 0
  · rw [hn, Nat.toDigits_zero]
    rfl
  · have hall : ∀ x ∈ cs, x.isDigit = true := by
      intro x hx
      refine Nat.isDigit_of_mem_toDigits (b := 10) (n := n) (by omega) (by omega) ?_
      rw [hc]
      exact List.mem_cons_of_mem _ hx
    rw [hc, canonical, if_neg (fun h => hn (h0.mp h)), hd, List.all_eq_true.mpr hall]
    rfl

theorem digitChar_of_isDigit {c : Char} (h : c.isDigit = true) :
    ∃ d < 10, c = Nat.digitChar d := by
  have hc : 48 ≤ c.toNat ∧ c.toNat ≤ 57 := by simpa [Char.isDigit, UInt32.le_iff_toNat_le] using h
  have hlt : c.toNat - 48 < 10 := by omega
  refine ⟨c.toNat - 48, hlt, ?_⟩
  rw [← Char.ofNat_toNat c]
  generalize c.toNat = n at hc
  obtain ⟨h1, h2⟩ := hc
  interval_cases n <;> decide

/-- All digits but the last are a numeral too, and not zero. -/
theorem canonical_init {cs : List Char} {c : Char} (hne : cs ≠ [])
    (h : canonical (cs ++ [c]) = true) : canonical cs = true ∧ cs.head hne ≠ '0' := by
  cases cs with
  | nil => exact absurd rfl hne
  | cons x xs =>
      rw [List.cons_append, canonical] at h
      -- a numeral that begins with zero is that digit alone, and this one has two
      by_cases hx : x = '0'
      · rw [if_pos hx] at h
        simp at h
      · rw [if_neg hx, List.all_append, Bool.and_eq_true, Bool.and_eq_true] at h
        refine ⟨?_, hx⟩
        rw [canonical, if_neg hx, h.1, h.2.1]
        rfl

/-- **Printing undoes reading.** -/
theorem toDigits_read {cs : List Char} (h : canonical cs = true) :
    Nat.toDigits 10 (read cs) = cs := by
  induction cs using List.reverseRecOn with
  | nil => cases h
  | append_singleton cs c ih =>
      -- the last character of a numeral is a digit
      have hdigit : c.isDigit = true := by
        cases cs with
        | nil =>
            rw [List.nil_append, canonical] at h
            by_cases hc : c = '0'
            · rw [hc]
              rfl
            · rw [if_neg hc, Bool.and_eq_true] at h
              exact h.1
        | cons x xs =>
            rw [List.cons_append, canonical] at h
            by_cases hx : x = '0'
            · rw [if_pos hx] at h
              simp at h
            · rw [if_neg hx, List.all_append, Bool.and_eq_true, Bool.and_eq_true] at h
              simpa using h.2.2
      obtain ⟨d, hd, rfl⟩ := digitChar_of_isDigit hdigit
      -- so what is read is ten times the rest, and that digit
      have hread : read (cs ++ [Nat.digitChar d]) = 10 * read cs + d := by
        rw [read, Nat.ofDigitChars_append, Nat.ofDigitChars_cons_digitChar_of_lt_ten hd,
          Nat.ofDigitChars_nil]
        rfl
      -- one digit is printed as it is; of more, the division by ten gives back the rest
      by_cases hne : cs = []
      · rw [hread, hne]
        simp [read, Nat.toDigits_of_lt_base hd]
      · obtain ⟨hcan, hhead⟩ := canonical_init hne h
        have ih := ih hcan
        -- the rest is not zero, or the numeral would begin with a zero
        have hpos : read cs ≠ 0 := by
          intro hzero
          rw [hzero, Nat.toDigits_zero] at ih
          subst ih
          exact hhead rfl
        rw [hread, Nat.toDigits_of_base_le (by omega) (by omega)]
        rw [show (10 * read cs + d) / 10 = read cs by omega,
          show (10 * read cs + d) % 10 = d by omega, ih]

theorem read_inj {a b : List Char} (ha : canonical a = true) (hb : canonical b = true)
    (h : read a = read b) : a = b := by
  rw [← toDigits_read ha, h, toDigits_read hb]

theorem readInt_printInt (z : ℤ) : readInt (printInt z) = some z := by
  cases z with
  | ofNat n =>
      obtain ⟨c, cs, hc, -, hm, -⟩ := toDigits_cons n
      have hcan := canonical_toDigits n
      have hread : read (Nat.toDigits 10 n) = n := Nat.ofDigitChars_ten_toDigits
      unfold readInt printInt
      rw [String.toList_ofList]
      -- a printed natural number does not begin with a sign
      split
      · rename_i heq
        rw [hc] at heq
        exact absurd (List.cons.inj heq).1 hm
      · rw [if_pos hcan, hread]
        rfl
  | negSucc n =>
      obtain ⟨c, cs, hc, -, -, h0⟩ := toDigits_cons (n + 1)
      have hcan := canonical_toDigits (n + 1)
      have hread : read (Nat.toDigits 10 (n + 1)) = n + 1 := Nat.ofDigitChars_ten_toDigits
      -- the digits after the sign are not those of zero, which has no sign
      have hne : (Nat.toDigits 10 (n + 1) != ['0']) = true := by
        rw [bne_iff_ne, hc]
        intro h
        have := h0.mp (List.cons.inj h).1
        omega
      unfold readInt printInt
      rw [String.toList_ofList]
      simp only [hcan, hne, Bool.and_self, ↓reduceIte, hread]
      rfl

end Decimal
