import Line.Lib.Checked
import Line.Lib.Limbs
import Line.Signer.Approval
import Mathlib.Data.ZMod.Basic

/-!
# The challenge of an approval

`scalarField` and `requireApproval` of
`contracts/experimental/line-private-offer-addressed.compact`. A challenge is an element of the
native field, but multiplies a point of a group of a smaller order, so the circuit reduces it. The
division is answered by witnesses and checked in limbs of 128 bits. What is computed in a circuit
is an element of the field, integers as well: the type of an integer expression has its range
(`Ranged`), and equal integers are equal elements.

The question is whether the witnesses can lie. An equation in the field is one between integers as
long as both sides stay below the prime, which the ranges of the types say (`low_iff`, `high_iff`);
over the integers the two limb equations with one carry are the division with remainder, for which
there is only one answer (`Limbs.division_iff`). So the checks pass for exactly one tuple of
witnesses (`reduceChallenge_ok_iff`), and the signer computes it (`sign_divides`).
-/

namespace Line.Signer.Circuit

open Checked

/-! ## The field, and integers in it -/

/-- The prime of the native field. -/
def FIELD : ℕ := 52435875175126190479447740508185965837690552500527637822603658699938581184513

/-- `Field`. -/
abbrev Field : Type := ZMod FIELD

/-- `Uint<0..max>`: a sum and a product have the range of their largest value. -/
structure Ranged (max : ℕ) where
  val : ℕ
  le : val ≤ max

namespace Ranged

variable {m n : ℕ}

def ofUint {w : ℕ} (a : Uint w) : Ranged (2 ^ w - 1) := ⟨a.val, Nat.le_sub_one_of_lt a.isLt⟩

def literal (n : ℕ) : Ranged n := ⟨n, le_rfl⟩

def add (a : Ranged m) (b : Ranged n) : Ranged (m + n) := ⟨a.val + b.val, Nat.add_le_add a.le b.le⟩

def mul (a : Ranged m) (b : Ranged n) : Ranged (m * n) := ⟨a.val * b.val, Nat.mul_le_mul a.le b.le⟩

/-- `a as Field`. -/
def toField (a : Ranged m) : Field := a.val

/-- **Equal elements are equal integers**, as long as the ranges are below the prime. -/
theorem toField_eq_iff {a : Ranged m} {b : Ranged n} (hm : m < FIELD) (hn : n < FIELD) :
    a.toField = b.toField ↔ a.val = b.val := by
  have ha := a.le
  have hb := b.le
  rw [toField, toField, ZMod.natCast_eq_natCast_iff', Nat.mod_eq_of_lt (by omega),
    Nat.mod_eq_of_lt (by omega)]

end Ranged

/-! ## The circuit -/

def radix : ℕ := 340282366920938463463374607431768211456

/-- The limbs of the order of the group. -/
def qLo : ℕ := 221192506920607668564158609621008198839
def qHi : ℕ := 19261898452744832053602769315862690560

/-- The limbs of the prime of the field. -/
def pLo : ℕ := 111310594309268602877181240610339684353
def pHi : ℕ := 154095187621958656428822154526901524485

/-- `ScalarWords`. -/
@[ext]
structure ScalarWords where
  lo : Uint 128
  hi : Uint 128

/-- The number that the words spell. -/
def ScalarWords.value (words : ScalarWords) : ℕ := Limbs.value radix words.lo.val words.hi.val

/-- What the witnesses answer about a challenge. -/
@[ext]
structure Reduction where
  challengeWords : ScalarWords
  challengeQuotient : Uint 4
  challengeRemainder : ScalarWords
  challengeCarry : Uint 4

/-- `scalarField`. -/
def scalarField (words : ScalarWords) : Checked Field := do
  assert (words.hi.val < qHi ∨ words.hi.val = qHi ∧ words.lo.val < qLo) "approval scalar range"
  pure (words.hi.val * (340282366920938463463374607431768211456 : ℕ) + words.lo.val)

namespace Reduction

variable (w : Reduction)

/-- `quotient * qLo + remainder.lo`. -/
def lowLeft : Ranged ((2 ^ 4 - 1) * qLo + (2 ^ 128 - 1)) :=
  ((Ranged.ofUint w.challengeQuotient).mul (.literal qLo)).add (.ofUint w.challengeRemainder.lo)

/-- `h.lo + carry * radix`. -/
def lowRight : Ranged (2 ^ 128 - 1 + (2 ^ 4 - 1) * radix) :=
  (Ranged.ofUint w.challengeWords.lo).add ((Ranged.ofUint w.challengeCarry).mul (.literal radix))

/-- `quotient * qHi + remainder.hi + carry`. -/
def highLeft : Ranged ((2 ^ 4 - 1) * qHi + (2 ^ 128 - 1) + (2 ^ 4 - 1)) :=
  (((Ranged.ofUint w.challengeQuotient).mul (.literal qHi)).add
    (.ofUint w.challengeRemainder.hi)).add (.ofUint w.challengeCarry)

/-- `h.hi`. -/
def highRight : Ranged (2 ^ 128 - 1) := .ofUint w.challengeWords.hi

/-- The integer expressions of the two equations, with their ranges. -/
def integers : List (Σ max, Ranged max) :=
  [⟨_, (Ranged.ofUint w.challengeQuotient).mul (.literal qLo)⟩, ⟨_, w.lowLeft⟩,
    ⟨_, (Ranged.ofUint w.challengeCarry).mul (.literal radix)⟩, ⟨_, w.lowRight⟩,
    ⟨_, (Ranged.ofUint w.challengeQuotient).mul (.literal qHi)⟩,
    ⟨_, ((Ranged.ofUint w.challengeQuotient).mul (.literal qHi)).add
      (.ofUint w.challengeRemainder.hi)⟩,
    ⟨_, w.highLeft⟩, ⟨_, w.highRight⟩]

end Reduction

/-- The part of `requireApproval` that reduces the challenge. -/
def reduceChallenge (challenge : Field) (w : Reduction) : Checked Field := do
  let reduced ← scalarField w.challengeRemainder
  let h := w.challengeWords
  assert (h.hi.val < pHi ∨ h.hi.val = pHi ∧ h.lo.val < pLo) "approval canonical challenge"
  assert ((h.hi.val : Field) * (radix : Field) + h.lo.val = challenge) "approval challenge words"
  assert (w.lowLeft.toField = w.lowRight.toField) "approval low reduction"
  assert (w.highLeft.toField = w.highRight.toField) "approval high reduction"
  pure reduced

/-- The curve and the hashes of the standard library. -/
structure Library (π : Type) where
  jubjubPointX : π → Field
  jubjubPointY : π → Field
  ecMulGenerator : Field → π
  ecMul : π → Field → π
  ecAdd : π → π → π
  persistentHash : List Bytes → Bytes
  transientHash : π → Field
  upgradeFromTransient : Field → Bytes
  degradeToTransient : Bytes → Field
  pad : String → Bytes

/-- What the witnesses answer to `requireApproval`. -/
structure Approval (π : Type) where
  rolePublicKey : π
  announcement : π
  response : ScalarWords
  reduction : Reduction

variable {π : Type}

/-- `samePoint`. -/
def samePoint (lib : Library π) (a b : π) : Prop :=
  lib.jubjubPointX a = lib.jubjubPointX b ∧ lib.jubjubPointY a = lib.jubjubPointY b

instance (lib : Library π) (a b : π) : Decidable (samePoint lib a b) :=
  inferInstanceAs (Decidable (_ ∧ _))

/-- The challenge of a message under a key and an announcement. -/
def challengeOf (lib : Library π) (message : Bytes) (pk announcement : π) : Field :=
  lib.degradeToTransient (lib.persistentHash [message,
    lib.upgradeFromTransient (lib.transientHash pk),
    lib.upgradeFromTransient (lib.transientHash announcement)])

/-- `requireApproval`: the authorizations after it. -/
def requireApproval (lib : Library π) (contractDomain message : Bytes) (w : Approval π)
    (authorizations : Finset Bytes) : Checked (Finset Bytes) := do
  let pk := w.rolePublicKey
  let identity := lib.ecMulGenerator 0
  assert (¬ samePoint lib pk identity ∧ ¬ samePoint lib w.announcement identity)
    "identity approval key/nonce"
  let qm1 : Field := (qHi : Field) * (radix : Field) + ((qLo - 1 : ℕ) : Field)
  assert (samePoint lib (lib.ecAdd (lib.ecMul pk qm1) pk) identity) "approval key subgroup"
  assert (samePoint lib (lib.ecAdd (lib.ecMul w.announcement qm1) w.announcement) identity)
    "approval nonce subgroup"
  let response ← scalarField w.response
  let reduced ← reduceChallenge (challengeOf lib message pk w.announcement) w.reduction
  let lhs := lib.ecMulGenerator response
  let rhs := lib.ecAdd w.announcement (lib.ecMul pk reduced)
  assert (samePoint lib lhs rhs) "approval signature"
  let N := lib.persistentHash [lib.pad "line:signed:used", contractDomain, message]
  assert (N ∉ authorizations) "approval replay"
  pure (insert N authorizations)

/-! ## Ranges -/

/-- The limbs of the order, and those of the prime. -/
theorem order_value : Limbs.value radix qLo qHi = ORDER := by decide

theorem field_value : Limbs.value radix pLo pHi = FIELD := by decide

theorem radix_eq : radix = 2 ^ 128 := by decide

theorem Uint.lt_radix (a : Uint 128) : a.val < radix := by
  rw [radix_eq]
  exact a.isLt

/-- The range test of `scalarField` is that the number is below the order. -/
theorem scalar_lt_iff (words : ScalarWords) :
    (words.hi.val < qHi ∨ words.hi.val = qHi ∧ words.lo.val < qLo) ↔ words.value < ORDER := by
  rw [← order_value, ScalarWords.value,
    Limbs.value_lt_iff (Uint.lt_radix words.lo) (by decide)]

theorem canonical_lt_iff (words : ScalarWords) :
    (words.hi.val < pHi ∨ words.hi.val = pHi ∧ words.lo.val < pLo) ↔ words.value < FIELD := by
  rw [← field_value, ScalarWords.value,
    Limbs.value_lt_iff (Uint.lt_radix words.lo) (by decide)]

theorem ScalarWords.value_inj {a b : ScalarWords} (h : a.value = b.value) : a = b := by
  obtain ⟨hlo, hhi⟩ := (Limbs.value_inj (Uint.lt_radix a.lo) (Uint.lt_radix b.lo)).mp h
  exact ScalarWords.ext (Uint.val_inj.mp hlo) (Uint.val_inj.mp hhi)

/-- The words of a number below the prime. -/
theorem exists_words {n : ℕ} (hn : n < FIELD) : ∃ a : ScalarWords,
    a.lo.val = n % 2 ^ 128 ∧ a.hi.val = n / 2 ^ 128 ∧ a.value = n := by
  have hhi : n / 2 ^ 128 < 2 ^ 128 := by
    unfold FIELD at hn
    omega
  refine ⟨⟨⟨n % 2 ^ 128, Nat.mod_lt _ (by omega)⟩, ⟨n / 2 ^ 128, hhi⟩⟩, rfl, rfl, ?_⟩
  rw [ScalarWords.value, radix_eq]
  exact Limbs.value_mod_div n

/-- The words as an element of the field. -/
theorem words_cast (words : ScalarWords) :
    (words.hi.val : Field) * (radix : Field) + words.lo.val = ((words.value : ℕ) : Field) := by
  rw [ScalarWords.value, Limbs.value]
  push_cast
  rfl

theorem scalarField_ok_iff {words : ScalarWords} {r : Field} :
    scalarField words = .ok r ↔ words.value < ORDER ∧ r = ((words.value : ℕ) : Field) := by
  simp only [scalarField, bind_ok_iff, assert_ok_iff, exists_const, pure_ok_iff, scalar_lt_iff]
  rw [← words_cast]
  exact and_congr_right fun _ => eq_comm

theorem order_lt_field : ORDER < FIELD := by decide

/-- A number below the prime is the element it is cast to. -/
theorem cast_val {n : ℕ} (hn : n < FIELD) : ((n : ℕ) : Field).val = n :=
  ZMod.val_cast_of_lt hn

theorem cast_eq_iff {m n : ℕ} (hm : m < FIELD) (hn : n < FIELD) :
    ((m : ℕ) : Field) = ((n : ℕ) : Field) ↔ m = n := by
  rw [ZMod.natCast_eq_natCast_iff', Nat.mod_eq_of_lt hm, Nat.mod_eq_of_lt hn]

/-! ## The reduction -/

/-- The ranges of the integer expressions are below `2 ^ 248`, which is below the prime. -/
theorem ranges_lt (w : Reduction) : ∀ e ∈ w.integers, e.1 < 2 ^ 248 := by
  have hranges : w.integers.map (·.1) = [(2 ^ 4 - 1) * qLo, (2 ^ 4 - 1) * qLo + (2 ^ 128 - 1),
      (2 ^ 4 - 1) * radix, 2 ^ 128 - 1 + (2 ^ 4 - 1) * radix, (2 ^ 4 - 1) * qHi,
      (2 ^ 4 - 1) * qHi + (2 ^ 128 - 1), (2 ^ 4 - 1) * qHi + (2 ^ 128 - 1) + (2 ^ 4 - 1),
      2 ^ 128 - 1] := rfl
  intro e he
  have hmem : e.1 ∈ w.integers.map (·.1) := List.mem_map_of_mem he
  rw [hranges] at hmem
  have hall : [(2 ^ 4 - 1) * qLo, (2 ^ 4 - 1) * qLo + (2 ^ 128 - 1), (2 ^ 4 - 1) * radix,
      2 ^ 128 - 1 + (2 ^ 4 - 1) * radix, (2 ^ 4 - 1) * qHi, (2 ^ 4 - 1) * qHi + (2 ^ 128 - 1),
      (2 ^ 4 - 1) * qHi + (2 ^ 128 - 1) + (2 ^ 4 - 1), 2 ^ 128 - 1].all
        (fun n => decide (n < 2 ^ 248)) = true := by decide
  exact of_decide_eq_true (List.all_eq_true.mp hall _ hmem)

theorem width_lt_field : 2 ^ 248 < FIELD := by decide

/-- The low equation holds of the elements exactly if it holds of the integers. -/
theorem low_iff (w : Reduction) : w.lowLeft.toField = w.lowRight.toField ↔
    w.challengeQuotient.val * qLo + w.challengeRemainder.lo.val
      = w.challengeWords.lo.val + w.challengeCarry.val * radix := by
  have hl := ranges_lt w ⟨_, w.lowLeft⟩ (.tail _ (.head _))
  have hr := ranges_lt w ⟨_, w.lowRight⟩ (.tail _ (.tail _ (.tail _ (.head _))))
  exact Ranged.toField_eq_iff (hl.trans width_lt_field) (hr.trans width_lt_field)

theorem high_iff (w : Reduction) : w.highLeft.toField = w.highRight.toField ↔
    w.challengeQuotient.val * qHi + w.challengeRemainder.hi.val + w.challengeCarry.val
      = w.challengeWords.hi.val := by
  have hl := ranges_lt w ⟨_, w.highLeft⟩
    (.tail _ (.tail _ (.tail _ (.tail _ (.tail _ (.tail _ (.head _)))))))
  have hr := ranges_lt w ⟨_, w.highRight⟩
    (.tail _ (.tail _ (.tail _ (.tail _ (.tail _ (.tail _ (.tail _ (.head _))))))))
  exact Ranged.toField_eq_iff (hl.trans width_lt_field) (hr.trans width_lt_field)

/-- The division of a challenge, as the witnesses answer it. -/
structure Reduction.Divides (w : Reduction) (h : ℕ) : Prop where
  words : w.challengeWords.value = h
  quotient : w.challengeQuotient.val = h / ORDER
  remainder : w.challengeRemainder.value = h % ORDER
  carry : w.challengeCarry.val
    = (w.challengeQuotient.val * qLo + w.challengeRemainder.lo.val) / radix

/-- **The checks are the division.** -/
theorem reduceChallenge_ok_iff {h : ℕ} (hh : h < FIELD) {w : Reduction} {r : Field} :
    reduceChallenge (h : Field) w = .ok r ↔ w.Divides h ∧ r = ((h % ORDER : ℕ) : Field) := by
  simp only [reduceChallenge, bind_ok_iff, assert_ok_iff, exists_const, pure_ok_iff,
    scalarField_ok_iff, canonical_lt_iff, words_cast, low_iff, high_iff]
  constructor
  · rintro ⟨_, ⟨hr, rfl⟩, hcanonical, hwords, hlow, hhigh, rfl⟩
    -- the words are canonical, so the equation in the field is one of integers
    rw [cast_eq_iff hcanonical hh] at hwords
    have hr' : Limbs.value radix w.challengeRemainder.lo.val w.challengeRemainder.hi.val
        < Limbs.value radix qLo qHi := by
      rw [order_value]
      exact hr
    obtain ⟨hquotient, hremainder, hcarry⟩ :=
      (Limbs.division_iff (Uint.lt_radix w.challengeWords.lo) hr').mp ⟨hlow, hhigh⟩
    rw [order_value] at hquotient hremainder
    have hdivides : w.Divides h := by
      rw [← hwords]
      exact ⟨rfl, hquotient, hremainder, hcarry⟩
    exact ⟨hdivides, by rw [hdivides.remainder]⟩
  · rintro ⟨hdivides, rfl⟩
    -- conversely the division passes every check, and no limb overflows
    have hr : w.challengeRemainder.value < ORDER := by
      rw [hdivides.remainder]
      exact Nat.mod_lt _ (by decide)
    have hr' : Limbs.value radix w.challengeRemainder.lo.val w.challengeRemainder.hi.val
        < Limbs.value radix qLo qHi := by
      rw [order_value]
      exact hr
    have hvalue : Limbs.value radix w.challengeWords.lo.val w.challengeWords.hi.val = h :=
      hdivides.words
    have hlimbs : w.challengeQuotient.val * qLo + w.challengeRemainder.lo.val
          = w.challengeWords.lo.val + w.challengeCarry.val * radix ∧
        w.challengeQuotient.val * qHi + w.challengeRemainder.hi.val + w.challengeCarry.val
          = w.challengeWords.hi.val := by
      refine (Limbs.division_iff (Uint.lt_radix w.challengeWords.lo) hr').mpr ?_
      rw [order_value, hvalue]
      exact ⟨hdivides.quotient, hdivides.remainder, hdivides.carry⟩
    obtain ⟨hlow, hhigh⟩ := hlimbs
    refine ⟨_, ⟨hr, rfl⟩, ?_, ?_, hlow, hhigh, ?_⟩
    · rw [hdivides.words]
      exact hh
    · rw [hdivides.words]
    · rw [hdivides.remainder]

/-- The division has one answer. -/
theorem Reduction.Divides.unique {v w : Reduction} {h : ℕ} (hv : v.Divides h) (hw : w.Divides h) :
    v = w := by
  have hwords := ScalarWords.value_inj (hv.words.trans hw.words.symm)
  have hremainder := ScalarWords.value_inj (hv.remainder.trans hw.remainder.symm)
  have hquotient := Uint.val_inj.mp (hv.quotient.trans hw.quotient.symm)
  have hcarry : v.challengeCarry = w.challengeCarry := by
    rw [← Uint.val_inj, hv.carry, hw.carry, hquotient, hremainder]
  exact Reduction.ext hwords hquotient hremainder hcarry

/-- What the circuit is given is what a signer computed. -/
structure Reduction.Of (w : Reduction) (r : Response π) : Prop where
  words : Words.mk w.challengeWords.lo.val w.challengeWords.hi.val = r.challengeWords
  quotient : w.challengeQuotient.val = r.challengeQuotient
  remainder : Words.mk w.challengeRemainder.lo.val w.challengeRemainder.hi.val
    = r.challengeRemainder
  carry : w.challengeCarry.val = r.challengeCarry

variable {δ : Type}

/-- **What the signer computes is the division**, and it has the types of the witnesses. -/
theorem sign_divides (rt : Runtime π δ) (scalar r : ℕ) (message nonce : Bytes) {h : ℕ}
    (hh : h < FIELD) (hc : rt.degrade (rt.hash [message, rt.pointHash (rt.generator scalar),
      rt.pointHash (rt.generator r)]) = h) :
    ∃ w : Reduction, w.Of (sign rt scalar r message nonce) ∧ w.Divides h := by
  obtain ⟨hwords, hlo, hhi, hvalue⟩ := exists_words hh
  have hrem : h % ORDER < ORDER := Nat.mod_lt _ (by decide)
  obtain ⟨rwords, rlo, rhi, rvalue⟩ := exists_words (hrem.trans order_lt_field)
  have hqlo : ORDER % 2 ^ 128 = qLo := by decide
  -- the quotient and the carry fit the types of their witnesses
  have hquotient : h / ORDER < 2 ^ 4 := by
    unfold FIELD at hh
    unfold ORDER
    omega
  have hcarry : (h / ORDER * qLo + h % ORDER % 2 ^ 128) / 2 ^ 128 < 2 ^ 4 := by
    have hlow : h % ORDER % 2 ^ 128 < 2 ^ 128 := Nat.mod_lt _ (by omega)
    unfold qLo
    omega
  refine ⟨⟨hwords, ⟨_, hquotient⟩, rwords, ⟨_, hcarry⟩⟩, ⟨?_, ?_, ?_, ?_⟩,
    ⟨hvalue, rfl, rvalue, ?_⟩⟩
  -- what the signer computes is these words, limb by limb
  · show Words.mk _ _ = words _
    rw [hlo, hhi, hc]
    rfl
  · show h / ORDER = _ / ORDER
    rw [hc]
  · show Words.mk _ _ = words _
    rw [rlo, rhi, hc]
    rfl
  · show _ = (_ / ORDER * (ORDER % 2 ^ 128) + _ % ORDER % 2 ^ 128) / 2 ^ 128
    rw [hc, hqlo]
  · show _ = (h / ORDER * qLo + rwords.lo.val) / radix
    rw [rlo, radix_eq]

/-- An accepted approval was verified with the remainder of its challenge. -/
theorem requireApproval_reduces {lib : Library π} {contractDomain message : Bytes}
    {w : Approval π} {authorizations after : Finset Bytes}
    (h : requireApproval lib contractDomain message w authorizations = .ok after) :
    w.reduction.Divides (challengeOf lib message w.rolePublicKey w.announcement).val ∧
      samePoint lib (lib.ecMulGenerator ((w.response.value : ℕ) : Field))
        (lib.ecAdd w.announcement (lib.ecMul w.rolePublicKey
          (((challengeOf lib message w.rolePublicKey w.announcement).val % ORDER : ℕ) :
            Field))) := by
  have : NeZero FIELD := ⟨by decide⟩
  simp only [requireApproval, bind_ok_iff, assert_ok_iff, exists_const, pure_ok_iff] at h
  obtain ⟨-, -, -, response, hresponse, reduced, hreduced, hsame, -⟩ := h
  have hcast := ZMod.natCast_zmod_val (challengeOf lib message w.rolePublicKey w.announcement)
  rw [← hcast, reduceChallenge_ok_iff (ZMod.val_lt _)] at hreduced
  obtain ⟨hdivides, rfl⟩ := hreduced
  obtain ⟨-, rfl⟩ := scalarField_ok_iff.mp hresponse
  exact ⟨hdivides, hsame⟩

/-- **The reduction of a challenge is unique and computable.** For every challenge below the prime
one tuple of answers passes the checks, it is the division, and it is what the signer computes; the
integer expressions stay within their ranges, and an equation of elements is one of integers. -/
theorem challenge_reduction (π δ : Type) :
    (∀ h < FIELD, ∃ w : Reduction, w.Divides h ∧
      ∀ w', (∃ r, reduceChallenge (h : Field) w' = .ok r) ↔ w' = w) ∧
    (∀ h < FIELD, ∀ (w : Reduction) (r : Field), reduceChallenge (h : Field) w = .ok r →
      w.challengeRemainder.value = h % ORDER ∧ r.val = h % ORDER) ∧
    (∀ w : Reduction, (∀ e ∈ w.integers, e.2.val ≤ e.1 ∧ e.1 < 2 ^ 248 ∧ e.1 < FIELD) ∧
      (w.lowLeft.toField = w.lowRight.toField ↔ w.lowLeft.val = w.lowRight.val) ∧
      (w.highLeft.toField = w.highRight.toField ↔ w.highLeft.val = w.highRight.val)) ∧
    (∀ h < FIELD, ∀ words : ScalarWords, words.value < FIELD →
      ((words.hi.val : Field) * (radix : Field) + words.lo.val = (h : Field) ↔
        words.hi.val * radix + words.lo.val = h)) ∧
    (∀ (words : ScalarWords) (r : Field), scalarField words = .ok r →
      r.val = words.hi.val * radix + words.lo.val) ∧
    (∀ (rt : Runtime π δ) (scalar r : ℕ) (message nonce : Bytes) (h : ℕ), h < FIELD →
      rt.degrade (rt.hash [message, rt.pointHash (rt.generator scalar),
        rt.pointHash (rt.generator r)]) = h →
      ∃ w : Reduction, w.Of (sign rt scalar r message nonce) ∧
        reduceChallenge (h : Field) w = .ok ((h % ORDER : ℕ) : Field)) ∧
    ∀ (lib : Library π) (contractDomain message : Bytes) (w : Approval π)
      (authorizations after : Finset Bytes),
      requireApproval lib contractDomain message w authorizations = .ok after →
      w.reduction.Divides (challengeOf lib message w.rolePublicKey w.announcement).val ∧
        samePoint lib (lib.ecMulGenerator ((w.response.value : ℕ) : Field))
          (lib.ecAdd w.announcement (lib.ecMul w.rolePublicKey
            (((challengeOf lib message w.rolePublicKey w.announcement).val % ORDER : ℕ) :
              Field))) := by
  have hrem : ∀ h : ℕ, h % ORDER < FIELD := fun h =>
    (Nat.mod_lt h (by decide +kernel)).trans order_lt_field
  refine ⟨?_, ?_, ?_, ?_, ?_, ?_, ?_⟩
  · intro h hh
    -- any runtime with this challenge computes it
    obtain ⟨w, -, hw⟩ := @sign_divides Unit Unit
      ⟨fun _ => (), fun _ => [], fun _ => [], fun _ => [], fun _ => [], fun _ _ => [],
        fun _ _ => [], fun _ => h, fun _ => [], fun _ => (), fun _ => (), fun _ => "", fun _ => 0⟩
      0 0 [] [] h hh rfl
    refine ⟨w, hw, fun w' => ⟨fun ⟨r, hr⟩ => ?_, fun heq => ?_⟩⟩
    · exact ((reduceChallenge_ok_iff hh).mp hr).1.unique hw
    · rw [heq]
      exact ⟨_, (reduceChallenge_ok_iff hh).mpr ⟨hw, rfl⟩⟩
  · intro h hh w r hr
    obtain ⟨hw, rfl⟩ := (reduceChallenge_ok_iff hh).mp hr
    exact ⟨hw.remainder, cast_val (hrem h)⟩
  · intro w
    refine ⟨fun e he => ?_, low_iff w, high_iff w⟩
    have hlt := ranges_lt w e he
    exact ⟨e.2.le, hlt, hlt.trans width_lt_field⟩
  · intro h hh words hwords
    rw [words_cast, cast_eq_iff hwords hh]
    rfl
  · intro words r hr
    obtain ⟨hlt, rfl⟩ := scalarField_ok_iff.mp hr
    exact cast_val (hlt.trans order_lt_field)
  · intro rt scalar r message nonce h hh hc
    obtain ⟨w, hof, hw⟩ := sign_divides rt scalar r message nonce hh hc
    exact ⟨w, hof, (reduceChallenge_ok_iff hh).mpr ⟨hw, rfl⟩⟩
  · intro lib contractDomain message w authorizations after h
    exact requireApproval_reduces h

/-- The largest challenge has the quotient 8. -/
theorem challenge_reduction_largest : ∃ w : Reduction, w.challengeQuotient.val = 8 ∧
    ∀ w', (∃ r, reduceChallenge ((FIELD - 1 : ℕ) : Field) w' = .ok r) ↔ w' = w := by
  obtain ⟨w, hw, hall⟩ := (challenge_reduction Unit Unit).1 (FIELD - 1) (by decide +kernel)
  refine ⟨w, ?_, hall⟩
  rw [hw.quotient]
  decide +kernel

end Line.Signer.Circuit
