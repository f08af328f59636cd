import Line.Engine.Accepted
import Line.Contract.Symbolic
import Mathlib.Algebra.Order.Floor.Semiring
import Mathlib.Data.Nat.Cast.Order.Field

/-!
# One fee

The circuit brackets the fee of a draw between two products and never divides; the client
computes it with a division that it rounds up. For every amount and policy there is one fee
that both have, or none.

The bracket leaves room for one number only: the fee less the flat part, times ten thousand,
is at least the product and less than ten thousand above it, which is what rounding up means
(`requiredFee_eq`). The client works on integers of any size and refuses what does not fit
64 bits; the engine works on `number`s, and hands it only what it could encode.
-/

namespace Line.Engine

open Checked

/-- The rounded quotient of the policy is a ceiling. -/
theorem requiredFee_eq (flat bps amount : U64) :
    requiredFee flat bps amount = flat.val + ⌈(amount.val * bps.val : ℚ) / 10000⌉₊ := by
  have hceil : ⌈(amount.val * bps.val : ℚ) / 10000⌉₊ = (amount.val * bps.val + 9999) / 10000 := by
    refine eq_of_forall_ge_iff fun k => ?_
    rw [Nat.ceil_le, div_le_iff₀ (by norm_num)]
    have hcast : ((amount.val * bps.val : ℚ) ≤ k * 10000) ↔ amount.val * bps.val ≤ k * 10000 := by
      exact_mod_cast Iff.rfl
    rw [hcast]
    generalize amount.val * bps.val = n
    omega
  rw [requiredFee, hceil]

/-- What the client computes is in range, and computed from what is in range. -/
theorem requiredDrawFee_range {amount flat bps x : ℤ}
    (h : requiredDrawFee amount flat bps = .ok x) :
    (0 ≤ amount ∧ amount < 2 ^ 64) ∧ (0 ≤ flat ∧ flat < 2 ^ 64) ∧ (0 ≤ bps ∧ bps ≤ 10000)
      ∧ 0 ≤ x ∧ x < 2 ^ 64 := by
  unfold requiredDrawFee at h
  simp only at h
  -- the client tests the range, the rate and the fee, in this order
  split at h
  · cases h
  · next hrange =>
    split at h
    · cases h
    · next hrate =>
      split at h
      · cases h
      · next hmax =>
        rw [pure_ok_iff] at h
        simp only [List.any_cons, List.any_nil, Bool.or_false, Bool.or_eq_true, not_or,
          decide_eq_true_eq, not_lt] at hrange
        obtain ⟨⟨ha, ha'⟩, ⟨hf, hf'⟩, hb, -⟩ := hrange
        -- so what it returns is at least the flat fee
        have hproduct : 0 ≤ amount * bps := mul_nonneg ha hb
        generalize amount * bps = n at h hmax hproduct
        omega

variable {B : Type} [DecidableEq B] [Compact B]

/-- A draw that the engine accepts is charged what the client computes. -/
theorem draw_charge {env : Env B} {e : Ledger B} {i : DrawInput B}
    {witness : Option (DrawWitness B)} {r : Drawn B} (h : draw env e i witness = .ok r) :
    ∃ wq amount flat bps fee, i.opening witness = some wq ∧ u64 wq.amount = .ok amount
      ∧ u64 e.feeFlat = .ok flat ∧ u64 e.feeBps = .ok bps ∧ u64 i.charge = .ok fee
      ∧ requiredDrawFee amount.val flat.val bps.val = .ok fee.val := by
  simp only [draw, bind_ok_iff, failIf_ok_iff, present_ok_iff, pure_ok_iff, exists_const,
    catchFail_ok_iff, decide_eq_false_iff_not, not_not] at h
  obtain ⟨now, -, -, -, -, secret, -, books, -, -, opened, -, -, wq, hwq, -, Q, -, live, -, -, -, -,
    -, recon, -, -, -, -, x, ⟨amount, ha, flat, hf, bps, hb, hx⟩, -, fee, hfee, heq, -⟩ := h
  refine ⟨wq, amount, flat, bps, fee, hwq, ha, hf, hb, hfee, ?_⟩
  rw [heq]
  exact hx

/-- **One fee.** For every amount, flat fee and rate, the assertions of the circuit accept exactly
the flat fee plus the variable fee rounded up, so no two fees; the client computes this fee, and
refuses exactly if no `Uint<64>` is accepted; what it is given out of range it refuses; and
a draw that the engine accepts is charged a fee that the circuit accepts. -/
theorem fee_law {amount flat bps : U64} (hpos : 0 < amount.val) (hrate : bps.val ≤ 10000) :
    (∀ f : U64, feePolicy flat bps amount f = .ok () ↔
      f.val = flat.val + ⌈(amount.val * bps.val : ℚ) / 10000⌉₊)
    ∧ (∀ f f' : U64, feePolicy flat bps amount f = .ok () → feePolicy flat bps amount f' = .ok () →
      f = f')
    ∧ (∀ x : ℤ, requiredDrawFee amount.val flat.val bps.val = .ok x ↔
      ∃ f : U64, x = f.val ∧ feePolicy flat bps amount f = .ok ())
    ∧ (∀ a g b x : ℤ, requiredDrawFee a g b = .ok x →
      (0 ≤ a ∧ a < 2 ^ 64) ∧ (0 ≤ g ∧ g < 2 ^ 64) ∧ (0 ≤ b ∧ b ≤ 10000) ∧ 0 ≤ x ∧ x < 2 ^ 64)
    ∧ ∀ (env : Env B) (e : Ledger B) (i : DrawInput B) (witness : Option (DrawWitness B))
        (r : Drawn B) (wq : QuotePreimage B), draw env e i witness = .ok r →
        i.opening witness = some wq → u64 wq.amount = .ok amount → u64 e.feeFlat = .ok flat →
        u64 e.feeBps = .ok bps →
        ∃ f : U64, u64 i.charge = .ok f ∧ feePolicy flat bps amount f = .ok () := by
  -- the client's fee is one that the circuit accepts, and the only one
  have hfee : ∀ x : ℤ, requiredDrawFee amount.val flat.val bps.val = .ok x ↔
      ∃ f : U64, x = f.val ∧ feePolicy flat bps amount f = .ok () := by
    intro x
    rw [requiredDrawFee_ok_iff hrate]
    constructor
    · rintro ⟨rfl, hlt⟩
      refine ⟨⟨_, by exact_mod_cast hlt⟩, rfl, (feePolicy_ok_iff hpos).mpr rfl⟩
    · rintro ⟨f, rfl, hf⟩
      rw [feePolicy_ok_iff hpos, requiredFee] at hf
      have hlt := f.isLt
      exact ⟨by exact_mod_cast hf, by exact_mod_cast hlt⟩
  refine ⟨fun f => ?_, fun f f' hf hf' => ?_, hfee, fun a g b x => requiredDrawFee_range, ?_⟩
  · rw [feePolicy_ok_iff hpos, requiredFee_eq]
  · rw [feePolicy_ok_iff hpos] at hf hf'
    exact Uint.ext (hf.trans hf'.symm)
  -- a draw of the engine is charged what the client computes
  · intro env e i witness r wq hdraw hopening ha hg hb
    obtain ⟨wq', amount', flat', bps', fee, hwq, ha', hg', hb', hf, hx⟩ := draw_charge hdraw
    cases hopening.symm.trans hwq
    cases ha.symm.trans ha'
    cases hg.symm.trans hg'
    cases hb.symm.trans hb'
    obtain ⟨f, heq, hpolicy⟩ := (hfee fee.val).mp hx
    have hsame : fee = f := Uint.ext (by exact_mod_cast heq)
    rw [hsame] at hf
    exact ⟨f, hf, hpolicy⟩

/-- One and a half per cent of 101, and 3 besides: the circuit accepts 5, not 4, and 5 is what is
computed. -/
theorem fee_law_sample : feePolicy (Line.Demo.u64 3) (Line.Demo.u64 150) (Line.Demo.u64 101)
      (Line.Demo.u64 5) = .ok ()
    ∧ feePolicy (Line.Demo.u64 3) (Line.Demo.u64 150) (Line.Demo.u64 101) (Line.Demo.u64 4) ≠ .ok ()
    ∧ requiredDrawFee 101 3 150 = .ok 5 := by
  obtain ⟨-, hone, hcomputed, -⟩ := @fee_law Term _ _ (Line.Demo.u64 101) (Line.Demo.u64 3)
    (Line.Demo.u64 150) (by decide) (by decide)
  have hfive : feePolicy (Line.Demo.u64 3) (Line.Demo.u64 150) (Line.Demo.u64 101)
      (Line.Demo.u64 5) = .ok () := by decide +kernel
  refine ⟨hfive, fun hfour => ?_, (hcomputed 5).mpr ⟨Line.Demo.u64 5, rfl, hfive⟩⟩
  exact absurd (hone _ _ hfive hfour) (by decide)

end Line.Engine
