import Mathlib.Data.Finmap
import Mathlib.Algebra.Order.BigOperators.Group.Multiset
import Mathlib.Algebra.Order.Group.Nat
import Mathlib.Algebra.GroupWithZero.Nat

/-!
# Totals over a finite map

`total f m` adds `f` over the values of a finite map. A ledger keeps such totals
in counters of their own, and every update it makes is one `insert`: at a key
that was free, or over a value that was there. The two lemmas `total_insert_new`
and `total_insert_old` say what either does to a total, for every weight `f` at
once, so a counter is checked by computing `f` before and after.

The second is stated without a subtraction, with what the old value weighed on the side of the new
total: over the natural numbers it then needs no bound, and an invariant with sums on both sides
takes it as it is. A total is at least each of its parts (`le_total`), which is what bounds one
entry by the counter.
-/

namespace MapTotal

variable {κ β M : Type*} [DecidableEq κ]

section AddCommMonoid

variable [AddCommMonoid M]

/-- The sum of `f` over the values of the map. -/
def total (f : β → M) (m : Finmap fun _ : κ => β) : M :=
  (m.entries.map fun e => f e.2).sum

omit [DecidableEq κ] in
@[simp] theorem total_empty (f : β → M) : total f (∅ : Finmap fun _ : κ => β) = 0 := by
  change ((0 : Multiset (Σ _ : κ, β)).map fun e => f e.2).sum = 0
  simp

omit [DecidableEq κ] in
theorem total_add (f g : β → M) (m : Finmap fun _ : κ => β) :
    total (fun v => f v + g v) m = total f m + total g m :=
  Multiset.sum_map_add

/-- Inserting at a free key adds the new value's weight. -/
theorem total_insert_new (f : β → M) {m : Finmap fun _ : κ => β} {k : κ} (v : β)
    (h : m.lookup k = none) : total f (m.insert k v) = f v + total f m := by
  rw [Finmap.lookup_eq_none] at h
  simp [total, Finmap.entries_insert_of_notMem h]

/-- A map is one of its entries put over the rest. -/
theorem insert_erase_self {m : Finmap fun _ : κ => β} {k : κ} {v : β}
    (h : m.lookup k = some v) : (m.erase k).insert k v = m := by
  refine Finmap.ext_lookup fun x => ?_
  by_cases hx : x = k
  · subst hx; rw [Finmap.lookup_insert, h]
  · rw [Finmap.lookup_insert_of_ne _ hx, Finmap.lookup_erase_ne hx]

/-- A total splits into the weight of one entry and the total of the others. -/
theorem total_eq_add_erase (f : β → M) {m : Finmap fun _ : κ => β} {k : κ} {v : β}
    (h : m.lookup k = some v) : total f m = f v + total f (m.erase k) := by
  conv_lhs => rw [← insert_erase_self h]
  exact total_insert_new f v (Finmap.lookup_erase k m)

/-- Inserting over a value exchanges the two weights. -/
theorem total_insert_old (f : β → M) {m : Finmap fun _ : κ => β} {k : κ} {u : β} (v : β)
    (h : m.lookup k = some u) : f u + total f (m.insert k v) = f v + total f m := by
  have hins : m.insert k v = (m.erase k).insert k v := by
    conv_lhs => rw [← insert_erase_self h, Finmap.insert_insert]
  rw [hins, total_insert_new f v (Finmap.lookup_erase k m), total_eq_add_erase f h]
  exact add_left_comm _ _ _

end AddCommMonoid

/-- One entry weighs no more than the whole map. -/
theorem le_total (f : β → ℕ) {m : Finmap fun _ : κ => β} {k : κ} {v : β}
    (h : m.lookup k = some v) : f v ≤ total f m := by
  rw [total_eq_add_erase f h]
  exact Nat.le_add_right _ _

/-- Weights that agree on every entry have the same total. -/
theorem total_congr {M : Type*} [AddCommMonoid M] {f g : β → M} {m : Finmap fun _ : κ => β}
    (h : ∀ k v, m.lookup k = some v → f v = g v) : total f m = total g m := by
  refine congrArg Multiset.sum (Multiset.map_congr rfl fun e he => h e.1 e.2 ?_)
  induction m using Finmap.induction_on with
  | H a => exact (AList.mem_lookup_iff).mpr (by simpa using he)

/-- A weight that vanishes on every entry has total zero. -/
theorem total_eq_zero {f : β → ℕ} {m : Finmap fun _ : κ => β}
    (h : ∀ k v, m.lookup k = some v → f v = 0) : total f m = 0 := by
  rw [total_congr (g := fun _ => 0) h]
  simp [total]

end MapTotal
