import Mathlib.Algebra.Order.BigOperators.Group.List
import Mathlib.Algebra.Order.Ring.Nat
import Mathlib.Data.Finmap
import Mathlib.Tactic.Common

/-!
# Lists of records under a key

A program without maps keeps an array of records and looks a record up by one of its
fields: `find` takes the first that matches, a new record is pushed at the end, and a
found record is changed where it stands. `Holds` says that such an array holds a
finite map, and pushing and changing keep pace with the map's insertion.

Nothing is asked of the array: records that a search never reaches do no harm.
-/

namespace Records

variable {κ ρ β : Type*} [DecidableEq κ] (key : ρ → κ)

/-- The first record under the key. -/
def find (l : List ρ) (k : κ) : Option ρ :=
  l.find? fun r => decide (key r = k)

/-- Change the first record under the key, in its place. -/
def change (f : ρ → ρ) (k : κ) : List ρ → List ρ
  | [] => []
  | r :: l => if key r = k then f r :: l else r :: change f k l

variable {key} {l : List ρ} {k j : κ} {r : ρ} {f : ρ → ρ}

theorem change_cons :
    change key f k (r :: l) = if key r = k then f r :: l else r :: change key f k l := rfl

theorem find_cons : find key (r :: l) k = if key r = k then some r else find key l k := by
  unfold find
  rw [List.find?_cons]
  by_cases h : key r = k <;> simp [h]

theorem find_push (r : ρ) :
    find key (l ++ [r]) j = (find key l j).or (if key r = j then some r else none) := by
  unfold find
  rw [List.find?_append]
  by_cases h : key r = j <;> simp [h]

theorem find_eq_none_iff : find key l k = none ↔ k ∉ l.map key := by
  unfold find
  rw [List.find?_eq_none, List.mem_map]
  constructor
  · rintro h ⟨r, hr, hk⟩
    exact h r hr (decide_eq_true hk)
  · intro h r hr hk
    exact h ⟨r, hr, of_decide_eq_true hk⟩

/-- A change is seen under its own key only. -/
theorem find_change (hf : ∀ r, key (f r) = key r) :
    find key (change key f k l) j = if j = k then (find key l k).map f else find key l j := by
  induction l with
  | nil =>
    show none = if j = k then (none : Option ρ).map f else none
    rw [Option.map_none, ite_self]
  | cons r l ih =>
    by_cases hr : key r = k
    · rw [change_cons, if_pos hr, find_cons, find_cons, find_cons, hf, hr, if_pos rfl]
      by_cases hj : j = k
      · rw [if_pos hj.symm, if_pos hj, Option.map_some]
      · rw [if_neg (Ne.symm hj), if_neg hj, if_neg (Ne.symm hj)]
    · rw [change_cons, if_neg hr, find_cons, find_cons, find_cons, ih, if_neg hr]
      by_cases hj : j = k
      · have hrj : key r ≠ j := fun h => hr (h.trans hj)
        rw [if_neg hrj, if_pos hj, if_pos hj]
      · rw [if_neg hj, if_neg hj]

/-- Two changes under one key are one. -/
theorem change_change (g : ρ → ρ) (hf : ∀ r, key (f r) = key r) :
    change key g k (change key f k l) = change key (fun r => g (f r)) k l := by
  induction l with
  | nil => rfl
  | cons r l ih =>
    by_cases hr : key r = k
    · rw [change_cons, if_pos hr, change_cons, if_pos ((hf r).trans hr), change_cons, if_pos hr]
    · rw [change_cons, if_neg hr, change_cons, if_neg hr, ih, change_cons, if_neg hr]

/-- What is in a changed array was there, or comes from what was there. -/
theorem exists_of_mem_change {x : ρ} (hx : x ∈ change key f k l) : x ∈ l ∨ ∃ r ∈ l, x = f r := by
  induction l with
  | nil => cases hx
  | cons r l ih =>
    rw [change_cons] at hx
    split at hx
    · rcases List.mem_cons.mp hx with rfl | hx
      · exact .inr ⟨r, List.mem_cons_self, rfl⟩
      · exact .inl (List.mem_cons_of_mem _ hx)
    · rcases List.mem_cons.mp hx with rfl | hx
      · exact .inl List.mem_cons_self
      · rcases ih hx with hx | ⟨r', hr', rfl⟩
        · exact .inl (List.mem_cons_of_mem _ hx)
        · exact .inr ⟨r', List.mem_cons_of_mem _ hr', rfl⟩

/-- What is found is in the array, under its key. -/
theorem mem_of_find (h : find key l k = some r) : r ∈ l ∧ key r = k := by
  unfold find at h
  exact ⟨List.mem_of_find?_eq_some h, by simpa using List.find?_some h⟩

/-- A change replaces one record. -/
theorem mem_change (h : find key l k = some r) {x : ρ} (hx : x ∈ change key f k l) :
    x ∈ l ∨ x = f r := by
  induction l with
  | nil => cases hx
  | cons s l ih =>
    rw [find_cons] at h
    rw [change_cons] at hx
    split at h
    · next hs =>
      obtain rfl := Option.some.inj h
      rw [if_pos hs] at hx
      rcases List.mem_cons.mp hx with rfl | hx
      · exact .inr rfl
      · exact .inl (List.mem_cons_of_mem _ hx)
    · next hs =>
      rw [if_neg hs] at hx
      rcases List.mem_cons.mp hx with rfl | hx
      · exact .inl List.mem_cons_self
      · exact (ih h hx).imp_left (List.mem_cons_of_mem _)

/-- Under keys of their own, only the record that was found is changed. -/
theorem mem_change_of_nodup (hl : (l.map key).Nodup) (h : find key l k = some r) {x : ρ}
    (hx : x ∈ change key f k l) : x = f r ∨ x ∈ l ∧ key x ≠ k := by
  induction l with
  | nil => cases hx
  | cons s l ih =>
    rw [List.map_cons, List.nodup_cons] at hl
    rw [find_cons] at h
    rw [change_cons] at hx
    split at h
    · next hs =>
      obtain rfl := Option.some.inj h
      rw [if_pos hs] at hx
      rcases List.mem_cons.mp hx with rfl | hx
      · exact .inl rfl
      · refine .inr ⟨List.mem_cons_of_mem _ hx, fun hk => hl.1 ?_⟩
        rw [hs, ← hk]
        exact List.mem_map_of_mem hx
    · next hs =>
      rw [if_neg hs] at hx
      rcases List.mem_cons.mp hx with rfl | hx
      · exact .inr ⟨List.mem_cons_self, hs⟩
      · exact (ih hl.2 h hx).imp_right fun hold => ⟨List.mem_cons_of_mem _ hold.1, hold.2⟩

/-- What a change keeps of every record it keeps of the array. -/
theorem map_change {γ : Type*} (g : ρ → γ) (hg : ∀ r, g (f r) = g r) :
    (change key f k l).map g = l.map g := by
  induction l with
  | nil => rfl
  | cons s l ih =>
    rw [change_cons]
    split
    · rw [List.map_cons, List.map_cons, hg]
    · rw [List.map_cons, List.map_cons, ih]

/-- Changing the record that was pushed last. -/
theorem change_push (hl : k ∉ l.map key) (hr : key r = k) :
    change key f k (l ++ [r]) = l ++ [f r] := by
  induction l with
  | nil =>
    rw [List.nil_append, change_cons, if_pos hr]
    rfl
  | cons s l ih =>
    rw [List.map_cons, List.mem_cons, not_or] at hl
    rw [List.cons_append, change_cons, if_neg (Ne.symm hl.1), ih hl.2, List.cons_append]

/-- **A change moves a sum over the records by what it changes in one of them.** -/
theorem sum_change (g : ρ → ℕ) (h : find key l k = some r) :
    ((change key f k l).map g).sum + g r = (l.map g).sum + g (f r) := by
  induction l with
  | nil => cases h
  | cons s l ih =>
    rw [find_cons] at h
    rw [change_cons]
    split at h
    · next hs =>
      obtain rfl := Option.some.inj h
      rw [if_pos hs, List.map_cons, List.sum_cons, List.map_cons, List.sum_cons]
      omega
    · next hs =>
      have hrest := ih h
      rw [if_neg hs, List.map_cons, List.sum_cons, List.map_cons, List.sum_cons]
      omega

/-- What is found counts in a sum. -/
theorem le_sum_of_find (g : ρ → ℕ) (h : find key l k = some r) : g r ≤ (l.map g).sum :=
  List.le_sum_of_mem (List.mem_map_of_mem (mem_of_find h).1)

/-! ## An array that holds a map -/

/-- Searching the array is looking up the map; `entry k v` is the record of the value `v` at `k`. -/
def Holds (key : ρ → κ) (entry : κ → β → ρ) (l : List ρ) (m : Finmap fun _ : κ => β) : Prop :=
  ∀ k, find key l k = (m.lookup k).map (entry k)

variable {entry : κ → β → ρ} {m : Finmap fun _ : κ => β} {u v : β}

theorem Holds.empty : Holds key entry [] (∅ : Finmap fun _ : κ => β) := by
  intro k
  rw [Finmap.lookup_empty]
  rfl

/-- A value of the map is found as its record. -/
theorem Holds.find_some (h : Holds key entry l m) (hv : m.lookup k = some v) :
    find key l k = some (entry k v) := by
  rw [h k, hv, Option.map_some]

/-- No record is under the key if the key is new to the map. -/
theorem Holds.any_eq_false_iff (h : Holds key entry l m) :
    (l.any fun r => decide (key r = k)) = false ↔ k ∉ m := by
  rw [← Finmap.lookup_eq_none, ← Option.map_eq_none_iff (f := entry k), ← h k, find,
    List.find?_eq_none, List.any_eq_false]

/-- Pushing the record of a value at a new key inserts it. -/
theorem Holds.push (h : Holds key entry l m) (hkey : ∀ k v, key (entry k v) = k) (hk : k ∉ m) :
    Holds key entry (l ++ [entry k v]) (m.insert k v) := by
  intro j
  rw [find_push, hkey, h j]
  by_cases hj : k = j
  · subst hj
    rw [Finmap.lookup_eq_none.mpr hk, Option.map_none, Option.none_or, if_pos rfl,
      Finmap.lookup_insert, Option.map_some]
  · rw [if_neg hj, Option.or_none, Finmap.lookup_insert_of_ne _ (Ne.symm hj)]

/-- Changing the record found into that of another value replaces the value. -/
theorem Holds.change (h : Holds key entry l m) (hf : ∀ r, key (f r) = key r)
    (hu : m.lookup k = some u) (hv : f (entry k u) = entry k v) :
    Holds key entry (Records.change key f k l) (m.insert k v) := by
  intro j
  rw [find_change hf]
  by_cases hj : j = k
  · subst hj
    rw [if_pos rfl, h.find_some hu, Option.map_some, hv, Finmap.lookup_insert, Option.map_some]
  · rw [if_neg hj, Finmap.lookup_insert_of_ne _ hj, h j]

end Records
