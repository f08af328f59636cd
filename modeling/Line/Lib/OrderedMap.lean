import Mathlib.Algebra.BigOperators.Group.List.Basic
import Mathlib.Algebra.GroupWithZero.Nat
import Mathlib.Data.List.Nodup
import Mathlib.Tactic.Common

/-!
# Maps that keep the order of insertion

A map is a list of entries in which no key occurs twice: a new key goes to the end, and
a key that is there keeps its place. `ofEntries` builds a map entry by entry, and gives
back the map whose entries it is given (`ofEntries_entries`); on any other list it loses
entries, so the size tells the two apart.

That no key occurs twice is a field of the map, so a map with a key twice cannot be built, and
each operation brings the proof along. What is said of all values (`forall_set`) and what is added
up over them (`total_set_new`, `total_set_old`) follows the operations one by one: a change at one
key leaves the other entries as they were.
-/

universe u v

/-- A map from `κ` to `α`, in the order in which the keys were first set. -/
@[ext]
structure OrderedMap (κ : Type u) (α : Type v) where
  entries : List (κ × α)
  /-- No key occurs twice. -/
  nodup : (entries.map Prod.fst).Nodup

namespace OrderedMap

variable {κ : Type u} {α : Type v}

/-- The map without entries. -/
def empty : OrderedMap κ α := ⟨[], List.nodup_nil⟩

/-- The number of entries. -/
def size (m : OrderedMap κ α) : ℕ := m.entries.length

/-- The values, in order. -/
def values (m : OrderedMap κ α) : List α := m.entries.map Prod.snd

section Lists

variable [DecidableEq κ]

/-- The value of a key in a list of entries. -/
def getIn (k : κ) : List (κ × α) → Option α
  | [] => none
  | (k', a) :: l => if k' = k then some a else getIn k l

/-- Setting a key in a list of entries. -/
def setIn (k : κ) (a : α) : List (κ × α) → List (κ × α)
  | [] => [(k, a)]
  | (k', b) :: l => if k' = k then (k', a) :: l else (k', b) :: setIn k a l

variable {k k' : κ} {a b : α} {l : List (κ × α)}

theorem getIn_cons : getIn k ((k', b) :: l) = if k' = k then some b else getIn k l := rfl

theorem setIn_cons :
    setIn k a ((k', b) :: l) = if k' = k then (k', a) :: l else (k', b) :: setIn k a l := rfl

theorem mem_of_getIn (h : getIn k l = some a) : (k, a) ∈ l := by
  induction l with
  | nil => cases h
  | cons e l ih =>
    obtain ⟨k', b⟩ := e
    rw [getIn_cons] at h
    split at h
    · rename_i hk
      rw [hk, Option.some.inj h]
      exact List.mem_cons_self
    · exact List.mem_cons_of_mem _ (ih h)

theorem getIn_eq_none : getIn k l = none ↔ k ∉ l.map Prod.fst := by
  induction l with
  | nil => simp [getIn]
  | cons e l ih =>
    obtain ⟨k', b⟩ := e
    rw [getIn_cons]
    by_cases hk : k' = k
    · simp [hk]
    · rw [if_neg hk, ih]
      simp [Ne.symm hk]

theorem getIn_of_mem (hl : (l.map Prod.fst).Nodup) (h : (k, a) ∈ l) : getIn k l = some a := by
  induction l with
  | nil => cases h
  | cons e l ih =>
    obtain ⟨k', b⟩ := e
    obtain ⟨hk, hl⟩ := List.nodup_cons.mp hl
    rw [getIn_cons]
    rcases List.mem_cons.mp h with h | h
    · cases h
      rw [if_pos rfl]
    · have hne : k' ≠ k := by
        rintro rfl
        have hmem := List.mem_map_of_mem (f := Prod.fst) h
        exact hk hmem
      rw [if_neg hne]
      exact ih hl h

theorem getIn_setIn : getIn k' (setIn k a l) = if k = k' then some a else getIn k' l := by
  induction l with
  | nil => rfl
  | cons e l ih =>
    obtain ⟨k₀, b⟩ := e
    rw [setIn_cons]
    by_cases h : k₀ = k
    · subst h
      rw [if_pos rfl, getIn_cons, getIn_cons]
      split <;> rfl
    · rw [if_neg h, getIn_cons, ih, getIn_cons]
      by_cases h₀ : k₀ = k'
      · have : k ≠ k' := fun hk => h (h₀.trans hk.symm)
        rw [if_pos h₀, if_neg this, if_pos h₀]
      · rw [if_neg h₀, if_neg h₀]

/-- A new key goes to the end. -/
theorem setIn_new (h : getIn k l = none) : setIn k a l = l ++ [(k, a)] := by
  induction l with
  | nil => rfl
  | cons e l ih =>
    obtain ⟨k', b⟩ := e
    rw [getIn_cons] at h
    split at h
    · cases h
    · rename_i hk
      rw [setIn_cons, if_neg hk, ih h]
      rfl

/-- A key that is there keeps its place. -/
theorem keys_setIn (h : getIn k l = some b) : (setIn k a l).map Prod.fst = l.map Prod.fst := by
  induction l with
  | nil => cases h
  | cons e l ih =>
    obtain ⟨k', b'⟩ := e
    rw [getIn_cons] at h
    rw [setIn_cons]
    split at h
    · rename_i hk
      rw [if_pos hk]
      rfl
    · rename_i hk
      rw [if_neg hk, List.map_cons, ih h]
      rfl

theorem nodup_setIn (hl : (l.map Prod.fst).Nodup) : ((setIn k a l).map Prod.fst).Nodup := by
  cases h : getIn k l with
  | some b => rwa [keys_setIn h]
  | none =>
    rw [setIn_new h, List.map_append]
    refine hl.append (List.nodup_singleton _) ?_
    intro x hx hk
    rw [List.map_singleton, List.mem_singleton] at hk
    subst hk
    exact getIn_eq_none.mp h hx

end Lists

variable [DecidableEq κ]

/-- `m.get(k)`. -/
def get (m : OrderedMap κ α) (k : κ) : Option α := getIn k m.entries

/-- `m.set(k, a)`. -/
def set (m : OrderedMap κ α) (k : κ) (a : α) : OrderedMap κ α :=
  ⟨setIn k a m.entries, nodup_setIn m.nodup⟩

/-- `new Map(entries)`. -/
def ofEntries (l : List (κ × α)) : OrderedMap κ α :=
  l.foldl (fun m e => m.set e.1 e.2) empty

variable {m : OrderedMap κ α} {k k' : κ} {a b : α}

theorem get_set : (m.set k a).get k' = if k = k' then some a else m.get k' := getIn_setIn

@[simp] theorem get_set_self : (m.set k a).get k = some a := by
  rw [get_set, if_pos rfl]

theorem get_set_ne (h : k ≠ k') : (m.set k a).get k' = m.get k' := by
  rw [get_set, if_neg h]

theorem get_eq_some : m.get k = some a ↔ (k, a) ∈ m.entries :=
  ⟨mem_of_getIn, getIn_of_mem m.nodup⟩

theorem size_set_new (h : m.get k = none) : (m.set k a).size = m.size + 1 := by
  unfold size set
  simp only [setIn_new h, List.length_append, List.length_singleton]

theorem size_set_old (h : m.get k = some b) : (m.set k a).size = m.size := by
  have hk := congrArg List.length (keys_setIn (a := a) h)
  simpa [size, set] using hk

/-- What holds of every entry holds after one more, if it holds of that one. -/
theorem forall_set {P : κ → α → Prop} (hm : ∀ k a, m.get k = some a → P k a) (ha : P k a) :
    ∀ k' a', (m.set k a).get k' = some a' → P k' a' := by
  intro k' a' h
  rw [get_set] at h
  split at h
  · rename_i hk
    rw [← hk, ← Option.some.inj h]
    exact ha
  · exact hm k' a' h

/-! ### Counting entries -/

/-- The sum of a number over the entries. -/
def total (f : α → ℕ) (m : OrderedMap κ α) : ℕ := (m.values.map f).sum

theorem total_set_new (f : α → ℕ) (h : m.get k = none) :
    (m.set k a).total f = m.total f + f a := by
  simp [total, values, set, setIn_new h]

theorem total_set_old (f : α → ℕ) (h : m.get k = some b) :
    (m.set k a).total f + f b = m.total f + f a := by
  obtain ⟨l, hl⟩ := m
  simp only [get] at h
  simp only [total, values, set]
  clear hl
  induction l with
  | nil => cases h
  | cons e l ih =>
    obtain ⟨k', b'⟩ := e
    rw [getIn_cons] at h
    rw [setIn_cons]
    split at h
    · rename_i hk
      rw [if_pos hk, ← Option.some.inj h]
      simp only [List.map_cons, List.sum_cons]
      omega
    · rename_i hk
      have := ih h
      rw [if_neg hk]
      simp only [List.map_cons, List.sum_cons]
      omega

omit [DecidableEq κ] in
theorem total_le_size (f : α → ℕ) (hf : ∀ a, f a ≤ 1) : m.total f ≤ m.size := by
  have hsum : ∀ l : List α, (l.map f).sum ≤ l.length := by
    intro l
    induction l with
    | nil => exact Nat.le_refl 0
    | cons a l ih =>
      have := hf a
      rw [List.map_cons, List.sum_cons, List.length_cons]
      omega
  simpa [total, size, values] using hsum m.values

/-! ### Building a map from its entries -/

theorem foldl_set {l : List (κ × α)} (hl : ((m.entries ++ l).map Prod.fst).Nodup) :
    (l.foldl (fun m e => m.set e.1 e.2) m).entries = m.entries ++ l := by
  induction l generalizing m with
  | nil => simp
  | cons e l ih =>
    have hnew : m.get e.1 = none := by
      refine getIn_eq_none.mpr fun hk => ?_
      rw [List.map_append, List.map_cons] at hl
      exact List.disjoint_of_nodup_append hl hk List.mem_cons_self
    have hset : (m.set e.1 e.2).entries = m.entries ++ [e] := setIn_new hnew
    rw [List.foldl_cons, ih (by rwa [hset, List.append_assoc]), hset, List.append_assoc]
    rfl

/-- **The entries of a map build that map.** -/
@[simp] theorem ofEntries_entries (m : OrderedMap κ α) : ofEntries m.entries = m := by
  refine OrderedMap.ext ?_
  rw [ofEntries, foldl_set (by simpa [empty] using m.nodup)]
  rfl

end OrderedMap
