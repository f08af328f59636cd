import Mathlib.Data.List.Nodup
import Mathlib.Tactic.Common

/-!
# Tables

A table is a list of entries that is read by key: the first entry of a key counts. `put`
replaces what the key had, and `eraseIf` takes away every key with a property, one key
(`erase`) or, say, all keys with a prefix. What a table says after a change is a matter of
the key alone (`get_put`, `get_eraseIf`).

It stands for a store whose order nobody reads: two tables that answer alike are alike for every
program over them. Where the order of the entries matters, as in a list of the keys, the lemmas on
`Nodup` keep a key from being listed twice.
-/

namespace Table

universe u v

variable {κ : Type u} {α : Type v} [DecidableEq κ] {l : List (κ × α)} {k k' : κ} {a : α}
  {p : κ → Bool}

/-- The value of a key. -/
def get (k : κ) : List (κ × α) → Option α
  | [] => none
  | e :: l => if e.1 = k then some e.2 else get k l

omit [DecidableEq κ] in
/-- Without the keys that have the property. -/
def eraseIf (p : κ → Bool) (l : List (κ × α)) : List (κ × α) := l.filter fun e => !p e.1

/-- Without a key. -/
def erase (k : κ) (l : List (κ × α)) : List (κ × α) := eraseIf (fun k' => k' = k) l

/-- With a new value for a key. -/
def put (k : κ) (a : α) (l : List (κ × α)) : List (κ × α) := (k, a) :: erase k l

@[simp] theorem get_nil : get k ([] : List (κ × α)) = none := rfl

theorem get_isSome : k ∈ l.map Prod.fst ↔ (get k l).isSome = true := by
  induction l with
  | nil => simp
  | cons e l ih =>
      rw [List.map_cons, List.mem_cons, get, ih]
      by_cases he : e.1 = k
      · rw [if_pos he]
        exact ⟨fun _ => rfl, fun _ => .inl he.symm⟩
      · rw [if_neg he]
        exact ⟨fun h => h.resolve_left fun h' => he h'.symm, .inr⟩

theorem get_eraseIf : get k (eraseIf p l) = if p k then none else get k l := by
  induction l with
  | nil => simp [eraseIf]
  | cons e l ih =>
      rw [eraseIf, List.filter_cons]
      by_cases he : e.1 = k
      · cases hp : p k with
        | true =>
            rw [if_neg (by simp [he, hp]), if_pos rfl]
            exact ih.trans (by rw [if_pos hp])
        | false =>
            rw [if_pos (by simp [he, hp]), get, if_pos he, if_neg (by simp), get, if_pos he]
      · by_cases hp : p e.1 = true
        · rw [if_neg (by simp [hp]), get, if_neg he]
          exact ih
        · rw [if_pos (by simpa using hp), get, if_neg he, get, if_neg he]
          exact ih

theorem get_erase : get k (erase k' l) = if k' = k then none else get k l := by
  rw [erase, get_eraseIf]
  by_cases h : k' = k
  · rw [if_pos h, if_pos (by simp [h])]
  · rw [if_neg h, if_neg (by simpa using fun h' => h h'.symm)]

theorem get_put : get k (put k' a l) = if k' = k then some a else get k l := by
  rw [put, get]
  by_cases h : k' = k
  · rw [if_pos h, if_pos h]
  · rw [if_neg h, if_neg h, get_erase, if_neg h]

omit [DecidableEq κ] in
theorem nodup_eraseIf (h : (l.map Prod.fst).Nodup) : ((eraseIf p l).map Prod.fst).Nodup :=
  h.sublist (List.filter_sublist.map _)

theorem nodup_erase (h : (l.map Prod.fst).Nodup) : ((erase k l).map Prod.fst).Nodup :=
  nodup_eraseIf h

theorem nodup_put (h : (l.map Prod.fst).Nodup) : ((put k a l).map Prod.fst).Nodup := by
  rw [put, List.map_cons, List.nodup_cons]
  refine ⟨?_, nodup_erase h⟩
  rw [get_isSome, get_erase, if_pos rfl]
  exact nofun

end Table
