import Line.Lib.Number

/-!
# JSON trees

What `JSON.parse` makes of a text and `JSON.stringify` of a tree. A text is kept as
the tree it parses to, if it parses: printing and parsing are the runtime's, and parsing
gives back what was printed. So two printed texts are the same text exactly if they are
the same tree, which `Json.beq` decides.

A tree nests lists of items and lists of members, so what is decided of a tree is decided in three
mutual recursions, one for each kind of list and one for the tree. The members of an object are
compared in their order, as their texts would be.
-/

/-- A parsed JSON text. The keys of an object are distinct. -/
inductive Json where
  | null
  | boolean (b : Bool)
  | number (n : Number)
  /-- The numeral `-0`, which `JSON.parse` keeps apart from `0`. -/
  | minusZero
  | string (s : String)
  | array (items : List Json)
  | object (entries : List (String × Json))

namespace Json

/-- A text: the tree it parses to, or none. -/
abbrev Text := Option Json

/-- `JSON.stringify`. -/
def stringify (j : Json) : Text := some j

mutual

/-- Equality of texts. -/
def beq : Json → Json → Bool
  | null, null => true
  | minusZero, minusZero => true
  | boolean a, boolean b => a == b
  | number a, number b => decide (a = b)
  | string a, string b => a == b
  | array a, array b => beqItems a b
  | object a, object b => beqEntries a b
  | _, _ => false

def beqItems : List Json → List Json → Bool
  | [], [] => true
  | a :: as, b :: bs => beq a b && beqItems as bs
  | _, _ => false

def beqEntries : List (String × Json) → List (String × Json) → Bool
  | [], [] => true
  | (k, a) :: as, (l, b) :: bs => k == l && beq a b && beqEntries as bs
  | _, _ => false

end

mutual

theorem beq_iff (a b : Json) : beq a b = true ↔ a = b := by
  cases a with
  | array as => cases b <;> simp [beq, beqItems_iff as]
  | object as => cases b <;> simp [beq, beqEntries_iff as]
  | _ => cases b <;> simp [beq]

theorem beqItems_iff (as bs : List Json) : beqItems as bs = true ↔ as = bs := by
  cases as with
  | nil => cases bs <;> simp [beqItems]
  | cons a as => cases bs <;> simp [beqItems, beq_iff a, beqItems_iff as]

theorem beqEntries_iff (as bs : List (String × Json)) : beqEntries as bs = true ↔ as = bs := by
  cases as with
  | nil => cases bs <;> simp [beqEntries]
  | cons a as =>
      obtain ⟨k, a⟩ := a
      cases bs <;> simp [beqEntries, beq_iff a, beqEntries_iff as, Prod.ext_iff]

end

instance : DecidableEq Json := fun a b => decidable_of_iff _ (beq_iff a b)

end Json
