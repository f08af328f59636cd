import Line.Console.Values

/-!
# Equality of values

`assert.deepEqual` of `node:assert/strict`, on values of the codec: the properties of two
objects may be listed in any order, and `0` is not `-0`.

The signer compares in this way what it is asked to sign with what it keeps, so a replay with its
members in another order is still the same request. Two objects are equal if they have as many
members and each member of the one has an equal member of its name in the other; two lists are
compared item by item.
-/

namespace Line.Vault.Value

mutual

/-- `isDeepStrictEqual(a, b)`. -/
def deepEqual : Value → Value → Bool
  | .null, .null | .undefined, .undefined | .minusZero, .minusZero => true
  | .string a, .string b => a == b
  | .boolean a, .boolean b => a == b
  | .number a, .number b => decide (a = b)
  | .bigint a, .bigint b => a == b
  | .bytes a, .bytes b => a == b
  | .array a, .array b => deepEqualItems a b
  | .object a, .object b => decide (a.length = b.length) && deepEqualEntries a b
  | _, _ => false

def deepEqualItems : List Value → List Value → Bool
  | [], [] => true
  | v :: vs, w :: ws => deepEqual v w && deepEqualItems vs ws
  | _, _ => false

/-- Each of the first entries is among the second. -/
def deepEqualEntries : List (String × Value) → List (String × Value) → Bool
  | [], _ => true
  | (key, v) :: entries, others =>
    (match others.lookup key with
      | some w => deepEqual v w
      | none => false) && deepEqualEntries entries others

end

end Line.Vault.Value
