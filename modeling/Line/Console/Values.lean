import Line.Journal.Valid
import Line.Vault.RoundTrip

/-!
# Properties of values

How the console reads and writes values whose shape nothing but its own checks says:
property by property, as the language does it. A property that is not there is
`undefined`, and what is written into a value of the language leaves one.

Writing replaces a property in its place, or appends it, so reading after writing has the
usual two laws (`Value.get_assign`, `Value.get_assign_ne`). Truth, comparison and `??` are
those of the language. A clone is written out by the codec and read back, so it is a value of
the language whatever it was taken of, and the value itself if that is one.
-/

namespace Line.Vault.Value

/-! ## Reading and writing properties -/

/-- `value.key`; `null` and `undefined` have no properties. -/
def access (value : Value) (key : String) : Result Value :=
  match value with
  | .null | .undefined => .error (.typeError "Cannot read properties of null or undefined.")
  | value => .ok (value.get key)

/-- `value[0]`. -/
def index0 : Value → Result Value
  | .null | .undefined => .error (.typeError "Cannot read properties of null or undefined.")
  | .array items => .ok (items.head?.getD .undefined)
  | .bytes bs => .ok ((bs.head?.map fun b => .number (.ofNat b)).getD .undefined)
  | .string s => .ok ((s.toList.head?.map fun c => .string (.singleton c)).getD .undefined)
  | value => .ok (value.get "0")

/-- The own properties that `{ ...value }` copies. -/
def entriesOf : Value → List (String × Value)
  | .object entries => entries
  | .array items => items.mapIdx fun i v => (toString i, v)
  | .bytes bs => bs.mapIdx fun i b => (toString i, .number (.ofNat b))
  | .string s => s.toList.mapIdx fun i c => (toString i, .string (.singleton c))
  | _ => []

/-- Writing a property: in its place, or after the others. -/
def setEntry (key : String) (v : Value) : List (String × Value) → List (String × Value)
  | [] => [(key, v)]
  | (k, w) :: entries => if k = key then (key, v) :: entries else (k, w) :: setEntry key v entries

/-- `{ ...value, key: v }`, for a key that is no array index. -/
def spread (value : Value) (key : String) (v : Value) : Value :=
  .object (setEntry key v value.entriesOf)

/-- `value.key = v`, for a key that is no array index. -/
def assign (value : Value) (key : String) (v : Value) : Value :=
  match value with
  | .object entries => .object (setEntry key v entries)
  | value => value

/-- `value ?? fallback`. -/
def orElse (value fallback : Value) : Value :=
  match value with
  | .null | .undefined => fallback
  | value => value

/-- `a === b`; objects that were decoded apart are never the same. -/
def strictEq : Value → Value → Bool
  | .null, .null | .undefined, .undefined | .minusZero, .minusZero => true
  | .string a, .string b => a == b
  | .boolean a, .boolean b => a == b
  | .bigint a, .bigint b => a == b
  | .number (.finite a), .number (.finite b) => decide (a = b)
  | .number (.infinity a), .number (.infinity b) => a == b
  | .minusZero, .number (.finite a) | .number (.finite a), .minusZero => decide (a = 0)
  | _, _ => false

/-- `Array.isArray(value)`. -/
def isArray : Value → Bool
  | .array _ => true
  | _ => false

def itemsOf : Value → List Value
  | .array items => items
  | _ => []

/-- `typeof value === "object"`, and not null. -/
def isObject : Value → Bool
  | .object _ | .array _ | .bytes _ => true
  | _ => false

def isBoolean : Value → Bool
  | .boolean _ => true
  | _ => false

/-- A string that is not empty. -/
def isFilled : Value → Bool
  | .string s => s != ""
  | _ => false

/-- `"key" in value`. -/
def has (value : Value) (key : String) : Bool := value.keys.contains key

/-- A text that may be missing, as a property. -/
def optional (s : Option String) : Value := (s.map .string).getD .undefined

/-! ## What a property is after a write -/

theorem lookup_setEntry (key k : String) (v : Value) (entries : List (String × Value)) :
    (setEntry k v entries).lookup key = if key = k then some v else entries.lookup key := by
  induction entries with
  | nil =>
      rw [setEntry]
      by_cases h : key = k
      · simp [h]
      · simp only [if_neg h, List.lookup_cons, beq_eq_false_iff_ne.mpr h]
  | cons e entries ih =>
      obtain ⟨k', w⟩ := e
      rw [setEntry]
      by_cases hk : k' = k
      · rw [if_pos hk]
        by_cases h : key = k
        · simp [h]
        · have h' : (key == k') = false := beq_eq_false_iff_ne.mpr (hk ▸ h)
          simp only [if_neg h, List.lookup_cons, beq_eq_false_iff_ne.mpr h, h']
      · rw [if_neg hk]
        by_cases h : key = k'
        · rw [h, if_neg hk]
          simp
        · simp only [List.lookup_cons, beq_eq_false_iff_ne.mpr h]
          exact ih

theorem get_assign_ne {key k : String} (h : key ≠ k) (value v : Value) :
    (value.assign k v).get key = value.get key := by
  cases value with
  | object entries =>
      rw [assign, get, get, lookup_setEntry, if_neg h]
  | _ => rfl

/-- What has a property is an object, and takes new ones. -/
theorem get_assign {k p : String} {value : Value} (h : value.get p ≠ .undefined) (v : Value) :
    (value.assign k v).get k = v := by
  cases value with
  | object entries =>
      rw [assign, get, lookup_setEntry, if_pos rfl]
      rfl
  | _ => exact absurd rfl h

theorem ne_undefined_of_truthy {value : Value} (h : value.truthy = true) : value ≠ .undefined := by
  intro heq
  rw [heq] at h
  cases h

theorem safeNat_le {v : Value} {n : ℕ} (h : v.safeNat = some n) : n ≤ Number.maxSafe := by
  unfold safeNat at h
  split at h
  · next q =>
      split at h
      · next hq =>
          cases h
          simp only [Number.isSafeInteger, Rat.isInt, Bool.and_eq_true, beq_iff_eq,
            decide_eq_true_eq] at hq
          obtain ⟨⟨hint, hle⟩, hpos⟩ := hq
          have hnum : (q.num : ℚ) = q := Rat.den_eq_one_iff q |>.mp hint
          rw [abs_of_nonneg hpos, ← hnum] at hle
          have hle' : q.num ≤ (Number.maxSafe : ℤ) := by exact_mod_cast hle
          omega
      · cases h
  · cases h
    exact Nat.zero_le _
  · cases h

/-! ## Values of the language -/

/-- The keys after a property was written. -/
theorem keys_setEntry (key : String) (v : Value) (entries : List (String × Value)) :
    (setEntry key v entries).map Prod.fst = if key ∈ entries.map Prod.fst
      then entries.map Prod.fst else entries.map Prod.fst ++ [key] := by
  induction entries with
  | nil => rfl
  | cons e entries ih =>
      obtain ⟨k, w⟩ := e
      rw [setEntry]
      by_cases hk : k = key
      · simp [hk]
      · rw [if_neg hk, List.map_cons, ih, List.map_cons]
        by_cases hmem : key ∈ entries.map Prod.fst
        · rw [if_pos hmem, if_pos (List.mem_cons_of_mem _ hmem)]
        · have hnew : key ∉ k :: entries.map Prod.fst := by
            rw [List.mem_cons, not_or]
            exact ⟨fun heq => hk heq.symm, hmem⟩
          rw [if_neg hmem, if_neg hnew, List.cons_append]

theorem mem_setEntry {key : String} {v : Value} {entries : List (String × Value)}
    {e : String × Value} (h : e ∈ setEntry key v entries) : e ∈ entries ∨ e = (key, v) := by
  induction entries with
  | nil => exact .inr (List.mem_singleton.mp h)
  | cons d entries ih =>
      obtain ⟨k, w⟩ := d
      rw [setEntry] at h
      split at h
      · rcases List.mem_cons.mp h with rfl | h
        · exact .inr rfl
        · exact .inl (List.mem_cons_of_mem _ h)
      · rcases List.mem_cons.mp h with rfl | h
        · exact .inl List.mem_cons_self
        · exact (ih h).imp_left (List.mem_cons_of_mem _)

/-- A key that is no array index goes after all others. -/
theorem proper_setEntry {key : String} {v : Value} {entries : List (String × Value)}
    (hkey : arrayIndex key = none) (hv : v.Proper) (h : (Value.object entries).Proper) :
    (Value.object (setEntry key v entries)).Proper := by
  refine ⟨?_, ?_⟩
  · rw [keys_setEntry]
    split
    · exact h.1
    · next hnew =>
        rw [List.pairwise_append]
        refine ⟨h.1, List.pairwise_singleton _ _, fun k hk k' hk' => ?_⟩
        rw [List.mem_singleton.mp hk']
        refine ⟨fun heq => hnew (heq ▸ hk), ?_⟩
        rw [before, hkey]
        cases arrayIndex k <;> rfl
  · rw [properEntries_iff]
    intro e he
    rcases mem_setEntry he with he | rfl
    · exact properEntries_iff.mp h.2 e he
    · exact hv

theorem proper_assign {key : String} {v value : Value} (hkey : arrayIndex key = none)
    (hv : v.Proper) (h : value.Proper) : (value.assign key v).Proper := by
  cases value with
  | object entries => exact proper_setEntry hkey hv h
  | _ => exact h

theorem repr_toList (n : ℕ) : (toString n).toList = Nat.toDigits 10 n := by
  show (Nat.repr n).toList = _
  rw [Nat.repr, String.toList_ofList]

theorem repr_inj {i j : ℕ} (h : toString i = toString j) : i = j := by
  have hlist := congrArg String.toList h
  rw [repr_toList, repr_toList] at hlist
  have hread := congrArg Decimal.read hlist
  simpa [Decimal.read] using hread

/-- The indices of an array are in property order. -/
theorem before_index {i j : ℕ} (h : i < j) : before (toString i) (toString j) = true := by
  have hindex : ∀ n : ℕ, arrayIndex (toString n) = if n < 2 ^ 32 - 1 then some n else none := by
    intro n
    have hread : Decimal.read (Nat.toDigits 10 n) = n := Nat.ofDigitChars_ten_toDigits
    simp only [arrayIndex, repr_toList, Decimal.canonical_toDigits, hread, Bool.true_and,
      decide_eq_true_eq]
  rw [before, hindex i, hindex j]
  by_cases hj : j < 2 ^ 32 - 1
  · rw [if_pos hj, if_pos (h.trans hj)]
    exact decide_eq_true h
  · rw [if_neg hj]
    by_cases hi : i < 2 ^ 32 - 1
    · rw [if_pos hi]
    · rw [if_neg hi]

/-- What is listed by index is a list of properties. -/
theorem proper_indexed {α : Type} (f : α → Value) (l : List α) (hf : ∀ a ∈ l, (f a).Proper) :
    (Value.object (l.mapIdx fun i a => (toString i, f a))).Proper := by
  refine ⟨?_, ?_⟩
  · rw [List.pairwise_map, List.pairwise_iff_getElem]
    intro i j hi hj hij
    rw [List.getElem_mapIdx, List.getElem_mapIdx]
    exact ⟨fun h => hij.ne (repr_inj h), before_index hij⟩
  · rw [properEntries_iff]
    intro e he
    obtain ⟨i, hi, rfl⟩ := List.mem_mapIdx.mp he
    exact hf _ (List.getElem_mem hi)

theorem proper_spread {key : String} {v value : Value} (hkey : arrayIndex key = none)
    (hv : v.Proper) (h : value.Proper) : (value.spread key v).Proper := by
  refine proper_setEntry hkey hv ?_
  cases value with
  | object entries => exact h
  | array items => exact proper_indexed id items (properItems_iff.mp h)
  | bytes bs => exact proper_indexed (fun b => .number (.ofNat b)) bs fun _ _ => trivial
  | string s => exact proper_indexed (fun c => .string (.singleton c)) s.toList fun _ _ => trivial
  | _ => exact ⟨.nil, by simp [entriesOf, properEntries]⟩

theorem proper_itemsOf {value : Value} (h : value.Proper) : ∀ v ∈ value.itemsOf, v.Proper := by
  cases value with
  | array items => exact properItems_iff.mp h
  | _ =>
      intro v hv
      cases hv

theorem proper_orElse {value fallback : Value} (h : value.Proper) (hf : fallback.Proper) :
    (value.orElse fallback).Proper := by
  cases value <;> first | exact hf | exact h

end Line.Vault.Value

namespace Line.Journal

open Vault Checked

/-- A clone is a value of the language, whatever it is a clone of. -/
theorem clone_proper {v w : Value} (h : clone v = .ok w) : w.Proper := by
  simp only [clone, encodeVaultJson, bind_ok_iff, pure_ok_iff, Prod.exists] at h
  obtain ⟨text, ⟨payload, n, -, rfl⟩, hdec⟩ := h
  have hformat : "line:vault-json/".isPrefixOf FORMAT = true := by decide +kernel
  simp only [decodeVaultJson, Json.stringify, List.lookup_cons, beq_self_eq_true, hformat] at hdec
  rw [if_neg (by decide)] at hdec
  simp only [show ("payload" == "format") = false by decide, List.length_cons, List.length_nil,
    ne_eq, not_true_eq_false, or_self, ↓reduceIte] at hdec
  split at hdec
  · next hv =>
      cases hdec
      exact decode_proper hv
  · cases hdec

/-! ## What a stored journal is checked for -/

/-- The transaction hash of a receipt that was accepted is a text, if there is one. -/
theorem storedReceipt_hash {value r : Value} (h : storedReceipt value = some (some r)) :
    (r.get "txHash").Proper := by
  unfold storedReceipt at h
  split at h
  · cases h
  · simp only [Option.bind_eq_bind, Option.bind_eq_some_iff, toOption_eq_some_iff, Option.pure_def,
      Option.some.injEq] at h
    obtain ⟨_, hnormal, rfl⟩ := h
    simp only [normalizeReceipt, bind_ok_iff, require_ok_iff, Bool.and_eq_true,
      Bool.or_eq_true] at hnormal
    obtain ⟨-, ⟨⟨⟨⟨⟨-, hhash⟩, -⟩, -⟩, -⟩, -⟩, -⟩ := hnormal
    cases hv : value.get "txHash" <;> rw [hv] at hhash <;>
      first | exact trivial | simp_all [Value.isUndefined, validTx]

theorem validateOperations_receipts {revision : ℕ} {values : List Value} {sequence : ℕ}
    {ids : List String} {operations : List JournalOperation}
    (h : validateOperations revision values sequence ids = some operations) :
    ∀ op ∈ operations, ∀ r ∈ op.receipt, (r.get "txHash").Proper := by
  induction values generalizing sequence ids operations with
  | nil =>
      cases h
      intro op hop
      cases hop
  | cons value values ih =>
      simp only [validateOperations, Option.bind_eq_bind, Option.bind_eq_some_iff,
        Option.pure_def, Option.some.injEq] at h
      obtain ⟨op, hop, _, -, rest, hrest, rfl⟩ := h
      intro o ho r hr
      rcases List.mem_cons.mp ho with rfl | ho
      · -- the receipt is the sixth thing that is read, and is taken over as it is
        unfold validateOperation at hop
        iterate 5 obtain ⟨_, -, hop⟩ := Option.bind_eq_some_iff.mp hop
        obtain ⟨receipt, hreceipt, hop⟩ := Option.bind_eq_some_iff.mp hop
        iterate 11 obtain ⟨_, -, hop⟩ := Option.bind_eq_some_iff.mp hop
        cases hop
        rw [show receipt = some r from hr] at hreceipt
        exact storedReceipt_hash hreceipt
      · exact ih hrest o ho r hr

theorem validateRecord_receipts {value : Value} {scope : JournalScope}
    {record : OperationJournalRecord} (h : validateRecord value scope = .ok record) :
    ∀ op ∈ record.operations, ∀ r ∈ op.receipt, (r.get "txHash").Proper := by
  unfold validateRecord at h
  split at h
  · next x hx =>
      cases h
      simp only [checkedRecord, Option.bind_eq_bind, Option.bind_eq_some_iff, Option.pure_def,
        Option.some.injEq] at hx
      obtain ⟨_, -, _, -, _, -, _, -, _, -, _, -, _, -, _, -, _, -, operations, hops, _, -, _, -,
        rfl⟩ := hx
      exact validateOperations_receipts hops
  · cases h

end Line.Journal
