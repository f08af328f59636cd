import Mathlib.Data.List.TakeWhile
import Line.Lib.Checked
import Line.Lib.Decimal
import Line.Lib.Json

/-!
# The vault codec

`src/lib/security/vault-codec.ts`. Every value is written with a tag, so that the data
of the application cannot be taken for one of the codec's own markers, and both
directions count the nodes they visit and how deep they are.

The count is handed on from one child to the next, so encoding and decoding are functions of a
count that return the count after them. That they visit the same number of nodes is part of
what is proved of the round trip: a value that was written within the limits is read within
them (`decode_encode`). Which values are written at all has a description without the count
(`encode_ok_iff`), which is the form that everything outside this directory uses.

A value is data: `foreign` stands for what the encoder refuses whatever is around it
(functions, symbols, instances of a class, cyclic and sparse structures), each with a text of
its own. Of a structure that is refused at one of its parts nothing else is kept.
-/

namespace Line.Vault

open Checked

/-- What the vault, and what uses it, may throw. -/
inductive Error where
  | plain (message : String)
  | typeError (message : String)
  | locked (message : String)
  | tampered (message : String)
  | persistence (message : String)
  | conflict (message : String)
deriving DecidableEq, Repr

/-- A computation that may throw. -/
abbrev Result (α : Type) := Except Error α

/-- What the encoder refuses for what it is. -/
inductive Foreign where
  /-- A function or a symbol. -/
  | primitive
  /-- A structure that is inside itself. -/
  | cyclic
  /-- An array with a hole or an accessor. -/
  | sparse
  /-- An instance of a class. -/
  | classInstance
  | symbolKeys
  /-- An object with an accessor. -/
  | accessor

def Foreign.message : Foreign → String
  | .primitive => "Unsupported vault value."
  | .cyclic => "Cyclic vault payload."
  | .sparse => "Sparse or accessor vault array."
  | .classInstance => "Vault objects must be plain records."
  | .symbolKeys => "Symbol vault keys are unsupported."
  | .accessor => "Accessor vault values are unsupported."

/-- A value of the application, an object as its entries in the order of its keys. -/
inductive Value where
  | null
  | undefined
  | string (s : String)
  | boolean (b : Bool)
  | number (n : Number)
  | minusZero
  | bigint (z : ℤ)
  | bytes (bs : List (Fin 256))
  | array (items : List Value)
  | object (entries : List (String × Value))
  | foreign (f : Foreign)

def FORMAT : String := "line:vault-json/v1"

def MAX_DEPTH : ℕ := 100

def MAX_NODES : ℕ := 100000

/-! ## Property order -/

/-- The array index that a key spells, if it does. -/
def arrayIndex (key : String) : Option ℕ :=
  if Decimal.canonical key.toList && decide (Decimal.read key.toList < 2 ^ 32 - 1) then
    some (Decimal.read key.toList)
  else none

/-- `a` is listed before a key `b` that is added after it: indices come first, ascending. -/
def before (a b : String) : Bool :=
  match arrayIndex a, arrayIndex b with
  | some i, some j => decide (i < j)
  | some _, none => true
  | none, some _ => false
  | none, none => true

/-- `Object.defineProperty` of a new key. -/
def define (entries : List (String × Value)) (key : String) (value : Value) :
    List (String × Value) :=
  entries.takeWhile (fun e => before e.1 key) ++ (key, value) :: entries.dropWhile fun e =>
    before e.1 key

/-! ## Bytes -/

/-- `b.toString(16).padStart(2, "0")`. -/
def hexPair (b : Fin 256) : List Char := [Nat.digitChar (b / 16), Nat.digitChar (b % 16)]

def hexDigit (c : Char) : Option ℕ :=
  if '0' ≤ c ∧ c ≤ '9' then some (c.toNat - 48)
  else if 'a' ≤ c ∧ c ≤ 'f' then some (c.toNat - 87)
  else none

instance byteNeZero : NeZero 256 := ⟨by decide⟩

/-- `parseInt(pair, 16)`. -/
def readPair (a b : Char) : Option (Fin 256) :=
  match hexDigit a, hexDigit b with
  | some x, some y => some (Fin.ofNat 256 (16 * x + y))
  | _, _ => none

/-- The bytes of a text in `(?:[0-9a-f]{2})*`. -/
def readBytes : List Char → Option (List (Fin 256))
  | [] => some []
  | [_] => none
  | a :: b :: cs =>
    match readPair a b, readBytes cs with
    | some x, some xs => some (x :: xs)
    | _, _ => none

/-! ## Encoding -/

/-- A tagged node. -/
def node (tag : String) (value : Json) : Json := .array [.string tag, value]

/-- `if (++count > MAX_NODES || depth > MAX_DEPTH) throw …`: the count after this node. -/
def visit (depth count : ℕ) : Result ℕ :=
  if MAX_NODES < count + 1 ∨ MAX_DEPTH < depth then
    .error (.typeError "Vault payload exceeds codec limits.")
  else .ok (count + 1)

mutual

/-- `encode` inside `encodeVaultJson`: the node of a value, and the count after it. -/
def encode (value : Value) (depth count : ℕ) : Result (Json × ℕ) := do
  let count ← visit depth count
  match value with
  | .null => pure (.array [.string "null"], count)
  | .undefined => pure (.array [.string "undefined"], count)
  | .string s => pure (node "string" (.string s), count)
  | .boolean b => pure (node "boolean" (.boolean b), count)
  | .number (.finite q) => pure (node "number" (.number (.finite q)), count)
  | .number _ => .error (.typeError "Non-finite vault number.")
  | .minusZero => pure (node "number" (.string "-0"), count)
  | .bigint z => pure (node "bigint" (.string (Decimal.printInt z)), count)
  | .bytes bs => pure (node "bytes" (.string (.ofList (bs.flatMap hexPair))), count)
  | .foreign f => .error (.typeError f.message)
  | .array items => do
    let (children, count) ← encodeItems items (depth + 1) count
    pure (node "array" (.array children), count)
  | .object entries => do
    let (children, count) ← encodeEntries entries (depth + 1) count
    pure (node "object" (.array children), count)

def encodeItems (items : List Value) (depth count : ℕ) : Result (List Json × ℕ) :=
  match items with
  | [] => pure ([], count)
  | value :: items => do
    let (child, count) ← encode value depth count
    let (children, count) ← encodeItems items depth count
    pure (child :: children, count)

def encodeEntries (entries : List (String × Value)) (depth count : ℕ) :
    Result (List Json × ℕ) :=
  match entries with
  | [] => pure ([], count)
  | (key, value) :: entries => do
    let (child, count) ← encode value depth count
    let (children, count) ← encodeEntries entries depth count
    pure (.array [.string key, child] :: children, count)

end

/-- `encodeVaultJson`. -/
def encodeVaultJson (value : Value) : Result Json.Text := do
  let (payload, _) ← encode value 0 0
  pure (Json.stringify (.object [("format", .string FORMAT), ("payload", payload)]))

/-! ## Decoding -/

mutual

/-- `decode` inside `decodeVaultJson`; all of its failures are caught and reported as one. -/
def decode (node : Json) (depth count : ℕ) : Option (Value × ℕ) :=
  match node with
  | .array items =>
    if MAX_NODES < count + 1 ∨ MAX_DEPTH < depth then none
    else
      match items with
      | [.string tag] =>
        if tag = "null" then some (.null, count + 1)
        else if tag = "undefined" then some (.undefined, count + 1)
        else none
      | [.string tag, .string s] =>
        if tag = "string" then some (.string s, count + 1)
        else if tag = "number" ∧ s = "-0" then some (.minusZero, count + 1)
        else if tag = "bigint" then (Decimal.readInt s).map fun z => (.bigint z, count + 1)
        else if tag = "bytes" then (readBytes s.toList).map fun bs => (.bytes bs, count + 1)
        else none
      | [.string tag, .boolean b] => if tag = "boolean" then some (.boolean b, count + 1) else none
      | [.string tag, .number (.finite q)] =>
        if tag = "number" then some (.number (.finite q), count + 1) else none
      | [.string tag, .minusZero] => if tag = "number" then some (.minusZero, count + 1) else none
      | [.string tag, .array children] =>
        if tag = "array" then
          (decodeItems children (depth + 1) (count + 1)).map fun r => (.array r.1, r.2)
        else if tag = "object" then
          (decodeEntries children [] (depth + 1) (count + 1)).map fun r => (.object r.1, r.2)
        else none
      | _ => none
  | _ => none

def decodeItems (children : List Json) (depth count : ℕ) : Option (List Value × ℕ) :=
  match children with
  | [] => some ([], count)
  | child :: children => do
    let (value, count) ← decode child depth count
    let (items, count) ← decodeItems children depth count
    pure (value :: items, count)

/-- The entries after `result`, one property at a time. -/
def decodeEntries (children : List Json) (result : List (String × Value)) (depth count : ℕ) :
    Option (List (String × Value) × ℕ) :=
  match children with
  | [] => some (result, count)
  | .array [.string key, child] :: children =>
    if result.any (fun e => e.1 = key) then none
    else do
      let (value, count) ← decode child depth count
      decodeEntries children (define result key value) depth count
  | _ :: _ => none

end

mutual

/-- Ordinary JSON, as `JSON.parse` returns it. -/
def ordinary : Json → Value
  | .null => .null
  | .boolean b => .boolean b
  | .number n => .number n
  | .minusZero => .minusZero
  | .string s => .string s
  | .array items => .array (ordinaryItems items)
  | .object entries => .object (ordinaryEntries entries)

def ordinaryItems : List Json → List Value
  | [] => []
  | j :: items => ordinary j :: ordinaryItems items

def ordinaryEntries : List (String × Json) → List (String × Value)
  | [] => []
  | (key, j) :: entries => (key, ordinary j) :: ordinaryEntries entries

end

def malformed : Error := .tampered "Vault JSON payload is malformed or unsupported."

/-- `decodeVaultJson`. Existing records contained ordinary JSON. -/
def decodeVaultJson (json : Json.Text) : Result Value :=
  match json with
  | none => .error malformed
  | some (.object entries) =>
    match entries.lookup "format" with
    | some (.string format) =>
      if !"line:vault-json/".isPrefixOf format then .ok (ordinary (.object entries))
      else
        match entries.lookup "payload" with
        | some payload =>
          if format ≠ FORMAT ∨ entries.length ≠ 2 then .error malformed
          else
            match decode payload 0 0 with
            | some (value, _) => .ok value
            | none => .error malformed
        | none => .error malformed
    | _ => .ok (ordinary (.object entries))
  | some parsed => .ok (ordinary parsed)

/-! ## Round trip -/

mutual

/-- The keys of every object are distinct and in property order, as those of any object are. -/
def Value.Proper : Value → Prop
  | .array items => properItems items
  | .object entries =>
    (entries.map Prod.fst).Pairwise (fun a b => a ≠ b ∧ before a b = true) ∧ properEntries entries
  | _ => True

def properItems : List Value → Prop
  | [] => True
  | v :: items => v.Proper ∧ properItems items

def properEntries : List (String × Value) → Prop
  | [] => True
  | (_, v) :: entries => v.Proper ∧ properEntries entries

end

/-- A value as the language has it. -/
abbrev Data := {value : Value // value.Proper}

theorem visit_ok_iff {depth count n : ℕ} :
    visit depth count = .ok n ↔ ¬(MAX_NODES < count + 1 ∨ MAX_DEPTH < depth) ∧ n = count + 1 := by
  unfold visit
  split
  · next h =>
      constructor
      · intro hn
        cases hn
      · rintro ⟨hn, -⟩
        exact absurd h hn
  · next h =>
      rw [Except.ok.injEq]
      exact ⟨fun hn => ⟨h, hn.symm⟩, fun hn => hn.2.symm⟩

theorem readPair_hexPair (b : Fin 256) :
    readPair (Nat.digitChar (b / 16)) (Nat.digitChar (b % 16)) = some b := by
  revert b
  decide +kernel

theorem readBytes_flatMap (bs : List (Fin 256)) : readBytes (bs.flatMap hexPair) = some bs := by
  induction bs with
  | nil => rfl
  | cons b bs ih =>
      rw [List.flatMap_cons]
      simp only [hexPair, List.cons_append, List.nil_append, readBytes, readPair_hexPair, ih]

/-- A property that comes after all others is added at the end. -/
theorem define_last {entries : List (String × Value)} {key : String} {value : Value}
    (h : ∀ e ∈ entries, before e.1 key = true) :
    define entries key value = entries ++ [(key, value)] := by
  have htake : entries.takeWhile (fun e => before e.1 key) = entries :=
    List.takeWhile_eq_self_iff.mpr h
  have hdrop : (entries.dropWhile fun e => before e.1 key) = [] :=
    List.dropWhile_eq_nil_iff.mpr h
  rw [define, htake, hdrop]

mutual

/-- **What the encoder writes the decoder reads**, after the same number of nodes. -/
theorem decode_encode {value : Value} {depth count n : ℕ} {j : Json} (hv : value.Proper)
    (h : encode value depth count = .ok (j, n)) : decode j depth count = some (value, n) := by
  unfold encode at h
  rw [bind_ok_iff] at h
  obtain ⟨m, hm, h⟩ := h
  obtain ⟨hfit, rfl⟩ := visit_ok_iff.mp hm
  cases value with
  -- the children are read in the order in which they were written
  | array items =>
      simp only [bind_ok_iff, pure_ok_iff, Prod.exists] at h
      obtain ⟨children, k, hk, heq⟩ := h
      cases heq
      simp only [node, decode, if_neg hfit, ↓reduceIte, decodeItems_encode hv hk, Option.map_some]
  | object entries =>
      simp only [bind_ok_iff, pure_ok_iff, Prod.exists] at h
      obtain ⟨children, k, hk, heq⟩ := h
      cases heq
      -- the keys differ, so none is refused as a second one
      have hdec := decodeEntries_encode [] (by simpa using hv.1) hv.2 hk
      simp only [node, decode, if_neg hfit]
      simp [hdec]
  | number q =>
      cases q with
      | finite q =>
          cases h
          simp only [node, decode, if_neg hfit]
          rfl
      | nan => cases h
      | infinity s => cases h
  | foreign _ => cases h
  -- digits and bytes are read back by their own lemmas
  | bigint z =>
      cases h
      simp only [node, decode, if_neg hfit]
      simp [Decimal.readInt_printInt]
  | bytes bs =>
      cases h
      simp only [node, decode, if_neg hfit]
      simp [readBytes_flatMap]
  | null | undefined | string | boolean | minusZero =>
      cases h
      simp only [node, decode, if_neg hfit]
      simp

theorem decodeItems_encode {items : List Value} {depth count n : ℕ} {children : List Json}
    (hv : properItems items) (h : encodeItems items depth count = .ok (children, n)) :
    decodeItems children depth count = some (items, n) := by
  cases items with
  | nil =>
      cases h
      rfl
  | cons value items =>
      simp only [encodeItems, bind_ok_iff, pure_ok_iff, Prod.exists] at h
      obtain ⟨child, m, hc, rest, k, hr, heq⟩ := h
      cases heq
      simp [decodeItems, decode_encode hv.1 hc, decodeItems_encode hv.2 hr]

theorem decodeEntries_encode {entries : List (String × Value)} {depth count n : ℕ}
    {children : List Json} (result : List (String × Value))
    (hkeys : ((result ++ entries).map Prod.fst).Pairwise (fun a b => a ≠ b ∧ before a b = true))
    (hv : properEntries entries) (h : encodeEntries entries depth count = .ok (children, n)) :
    decodeEntries children result depth count = some (result ++ entries, n) := by
  cases entries with
  | nil =>
      cases h
      simp [decodeEntries]
  | cons e entries =>
      obtain ⟨key, value⟩ := e
      simp only [encodeEntries, bind_ok_iff, pure_ok_iff, Prod.exists] at h
      obtain ⟨child, m, hc, rest, k, hr, heq⟩ := h
      cases heq
      -- the new key comes after every key read so far, and is none of them
      have hlast : ∀ e ∈ result, e.1 ≠ key ∧ before e.1 key = true := by
        intro e he
        rw [List.map_append, List.pairwise_append] at hkeys
        exact hkeys.2.2 e.1 (List.mem_map_of_mem he) key (by simp)
      have hnew : result.any (fun e => e.1 = key) = false := by
        rw [List.any_eq_false]
        intro e he
        simpa using (hlast e he).1
      have hdef : define result key value = result ++ [(key, value)] :=
        define_last fun e he => (hlast e he).2
      have hih := decodeEntries_encode (result ++ [(key, value)]) (by simpa using hkeys) hv.2 hr
      simp [decodeEntries, hnew, decode_encode hv.1 hc, hdef, hih]

end

/-- **The codec's round trip**: what is encoded is read back as it was. -/
theorem decodeVaultJson_encode {value : Value} {text : Json.Text} (hv : value.Proper)
    (h : encodeVaultJson value = .ok text) : decodeVaultJson text = .ok value := by
  simp only [encodeVaultJson, bind_ok_iff, pure_ok_iff, Prod.exists] at h
  obtain ⟨payload, n, hp, rfl⟩ := h
  have hformat : "line:vault-json/".isPrefixOf FORMAT = true := by decide +kernel
  simp [decodeVaultJson, Json.stringify, hformat, List.lookup_cons, decode_encode hv hp]

/-- Different values have different texts. -/
theorem encodeVaultJson_inj {a b : Value} {text : Json.Text} (ha : a.Proper) (hb : b.Proper)
    (hta : encodeVaultJson a = .ok text) (htb : encodeVaultJson b = .ok text) : a = b := by
  have h1 := decodeVaultJson_encode ha hta
  rw [decodeVaultJson_encode hb htb] at h1
  exact (Except.ok.inj h1).symm

/-! ## Size

Whether a value is encoded depends on what is in it, how many nodes it has and how deep
it is.
-/

mutual

/-- Nothing in it is refused for what it is. -/
def Value.Clean : Value → Prop
  | .foreign _ => False
  | .number n => ∃ q, n = .finite q
  | .array items => cleanItems items
  | .object entries => cleanEntries entries
  | _ => True

def cleanItems : List Value → Prop
  | [] => True
  | v :: items => v.Clean ∧ cleanItems items

def cleanEntries : List (String × Value) → Prop
  | [] => True
  | (_, v) :: entries => v.Clean ∧ cleanEntries entries

end

mutual

def Value.nodes : Value → ℕ
  | .array items => 1 + nodesItems items
  | .object entries => 1 + nodesEntries entries
  | _ => 1

def nodesItems : List Value → ℕ
  | [] => 0
  | v :: items => v.nodes + nodesItems items

def nodesEntries : List (String × Value) → ℕ
  | [] => 0
  | (_, v) :: entries => v.nodes + nodesEntries entries

end

mutual

/-- How deep the deepest node is below the value. -/
def Value.height : Value → ℕ
  | .array items => levels items
  | .object entries => levelsEntries entries
  | _ => 0

def levels : List Value → ℕ
  | [] => 0
  | v :: items => max (v.height + 1) (levels items)

def levelsEntries : List (String × Value) → ℕ
  | [] => 0
  | (_, v) :: entries => max (v.height + 1) (levelsEntries entries)

end

theorem nodesEntries_append (a b : List (String × Value)) :
    nodesEntries (a ++ b) = nodesEntries a + nodesEntries b := by
  induction a with
  | nil => simp [nodesEntries]
  | cons e a ih =>
      rw [List.cons_append, nodesEntries, nodesEntries, ih]
      omega

theorem levelsEntries_append (a b : List (String × Value)) :
    levelsEntries (a ++ b) = max (levelsEntries a) (levelsEntries b) := by
  induction a with
  | nil => simp [levelsEntries]
  | cons e a ih =>
      rw [List.cons_append, levelsEntries, levelsEntries, ih]
      omega

/-- An item of an array is smaller, and less deep. -/
theorem item_bounds {v : Value} {items : List Value} (h : v ∈ items) :
    v.nodes ≤ nodesItems items ∧ v.height + 1 ≤ levels items := by
  induction items with
  | nil => cases h
  | cons w items ih =>
      rw [nodesItems, levels]
      rcases List.mem_cons.mp h with rfl | hmem
      · omega
      · obtain ⟨h1, h2⟩ := ih hmem
        omega

mutual

/-- **What is encoded**, and the count after it. -/
theorem encode_ok_iff {value : Value} {depth count n : ℕ} :
    (∃ j, encode value depth count = .ok (j, n)) ↔
      value.Clean ∧ depth + value.height ≤ MAX_DEPTH ∧ count + value.nodes ≤ MAX_NODES
        ∧ n = count + value.nodes := by
  -- a node counts for one, wherever it stands
  have hvisit : ∀ m, visit depth count = .ok m ↔
      (depth ≤ MAX_DEPTH ∧ count + 1 ≤ MAX_NODES) ∧ m = count + 1 := by
    intro m
    rw [visit_ok_iff]
    exact and_congr_left fun _ => by omega
  unfold encode
  simp only [bind_ok_iff, hvisit]
  cases value with
  -- a list is as deep as its deepest child, and one more
  | array items =>
      simp only [Value.Clean, Value.height, Value.nodes, bind_ok_iff, pure_ok_iff, Prod.exists,
        Prod.mk.injEq]
      constructor
      · rintro ⟨j, m, ⟨⟨hd, hc⟩, rfl⟩, children, k, hk, -, rfl⟩
        obtain ⟨h1, h2, h3, h4⟩ := (encodeItems_ok_iff (by omega) (by omega)).mp ⟨_, hk⟩
        exact ⟨h1, by omega, by omega, by omega⟩
      · rintro ⟨h1, h2, h3, h4⟩
        have hsome : ∃ children, encodeItems items (depth + 1) (count + 1) = .ok (children, n) :=
          (encodeItems_ok_iff (by omega) (by omega)).mpr ⟨h1, by omega, by omega, by omega⟩
        obtain ⟨children, hk⟩ := hsome
        exact ⟨_, _, ⟨⟨by omega, by omega⟩, rfl⟩, children, n, hk, rfl, rfl⟩
  | object entries =>
      simp only [Value.Clean, Value.height, Value.nodes, bind_ok_iff, pure_ok_iff, Prod.exists,
        Prod.mk.injEq]
      constructor
      · rintro ⟨j, m, ⟨⟨hd, hc⟩, rfl⟩, children, k, hk, -, rfl⟩
        obtain ⟨h1, h2, h3, h4⟩ := (encodeEntries_ok_iff (by omega) (by omega)).mp ⟨_, hk⟩
        exact ⟨h1, by omega, by omega, by omega⟩
      · rintro ⟨h1, h2, h3, h4⟩
        have hsome :
            ∃ children, encodeEntries entries (depth + 1) (count + 1) = .ok (children, n) :=
          (encodeEntries_ok_iff (by omega) (by omega)).mpr ⟨h1, by omega, by omega, by omega⟩
        obtain ⟨children, hk⟩ := hsome
        exact ⟨_, _, ⟨⟨by omega, by omega⟩, rfl⟩, children, n, hk, rfl, rfl⟩
  -- of the numbers only the finite ones have a text
  | number q =>
      cases q with
      | finite q =>
          simp only [Value.Clean, Value.height, Value.nodes, pure_ok_iff, Prod.mk.injEq]
          constructor
          · rintro ⟨j, m, ⟨⟨hd, hc⟩, rfl⟩, -, rfl⟩
            exact ⟨⟨q, rfl⟩, by omega, by omega, rfl⟩
          · rintro ⟨-, hd, hc, rfl⟩
            exact ⟨_, _, ⟨⟨by omega, by omega⟩, rfl⟩, rfl, rfl⟩
      | nan => simp [Value.Clean]
      | infinity s => simp [Value.Clean]
  | foreign _ => simp [Value.Clean]
  | null | undefined | string | boolean | minusZero | bigint | bytes =>
      simp only [Value.Clean, Value.height, Value.nodes, pure_ok_iff, Prod.mk.injEq]
      constructor
      · rintro ⟨j, m, ⟨⟨hd, hc⟩, rfl⟩, -, rfl⟩
        exact ⟨trivial, by omega, by omega, rfl⟩
      · rintro ⟨-, hd, hc, rfl⟩
        exact ⟨_, _, ⟨⟨by omega, by omega⟩, rfl⟩, rfl, rfl⟩

theorem encodeItems_ok_iff {items : List Value} {depth count n : ℕ} (hd : depth ≤ MAX_DEPTH + 1)
    (hc : count ≤ MAX_NODES) : (∃ children, encodeItems items depth count = .ok (children, n)) ↔
      cleanItems items ∧ depth + levels items ≤ MAX_DEPTH + 1
        ∧ count + nodesItems items ≤ MAX_NODES ∧ n = count + nodesItems items := by
  cases items with
  | nil =>
      simp only [encodeItems, pure_ok_iff, Prod.mk.injEq, cleanItems, levels, nodesItems]
      constructor
      · rintro ⟨_, -, rfl⟩
        exact ⟨trivial, hd, hc, rfl⟩
      · rintro ⟨-, -, -, rfl⟩
        exact ⟨[], rfl, rfl⟩
  | cons value items =>
      simp only [encodeItems, bind_ok_iff, pure_ok_iff, Prod.exists, Prod.mk.injEq, cleanItems,
        levels, nodesItems]
      constructor
      -- the first child, and the rest from the count after it
      · rintro ⟨_, j, k, hj, children, m, hm, -, rfl⟩
        obtain ⟨h1, h2, h3, rfl⟩ := encode_ok_iff.mp ⟨_, hj⟩
        obtain ⟨h5, h6, h7, h8⟩ := (encodeItems_ok_iff hd h3).mp ⟨_, hm⟩
        exact ⟨⟨h1, h5⟩, by omega, by omega, by omega⟩
      · rintro ⟨⟨h1, h2⟩, h3, h4, h5⟩
        have hfirst : ∃ j, encode value depth count = .ok (j, count + value.nodes) :=
          encode_ok_iff.mpr ⟨h1, by omega, by omega, rfl⟩
        have hrest : ∃ children,
            encodeItems items depth (count + value.nodes) = .ok (children, n) :=
          (encodeItems_ok_iff hd (by omega)).mpr ⟨h2, by omega, by omega, by omega⟩
        obtain ⟨j, hj⟩ := hfirst
        obtain ⟨children, hm⟩ := hrest
        exact ⟨_, j, _, hj, children, n, hm, rfl, rfl⟩

theorem encodeEntries_ok_iff {entries : List (String × Value)} {depth count n : ℕ}
    (hd : depth ≤ MAX_DEPTH + 1) (hc : count ≤ MAX_NODES) :
    (∃ children, encodeEntries entries depth count = .ok (children, n)) ↔
      cleanEntries entries ∧ depth + levelsEntries entries ≤ MAX_DEPTH + 1
        ∧ count + nodesEntries entries ≤ MAX_NODES ∧ n = count + nodesEntries entries := by
  cases entries with
  | nil =>
      simp only [encodeEntries, pure_ok_iff, Prod.mk.injEq, cleanEntries, levelsEntries,
        nodesEntries]
      constructor
      · rintro ⟨_, -, rfl⟩
        exact ⟨trivial, hd, hc, rfl⟩
      · rintro ⟨-, -, -, rfl⟩
        exact ⟨[], rfl, rfl⟩
  | cons e entries =>
      obtain ⟨key, value⟩ := e
      simp only [encodeEntries, bind_ok_iff, pure_ok_iff, Prod.exists, Prod.mk.injEq,
        cleanEntries, levelsEntries, nodesEntries]
      constructor
      -- as with items; a key takes no node
      · rintro ⟨_, j, k, hj, children, m, hm, -, rfl⟩
        obtain ⟨h1, h2, h3, rfl⟩ := encode_ok_iff.mp ⟨_, hj⟩
        obtain ⟨h5, h6, h7, h8⟩ := (encodeEntries_ok_iff hd h3).mp ⟨_, hm⟩
        exact ⟨⟨h1, h5⟩, by omega, by omega, by omega⟩
      · rintro ⟨⟨h1, h2⟩, h3, h4, h5⟩
        have hfirst : ∃ j, encode value depth count = .ok (j, count + value.nodes) :=
          encode_ok_iff.mpr ⟨h1, by omega, by omega, rfl⟩
        have hrest : ∃ children,
            encodeEntries entries depth (count + value.nodes) = .ok (children, n) :=
          (encodeEntries_ok_iff hd (by omega)).mpr ⟨h2, by omega, by omega, by omega⟩
        obtain ⟨j, hj⟩ := hfirst
        obtain ⟨children, hm⟩ := hrest
        exact ⟨_, j, _, hj, children, n, hm, rfl, rfl⟩

end

/-- A value that fits the limits of the codec. -/
def Value.Fits (value : Value) : Prop :=
  value.Clean ∧ value.height ≤ MAX_DEPTH ∧ value.nodes ≤ MAX_NODES

theorem encodeVaultJson_ok_iff {value : Value} :
    (∃ text, encodeVaultJson value = .ok text) ↔ value.Fits := by
  unfold Value.Fits
  constructor
  · rintro ⟨text, ht⟩
    simp only [encodeVaultJson, bind_ok_iff, Prod.exists] at ht
    obtain ⟨payload, n, hp, -⟩ := ht
    obtain ⟨h1, h2, h3, -⟩ := encode_ok_iff.mp ⟨_, hp⟩
    exact ⟨h1, by omega, by omega⟩
  · rintro ⟨h1, h2, h3⟩
    have hsome : ∃ j, encode value 0 0 = .ok (j, 0 + value.nodes) :=
      encode_ok_iff.mpr ⟨h1, by omega, by omega, rfl⟩
    obtain ⟨j, hj⟩ := hsome
    refine ⟨Json.stringify (.object [("format", .string FORMAT), ("payload", j)]), ?_⟩
    rw [encodeVaultJson, hj]
    rfl

end Line.Vault
