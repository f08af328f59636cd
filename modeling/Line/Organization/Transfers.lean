import Line.Engine.Encoding
import Line.Lib.Decimal
import Line.Lib.JsonText
import Mathlib.Data.List.DropRight
import Mathlib.Data.Nat.Digits.Defs

/-!
# Transfer packages

Quotes, notes and merchant profiles leave one browser and enter another as texts
(`src/lib/organization/transfers.ts`). Every decoder checks its fields anew: `Sound` says what of a
value the checks ask, so what is sound survives its package, and what comes out of a package is
sound. Which of the client's values are sound is another matter (`Line.Organization.Kept`).

Texts are texts of UTF-16 code units, and a `bigint` is an integer. The checksums of addresses are
a package's (`Bech32m`).

A package is parsed before any field is read: its length, its schema and the names of its fields
are checked first, so a decoder only asks for fields that are there. The fields are then read one
by one, and the first that is not in order ends it.
-/

namespace Line.Organization

open JsonText Checked

abbrev Result (α : Type) := Except String α

/-- `MerchantBinding`. -/
structure MerchantBinding where
  publicKey : Utf16
  address : Utf16
  name : Utf16
  disabled : Option Bool
deriving DecidableEq

/-- `OrganizationQuote`. -/
structure OrganizationQuote where
  contractAddress : Utf16
  domain : Utf16
  merchantPk : Utf16
  invoiceId : Utf16
  quoteNonce : Utf16
  amount : ℤ
  expiry : ℤ
  generation : ℤ
  feeFlat : ℤ
  feeBps : ℤ
  quoteCommitment : Utf16
deriving DecidableEq

structure Refund where
  salt : Utf16
  amount : ℤ
  paid : Bool
deriving DecidableEq

/-- `OrganizationNote`. -/
structure OrganizationNote where
  contractAddress : Utf16
  domain : Utf16
  identity : Utf16
  merchantPk : Utf16
  quoteCommitment : Utf16
  amount : ℤ
  fee : ℤ
  expiry : ℤ
  generation : ℤ
  noteNonce : Utf16
  noteSalt : Utf16
  noteCommitment : Utf16
  redeemed : Bool
  expiryRecorded : Option Bool
  refund : Option Refund
deriving DecidableEq

/-! ## Addresses -/

/-- `bech32m.decodeToBytes`: the human-readable part and the bytes, unless it throws. A text is
the part, a `1`, five bits in each character and a checksum of six. -/
structure Bech32m where
  decodeToBytes : Utf16 → Option (Utf16 × List UInt8)
  length_decodeToBytes : ∀ s part bytes, decodeToBytes s = some (part, bytes) →
    s.length = part.length + 1 + (8 * bytes.length + 4) / 5 + 6

/-- `receivingAddressBytes`. -/
def receivingAddressBytes (bech32m : Bech32m) (value : Utf16) : Result (List UInt8) :=
  match bech32m.decodeToBytes value with
  | none => .error "Invalid bech32m text"
  | some (part, bytes) =>
    if part ≠ ascii "mn_addr_preprod" ∨ bytes.length ≠ 32 then
      .error "A Midnight Preprod receiving address is required."
    else .ok bytes

/-! ## Fields -/

def isHexUnit (c : UInt16) : Bool :=
  isDigit c || decide (97 ≤ c.toNat) && decide (c.toNat ≤ 102)

/-- `/^[0-9a-f]{64}$/`. -/
def isHex64 (s : Utf16) : Bool := decide (s.length = 64) && s.all isHexUnit

def object (value : Option Tree) : Result (List (Utf16 × Tree)) :=
  match value with
  | some (.object entries) => .ok entries
  | _ => .error "Invalid transfer package."

def hex (value : Option Tree) : Result Utf16 :=
  match value with
  | some (.string s) =>
    if isHex64 s then .ok s else .error "Transfer contains invalid commitment bytes."
  | _ => .error "Transfer contains invalid commitment bytes."

/-- `BigInt` of a text of digits. -/
def readDigits (s : Utf16) : ℕ := s.foldl (fun n c => 10 * n + (c.toNat - 48)) 0

def UINT64_MAX : ℕ := 18446744073709551615

def uint (value : Option Tree) (positive : Bool) : Result ℤ :=
  match value with
  | some (.string s) =>
    if 1 ≤ s.length ∧ s.length ≤ 20 ∧ s.all isDigit then
      if UINT64_MAX < readDigits s ∨ positive ∧ readDigits s = 0 then
        .error "Transfer value is outside its range."
      else .ok (readDigits s)
    else .error "Transfer contains an invalid amount or deadline."
  | _ => .error "Transfer contains an invalid amount or deadline."

/-- `keys.sort().join()`. -/
def sortedKeys (keys : List Utf16) : Utf16 :=
  List.intercalate [44] (keys.mergeSort fun a b => !decide (b < a))

def require (condition : Bool) (message : String) : Result Unit :=
  if condition then .ok () else .error message

def isText (value : Option Tree) (s : Utf16) : Bool :=
  match value with
  | some (.string t) => t == s
  | _ => false

/-- `parse`: the entries of a package. -/
def parsePackage (text : Utf16) (schema : String) (keys : List String) :
    Result (List (Utf16 × Tree)) := do
  require (decide (text.length ≤ 16384)) "Transfer package is too large."
  let value ← object (parse text)
  require (isText (value.lookup (ascii "schema")) (ascii schema) &&
      sortedKeys (value.map Prod.fst) == sortedKeys (("schema" :: keys).map ascii))
    "Transfer schema or fields differ from this product version."
  pure value

/-! ## Encoding and decoding -/

def merchantKeys : List String := ["name", "publicKey", "address"]

def quoteKeys : List String :=
  ["contractAddress", "domain", "merchantPk", "invoiceId", "quoteNonce", "amount", "expiry",
    "generation", "feeFlat", "feeBps", "quoteCommitment"]

def noteKeys : List String :=
  ["contractAddress", "domain", "identity", "merchantPk", "quoteCommitment", "amount", "fee",
    "expiry", "generation", "noteNonce", "noteSalt", "noteCommitment"]

/-- `item.toString()` of a `bigint`. -/
def decimal (z : ℤ) : Utf16 := ascii (Decimal.printInt z)

/-- `JSON.stringify(…, null, 2)` of an object of texts. -/
def stringify (entries : List (String × Utf16)) : Utf16 :=
  print 2 0 (record (entries.map fun e => (ascii e.1, e.2)))

def encodeMerchant (value : MerchantBinding) : Utf16 :=
  stringify [("schema", ascii "line:organization-merchant/v1"), ("name", value.name),
    ("publicKey", value.publicKey), ("address", value.address)]

/-- `text.trim()`. -/
def trim (s : Utf16) : Utf16 :=
  ((s.dropWhile Line.Engine.isWhitespace).reverse.dropWhile Line.Engine.isWhitespace).reverse

def decodeMerchant (bech32m : Bech32m) (text : Utf16) : Result MerchantBinding := do
  let value ← parsePackage text "line:organization-merchant/v1" merchantKeys
  match value.lookup (ascii "name"), value.lookup (ascii "address") with
  | some (.string name), some (.string address) =>
    require (!(trim name).isEmpty && decide (name.length ≤ 80)) "Invalid merchant profile."
    let _ ← receivingAddressBytes bech32m address
    let publicKey ← hex (value.lookup (ascii "publicKey"))
    pure { publicKey := publicKey, address := address, name := name, disabled := none }
  | _, _ => .error "Invalid merchant profile."

def encodeQuote (value : OrganizationQuote) : Utf16 :=
  stringify [("schema", ascii "line:organization-quote/v1"),
    ("contractAddress", value.contractAddress), ("domain", value.domain),
    ("merchantPk", value.merchantPk), ("invoiceId", value.invoiceId),
    ("quoteNonce", value.quoteNonce), ("amount", decimal value.amount),
    ("expiry", decimal value.expiry), ("generation", decimal value.generation),
    ("feeFlat", decimal value.feeFlat), ("feeBps", decimal value.feeBps),
    ("quoteCommitment", value.quoteCommitment)]

def decodeQuote (text : Utf16) : Result OrganizationQuote := do
  let value ← parsePackage text "line:organization-quote/v1" quoteKeys
  let contractAddress ← hex (value.lookup (ascii "contractAddress"))
  let domain ← hex (value.lookup (ascii "domain"))
  let merchantPk ← hex (value.lookup (ascii "merchantPk"))
  let invoiceId ← hex (value.lookup (ascii "invoiceId"))
  let quoteNonce ← hex (value.lookup (ascii "quoteNonce"))
  let amount ← uint (value.lookup (ascii "amount")) true
  let expiry ← uint (value.lookup (ascii "expiry")) true
  let generation ← uint (value.lookup (ascii "generation")) true
  let feeFlat ← uint (value.lookup (ascii "feeFlat")) false
  let feeBps ← uint (value.lookup (ascii "feeBps")) false
  let quoteCommitment ← hex (value.lookup (ascii "quoteCommitment"))
  require (decide (feeBps ≤ 10000)) "Invalid quoted fee policy."
  pure {
    contractAddress := contractAddress, domain := domain, merchantPk := merchantPk,
    invoiceId := invoiceId, quoteNonce := quoteNonce, amount := amount, expiry := expiry,
    generation := generation, feeFlat := feeFlat, feeBps := feeBps,
    quoteCommitment := quoteCommitment }

def encodeNote (value : OrganizationNote) : Utf16 :=
  stringify [("schema", ascii "line:organization-note/v1"),
    ("contractAddress", value.contractAddress), ("domain", value.domain),
    ("identity", value.identity), ("merchantPk", value.merchantPk),
    ("quoteCommitment", value.quoteCommitment), ("amount", decimal value.amount),
    ("fee", decimal value.fee), ("expiry", decimal value.expiry),
    ("generation", decimal value.generation), ("noteNonce", value.noteNonce),
    ("noteSalt", value.noteSalt), ("noteCommitment", value.noteCommitment)]

def decodeNote (text : Utf16) : Result OrganizationNote := do
  let value ← parsePackage text "line:organization-note/v1" noteKeys
  let contractAddress ← hex (value.lookup (ascii "contractAddress"))
  let domain ← hex (value.lookup (ascii "domain"))
  let identity ← hex (value.lookup (ascii "identity"))
  let merchantPk ← hex (value.lookup (ascii "merchantPk"))
  let quoteCommitment ← hex (value.lookup (ascii "quoteCommitment"))
  let amount ← uint (value.lookup (ascii "amount")) true
  let fee ← uint (value.lookup (ascii "fee")) false
  let expiry ← uint (value.lookup (ascii "expiry")) true
  let generation ← uint (value.lookup (ascii "generation")) true
  let noteNonce ← hex (value.lookup (ascii "noteNonce"))
  let noteSalt ← hex (value.lookup (ascii "noteSalt"))
  let noteCommitment ← hex (value.lookup (ascii "noteCommitment"))
  pure {
    contractAddress := contractAddress, domain := domain, identity := identity,
    merchantPk := merchantPk, quoteCommitment := quoteCommitment, amount := amount, fee := fee,
    expiry := expiry, generation := generation, noteNonce := noteNonce, noteSalt := noteSalt,
    noteCommitment := noteCommitment, redeemed := false, expiryRecorded := none, refund := none }

/-! ## What the decoders accept -/

/-- A number of 64 bits. -/
def IsUint (z : ℤ) : Prop := 0 ≤ z ∧ z ≤ UINT64_MAX

/-- What a quote needs to be a package. -/
structure OrganizationQuote.Sound (q : OrganizationQuote) : Prop where
  contractAddress : isHex64 q.contractAddress = true
  domain : isHex64 q.domain = true
  merchantPk : isHex64 q.merchantPk = true
  invoiceId : isHex64 q.invoiceId = true
  quoteNonce : isHex64 q.quoteNonce = true
  amount : IsUint q.amount ∧ 0 < q.amount
  expiry : IsUint q.expiry ∧ 0 < q.expiry
  generation : IsUint q.generation ∧ 0 < q.generation
  feeFlat : IsUint q.feeFlat
  feeBps : IsUint q.feeBps ∧ q.feeBps ≤ 10000
  quoteCommitment : isHex64 q.quoteCommitment = true

structure OrganizationNote.Sound (n : OrganizationNote) : Prop where
  contractAddress : isHex64 n.contractAddress = true
  domain : isHex64 n.domain = true
  identity : isHex64 n.identity = true
  merchantPk : isHex64 n.merchantPk = true
  quoteCommitment : isHex64 n.quoteCommitment = true
  amount : IsUint n.amount ∧ 0 < n.amount
  fee : IsUint n.fee
  expiry : IsUint n.expiry ∧ 0 < n.expiry
  generation : IsUint n.generation ∧ 0 < n.generation
  noteNonce : isHex64 n.noteNonce = true
  noteSalt : isHex64 n.noteSalt = true
  noteCommitment : isHex64 n.noteCommitment = true

/-- The name of a profile: not blank, and of at most 80 units. -/
def MerchantBinding.Named (m : MerchantBinding) : Prop := trim m.name ≠ [] ∧ m.name.length ≤ 80

structure MerchantBinding.Sound (bech32m : Bech32m) (m : MerchantBinding) : Prop where
  named : m.Named
  publicKey : isHex64 m.publicKey = true
  address : ∃ bytes, receivingAddressBytes bech32m m.address = .ok bytes

/-- Without what is the browser's own. -/
def OrganizationNote.shared (n : OrganizationNote) : OrganizationNote :=
  { n with redeemed := false, expiryRecorded := none, refund := none }

def MerchantBinding.shared (m : MerchantBinding) : MerchantBinding := { m with disabled := none }

@[simp] theorem require_ok_iff {condition : Bool} {message : String} {u : Unit} :
    require condition message = .ok u ↔ condition = true := by
  rw [require]
  split
  · next h => exact iff_of_true rfl h
  · next h => exact iff_of_false (fun hok => nomatch hok) h

theorem hex_ok_iff {value : Option Tree} {s : Utf16} :
    hex value = .ok s ↔ value = some (.string s) ∧ isHex64 s = true := by
  constructor
  · intro h
    unfold hex at h
    split at h
    · split at h
      · next hs =>
        cases h
        exact ⟨rfl, hs⟩
      · cases h
    · cases h
  · rintro ⟨rfl, hs⟩
    rw [hex, if_pos hs]

/-! ### Numbers -/

theorem toNat_digit {c : Char} (h : c.isDigit = true) :
    c.toNat.toUInt16.toNat = c.toNat ∧ isDigit c.toNat.toUInt16 = true := by
  have hc : 48 ≤ c.toNat ∧ c.toNat ≤ 57 := by simpa [Char.isDigit, UInt32.le_iff_toNat_le] using h
  have hsame : c.toNat.toUInt16.toNat = c.toNat := by
    rw [Nat.toUInt16_eq, UInt16.toNat_ofNat']
    omega
  refine ⟨hsame, ?_⟩
  rw [isDigit, hsame, Bool.and_eq_true, decide_eq_true_eq, decide_eq_true_eq]
  exact hc

/-- A printed number is read back. -/
theorem readDigits_decimal (n : ℕ) : readDigits (decimal n) = n := by
  have hfold : ∀ (cs : List Char) (k : ℕ), (∀ c ∈ cs, c.isDigit = true) →
      (cs.map fun c => c.toNat.toUInt16).foldl (fun n c => 10 * n + (c.toNat - 48)) k =
        Nat.ofDigitChars 10 cs k := by
    intro cs
    induction cs with
    | nil =>
      intro k _
      rfl
    | cons c cs ih =>
      intro k hcs
      rw [List.map_cons, List.foldl_cons, (toNat_digit (hcs c List.mem_cons_self)).1,
        ih _ fun d hd => hcs d (List.mem_cons_of_mem _ hd)]
      rfl
  have hdigits : ∀ c ∈ Nat.toDigits 10 n, c.isDigit = true :=
    fun c hc => Nat.isDigit_of_mem_toDigits (by omega) (by omega) hc
  rw [readDigits, decimal, ascii]
  show ((String.ofList (Nat.toDigits 10 n)).toList.map _).foldl _ 0 = n
  rw [String.toList_ofList, hfold _ 0 hdigits]
  exact Nat.ofDigitChars_ten_toDigits

theorem decimal_digits (n : ℕ) (h : n ≤ UINT64_MAX) :
    1 ≤ (decimal n).length ∧ (decimal n).length ≤ 20 ∧ (decimal n).all isDigit = true := by
  have hlist : decimal n = (Nat.toDigits 10 n).map fun c => c.toNat.toUInt16 := by
    rw [decimal, ascii]
    show ((String.ofList (Nat.toDigits 10 n)).toList.map _) = _
    rw [String.toList_ofList]
  have hpos : 0 < (Nat.toDigits 10 n).length := Nat.length_toDigits_pos
  have hlength : (Nat.toDigits 10 n).length ≤ 20 :=
    Nat.toDigits_length 10 n 20 (by omega) (by unfold UINT64_MAX at h; omega)
  rw [hlist, List.length_map]
  refine ⟨hpos, hlength, ?_⟩
  rw [List.all_map, List.all_eq_true]
  intro c hc
  exact (toNat_digit (Nat.isDigit_of_mem_toDigits (by omega) (by omega) hc)).2

theorem uint_ok {value : Option Tree} {positive : Bool} {z : ℤ}
    (h : uint value positive = .ok z) : IsUint z ∧ (positive = true → 0 < z) := by
  unfold uint at h
  split at h
  · split at h
    · split at h
      · cases h
      · next hrange =>
        cases h
        rw [not_or] at hrange
        refine ⟨⟨Int.natCast_nonneg _, by exact_mod_cast Nat.le_of_not_lt hrange.1⟩, ?_⟩
        intro hp
        have hne : readDigits _ ≠ 0 := fun h0 => hrange.2 ⟨hp, h0⟩
        exact_mod_cast Nat.pos_of_ne_zero hne
    · cases h
  · cases h

theorem uint_decimal {z : ℤ} {positive : Bool} (hz : IsUint z) (hp : positive = true → 0 < z) :
    uint (some (.string (decimal z))) positive = .ok z := by
  obtain ⟨n, rfl⟩ := Int.eq_ofNat_of_zero_le hz.1
  have hn : n ≤ UINT64_MAX := by exact_mod_cast hz.2
  rw [uint, if_pos (decimal_digits n hn), readDigits_decimal, if_neg]
  rintro (hlt | ⟨hpos, h0⟩)
  · omega
  · have h := hp hpos
    omega

/-! ### Packages -/

/-- The keys of all packages. -/
def packageKeys : List String := "schema" :: (merchantKeys ++ (quoteKeys ++ noteKeys))

theorem ascii_inj {k l : String} (hk : k ∈ packageKeys) (hl : l ∈ packageKeys)
    (h : ascii k = ascii l) : k = l := by
  have key : (packageKeys.all fun k => packageKeys.all fun l =>
      ascii k != ascii l || k == l) = true := by decide
  have hkl := List.all_eq_true.mp (List.all_eq_true.mp key k hk) l hl
  rw [h, bne_self_eq_false, Bool.false_or] at hkl
  exact eq_of_beq hkl

/-- The entries that a package is parsed to. -/
def entries (es : List (String × Utf16)) : List (Utf16 × Tree) :=
  es.map fun e => (ascii e.1, .string e.2)

theorem lookup_entries {es : List (String × Utf16)} {k : String}
    (hes : ∀ e ∈ es, e.1 ∈ packageKeys) (hk : k ∈ packageKeys) :
    (entries es).lookup (ascii k) = (es.lookup k).map .string := by
  induction es with
  | nil => rfl
  | cons e es ih =>
    have ih := ih fun e' he' => hes e' (List.mem_cons_of_mem _ he')
    obtain ⟨l, s⟩ := e
    rw [entries, List.map_cons, List.lookup_cons, List.lookup_cons]
    by_cases hkl : k = l
    · rw [hkl, beq_self_eq_true, beq_self_eq_true]
      rfl
    · have hne : ascii k ≠ ascii l := fun h => hkl (ascii_inj hk (hes _ List.mem_cons_self) h)
      rw [beq_false_of_ne hkl, beq_false_of_ne hne]
      exact ih

/-- A printed package is parsed to its entries. -/
theorem parsePackage_stringify {es : List (String × Utf16)} {schema : String} {keys : List String}
    (hkeys : es.map Prod.fst = "schema" :: keys) (hknown : ∀ k ∈ keys, k ∈ packageKeys)
    (hnodup : ("schema" :: keys).Nodup) (hcount : keys.length ≤ 12)
    (hschema : es.lookup "schema" = some (ascii schema)) (hshort : ∀ e ∈ es, e.2.length ≤ 80) :
    parsePackage (stringify es) schema keys = .ok (entries es) := by
  have hmem : ∀ e ∈ es, e.1 ∈ packageKeys := by
    intro e he
    have hk : e.1 ∈ "schema" :: keys := by
      rw [← hkeys]
      exact List.mem_map_of_mem he
    rcases List.mem_cons.mp hk with hk | hk
    · rw [hk]
      exact List.mem_cons_self
    · exact hknown _ hk
  have hall : ∀ k ∈ packageKeys, (ascii k).length ≤ 15 := by decide
  -- few members with short texts, so the package is within the length that is read
  have hlength : (stringify es).length ≤ 16384 := by
    have hrecord : (stringify es).length ≤ _ := length_record (a := 15) (b := 80) (by
      intro e he
      obtain ⟨e', he', rfl⟩ := List.mem_map.mp he
      exact ⟨hall _ (hmem e' he'), hshort e' he'⟩)
    have hes : es.length = keys.length + 1 := by
      rw [← List.length_map Prod.fst, hkeys, List.length_cons]
    rw [List.length_map, hes] at hrecord
    omega
  -- the names are told apart as texts too, so no member replaces another
  have hparse : parse (stringify es) = some (.object (entries es)) := by
    rw [stringify, parse_print, record, List.map_map]
    · rfl
    · refine record_proper ?_
      rw [List.map_map]
      have hfst : es.map (Prod.fst ∘ fun e => (ascii e.1, e.2)) = (es.map Prod.fst).map ascii := by
        rw [List.map_map]
        rfl
      rw [hfst, hkeys, List.nodup_map_iff_inj_on hnodup]
      intro k hk l hl hkl
      have hknown' : ∀ k ∈ "schema" :: keys, k ∈ packageKeys := by
        intro k hk
        rcases List.mem_cons.mp hk with rfl | hk
        · exact List.mem_cons_self
        · exact hknown k hk
      exact ascii_inj (hknown' k hk) (hknown' l hl) hkl
  have hfst : (entries es).map Prod.fst = ("schema" :: keys).map ascii := by
    rw [entries, List.map_map, ← hkeys, List.map_map]
    rfl
  -- the first check is the schema, the second that the names are the expected ones
  have hsame : isText ((entries es).lookup (ascii "schema")) (ascii schema) = true := by
    rw [lookup_entries hmem List.mem_cons_self, hschema]
    exact beq_self_eq_true _
  simp only [parsePackage, bind_ok_iff, require_ok_iff, pure_ok_iff]
  refine ⟨(), decide_eq_true hlength, entries es, ?_, (), ?_, rfl⟩
  · rw [hparse]
    rfl
  · rw [hsame, hfst, beq_self_eq_true]
    rfl

theorem hex_lookup {es : List (String × Utf16)} {k : String} {s : Utf16}
    (hes : ∀ e ∈ es, e.1 ∈ packageKeys) (hk : k ∈ packageKeys) (hs : es.lookup k = some s)
    (h : isHex64 s = true) : hex ((entries es).lookup (ascii k)) = .ok s := by
  rw [lookup_entries hes hk, hs]
  exact hex_ok_iff.mpr ⟨rfl, h⟩

theorem uint_lookup {es : List (String × Utf16)} {k : String} {z : ℤ} {positive : Bool}
    (hes : ∀ e ∈ es, e.1 ∈ packageKeys) (hk : k ∈ packageKeys)
    (hs : es.lookup k = some (decimal z)) (hz : IsUint z) (hp : positive = true → 0 < z) :
    uint ((entries es).lookup (ascii k)) positive = .ok z := by
  rw [lookup_entries hes hk, hs]
  exact uint_decimal hz hp

theorem isHex64_length {s : Utf16} (h : isHex64 s = true) : s.length ≤ 80 := by
  rw [isHex64, Bool.and_eq_true, decide_eq_true_eq] at h
  omega

theorem IsUint.length {z : ℤ} (h : IsUint z) : (decimal z).length ≤ 80 := by
  obtain ⟨n, rfl⟩ := Int.eq_ofNat_of_zero_le h.1
  have hn := (decimal_digits n (by exact_mod_cast h.2)).2.1
  omega

/-! ### Quotes -/

theorem decodeQuote_sound {text : Utf16} {q : OrganizationQuote} (h : decodeQuote text = .ok q) :
    q.Sound := by
  simp only [decodeQuote, bind_ok_iff, pure_ok_iff, require_ok_iff, hex_ok_iff] at h
  obtain ⟨es, -, contractAddress, ⟨-, h₁⟩, domain, ⟨-, h₂⟩, merchantPk, ⟨-, h₃⟩, invoiceId,
    ⟨-, h₄⟩, quoteNonce, ⟨-, h₅⟩, amount, h₆, expiry, h₇, generation, h₈, feeFlat, h₉, feeBps,
    h₁₀, quoteCommitment, ⟨-, h₁₁⟩, _, hbps, rfl⟩ := h
  have hamount := uint_ok h₆
  have hexpiry := uint_ok h₇
  have hgeneration := uint_ok h₈
  exact {
    contractAddress := h₁
    domain := h₂
    merchantPk := h₃
    invoiceId := h₄
    quoteNonce := h₅
    amount := ⟨hamount.1, hamount.2 rfl⟩
    expiry := ⟨hexpiry.1, hexpiry.2 rfl⟩
    generation := ⟨hgeneration.1, hgeneration.2 rfl⟩
    feeFlat := (uint_ok h₉).1
    feeBps := ⟨(uint_ok h₁₀).1, of_decide_eq_true hbps⟩
    quoteCommitment := h₁₁ }

/-- **A sound quote survives its package.** -/
theorem decodeQuote_encodeQuote {q : OrganizationQuote} (hq : q.Sound) :
    decodeQuote (encodeQuote q) = .ok q := by
  let es := [("schema", ascii "line:organization-quote/v1"),
    ("contractAddress", q.contractAddress), ("domain", q.domain), ("merchantPk", q.merchantPk),
    ("invoiceId", q.invoiceId), ("quoteNonce", q.quoteNonce), ("amount", decimal q.amount),
    ("expiry", decimal q.expiry), ("generation", decimal q.generation),
    ("feeFlat", decimal q.feeFlat), ("feeBps", decimal q.feeBps),
    ("quoteCommitment", q.quoteCommitment)]
  have hes : ∀ e ∈ es, e.1 ∈ packageKeys := by
    have hkeys : ∀ k ∈ es.map Prod.fst, k ∈ packageKeys := by
      show ∀ k ∈ "schema" :: quoteKeys, k ∈ packageKeys
      decide
    exact fun e he => hkeys _ (List.mem_map_of_mem he)
  -- every text of a quote is a word or a number of twenty digits
  have hshort : ∀ e ∈ es, e.2.length ≤ 80 := by
    simp only [es, List.forall_mem_cons]
    exact ⟨by decide, isHex64_length hq.contractAddress, isHex64_length hq.domain,
      isHex64_length hq.merchantPk, isHex64_length hq.invoiceId, isHex64_length hq.quoteNonce,
      hq.amount.1.length, hq.expiry.1.length, hq.generation.1.length, hq.feeFlat.length,
      hq.feeBps.1.length, isHex64_length hq.quoteCommitment, fun _ h => by cases h⟩
  have hparse : parsePackage (encodeQuote q) "line:organization-quote/v1" quoteKeys =
      .ok (entries es) :=
    parsePackage_stringify rfl (by decide) (by decide) (by decide) rfl hshort
  -- field by field, what is read is what was written
  simp only [decodeQuote, bind_ok_iff, pure_ok_iff, require_ok_iff]
  exact ⟨entries es, hparse, _, hex_lookup hes (by decide) rfl hq.contractAddress,
    _, hex_lookup hes (by decide) rfl hq.domain, _, hex_lookup hes (by decide) rfl hq.merchantPk,
    _, hex_lookup hes (by decide) rfl hq.invoiceId,
    _, hex_lookup hes (by decide) rfl hq.quoteNonce,
    _, uint_lookup hes (by decide) rfl hq.amount.1 fun _ => hq.amount.2,
    _, uint_lookup hes (by decide) rfl hq.expiry.1 fun _ => hq.expiry.2,
    _, uint_lookup hes (by decide) rfl hq.generation.1 fun _ => hq.generation.2,
    _, uint_lookup hes (by decide) rfl hq.feeFlat (fun h => by cases h),
    _, uint_lookup hes (by decide) rfl hq.feeBps.1 (fun h => by cases h),
    _, hex_lookup hes (by decide) rfl hq.quoteCommitment, (), decide_eq_true hq.feeBps.2, rfl⟩

/-! ### Notes -/

theorem decodeNote_sound {text : Utf16} {n : OrganizationNote} (h : decodeNote text = .ok n) :
    n.Sound ∧ n.shared = n := by
  simp only [decodeNote, bind_ok_iff, pure_ok_iff, hex_ok_iff] at h
  obtain ⟨es, -, contractAddress, ⟨-, h₁⟩, domain, ⟨-, h₂⟩, identity, ⟨-, h₃⟩, merchantPk,
    ⟨-, h₄⟩, quoteCommitment, ⟨-, h₅⟩, amount, h₆, fee, h₇, expiry, h₈, generation, h₉, noteNonce,
    ⟨-, h₁₀⟩, noteSalt, ⟨-, h₁₁⟩, noteCommitment, ⟨-, h₁₂⟩, rfl⟩ := h
  have hamount := uint_ok h₆
  have hexpiry := uint_ok h₈
  have hgeneration := uint_ok h₉
  refine ⟨?_, rfl⟩
  exact {
    contractAddress := h₁
    domain := h₂
    identity := h₃
    merchantPk := h₄
    quoteCommitment := h₅
    amount := ⟨hamount.1, hamount.2 rfl⟩
    fee := (uint_ok h₇).1
    expiry := ⟨hexpiry.1, hexpiry.2 rfl⟩
    generation := ⟨hgeneration.1, hgeneration.2 rfl⟩
    noteNonce := h₁₀
    noteSalt := h₁₁
    noteCommitment := h₁₂ }

/-- **A sound note survives its package**, without what is the browser's own. -/
theorem decodeNote_encodeNote {n : OrganizationNote} (hn : n.Sound) :
    decodeNote (encodeNote n) = .ok n.shared := by
  let es := [("schema", ascii "line:organization-note/v1"),
    ("contractAddress", n.contractAddress), ("domain", n.domain), ("identity", n.identity),
    ("merchantPk", n.merchantPk), ("quoteCommitment", n.quoteCommitment),
    ("amount", decimal n.amount), ("fee", decimal n.fee), ("expiry", decimal n.expiry),
    ("generation", decimal n.generation), ("noteNonce", n.noteNonce), ("noteSalt", n.noteSalt),
    ("noteCommitment", n.noteCommitment)]
  have hes : ∀ e ∈ es, e.1 ∈ packageKeys := by
    have hkeys : ∀ k ∈ es.map Prod.fst, k ∈ packageKeys := by
      show ∀ k ∈ "schema" :: noteKeys, k ∈ packageKeys
      decide
    exact fun e he => hkeys _ (List.mem_map_of_mem he)
  have hshort : ∀ e ∈ es, e.2.length ≤ 80 := by
    simp only [es, List.forall_mem_cons]
    exact ⟨by decide, isHex64_length hn.contractAddress, isHex64_length hn.domain,
      isHex64_length hn.identity, isHex64_length hn.merchantPk, isHex64_length hn.quoteCommitment,
      hn.amount.1.length, hn.fee.length, hn.expiry.1.length, hn.generation.1.length,
      isHex64_length hn.noteNonce, isHex64_length hn.noteSalt, isHex64_length hn.noteCommitment,
      fun _ h => by cases h⟩
  have hparse : parsePackage (encodeNote n) "line:organization-note/v1" noteKeys =
      .ok (entries es) :=
    parsePackage_stringify rfl (by decide) (by decide) (by decide) rfl hshort
  simp only [decodeNote, bind_ok_iff, pure_ok_iff]
  exact ⟨entries es, hparse, _, hex_lookup hes (by decide) rfl hn.contractAddress,
    _, hex_lookup hes (by decide) rfl hn.domain, _, hex_lookup hes (by decide) rfl hn.identity,
    _, hex_lookup hes (by decide) rfl hn.merchantPk,
    _, hex_lookup hes (by decide) rfl hn.quoteCommitment,
    _, uint_lookup hes (by decide) rfl hn.amount.1 fun _ => hn.amount.2,
    _, uint_lookup hes (by decide) rfl hn.fee (fun h => by cases h),
    _, uint_lookup hes (by decide) rfl hn.expiry.1 fun _ => hn.expiry.2,
    _, uint_lookup hes (by decide) rfl hn.generation.1 fun _ => hn.generation.2,
    _, hex_lookup hes (by decide) rfl hn.noteNonce, _, hex_lookup hes (by decide) rfl hn.noteSalt,
    _, hex_lookup hes (by decide) rfl hn.noteCommitment, rfl⟩

/-! ### Trimmed texts -/

theorem trim_eq (s : Utf16) : trim s =
    (s.dropWhile Line.Engine.isWhitespace).rdropWhile Line.Engine.isWhitespace := rfl

theorem head_trimmed {s : Utf16} (hne : s.dropWhile Line.Engine.isWhitespace ≠ []) :
    Line.Engine.isWhitespace ((s.dropWhile Line.Engine.isWhitespace).head hne) = false := by
  rw [← Bool.not_eq_true]
  exact Bool.eq_false_iff.mp (List.head_dropWhile_not _ hne)

theorem trim_eq_nil_iff {s : Utf16} :
    trim s = [] ↔ ∀ c ∈ s, Line.Engine.isWhitespace c = true := by
  rw [trim_eq, List.rdropWhile_eq_nil_iff]
  constructor
  · intro h
    rw [← List.dropWhile_eq_nil_iff]
    by_contra hne
    have hhead := head_trimmed hne
    rw [h _ (List.head_mem hne)] at hhead
    cases hhead
  · intro h c hc
    rw [List.dropWhile_eq_nil_iff.mpr h] at hc
    cases hc

/-- The first unit that is left is not whitespace. -/
theorem trim_head {s cs : Utf16} {c : UInt16} (h : trim s = c :: cs) :
    Line.Engine.isWhitespace c = false := by
  obtain ⟨rest, hrest⟩ := List.rdropWhile_prefix Line.Engine.isWhitespace
    (s.dropWhile Line.Engine.isWhitespace)
  rw [← trim_eq, h, List.cons_append] at hrest
  have hne : s.dropWhile Line.Engine.isWhitespace ≠ [] := by
    rw [← hrest]
    exact List.cons_ne_nil _ _
  have hhead := head_trimmed hne
  simpa only [← hrest, List.head_cons] using hhead

/-! ### Merchants -/

variable {bech32m : Bech32m}

theorem receivingAddressBytes_length {address : Utf16} {bytes : List UInt8}
    (h : receivingAddressBytes bech32m address = .ok bytes) : address.length = 74 := by
  unfold receivingAddressBytes at h
  split at h
  · cases h
  · next part bs hdecode =>
    split at h
    · cases h
    · next hparts =>
      rw [not_or, not_not, not_not] at hparts
      have hlength := bech32m.length_decodeToBytes _ _ _ hdecode
      have hpart : (ascii "mn_addr_preprod").length = 15 := by decide
      rw [hparts.1, hparts.2, hpart] at hlength
      exact hlength

theorem decodeMerchant_sound {text : Utf16} {m : MerchantBinding}
    (h : decodeMerchant bech32m text = .ok m) : m.Sound bech32m ∧ m.shared = m := by
  rw [decodeMerchant] at h
  obtain ⟨es, -, h⟩ := bind_ok_iff.mp h
  split at h
  · next name address _ _ =>
    simp only [bind_ok_iff, pure_ok_iff, require_ok_iff, Bool.and_eq_true, decide_eq_true_eq,
      Bool.not_eq_true', hex_ok_iff] at h
    obtain ⟨_, ⟨hblank, hlength⟩, bytes, haddress, publicKey, ⟨-, hkey⟩, rfl⟩ := h
    refine ⟨⟨⟨?_, hlength⟩, hkey, bytes, haddress⟩, rfl⟩
    intro htrim
    rw [htrim] at hblank
    cases hblank
  · cases h

/-- **A sound profile survives its package**, without the mark that is the browser's own. -/
theorem decodeMerchant_encodeMerchant {m : MerchantBinding} (hm : m.Sound bech32m) :
    decodeMerchant bech32m (encodeMerchant m) = .ok m.shared := by
  obtain ⟨⟨hblank, hname⟩, hkey, bytes, haddress⟩ := hm
  let es := [("schema", ascii "line:organization-merchant/v1"), ("name", m.name),
    ("publicKey", m.publicKey), ("address", m.address)]
  have hes : ∀ e ∈ es, e.1 ∈ packageKeys := by
    have hkeys : ∀ k ∈ es.map Prod.fst, k ∈ packageKeys := by
      show ∀ k ∈ "schema" :: merchantKeys, k ∈ packageKeys
      decide
    exact fun e he => hkeys _ (List.mem_map_of_mem he)
  -- the bytes of an address bound the length of its text
  have hshort : ∀ e ∈ es, e.2.length ≤ 80 := by
    have haddress' := receivingAddressBytes_length haddress
    simp only [es, List.forall_mem_cons]
    exact ⟨by decide, hname, isHex64_length hkey, by omega, fun _ h => nomatch h⟩
  have hparse : parsePackage (encodeMerchant m) "line:organization-merchant/v1" merchantKeys =
      .ok (entries es) :=
    parsePackage_stringify rfl (by decide) (by decide) (by decide) rfl hshort
  have hlookup : (entries es).lookup (ascii "name") = some (.string m.name) :=
    lookup_entries hes (by decide)
  have hlookup' : (entries es).lookup (ascii "address") = some (.string m.address) :=
    lookup_entries hes (by decide)
  have hnonblank : (trim m.name).isEmpty = false := by
    rw [← Bool.not_eq_true, List.isEmpty_iff]
    exact hblank
  rw [decodeMerchant]
  refine bind_ok_iff.mpr ⟨_, hparse, ?_⟩
  rw [hlookup, hlookup']
  simp only [bind_ok_iff, pure_ok_iff, require_ok_iff]
  refine ⟨(), ?_, bytes, haddress, m.publicKey, hex_lookup hes (by decide) rfl hkey, rfl⟩
  rw [hnonblank, decide_eq_true hname]
  rfl

end Line.Organization
