import Mathlib.Data.List.Basic
import Mathlib.Tactic.Common

/-!
# JSON texts

`JSON.stringify` and `JSON.parse` on texts, which are sequences of UTF-16 code units. Printing is
with any gap; parsing is in two passes, of the units into tokens and of the tokens into a tree.
Both passes go over their input once, with what they are in the middle of as their state, so that
they end on every text.

The printed text of a proper tree is parsed to that tree (`parse_print`). A number is kept as its
numeral. Each pass is inverted for itself: the units of a printed tree are its tokens
(`tokens_print`), whatever text follows that does not go on with a word, and its tokens make the
tree (`advance_tokens`), whatever is on the stack. Proper means that the numbers are numerals and
that no object has a name twice, since the later of two members replaces the earlier one.
-/

/-- A text of JavaScript. -/
abbrev Utf16 := List UInt16

namespace JsonText

/-- The units of a text of ASCII characters. -/
def ascii (s : String) : Utf16 := s.toList.map fun c => c.toNat.toUInt16

/-- What a text is parsed to. -/
inductive Tree where
  | null
  | boolean (b : Bool)
  | number (numeral : Utf16)
  | string (s : Utf16)
  | array (items : List Tree)
  | object (entries : List (Utf16 × Tree))

/-! ## Strings -/

def hexUnit (d : ℕ) : UInt16 := if d < 10 then (48 + d).toUInt16 else (87 + d).toUInt16

def hexValue (c : UInt16) : Option ℕ :=
  if 48 ≤ c.toNat ∧ c.toNat ≤ 57 then some (c.toNat - 48)
  else if 97 ≤ c.toNat ∧ c.toNat ≤ 102 then some (c.toNat - 87)
  else if 65 ≤ c.toNat ∧ c.toNat ≤ 70 then some (c.toNat - 55)
  else none

/-- The escape with four hexadecimal digits. -/
def unicode (c : UInt16) : Utf16 :=
  [92, 117, hexUnit (c.toNat / 4096), hexUnit (c.toNat / 256 % 16), hexUnit (c.toNat / 16 % 16),
    hexUnit (c.toNat % 16)]

def isHigh (c : UInt16) : Bool := decide (55296 ≤ c.toNat) && decide (c.toNat ≤ 56319)

def isLow (c : UInt16) : Bool := decide (56320 ≤ c.toNat) && decide (c.toNat ≤ 57343)

/-- The units with an escape of two: the quote, the backslash and five controls. -/
def shortEscapes : List (UInt16 × UInt16) :=
  [(34, 34), (92, 92), (8, 98), (12, 102), (10, 110), (13, 114), (9, 116)]

def escapeUnit (c : UInt16) : Utf16 :=
  match shortEscapes.lookup c with
  | some e => [92, e]
  | none => if c.toNat < 32 then unicode c else [c]

/-- A unit that is not part of a pair: surrogates are escaped as well. -/
def escapeLone (c : UInt16) : Utf16 := if isHigh c || isLow c then unicode c else escapeUnit c

def escape : Utf16 → Utf16
  | [] => []
  | [c] => escapeLone c
  | c :: d :: cs =>
    if isHigh c && isLow d then c :: d :: escape cs else escapeLone c ++ escape (d :: cs)

def quote (s : Utf16) : Utf16 := 34 :: (escape s ++ [34])

/-! ## Printing -/

def newline (gap level : ℕ) : Utf16 :=
  if gap = 0 then [] else 10 :: List.replicate (gap * level) 32

def colon (gap : ℕ) : Utf16 := if gap = 0 then [58] else [58, 32]

mutual

/-- `JSON.stringify(value, null, gap)`. -/
def print (gap level : ℕ) : Tree → Utf16
  | .null => ascii "null"
  | .boolean true => ascii "true"
  | .boolean false => ascii "false"
  | .number numeral => numeral
  | .string s => quote s
  | .array [] => [91, 93]
  | .array (v :: vs) =>
    91 :: (newline gap (level + 1) ++ (print gap (level + 1) v ++ (printItems gap (level + 1) vs ++
      (newline gap level ++ [93]))))
  | .object [] => [123, 125]
  | .object ((k, v) :: es) =>
    123 :: (newline gap (level + 1) ++ (quote k ++ (colon gap ++ (print gap (level + 1) v ++
      (printMembers gap (level + 1) es ++ (newline gap level ++ [125]))))))

def printItems (gap level : ℕ) : List Tree → Utf16
  | [] => []
  | v :: vs => 44 :: (newline gap level ++ (print gap level v ++ printItems gap level vs))

def printMembers (gap level : ℕ) : List (Utf16 × Tree) → Utf16
  | [] => []
  | (k, v) :: es =>
    44 :: (newline gap level ++ (quote k ++ (colon gap ++ (print gap level v ++
      printMembers gap level es))))

end

/-! ## Tokens -/

/-- A token; a word is a numeral, or `null`, `true` or `false`. -/
inductive Token where
  | openObject
  | closeObject
  | openArray
  | closeArray
  | colon
  | comma
  | text (s : Utf16)
  | word (s : Utf16)
deriving DecidableEq

/-- What the units before have left open. -/
inductive Mode where
  | between
  | word (read : Utf16)
  | text (read : Utf16)
  | escaped (read : Utf16)
  /-- Some hexadecimal digits are left, and those before have this value. -/
  | unicode (read : Utf16) (value left : ℕ)

def isBlank (c : UInt16) : Bool := [32, 10, 13, 9].contains c

def punctuation : List (UInt16 × Token) :=
  [(123, .openObject), (125, .closeObject), (91, .openArray), (93, .closeArray), (58, .colon),
    (44, .comma)]

def unescapes : List (UInt16 × UInt16) := (47, 47) :: shortEscapes.map Prod.swap

/-- One unit outside of a token. -/
def start (c : UInt16) : List Token × Mode :=
  if isBlank c then ([], .between)
  else if c = 34 then ([], .text [])
  else
    match punctuation.lookup c with
    | some t => ([t], .between)
    | none => ([], .word [c])

/-- A word ends with the unit before this one. -/
def delimits (c : UInt16) : Bool := isBlank c || c == 34 || (punctuation.lookup c).isSome

/-- One unit: the tokens that it completes, and what it leaves open. -/
def scan : Mode → UInt16 → Option (List Token × Mode)
  | .between, c => some (start c)
  | .word read, c =>
    if delimits c then some (.word read :: (start c).1, (start c).2)
    else some ([], .word (read ++ [c]))
  | .text read, c =>
    if c = 34 then some ([.text read], .between)
    else if c = 92 then some ([], .escaped read)
    else if c.toNat < 32 then none
    else some ([], .text (read ++ [c]))
  | .escaped read, c =>
    if c = 117 then some ([], .unicode read 0 3)
    else (unescapes.lookup c).map fun d => ([], .text (read ++ [d]))
  | .unicode read value left, c =>
    (hexValue c).map fun d =>
      match left with
      | 0 => ([], .text (read ++ [(16 * value + d).toUInt16]))
      | left + 1 => ([], .unicode read (16 * value + d) left)

/-- The tokens of a text. -/
def tokens : Mode → Utf16 → Option (List Token)
  | .between, [] => some []
  | .word read, [] => some [.word read]
  | _, [] => none
  | m, c :: cs => (scan m c).bind fun p => (tokens p.2 cs).map (p.1 ++ ·)

/-! ## Numerals -/

/-- How far a numeral has been read. -/
inductive Numeral where
  | start
  | minus
  | zero
  | digits
  | point
  | fraction
  | exponent
  | sign
  | power
deriving DecidableEq

def isDigit (c : UInt16) : Bool := decide (48 ≤ c.toNat) && decide (c.toNat ≤ 57)

/-- `-?(0|[1-9][0-9]*)(\.[0-9]+)?([eE][+-]?[0-9]+)?`. -/
def Numeral.next : Numeral → UInt16 → Option Numeral
  | .start, c =>
    if c = 45 then some .minus
    else if c = 48 then some .zero
    else if isDigit c then some .digits
    else none
  | .minus, c => if c = 48 then some .zero else if isDigit c then some .digits else none
  | .zero, c => if c = 46 then some .point else if c = 101 ∨ c = 69 then some .exponent else none
  | .digits, c =>
    if isDigit c then some .digits
    else if c = 46 then some .point
    else if c = 101 ∨ c = 69 then some .exponent
    else none
  | .point, c => if isDigit c then some .fraction else none
  | .fraction, c =>
    if isDigit c then some .fraction else if c = 101 ∨ c = 69 then some .exponent else none
  | .exponent, c => if c = 43 ∨ c = 45 then some .sign else if isDigit c then some .power else none
  | .sign, c => if isDigit c then some .power else none
  | .power, c => if isDigit c then some .power else none

def isNumeral (s : Utf16) : Bool :=
  match s.foldlM Numeral.next .start with
  | some .zero | some .digits | some .fraction | some .power => true
  | _ => false

/-! ## Trees -/

/-- What is open around a value. -/
inductive Frame where
  | items (read : List Tree)
  | member (read : List (Utf16 × Tree)) (key : Utf16)

/-- What is expected next. -/
inductive Phase where
  /-- A value, or the end of an array just opened. -/
  | value (first : Bool)
  /-- A key, or the end of an object just opened. -/
  | key (read : List (Utf16 × Tree)) (first : Bool)
  | colon (read : List (Utf16 × Tree)) (key : Utf16)
  | after (v : Tree)

/-- An entry of a key that has been read before takes its place. -/
def setEntry (k : Utf16) (v : Tree) : List (Utf16 × Tree) → List (Utf16 × Tree)
  | [] => [(k, v)]
  | e :: es => if e.1 = k then (k, v) :: es else e :: setEntry k v es

def wordTree (s : Utf16) : Option Tree :=
  if s = ascii "null" then some .null
  else if s = ascii "true" then some (.boolean true)
  else if s = ascii "false" then some (.boolean false)
  else if isNumeral s then some (.number s)
  else none

/-- One token. -/
def advance : List Frame × Phase → Token → Option (List Frame × Phase)
  | (stack, .value _), .text s => some (stack, .after (.string s))
  | (stack, .value _), .word s => (wordTree s).map fun v => (stack, .after v)
  | (stack, .value _), .openArray => some (.items [] :: stack, .value true)
  | (stack, .value _), .openObject => some (stack, .key [] true)
  | (.items [] :: stack, .value true), .closeArray => some (stack, .after (.array []))
  | (stack, .key read _), .text k => some (stack, .colon read k)
  | (stack, .key _ true), .closeObject => some (stack, .after (.object []))
  | (stack, .colon read k), .colon => some (.member read k :: stack, .value false)
  | (.items read :: stack, .after v), .comma => some (.items (read ++ [v]) :: stack, .value false)
  | (.items read :: stack, .after v), .closeArray =>
    some (stack, .after (.array (read ++ [v])))
  | (.member read k :: stack, .after v), .comma => some (stack, .key (setEntry k v read) false)
  | (.member read k :: stack, .after v), .closeObject =>
    some (stack, .after (.object (setEntry k v read)))
  | _, _ => none

/-- `JSON.parse(text)`. -/
def parse (text : Utf16) : Option Tree := do
  let ts ← tokens .between text
  match ← ts.foldlM advance ([], .value false) with
  | ([], .after v) => some v
  | _ => none

/-! ## The tokens of a printed text -/

theorem tokens_cons (m : Mode) (c : UInt16) (cs : Utf16) :
    tokens m (c :: cs) = (scan m c).bind fun p => (tokens p.2 cs).map (p.1 ++ ·) := by
  cases m <;> rw [tokens]

theorem tokens_silent {m m' : Mode} {c : UInt16} (h : scan m c = some ([], m')) (cs : Utf16) :
    tokens m (c :: cs) = tokens m' cs := by
  rw [tokens_cons, h, Option.bind_some]
  exact Option.map_id'

theorem tokens_completes {m m' : Mode} {c : UInt16} {t : Token}
    (h : scan m c = some ([t], m')) (cs : Utf16) :
    tokens m (c :: cs) = (tokens m' cs).map (t :: ·) := by
  rw [tokens_cons, h, Option.bind_some]
  rfl

theorem tokens_blank {c : UInt16} (h : isBlank c = true) (cs : Utf16) :
    tokens .between (c :: cs) = tokens .between cs := by
  refine tokens_silent ?_ cs
  rw [scan, start, if_pos h]

theorem tokens_newline (gap level : ℕ) (cs : Utf16) :
    tokens .between (newline gap level ++ cs) = tokens .between cs := by
  rw [newline]
  split
  · rfl
  · rw [List.cons_append, tokens_blank rfl]
    induction gap * level with
    | zero => rfl
    | succ n ih => rw [List.replicate_succ, List.cons_append, tokens_blank rfl, ih]

theorem tokens_colon (gap : ℕ) (cs : Utf16) :
    tokens .between (colon gap ++ cs) = (tokens .between cs).map (.colon :: ·) := by
  rw [colon]
  split
  · exact tokens_completes rfl cs
  · rw [List.cons_append, tokens_completes rfl, List.cons_append, tokens_blank rfl]
    rfl

/-! ### Strings -/

theorem hexValue_hexUnit {d : ℕ} (hd : d < 16) : hexValue (hexUnit d) = some d := by
  have key : ((List.range 16).all fun d => hexValue (hexUnit d) == some d) = true := by
    decide
  exact eq_of_beq (List.all_eq_true.mp key d (List.mem_range.mpr hd))

/-- A unit inside of a string that stands for itself. -/
theorem tokens_plain {c : UInt16} (hquote : c ≠ 34) (hback : c ≠ 92) (hcontrol : 32 ≤ c.toNat)
    (read cs : Utf16) : tokens (.text read) (c :: cs) = tokens (.text (read ++ [c])) cs := by
  refine tokens_silent ?_ cs
  rw [scan, if_neg hquote, if_neg hback, if_neg (by omega)]

theorem tokens_unicode (c : UInt16) (read cs : Utf16) :
    tokens (.text read) (unicode c ++ cs) = tokens (.text (read ++ [c])) cs := by
  have hc : c.toNat < 65536 := c.toNat_lt
  have hdigit {d value left : ℕ} (hd : d < 16) :
      scan (.unicode read value (left + 1)) (hexUnit d) =
        some ([], .unicode read (16 * value + d) left) := by
    rw [scan, hexValue_hexUnit hd]
    rfl
  have hlast {d value : ℕ} (hd : d < 16) : scan (.unicode read value 0) (hexUnit d) =
      some ([], .text (read ++ [(16 * value + d).toUInt16])) := by
    rw [scan, hexValue_hexUnit hd]
    rfl
  simp only [unicode, List.cons_append, List.nil_append]
  rw [tokens_silent rfl, tokens_silent rfl, tokens_silent (hdigit (by omega)),
    tokens_silent (hdigit (by omega)), tokens_silent (hdigit (by omega)),
    tokens_silent (hlast (by omega))]
  have hvalue : 16 * (16 * (16 * (16 * 0 + c.toNat / 4096) + c.toNat / 256 % 16) +
      c.toNat / 16 % 16) + c.toNat % 16 = c.toNat := by omega
  rw [hvalue, Nat.toUInt16_eq, UInt16.ofNat_toNat]

theorem shortEscapes_spec {c e : UInt16} (h : shortEscapes.lookup c = some e) :
    e ≠ 117 ∧ unescapes.lookup e = some c := by
  have key : (shortEscapes.all fun p => p.2 != 117 && unescapes.lookup p.2 == some p.1) = true := by
    decide
  obtain ⟨l, l', hl, -⟩ := List.lookup_eq_some_iff.mp h
  have hmem : (c, e) ∈ shortEscapes := by
    rw [hl]
    exact List.mem_append_right _ List.mem_cons_self
  have hspec := List.all_eq_true.mp key (c, e) hmem
  rwa [Bool.and_eq_true, bne_iff_ne, beq_iff_eq] at hspec

theorem tokens_escapeUnit (c : UInt16) (read cs : Utf16) :
    tokens (.text read) (escapeUnit c ++ cs) = tokens (.text (read ++ [c])) cs := by
  rw [escapeUnit]
  cases hc : shortEscapes.lookup c with
  | some e =>
    obtain ⟨hne, hback⟩ := shortEscapes_spec hc
    simp only [List.cons_append, List.nil_append]
    rw [tokens_silent rfl]
    refine tokens_silent ?_ cs
    rw [scan, if_neg hne, hback]
    rfl
  | none =>
    simp only
    split
    · exact tokens_unicode c read cs
    · next hcontrol =>
      refine tokens_plain ?_ ?_ (by omega) read cs
      · rintro rfl
        cases hc
      · rintro rfl
        cases hc

theorem tokens_escapeLone (c : UInt16) (read cs : Utf16) :
    tokens (.text read) (escapeLone c ++ cs) = tokens (.text (read ++ [c])) cs := by
  rw [escapeLone]
  split
  · exact tokens_unicode c read cs
  · exact tokens_escapeUnit c read cs

theorem tokens_surrogate {c : UInt16} (h : 55296 ≤ c.toNat) (read cs : Utf16) :
    tokens (.text read) (c :: cs) = tokens (.text (read ++ [c])) cs := by
  refine tokens_plain ?_ ?_ (by omega) read cs
  · rintro rfl
    revert h
    decide
  · rintro rfl
    revert h
    decide

/-- An escaped text is read back. -/
theorem tokens_escape (s read cs : Utf16) :
    tokens (.text read) (escape s ++ 34 :: cs) =
      (tokens .between cs).map (.text (read ++ s) :: ·) := by
  induction s using escape.induct generalizing read with
  | case1 =>
    rw [escape, List.nil_append, List.append_nil]
    exact tokens_completes rfl cs
  | case2 c =>
    rw [escape, tokens_escapeLone]
    exact tokens_completes rfl cs
  | case3 c d s hpair ih =>
    rw [escape, if_pos hpair]
    rw [Bool.and_eq_true, isHigh, isLow, Bool.and_eq_true, Bool.and_eq_true, decide_eq_true_eq,
      decide_eq_true_eq, decide_eq_true_eq, decide_eq_true_eq] at hpair
    rw [List.cons_append, List.cons_append, tokens_surrogate (by omega),
      tokens_surrogate (by omega), ih, List.append_assoc, List.append_assoc]
    rfl
  | case4 c d s hpair ih =>
    rw [escape, if_neg hpair, List.append_assoc, tokens_escapeLone, ih, List.append_assoc]
    rfl

theorem tokens_quote (s cs : Utf16) :
    tokens .between (quote s ++ cs) = (tokens .between cs).map (.text s :: ·) := by
  rw [quote, List.cons_append, List.append_assoc, tokens_silent rfl]
  exact tokens_escape s [] cs

/-! ### Words -/

/-- What follows does not belong to a word before it. -/
def Delimited : Utf16 → Prop
  | [] => True
  | c :: _ => delimits c = true

theorem tokens_read {read cs : Utf16} (h : Delimited cs) :
    tokens (.word read) cs = (tokens .between cs).map (.word read :: ·) := by
  cases cs with
  | nil => rfl
  | cons c cs =>
    have hc : delimits c = true := h
    have hscan : scan (.word read) c = some (.word read :: (start c).1, (start c).2) := by
      rw [scan, if_pos hc]
    rw [tokens_cons, tokens_cons, hscan, scan, Option.bind_some, Option.bind_some, Option.map_map]
    rfl

theorem start_word {c : UInt16} (h : delimits c = false) : start c = ([], .word [c]) := by
  rw [delimits, Bool.or_eq_false_iff, Bool.or_eq_false_iff] at h
  obtain ⟨⟨hblank, hquote⟩, hpunctuation⟩ := h
  rw [start, hblank, if_neg Bool.false_ne_true, if_neg (by simpa using hquote)]
  cases hp : punctuation.lookup c with
  | none => rfl
  | some t =>
    rw [hp] at hpunctuation
    cases hpunctuation

theorem undelimited {s : Utf16} (h : (s.all fun c => !delimits c) = true) :
    ∀ c ∈ s, delimits c = false := by
  intro c hc
  rw [← Bool.not_eq_true']
  exact List.all_eq_true.mp h c hc

/-- A word is read up to its end. -/
theorem tokens_word {s cs : Utf16} (hne : s ≠ []) (hs : ∀ c ∈ s, delimits c = false)
    (h : Delimited cs) :
    tokens .between (s ++ cs) = (tokens .between cs).map (.word s :: ·) := by
  -- the induction is on what is left of the word, whatever was read of it
  have hrest : ∀ (s read : Utf16), (∀ c ∈ s, delimits c = false) →
      tokens (.word read) (s ++ cs) = (tokens .between cs).map (.word (read ++ s) :: ·) := by
    intro s
    induction s with
    | nil =>
      intro read _
      rw [List.nil_append, List.append_nil]
      exact tokens_read h
    | cons c s ih =>
      intro read hs
      have hscan : scan (.word read) c = some ([], .word (read ++ [c])) := by
        rw [scan, hs c List.mem_cons_self, if_neg Bool.false_ne_true]
      rw [List.cons_append, tokens_silent hscan, ih _ fun d hd => hs d (List.mem_cons_of_mem _ hd),
        List.append_assoc]
      rfl
  -- the first unit begins the word; the others go on with it
  cases s with
  | nil => exact absurd rfl hne
  | cons c s =>
    have hscan : scan .between c = some ([], .word [c]) := by
      rw [scan, start_word (hs c List.mem_cons_self)]
    rw [List.cons_append, tokens_silent hscan,
      hrest s [c] fun d hd => hs d (List.mem_cons_of_mem _ hd)]
    rfl

/-- The units of numerals. -/
def numeralUnits : Utf16 := ascii "0123456789+-.eE"

theorem isDigit_units {c : UInt16} (h : isDigit c = true) : c ∈ numeralUnits := by
  rw [isDigit, Bool.and_eq_true, decide_eq_true_eq, decide_eq_true_eq] at h
  have key : ((List.range 58).all fun n => decide (n < 48) || numeralUnits.contains n.toUInt16)
      = true := by decide
  have hc := List.all_eq_true.mp key c.toNat (List.mem_range.mpr (by omega))
  rw [decide_eq_false (by omega), Bool.false_or, Nat.toUInt16_eq, UInt16.ofNat_toNat] at hc
  exact List.contains_iff_mem.mp hc

theorem next_units {n n' : Numeral} {c : UInt16} (h : n.next c = some n') : c ∈ numeralUnits := by
  have hmem : c = 45 ∨ c = 48 ∨ c = 46 ∨ c = 101 ∨ c = 69 ∨ c = 43 ∨ isDigit c = true := by
    cases n <;> simp only [Numeral.next] at h <;> grind
  rcases hmem with rfl | rfl | rfl | rfl | rfl | rfl | hdigit
  · decide
  · decide
  · decide
  · decide
  · decide
  · decide
  · exact isDigit_units hdigit

theorem isNumeral_word {s : Utf16} (h : isNumeral s = true) :
    s ≠ [] ∧ ∀ c ∈ s, delimits c = false := by
  -- whatever the numeral goes through, each unit is one that a numeral may have
  have hunits : ∀ (s : Utf16) (n n' : Numeral), s.foldlM Numeral.next n = some n' →
      ∀ c ∈ s, c ∈ numeralUnits := by
    intro s
    induction s with
    | nil =>
      intro n n' _ c hc
      cases hc
    | cons d s ih =>
      intro n n' hs c hc
      rw [List.foldlM_cons, Option.bind_eq_bind, Option.bind_eq_some_iff] at hs
      obtain ⟨n₁, hd, hs⟩ := hs
      rcases List.mem_cons.mp hc with rfl | hc
      · exact next_units hd
      · exact ih n₁ n' hs c hc
  have hdelimits : ∀ c ∈ numeralUnits, delimits c = false := undelimited (by decide)
  rw [isNumeral] at h
  cases hs : s.foldlM Numeral.next .start with
  | none =>
    rw [hs] at h
    cases h
  | some n =>
    refine ⟨?_, fun c hc => hdelimits c (hunits s _ _ hs c hc)⟩
    rintro rfl
    cases hs
    cases h

/-! ### Trees -/

/-- Numerals are well formed and no key is twice in an object. -/
inductive Proper : Tree → Prop
  | null : Proper .null
  | boolean (b : Bool) : Proper (.boolean b)
  | number {numeral : Utf16} : isNumeral numeral = true → Proper (.number numeral)
  | string (s : Utf16) : Proper (.string s)
  | array {items : List Tree} : (∀ v ∈ items, Proper v) → Proper (.array items)
  | object {entries : List (Utf16 × Tree)} : (entries.map Prod.fst).Nodup →
      (∀ e ∈ entries, Proper e.2) → Proper (.object entries)

mutual

/-- The tokens of a tree. -/
def tokensOf : Tree → List Token
  | .null => [.word (ascii "null")]
  | .boolean true => [.word (ascii "true")]
  | .boolean false => [.word (ascii "false")]
  | .number numeral => [.word numeral]
  | .string s => [.text s]
  | .array [] => [.openArray, .closeArray]
  | .array (v :: vs) => .openArray :: (tokensOf v ++ (itemTokens vs ++ [.closeArray]))
  | .object [] => [.openObject, .closeObject]
  | .object ((k, v) :: es) =>
    .openObject :: .text k :: .colon :: (tokensOf v ++ (memberTokens es ++ [.closeObject]))

def itemTokens : List Tree → List Token
  | [] => []
  | v :: vs => .comma :: (tokensOf v ++ itemTokens vs)

def memberTokens : List (Utf16 × Tree) → List Token
  | [] => []
  | (k, v) :: es => .comma :: .text k :: .colon :: (tokensOf v ++ memberTokens es)

end

theorem delimited_newline (gap level : ℕ) {cs : Utf16} (h : Delimited cs) :
    Delimited (newline gap level ++ cs) := by
  rw [newline]
  split
  · exact h
  · rfl

theorem delimited_items (gap level : ℕ) (vs : List Tree) {cs : Utf16} (h : Delimited cs) :
    Delimited (printItems gap level vs ++ cs) := by
  cases vs with
  | nil =>
    rw [printItems]
    exact h
  | cons v vs =>
    rw [printItems]
    rfl

theorem delimited_members (gap level : ℕ) (es : List (Utf16 × Tree)) {cs : Utf16}
    (h : Delimited cs) : Delimited (printMembers gap level es ++ cs) := by
  cases es with
  | nil =>
    rw [printMembers]
    exact h
  | cons e es =>
    rw [printMembers]
    rfl

theorem tokens_close {c : UInt16} {t : Token} (h : scan .between c = some ([t], .between))
    (gap level : ℕ) (cs : Utf16) : tokens .between (newline gap level ++ c :: cs) =
      (tokens .between cs).map (t :: ·) := by
  rw [tokens_newline]
  exact tokens_completes h cs

mutual

/-- A printed tree is scanned up to its end. -/
theorem tokens_print {v : Tree} (hv : Proper v) (gap level : ℕ) {cs : Utf16} (h : Delimited cs) :
    tokens .between (print gap level v ++ cs) = (tokens .between cs).map (tokensOf v ++ ·) := by
  match v, hv with
  | .null, _ =>
    rw [print, tokensOf, tokens_word (by decide) (undelimited (by decide)) h]
    rfl
  | .boolean true, _ =>
    rw [print, tokensOf, tokens_word (by decide) (undelimited (by decide)) h]
    rfl
  | .boolean false, _ =>
    rw [print, tokensOf, tokens_word (by decide) (undelimited (by decide)) h]
    rfl
  | .number s, .number hs =>
    obtain ⟨hne, hword⟩ := isNumeral_word hs
    rw [print, tokensOf, tokens_word hne hword h]
    rfl
  | .string s, _ =>
    rw [print, tokensOf, tokens_quote]
    rfl
  | .array [], _ =>
    rw [print, tokensOf]
    simp only [List.cons_append, List.nil_append]
    rw [tokens_completes rfl, tokens_completes rfl, Option.map_map]
    rfl
  | .array (v :: vs), .array hvs =>
    have hclose : Delimited (newline gap level ++ 93 :: cs) :=
      delimited_newline gap level (show Delimited (93 :: cs) from rfl)
    rw [print, tokensOf]
    simp only [List.cons_append, List.append_assoc, List.nil_append]
    rw [tokens_completes rfl, tokens_newline,
      tokens_print (hvs v List.mem_cons_self) gap (level + 1)
        (delimited_items gap (level + 1) vs hclose),
      tokens_printItems (fun w hw => hvs w (List.mem_cons_of_mem _ hw)) gap (level + 1) hclose,
      tokens_close rfl]
    simp only [Option.map_map, Function.comp_def]
  | .object [], _ =>
    rw [print, tokensOf]
    simp only [List.cons_append, List.nil_append]
    rw [tokens_completes rfl, tokens_completes rfl, Option.map_map]
    rfl
  | .object ((k, v) :: es), .object _ hes =>
    have hclose : Delimited (newline gap level ++ 125 :: cs) :=
      delimited_newline gap level (show Delimited (125 :: cs) from rfl)
    rw [print, tokensOf]
    simp only [List.cons_append, List.append_assoc, List.nil_append]
    rw [tokens_completes rfl, tokens_newline, tokens_quote, tokens_colon,
      tokens_print (hes (k, v) List.mem_cons_self) gap (level + 1)
        (delimited_members gap (level + 1) es hclose),
      tokens_printMembers (fun e he => hes e (List.mem_cons_of_mem _ he)) gap (level + 1) hclose,
      tokens_close rfl]
    simp only [Option.map_map, Function.comp_def]

theorem tokens_printItems {vs : List Tree} (hvs : ∀ v ∈ vs, Proper v) (gap level : ℕ) {cs : Utf16}
    (h : Delimited cs) : tokens .between (printItems gap level vs ++ cs) =
      (tokens .between cs).map (itemTokens vs ++ ·) := by
  match vs with
  | [] =>
    rw [printItems, itemTokens]
    exact Option.map_id'.symm
  | v :: vs =>
    rw [printItems, itemTokens]
    simp only [List.cons_append, List.append_assoc]
    rw [tokens_completes rfl, tokens_newline,
      tokens_print (hvs v List.mem_cons_self) gap level (delimited_items gap level vs h),
      tokens_printItems (fun w hw => hvs w (List.mem_cons_of_mem _ hw)) gap level h]
    simp only [Option.map_map, Function.comp_def]

theorem tokens_printMembers {es : List (Utf16 × Tree)} (hes : ∀ e ∈ es, Proper e.2) (gap level : ℕ)
    {cs : Utf16} (h : Delimited cs) : tokens .between (printMembers gap level es ++ cs) =
      (tokens .between cs).map (memberTokens es ++ ·) := by
  match es with
  | [] =>
    rw [printMembers, memberTokens]
    exact Option.map_id'.symm
  | (k, v) :: es =>
    rw [printMembers, memberTokens]
    simp only [List.cons_append, List.append_assoc]
    rw [tokens_completes rfl, tokens_newline, tokens_quote, tokens_colon,
      tokens_print (hes (k, v) List.mem_cons_self) gap level (delimited_members gap level es h),
      tokens_printMembers (fun e he => hes e (List.mem_cons_of_mem _ he)) gap level h]
    simp only [Option.map_map, Function.comp_def]

end

/-! ## The tree of the tokens -/

theorem setEntry_fresh {k : Utf16} {v : Tree} {es : List (Utf16 × Tree)}
    (h : k ∉ es.map Prod.fst) : setEntry k v es = es ++ [(k, v)] := by
  induction es with
  | nil => rfl
  | cons e es ih =>
    rw [List.map_cons, List.mem_cons, not_or] at h
    rw [setEntry, if_neg (Ne.symm h.1), ih h.2, List.cons_append]

theorem wordTree_numeral {s : Utf16} (h : isNumeral s = true) :
    wordTree s = some (.number s) := by
  have hother : ∀ name ∈ [ascii "null", ascii "true", ascii "false"], s ≠ name := by
    have hnames : ∀ name ∈ [ascii "null", ascii "true", ascii "false"], isNumeral name = false := by
      decide
    rintro name hname rfl
    rw [hnames s hname] at h
    cases h
  rw [wordTree, if_neg (hother _ (by simp)), if_neg (hother _ (by simp)),
    if_neg (hother _ (by simp)), if_pos h]

mutual

/-- The tokens of a tree take the machine from before a value to after that value. -/
theorem advance_tokens {v : Tree} (hv : Proper v) (stack : List Frame) (first : Bool) :
    (tokensOf v).foldlM advance (stack, .value first) = some (stack, .after v) := by
  match v, hv with
  | .null, _ => rfl
  | .boolean true, _ => rfl
  | .boolean false, _ => rfl
  | .number s, .number hs =>
    rw [tokensOf, List.foldlM_cons, advance, wordTree_numeral hs]
    rfl
  | .string s, _ => rfl
  | .array [], _ => rfl
  | .array (v :: vs), .array hvs =>
    rw [tokensOf, List.foldlM_cons, advance, Option.bind_eq_bind, Option.bind_some,
      List.foldlM_append, advance_tokens (hvs v List.mem_cons_self), Option.bind_eq_bind,
      Option.bind_some]
    exact advance_items (fun w hw => hvs w (List.mem_cons_of_mem _ hw)) stack [] v
  | .object [], _ => rfl
  | .object ((k, v) :: es), .object hkeys hes =>
    rw [tokensOf, List.foldlM_cons, advance, Option.bind_eq_bind, Option.bind_some,
      List.foldlM_cons, advance, Option.bind_eq_bind, Option.bind_some, List.foldlM_cons, advance,
      Option.bind_eq_bind, Option.bind_some, List.foldlM_append,
      advance_tokens (hes (k, v) List.mem_cons_self), Option.bind_eq_bind, Option.bind_some]
    exact advance_members (fun e he => hes e (List.mem_cons_of_mem _ he)) stack [] k v hkeys

theorem advance_items {vs : List Tree} (hvs : ∀ v ∈ vs, Proper v) (stack : List Frame)
    (read : List Tree) (u : Tree) :
    (itemTokens vs ++ [Token.closeArray]).foldlM advance (.items read :: stack, .after u) =
      some (stack, .after (.array (read ++ u :: vs))) := by
  match vs with
  | [] => rfl
  | v :: vs =>
    rw [itemTokens, List.cons_append, List.foldlM_cons, advance, Option.bind_eq_bind,
      Option.bind_some, List.append_assoc, List.foldlM_append,
      advance_tokens (hvs v List.mem_cons_self), Option.bind_eq_bind, Option.bind_some,
      advance_items (fun w hw => hvs w (List.mem_cons_of_mem _ hw)), List.append_assoc]
    rfl

theorem advance_members {es : List (Utf16 × Tree)} (hes : ∀ e ∈ es, Proper e.2)
    (stack : List Frame) (read : List (Utf16 × Tree)) (k : Utf16) (u : Tree)
    (hkeys : ((read ++ (k, u) :: es).map Prod.fst).Nodup) :
    (memberTokens es ++ [Token.closeObject]).foldlM advance (.member read k :: stack, .after u) =
      some (stack, .after (.object (read ++ (k, u) :: es))) := by
  -- the name is new among those that were read, so its member goes to the end
  have hfresh : setEntry k u read = read ++ [(k, u)] := by
    refine setEntry_fresh fun hk => ?_
    rw [List.map_append, List.nodup_append] at hkeys
    exact hkeys.2.2 k hk k List.mem_cons_self rfl
  match es with
  | [] =>
    have hlast : advance (.member read k :: stack, .after u) .closeObject =
        some (stack, .after (.object (setEntry k u read))) := rfl
    rw [memberTokens, List.nil_append, List.foldlM_cons, hlast, hfresh]
    rfl
  | (k', v) :: es =>
    rw [memberTokens, List.cons_append, List.foldlM_cons, advance, hfresh, Option.bind_eq_bind,
      Option.bind_some, List.cons_append, List.foldlM_cons, advance, Option.bind_eq_bind,
      Option.bind_some, List.cons_append, List.foldlM_cons, advance, Option.bind_eq_bind,
      Option.bind_some, List.append_assoc, List.foldlM_append,
      advance_tokens (hes (k', v) List.mem_cons_self), Option.bind_eq_bind, Option.bind_some,
      advance_members (fun e he => hes e (List.mem_cons_of_mem _ he)) stack _ k' v (by
        rw [List.append_assoc]
        exact hkeys), List.append_assoc]
    rfl

end

/-- **A printed tree is parsed to itself.** -/
theorem parse_print {v : Tree} (hv : Proper v) (gap : ℕ) : parse (print gap 0 v) = some v := by
  have hend : Delimited [] := trivial
  have htokens := tokens_print hv gap 0 hend
  rw [List.append_nil, tokens, Option.map_some, List.append_nil] at htokens
  rw [parse, htokens, Option.bind_eq_bind, Option.bind_some, advance_tokens hv]
  rfl

/-! ## The length of a printed record -/

/-- An object of strings. -/
def record (entries : List (Utf16 × Utf16)) : Tree :=
  .object (entries.map fun e => (e.1, .string e.2))

theorem record_proper {entries : List (Utf16 × Utf16)} (h : (entries.map Prod.fst).Nodup) :
    Proper (record entries) := by
  refine .object ?_ ?_
  · rw [List.map_map]
    exact h
  · intro e he
    obtain ⟨e', -, rfl⟩ := List.mem_map.mp he
    exact .string _

theorem length_escapeUnit (c : UInt16) : (escapeUnit c).length ≤ 6 := by
  rw [escapeUnit]
  split
  · simp only [List.length_cons, List.length_nil]
    omega
  · split
    · exact Nat.le_refl 6
    · simp only [List.length_cons, List.length_nil]
      omega

theorem length_escapeLone (c : UInt16) : (escapeLone c).length ≤ 6 := by
  rw [escapeLone]
  split
  · exact Nat.le_refl 6
  · exact length_escapeUnit c

theorem length_escape (s : Utf16) : (escape s).length ≤ 6 * s.length := by
  induction s using escape.induct with
  | case1 => exact Nat.le_refl 0
  | case2 c =>
    rw [escape]
    exact length_escapeLone c
  | case3 c d s hpair ih =>
    rw [escape, if_pos hpair]
    simp only [List.length_cons]
    omega
  | case4 c d s hpair ih =>
    have hc := length_escapeLone c
    rw [escape, if_neg hpair, List.length_append, List.length_cons]
    omega

theorem length_quote (s : Utf16) : (quote s).length ≤ 6 * s.length + 2 := by
  have h := length_escape s
  rw [quote, List.length_cons, List.length_append, List.length_singleton]
  omega

theorem length_newline (gap level : ℕ) : (newline gap level).length ≤ gap * level + 1 := by
  rw [newline]
  split
  · exact Nat.zero_le _
  · refine Nat.le_of_eq ?_
    rw [List.length_cons, List.length_replicate]

theorem length_colon (gap : ℕ) : (colon gap).length ≤ 2 := by
  rw [colon]
  split
  · exact Nat.le_succ 1
  · exact Nat.le_refl 2

/-- Every member of a record takes a bounded space. -/
theorem length_printMembers {es : List (Utf16 × Utf16)} {a b gap level : ℕ}
    (h : ∀ e ∈ es, e.1.length ≤ a ∧ e.2.length ≤ b) :
    (printMembers gap level (es.map fun e => (e.1, .string e.2))).length ≤
      es.length * (6 * a + 6 * b + gap * level + 8) := by
  induction es with
  | nil => exact Nat.zero_le _
  | cons e es ih =>
    have hes := ih fun e' he' => h e' (List.mem_cons_of_mem _ he')
    obtain ⟨ha, hb⟩ := h e List.mem_cons_self
    have hnewline := length_newline gap level
    have hkey := length_quote e.1
    have hvalue := length_quote e.2
    have hcolon := length_colon gap
    rw [List.map_cons, printMembers, print]
    simp only [List.length_cons, List.length_append]
    rw [Nat.add_one_mul]
    omega

theorem length_record {es : List (Utf16 × Utf16)} {a b gap : ℕ}
    (h : ∀ e ∈ es, e.1.length ≤ a ∧ e.2.length ≤ b) :
    (print gap 0 (record es)).length ≤ es.length * (6 * a + 6 * b + gap + 8) + 3 := by
  cases es with
  | nil =>
    rw [record, List.map_nil, print]
    simp only [List.length_cons, List.length_nil]
    omega
  | cons e es =>
    have hall : (printMembers gap 1 ((e :: es).map fun e => (e.1, .string e.2))).length ≤ _ :=
      length_printMembers h
    have hend := length_newline gap 0
    rw [List.map_cons, printMembers] at hall
    rw [record, List.map_cons, print]
    simp only [List.length_cons, List.length_append, List.length_nil, Nat.zero_add, Nat.mul_one,
      Nat.mul_zero] at hall hend ⊢
    omega

end JsonText
