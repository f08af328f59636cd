import Line.Engine.References
import Line.Journal.Record
import Line.Lib.JsonText
import Line.Vault.Canonical
import Mathlib.Data.Rat.Encodable

/-!
# Fingerprints of intents

`fingerprintOperationIntent` of the operation journal: the digest of the bytes of a text, which is
the codec's text of the intent with the properties of every object in the order of their keys. Here
the text is taken apart as far as its bytes. Printing keeps trees apart (`JsonText.parse_print`),
and printed texts are well formed, whatever is in their strings (`print_whole`), so that their bytes
keep them apart as well.

How numbers are printed is the runtime's: a numeral, and another one for each number.

That two intents have the same fingerprint exactly if they are deeply equal is a chain of such
facts: the canonical values are equal exactly then, the codec maps different values to different
trees (`treeOf_inj`, on what it writes: `encode_printable`), trees to different texts, texts to
different bytes; the digest is the one link that is assumed. An intent has a fingerprint exactly if
the codec takes it, because sorting the keys changes neither size nor depth.
-/

namespace Line.Journal

open Vault Checked JsonText

open Line.Engine (codePoints codePoints_append codePoints_singleton textEncode textEncode_inj)

/-! ## Well-formed texts -/

/-- A text that has no surrogate without its partner. -/
def Whole (s : Utf16) : Prop := ∃ points, codePoints s = some points

theorem Whole.nil : Whole [] := ⟨[], rfl⟩

theorem Whole.append {s t : Utf16} (hs : Whole s) (ht : Whole t) : Whole (s ++ t) := by
  obtain ⟨a, ha⟩ := hs
  obtain ⟨b, hb⟩ := ht
  exact ⟨_, codePoints_append ha hb⟩

theorem Whole.cons {c : UInt16} {s : Utf16} (hc : c.toNat < 0xd800 ∨ 0xdfff < c.toNat)
    (hs : Whole s) : Whole (c :: s) :=
  Whole.append (s := [c]) ⟨_, codePoints_singleton hc⟩ hs

/-- Units below the surrogates. -/
theorem Whole.plain {s : Utf16} (hs : ∀ c ∈ s, c.toNat < 0xd800) : Whole s := by
  induction s with
  | nil => exact .nil
  | cons c s ih =>
      rw [List.forall_mem_cons] at hs
      exact .cons (.inl hs.1) (ih hs.2)

theorem Whole.check {s : Utf16} (h : (s.all fun c => decide (c.toNat < 0xd800)) = true) :
    Whole s :=
  .plain fun c hc => of_decide_eq_true (List.all_eq_true.mp h c hc)

theorem hexUnit_lt {d : ℕ} (hd : d < 16) : (hexUnit d).toNat < 0xd800 := by
  unfold hexUnit
  split
  · simp only [Nat.toUInt16, UInt16.toNat_ofNat']
    omega
  · simp only [Nat.toUInt16, UInt16.toNat_ofNat']
    omega

/-- The escape of a unit is plain, whatever the unit. -/
theorem unicode_whole (c : UInt16) : Whole (unicode c) := by
  have hc : c.toNat < 65536 := c.toNat_lt_size
  refine .plain fun d hd => ?_
  rw [unicode] at hd
  simp only [List.mem_cons, List.not_mem_nil, or_false] at hd
  rcases hd with rfl | rfl | rfl | rfl | rfl | rfl
  · decide
  · decide
  all_goals exact hexUnit_lt (by omega)

theorem escapeLone_whole (c : UInt16) : Whole (escapeLone c) := by
  unfold escapeLone
  by_cases hsurrogate : (isHigh c || isLow c) = true
  · rw [if_pos hsurrogate]
    exact unicode_whole c
  rw [if_neg hsurrogate, escapeUnit]
  cases hshort : shortEscapes.lookup c with
  | some e =>
      have hmem : (c, e) ∈ shortEscapes := by
        obtain ⟨l, l', hl, -⟩ := List.lookup_eq_some_iff.mp hshort
        rw [hl]
        exact List.mem_append_right l List.mem_cons_self
      have hall : shortEscapes.all (fun p => decide (p.2.toNat < 0xd800)) = true := by decide
      have he := of_decide_eq_true (List.all_eq_true.mp hall _ hmem)
      exact .cons (.inl (by decide)) (.cons (.inl he) .nil)
  | none =>
      simp only
      split
      · exact unicode_whole c
      · refine .cons ?_ .nil
        simp only [isHigh, isLow, Bool.or_eq_true, Bool.and_eq_true, decide_eq_true_eq]
          at hsurrogate
        omega

/-- A surrogate without its partner is escaped. -/
theorem escape_whole (s : Utf16) : Whole (escape s) := by
  fun_induction escape s with
  | case1 => exact .nil
  | case2 c => exact escapeLone_whole c
  | case3 c d cs hpair ih =>
      obtain ⟨points, hpoints⟩ := ih
      rw [Bool.and_eq_true, isHigh, isLow, Bool.and_eq_true, Bool.and_eq_true] at hpair
      simp only [decide_eq_true_eq] at hpair
      exact ⟨_, Line.Engine.codePoints_pair hpair.1 hpair.2 hpoints⟩
  | case4 c d cs hpair ih => exact (escapeLone_whole c).append ih

theorem quote_whole (s : Utf16) : Whole (quote s) :=
  .cons (.inl (by decide)) ((escape_whole s).append (.check (by decide)))

/-- A numeral consists of digits, signs, a point and the letter of an exponent. -/
theorem numeral_next {a b : Numeral} {c : UInt16} (h : a.next c = some b) : c.toNat < 0xd800 := by
  have hdigit : isDigit c = true → c.toNat < 0xd800 := by
    intro hd
    simp only [isDigit, Bool.and_eq_true, decide_eq_true_eq] at hd
    omega
  unfold Numeral.next at h
  split at h
  all_goals
    repeat' split at h
    all_goals first
      | (rename_i hc; exact hdigit hc)
      | (rename_i hc; subst hc; decide)
      | (rename_i hc; rcases hc with rfl | rfl <;> decide)
      | cases h

theorem numeral_plain {s : Utf16} (h : isNumeral s = true) : ∀ c ∈ s, c.toNat < 0xd800 := by
  have key : ∀ (s : Utf16) (a b : Numeral), s.foldlM Numeral.next a = some b →
      ∀ c ∈ s, c.toNat < 0xd800 := by
    intro s
    induction s with
    | nil =>
        intro a b _ c hc
        cases hc
    | cons c s ih =>
        intro a b h
        rw [List.foldlM_cons, Option.bind_eq_bind, Option.bind_eq_some_iff] at h
        obtain ⟨d, hd, hrest⟩ := h
        rw [List.forall_mem_cons]
        exact ⟨numeral_next hd, ih d b hrest⟩
  unfold isNumeral at h
  cases hfold : s.foldlM Numeral.next .start with
  | none =>
      rw [hfold] at h
      cases h
  | some b => exact key s .start b hfold

mutual

/-- **What is printed is well formed.** -/
theorem print_whole {v : Tree} (hv : Proper v) (level : ℕ) : Whole (print 0 level v) := by
  -- a mutual recursion over the tree and the lists in it, as the printer is
  match v, hv with
  | .null, _ =>
      rw [print]
      exact .check (by decide)
  | .boolean true, _ =>
      rw [print]
      exact .check (by decide)
  | .boolean false, _ =>
      rw [print]
      exact .check (by decide)
  | .number s, .number hs =>
      rw [print]
      exact .plain (numeral_plain hs)
  | .string s, _ =>
      rw [print]
      exact quote_whole s
  | .array [], _ =>
      rw [print]
      exact .check (by decide)
  | .array (v :: vs), .array hvs =>
      rw [List.forall_mem_cons] at hvs
      rw [print]
      -- a bracket, the first element, the others each after a comma, a bracket
      refine .cons (.inl (by decide)) (Whole.append .nil ?_)
      refine (print_whole hvs.1 _).append ((printItems_whole hvs.2 _).append ?_)
      exact Whole.append .nil (.check (by decide))
  | .object [], _ =>
      rw [print]
      exact .check (by decide)
  | .object ((k, v) :: es), .object _ hes =>
      rw [List.forall_mem_cons] at hes
      rw [print]
      refine .cons (.inl (by decide)) (Whole.append .nil ((quote_whole k).append ?_))
      refine Whole.append (.check (by decide)) ((print_whole hes.1 _).append ?_)
      exact (printMembers_whole hes.2 _).append (Whole.append .nil (.check (by decide)))

theorem printItems_whole {vs : List Tree} (hvs : ∀ v ∈ vs, Proper v) (level : ℕ) :
    Whole (printItems 0 level vs) := by
  match vs with
  | [] => exact .nil
  | v :: vs =>
      rw [List.forall_mem_cons] at hvs
      rw [printItems]
      refine .cons (.inl (by decide)) (Whole.append .nil ?_)
      exact (print_whole hvs.1 _).append (printItems_whole hvs.2 _)

theorem printMembers_whole {es : List (Utf16 × Tree)} (hes : ∀ e ∈ es, Proper e.2) (level : ℕ) :
    Whole (printMembers 0 level es) := by
  match es with
  | [] => exact .nil
  | (k, v) :: es =>
      rw [List.forall_mem_cons] at hes
      rw [printMembers]
      refine .cons (.inl (by decide)) (Whole.append .nil ((quote_whole k).append ?_))
      refine Whole.append (.check (by decide)) ?_
      exact (print_whole hes.1 _).append (printMembers_whole hes.2 _)

end

/-! ## The text of a tree -/

/-- `Number.prototype.toString`: every number has its numeral. -/
structure Numerals where
  print : Number → Utf16
  numeral : ∀ q : ℚ, isNumeral (print (.finite q)) = true
  injective : ∀ p q : ℚ, print (.finite p) = print (.finite q) → p = q

/-- The units of a string. -/
def utf16Units (s : String) : Utf16 := (utf16 s).map Nat.toUInt16

variable (numerals : Numerals)

mutual

/-- A tree as it is printed. -/
def treeOf : Json → Tree
  | .null => .null
  | .boolean b => .boolean b
  | .number n => .number (numerals.print n)
  | .minusZero => .number (ascii "0")
  | .string s => .string (utf16Units s)
  | .array items => .array (treesOf items)
  | .object entries => .object (membersOf entries)

def treesOf : List Json → List Tree
  | [] => []
  | j :: items => treeOf j :: treesOf items

def membersOf : List (String × Json) → List (Utf16 × Tree)
  | [] => []
  | (key, j) :: entries => (utf16Units key, treeOf j) :: membersOf entries

end

/-- The text that the codec wrote. -/
def printed : Json.Text → Utf16
  | some j => print 0 0 (treeOf numerals j)
  | none => []

/-! ## Printing is injective -/

mutual

/-- A tree that is read back from its text: its numbers are finite, and no zero is negative. -/
def Printable : Json → Prop
  | .number n => ∃ q, n = .finite q
  | .minusZero => False
  | .array items => PrintableItems items
  | .object entries => (entries.map Prod.fst).Nodup ∧ PrintableMembers entries
  | _ => True

def PrintableItems : List Json → Prop
  | [] => True
  | j :: items => Printable j ∧ PrintableItems items

def PrintableMembers : List (String × Json) → Prop
  | [] => True
  | (_, j) :: entries => Printable j ∧ PrintableMembers entries

end

/-- The units of a string have 16 bits. -/
theorem utf16_lt {s : String} : ∀ u ∈ utf16 s, u < 65536 := by
  intro u hu
  obtain ⟨c, -, hc⟩ := List.mem_flatMap.mp hu
  have hvalid := c.valid
  simp only [UInt32.isValidChar, Nat.isValidChar] at hvalid
  change c.toNat < 0xd800 ∨ 0xdfff < c.toNat ∧ c.toNat < 0x110000 at hvalid
  unfold units at hc
  split at hc
  · rw [List.mem_singleton] at hc
    omega
  · simp only [List.mem_cons, List.not_mem_nil, or_false] at hc
    omega

theorem utf16Units_inj {s t : String} (h : utf16Units s = utf16Units t) : s = t := by
  have hread : ∀ s : String, (utf16Units s).map UInt16.toNat = utf16 s := by
    intro s
    rw [utf16Units, List.map_map]
    conv_rhs => rw [← List.map_id (utf16 s)]
    refine List.map_congr_left fun u hu => ?_
    show u.toUInt16.toNat = u
    rw [Nat.toUInt16, UInt16.toNat_ofNat', Nat.mod_eq_of_lt (utf16_lt u hu)]
  refine utf16_inj ?_
  rw [← hread s, ← hread t, h]

mutual

theorem treeOf_inj {a b : Json} (ha : Printable a) (hb : Printable b)
    (h : treeOf numerals a = treeOf numerals b) : a = b := by
  cases a with
  | null => cases b <;> first | rfl | (rw [treeOf, treeOf] at h; cases h)
  | boolean x =>
      cases b with
      | boolean y =>
          rw [treeOf, treeOf] at h
          rw [Tree.boolean.inj h]
      | _ =>
          rw [treeOf, treeOf] at h
          cases h
  -- the runtime prints different numbers differently
  | number x =>
      cases b with
      | number y =>
          rw [treeOf, treeOf] at h
          obtain ⟨p, rfl⟩ := ha
          obtain ⟨q, rfl⟩ := hb
          rw [numerals.injective p q (Tree.number.inj h)]
      | minusZero => cases hb
      | _ =>
          rw [treeOf, treeOf] at h
          cases h
  | minusZero => cases ha
  -- a string is printed as its UTF-16 units
  | string x =>
      cases b with
      | string y =>
          rw [treeOf, treeOf] at h
          rw [utf16Units_inj (Tree.string.inj h)]
      | _ =>
          rw [treeOf, treeOf] at h
          cases h
  | array xs =>
      cases b with
      | array ys =>
          rw [treeOf, treeOf] at h
          rw [treesOf_inj ha hb (Tree.array.inj h)]
      | _ =>
          rw [treeOf, treeOf] at h
          cases h
  | object es =>
      cases b with
      | object fs =>
          rw [treeOf, treeOf] at h
          rw [membersOf_inj ha.2 hb.2 (Tree.object.inj h)]
      | _ =>
          rw [treeOf, treeOf] at h
          cases h

theorem treesOf_inj {xs ys : List Json} (hx : PrintableItems xs) (hy : PrintableItems ys)
    (h : treesOf numerals xs = treesOf numerals ys) : xs = ys := by
  cases xs with
  | nil =>
      cases ys with
      | nil => rfl
      | cons y ys =>
          rw [treesOf, treesOf] at h
          cases h
  | cons x xs =>
      cases ys with
      | nil =>
          rw [treesOf, treesOf] at h
          cases h
      | cons y ys =>
          rw [treesOf, treesOf, List.cons.injEq] at h
          rw [treeOf_inj hx.1 hy.1 h.1, treesOf_inj hx.2 hy.2 h.2]

theorem membersOf_inj {es fs : List (String × Json)} (he : PrintableMembers es)
    (hf : PrintableMembers fs) (h : membersOf numerals es = membersOf numerals fs) : es = fs := by
  cases es with
  | nil =>
      cases fs with
      | nil => rfl
      | cons f fs =>
          rw [membersOf, membersOf] at h
          cases h
  | cons e es =>
      cases fs with
      | nil =>
          rw [membersOf, membersOf] at h
          cases h
      | cons f fs =>
          rw [membersOf, membersOf, List.cons.injEq, Prod.mk.injEq] at h
          obtain ⟨⟨hkey, hvalue⟩, hrest⟩ := h
          rw [membersOf_inj he.2 hf.2 hrest]
          rw [Prod.ext (utf16Units_inj hkey) (treeOf_inj he.1 hf.1 hvalue)]

end

mutual

theorem treeOf_proper {j : Json} (hj : Printable j) : Proper (treeOf numerals j) := by
  cases j with
  | null => exact .null
  | boolean b => exact .boolean b
  | number n =>
      obtain ⟨q, rfl⟩ := hj
      exact .number (numerals.numeral q)
  | minusZero => cases hj
  | string s => exact .string _
  | array items =>
      rw [treeOf]
      exact .array (treesOf_proper hj)
  | object entries =>
      rw [treeOf]
      refine .object ?_ (membersOf_proper hj.2)
      have hkeys : (membersOf numerals entries).map Prod.fst
          = (entries.map Prod.fst).map utf16Units := by
        clear hj
        induction entries with
        | nil => rfl
        | cons e entries ih => rw [membersOf, List.map_cons, ih, List.map_cons, List.map_cons]
      rw [hkeys]
      exact hj.1.map (fun _ _ => utf16Units_inj)

theorem treesOf_proper {items : List Json} (h : PrintableItems items) :
    ∀ v ∈ treesOf numerals items, Proper v := by
  cases items with
  | nil =>
      intro v hv
      cases hv
  | cons j items =>
      rw [treesOf, List.forall_mem_cons]
      exact ⟨treeOf_proper h.1, treesOf_proper h.2⟩

theorem membersOf_proper {entries : List (String × Json)} (h : PrintableMembers entries) :
    ∀ e ∈ membersOf numerals entries, Proper e.2 := by
  cases entries with
  | nil =>
      intro e he
      cases he
  | cons e entries =>
      rw [membersOf, List.forall_mem_cons]
      exact ⟨treeOf_proper h.1, membersOf_proper h.2⟩

end

mutual

/-- What the codec writes is printable: it spells negative zero as a string. -/
theorem encode_printable {value : Value} {depth count n : ℕ} {j : Json}
    (h : encode value depth count = .ok (j, n)) : Printable j := by
  unfold encode at h
  rw [bind_ok_iff] at h
  -- the node is counted first
  obtain ⟨m, -, h⟩ := h
  cases value with
  | array items =>
      simp only [bind_ok_iff, pure_ok_iff, Prod.exists, Prod.mk.injEq] at h
      obtain ⟨children, k, hk, rfl, -⟩ := h
      exact ⟨trivial, encodeItems_printable hk, trivial⟩
  | object entries =>
      simp only [bind_ok_iff, pure_ok_iff, Prod.exists, Prod.mk.injEq] at h
      obtain ⟨children, k, hk, rfl, -⟩ := h
      exact ⟨trivial, encodeEntries_printable hk, trivial⟩
  | number q =>
      cases q with
      | finite q =>
          simp only [pure_ok_iff, Prod.mk.injEq] at h
          obtain ⟨rfl, -⟩ := h
          exact ⟨trivial, ⟨q, rfl⟩, trivial⟩
      | nan => cases h
      | infinity s => cases h
  | foreign => cases h
  | null | undefined =>
      simp only [pure_ok_iff, Prod.mk.injEq] at h
      obtain ⟨rfl, -⟩ := h
      exact ⟨trivial, trivial⟩
  | string | boolean | minusZero | bigint | bytes =>
      simp only [pure_ok_iff, Prod.mk.injEq] at h
      obtain ⟨rfl, -⟩ := h
      exact ⟨trivial, trivial, trivial⟩

theorem encodeItems_printable {items : List Value} {depth count n : ℕ} {children : List Json}
    (h : encodeItems items depth count = .ok (children, n)) : PrintableItems children := by
  cases items with
  | nil =>
      simp only [encodeItems, pure_ok_iff, Prod.mk.injEq] at h
      obtain ⟨rfl, -⟩ := h
      trivial
  | cons v items =>
      simp only [encodeItems, bind_ok_iff, pure_ok_iff, Prod.exists, Prod.mk.injEq] at h
      obtain ⟨j, k, hj, rest, m, hrest, rfl, -⟩ := h
      exact ⟨encode_printable hj, encodeItems_printable hrest⟩

theorem encodeEntries_printable {entries : List (String × Value)} {depth count n : ℕ}
    {children : List Json} (h : encodeEntries entries depth count = .ok (children, n)) :
    PrintableItems children := by
  cases entries with
  | nil =>
      simp only [encodeEntries, pure_ok_iff, Prod.mk.injEq] at h
      obtain ⟨rfl, -⟩ := h
      trivial
  | cons e entries =>
      simp only [encodeEntries, bind_ok_iff, pure_ok_iff, Prod.exists, Prod.mk.injEq] at h
      obtain ⟨j, k, hj, rest, m, hrest, rfl, -⟩ := h
      exact ⟨⟨trivial, encode_printable hj, trivial⟩, encodeEntries_printable hrest⟩

end

theorem encodeVaultJson_printable {value : Value} {text : Json.Text}
    (h : encodeVaultJson value = .ok text) : ∃ j, text = some j ∧ Printable j := by
  simp only [encodeVaultJson, bind_ok_iff, pure_ok_iff, Prod.exists] at h
  obtain ⟨payload, n, hp, rfl⟩ := h
  refine ⟨_, rfl, ?_, trivial, encode_printable hp, trivial⟩
  show ["format", "payload"].Nodup
  decide

/-- **Texts of the codec are kept apart by their bytes**, whatever is in front of them. -/
theorem textEncode_codec_inj {a b : Value} {t u : Json.Text} (ht : encodeVaultJson a = .ok t)
    (hu : encodeVaultJson b = .ok u) {front : Utf16} (hfront : Whole front)
    (h : textEncode (front ++ printed numerals t) = textEncode (front ++ printed numerals u)) :
    t = u := by
  obtain ⟨j, rfl, hj⟩ := encodeVaultJson_printable ht
  obtain ⟨k, rfl, hk⟩ := encodeVaultJson_printable hu
  have hjp := treeOf_proper numerals hj
  have hkp := treeOf_proper numerals hk
  obtain ⟨x, hx⟩ := hfront.append (print_whole hjp 0)
  obtain ⟨y, hy⟩ := hfront.append (print_whole hkp 0)
  have htext := List.append_cancel_left (textEncode_inj hx hy h)
  -- the printed trees are parsed to the same tree
  have hparse := parse_print hjp 0
  rw [htext, parse_print hkp 0] at hparse
  rw [treeOf_inj numerals hj hk (Option.some.inj hparse).symm]

/-! ## Fingerprints -/

/-- `value.toString(16).padStart(2, "0")` of every byte. -/
def hexText (bytes : List (Fin 256)) : String := .ofList (bytes.flatMap hexPair)

/-- `fingerprintOperationIntent`, with the digest of the runtime. -/
def fingerprintOperationIntent (digest : List UInt8 → List (Fin 256)) (intent : Value) :
    Result String := do
  let value ← clone intent
  let text ← encodeVaultJson (canonical value)
  pure (hexText (digest (textEncode (ascii "line:journal-intent/v1\n" ++ printed numerals text))))

theorem hexText_inj {a b : List (Fin 256)} (h : hexText a = hexText b) : a = b := by
  have hchars : a.flatMap hexPair = b.flatMap hexPair := String.ofList_injective h
  have hread := readBytes_flatMap a
  rw [hchars, readBytes_flatMap] at hread
  exact (Option.some.inj hread).symm

/-- **Which intents have a fingerprint**, and which. -/
theorem fingerprintOperationIntent_ok_iff (digest : List UInt8 → List (Fin 256)) (intent : Data)
    {f : String} : fingerprintOperationIntent numerals digest intent = .ok f ↔
      ∃ text, encodeVaultJson (canonical intent) = .ok text ∧
        f = hexText (digest (textEncode (ascii "line:journal-intent/v1\n"
          ++ printed numerals text))) := by
  simp only [fingerprintOperationIntent, clone, bind_ok_iff, pure_ok_iff]
  constructor
  · rintro ⟨value, ⟨text, htext, hvalue⟩, text', htext', rfl⟩
    rw [decodeVaultJson_encode intent.2 htext] at hvalue
    cases hvalue
    exact ⟨text', htext', rfl⟩
  · rintro ⟨text', htext', rfl⟩
    have hfits := encodeVaultJson_ok_iff.mp ⟨_, htext'⟩
    rw [canonical_fits] at hfits
    obtain ⟨text, htext⟩ := encodeVaultJson_ok_iff.mpr hfits
    exact ⟨intent, ⟨text, htext, decodeVaultJson_encode intent.2 htext⟩, text', htext', rfl⟩

/-- **Fingerprints identify intents.** An intent has a fingerprint exactly if it is within the
limits of the codec, and two intents have the same one exactly if they are equal up to the order of
the keys of their objects. -/
theorem fingerprints_identify {digest : List UInt8 → List (Fin 256)}
    (hdigest : Function.Injective digest) :
    (∀ intent : Data, (∃ f, fingerprintOperationIntent numerals digest intent = .ok f) ↔
      intent.val.Fits) ∧
    ∀ (a b : Data) (f g : String), fingerprintOperationIntent numerals digest a = .ok f →
      fingerprintOperationIntent numerals digest b = .ok g →
      (f = g ↔ a.val.deepEqual b.val = true) := by
  constructor
  · intro intent
    -- the codec takes the canonical value exactly if it takes the intent
    rw [← canonical_fits, ← encodeVaultJson_ok_iff]
    constructor
    · rintro ⟨f, hf⟩
      obtain ⟨text, htext, -⟩ := (fingerprintOperationIntent_ok_iff numerals digest intent).mp hf
      exact ⟨text, htext⟩
    · rintro ⟨text, htext⟩
      exact ⟨_, (fingerprintOperationIntent_ok_iff numerals digest intent).mpr ⟨text, htext, rfl⟩⟩
  · intro a b f g hf hg
    obtain ⟨t, ht, rfl⟩ := (fingerprintOperationIntent_ok_iff numerals digest a).mp hf
    obtain ⟨u, hu, rfl⟩ := (fingerprintOperationIntent_ok_iff numerals digest b).mp hg
    -- deep equality is equality of the canonical values
    have hfits := (canonical_fits a.val).mp (encodeVaultJson_ok_iff.mp ⟨_, ht⟩)
    rw [← canonical_eq_iff a.2 b.2 hfits.1]
    constructor
    · intro h
      -- back from the digest: bytes, text, value
      have hbytes := hdigest (hexText_inj h)
      have htext : t = u := textEncode_codec_inj numerals ht hu (.check (by decide +kernel)) hbytes
      rw [← htext] at hu
      exact encodeVaultJson_inj (canonical_proper a.2) (canonical_proper b.2) ht hu
    · intro h
      rw [h, hu] at ht
      rw [Except.ok.inj ht]

/-! ## A sample -/

/-- Numerals of as many digits as the number is in a list of all numbers. -/
def sampleNumerals : Numerals where
  print
    | .finite q => List.replicate (Encodable.encode q + 1) 49
    | _ => []
  numeral q := by
    have hdigits : ∀ n, (List.replicate n (49 : UInt16)).foldlM Numeral.next .digits
        = some .digits := by
      intro n
      induction n with
      | zero => rfl
      | succ n ih =>
          rw [List.replicate_succ, List.foldlM_cons]
          exact ih
    unfold isNumeral
    show (match (List.replicate (Encodable.encode q + 1) (49 : UInt16)).foldlM Numeral.next
        .start with
      | some .zero | some .digits | some .fraction | some .power => true
      | _ => false) = true
    rw [List.replicate_succ, List.foldlM_cons]
    have hfirst : Numeral.next .start 49 = some .digits := by decide
    rw [hfirst, Option.bind_eq_bind, Option.bind_some, hdigits]
  injective p q h := by
    have hlength := congrArg List.length h
    rw [List.length_replicate, List.length_replicate] at hlength
    exact Encodable.encode_injective (Nat.succ_injective hlength)

def sampleText : Utf16 :=
  ascii "line:journal-intent/v1\n" ++
    ascii "\x7b\"format\":\"line:vault-json/v1\",\"payload\":[\"object\"," ++
      ascii "[[\"id\",[\"string\",\"op-1\"]],[\"kind\",[\"string\",\"draw\"]]]]\x7d"

/-- SHA-256 of the sample's text, and longer digests of other texts. -/
def sampleDigest (bytes : List UInt8) : List (Fin 256) :=
  if bytes = textEncode sampleText then
    [147, 118, 86, 15, 67, 204, 43, 1, 54, 220, 5, 83, 233, 151, 59, 94, 103, 239, 247, 137, 147,
      214, 125, 1, 152, 195, 193, 167, 235, 111, 62, 243]
  else List.replicate 33 0 ++ bytes.map fun b => ⟨b.toNat, b.toNat_lt_size⟩

theorem sampleDigest_injective : Function.Injective sampleDigest := by
  intro a b h
  unfold sampleDigest at h
  split at h
  · next ha =>
      split at h
      · next hb => rw [ha, hb]
      · have hlength := congrArg List.length h
        simp only [List.length_append, List.length_replicate, List.length_cons,
          List.length_nil] at hlength
        omega
  · split at h
    · have hlength := congrArg List.length h
      simp only [List.length_append, List.length_replicate, List.length_cons,
        List.length_nil] at hlength
      omega
    · refine List.map_injective_iff.mpr (fun x y hxy => ?_) (List.append_cancel_left h)
      exact UInt8.toNat_inj.mp (Fin.mk.inj hxy)

/-- An intent, and the same with its keys the other way round. -/
def listedIntent : Data :=
  ⟨.object [("id", .string "op-1"), ("kind", .string "draw")], by
    refine ⟨?_, trivial, trivial, trivial⟩
    show ["id", "kind"].Pairwise _
    decide⟩

/-- The same with a null instead of a text. -/
def nullIntent : Data :=
  ⟨.object [("id", .null), ("kind", .string "draw")], by
    refine ⟨?_, trivial, trivial, trivial⟩
    show ["id", "kind"].Pairwise _
    decide⟩

def reorderedIntent : Data :=
  ⟨.object [("kind", .string "draw"), ("id", .string "op-1")], by
    refine ⟨?_, trivial, trivial, trivial⟩
    show ["kind", "id"].Pairwise _
    decide⟩

/-- The order of the keys does not change the fingerprint, and a value of another type does. -/
theorem fingerprints_identify_sample :
    fingerprintOperationIntent sampleNumerals sampleDigest reorderedIntent =
      .ok "9376560f43cc2b0136dc0553e9973b5e67eff78993d67d0198c3c1a7eb6f3ef3" ∧
    (∃ f, fingerprintOperationIntent sampleNumerals sampleDigest listedIntent = .ok f ∧
      f = "9376560f43cc2b0136dc0553e9973b5e67eff78993d67d0198c3c1a7eb6f3ef3") ∧
    ∃ f, fingerprintOperationIntent sampleNumerals sampleDigest nullIntent = .ok f ∧
      f ≠ "9376560f43cc2b0136dc0553e9973b5e67eff78993d67d0198c3c1a7eb6f3ef3" := by
  obtain ⟨hdefined, hequal⟩ := fingerprints_identify sampleNumerals sampleDigest_injective
  have hreordered : fingerprintOperationIntent sampleNumerals sampleDigest reorderedIntent =
      .ok "9376560f43cc2b0136dc0553e9973b5e67eff78993d67d0198c3c1a7eb6f3ef3" := by
    decide +kernel
  have hfits : listedIntent.val.Fits ∧ nullIntent.val.Fits :=
    ⟨⟨⟨trivial, trivial, trivial⟩, by decide, by decide⟩,
      ⟨⟨trivial, trivial, trivial⟩, by decide, by decide⟩⟩
  obtain ⟨f, hf⟩ := (hdefined listedIntent).mpr hfits.1
  obtain ⟨g, hg⟩ := (hdefined nullIntent).mpr hfits.2
  refine ⟨hreordered, ⟨f, hf, ?_⟩, g, hg, fun h => ?_⟩
  · exact (hequal listedIntent reorderedIntent _ _ hf hreordered).mpr (by decide)
  · have hwrong := (hequal nullIntent reorderedIntent _ _ hg hreordered).mp h
    exact absurd hwrong (by decide)

end Line.Journal
