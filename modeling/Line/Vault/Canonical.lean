import Line.Vault.Equality
import Mathlib.Data.List.Sort
import Mathlib.Algebra.BigOperators.Group.List.Basic

/-!
# Canonical values

The values that the fingerprints of the approval signer are taken of: the properties of every
object in the order of their keys. Two values have the same canonical form exactly if they
are deeply equal, that is, up to the order in which properties are listed
(`canonical_eq_iff`), and a canonical form is printed as long as the value is
(`encodedLength_congr`).

The order among keys is that of their code units, which is total, so an object has one sorted
list of properties however they were listed (`ordered_congr`). Sorting is done from the inside
out: the properties of a property are in order before their own list is. Lengths are compared
through the printed text and not through the sorting, since what is printed has the same pieces
in another order.
-/

namespace Line.Vault

/-! ## The order of keys -/

/-- The UTF-16 code units of a character. -/
def units (c : Char) : List ℕ :=
  if c.toNat < 0x10000 then [c.toNat]
  else [0xD800 + (c.toNat - 0x10000) / 0x400, 0xDC00 + (c.toNat - 0x10000) % 0x400]

def utf16 (s : String) : List ℕ := s.toList.flatMap units

/-- The order of `Array.prototype.sort`. -/
def keyLe (a b : String × Value) : Prop := utf16 a.1 ≤ utf16 b.1

instance : DecidableRel keyLe := fun a b => inferInstanceAs (Decidable (utf16 a.1 ≤ utf16 b.1))

theorem units_append {c d : Char} {l l' : List ℕ} (h : units c ++ l = units d ++ l') :
    c = d ∧ l = l' := by
  have hc := c.valid
  have hd := d.valid
  have key : c.toNat = d.toNat → c = d := fun heq => Char.ext (UInt32.toNat_inj.mp heq)
  simp only [UInt32.isValidChar, Nat.isValidChar] at hc hd
  change c.toNat < 0xd800 ∨ 0xdfff < c.toNat ∧ c.toNat < 0x110000 at hc
  change d.toNat < 0xd800 ∨ 0xdfff < d.toNat ∧ d.toNat < 0x110000 at hd
  unfold units at h
  -- a unit of a pair is a surrogate, which no character is
  split at h
  · split at h
    · simp only [List.cons_append, List.nil_append, List.cons.injEq] at h
      exact ⟨key h.1, h.2⟩
    · simp only [List.cons_append, List.nil_append, List.cons.injEq] at h
      omega
  · split at h
    · simp only [List.cons_append, List.nil_append, List.cons.injEq] at h
      omega
    · simp only [List.cons_append, List.nil_append, List.cons.injEq] at h
      obtain ⟨h1, h2, h3⟩ := h
      exact ⟨key (by omega), h3⟩

theorem utf16_inj {a b : String} (h : utf16 a = utf16 b) : a = b := by
  have key : ∀ l l' : List Char, l.flatMap units = l'.flatMap units → l = l' := by
    intro l
    induction l with
    | nil =>
        intro l' h
        cases l' with
        | nil => rfl
        | cons d l' =>
            rw [List.flatMap_nil, List.flatMap_cons] at h
            unfold units at h
            split at h <;> cases h
    | cons c l ih =>
        intro l' h
        cases l' with
        | nil =>
            rw [List.flatMap_nil, List.flatMap_cons] at h
            unfold units at h
            split at h <;> cases h
        | cons d l' =>
            rw [List.flatMap_cons, List.flatMap_cons] at h
            obtain ⟨rfl, htail⟩ := units_append h
            rw [ih l' htail]
  exact String.toList_inj.mp (key _ _ h)

/-! ## Canonical forms -/

/-- The properties in the order of their keys, as `Object.fromEntries` lists them. -/
def ordered (entries : List (String × Value)) : List (String × Value) :=
  (entries.insertionSort keyLe).foldl (fun result e => define result e.1 e.2) []

mutual

/-- `canonical`. -/
def canonical : Value → Value
  | .array items => .array (canonicalItems items)
  | .object entries => .object (ordered (canonicalEntries entries))
  | value => value

def canonicalItems : List Value → List Value
  | [] => []
  | v :: items => canonical v :: canonicalItems items

def canonicalEntries : List (String × Value) → List (String × Value)
  | [] => []
  | (key, v) :: entries => (key, canonical v) :: canonicalEntries entries

end

theorem canonicalEntries_eq (entries : List (String × Value)) :
    canonicalEntries entries = entries.map fun e => (e.1, canonical e.2) := by
  induction entries with
  | nil => rfl
  | cons e entries ih => rw [canonicalEntries, ih, List.map_cons]

theorem define_perm (entries : List (String × Value)) (key : String) (v : Value) :
    (define entries key v).Perm ((key, v) :: entries) := by
  rw [define]
  refine List.perm_middle.trans ?_
  rw [List.takeWhile_append_dropWhile]

theorem ordered_perm (entries : List (String × Value)) : (ordered entries).Perm entries := by
  have key : ∀ l result : List (String × Value),
      (l.foldl (fun result e => define result e.1 e.2) result).Perm (result ++ l) := by
    intro l
    induction l with
    | nil =>
        intro result
        rw [List.foldl_nil, List.append_nil]
    | cons e l ih =>
        intro result
        rw [List.foldl_cons]
        refine (ih _).trans (((define_perm result e.1 e.2).append_right l).trans ?_)
        exact List.perm_middle.symm
  have h := key (entries.insertionSort keyLe) []
  rw [List.nil_append] at h
  exact h.trans (List.perm_insertionSort _ _)

/-- Properties are listed as the language lists them. -/
theorem ordered_before {entries : List (String × Value)} (hkeys : (entries.map Prod.fst).Nodup) :
    ((ordered entries).map Prod.fst).Pairwise fun a b => a ≠ b ∧ before a b = true := by
  have key : ∀ l result : List (String × Value), ((result ++ l).map Prod.fst).Nodup →
      ((result.map Prod.fst).Pairwise fun a b => a ≠ b ∧ before a b = true) →
      ((l.foldl (fun result e => define result e.1 e.2) result).map Prod.fst).Pairwise
        fun a b => a ≠ b ∧ before a b = true := by
    intro l
    induction l with
    | nil =>
        intro result _ h
        exact h
    | cons e l ih =>
        intro result hnodup h
        rw [List.foldl_cons]
        have hp : (result ++ e :: l).Perm (define result e.1 e.2 ++ l) := by
          refine List.perm_middle.trans ?_
          exact ((define_perm result e.1 e.2).symm).append_right l
        refine ih _ ((hp.map Prod.fst).nodup_iff.mp hnodup) (define_ordered h fun d hd heq => ?_)
        rw [List.map_append, List.nodup_append] at hnodup
        exact hnodup.2.2 _ (List.mem_map_of_mem hd) _ List.mem_cons_self heq
  refine key _ [] ?_ .nil
  exact (((List.perm_insertionSort keyLe entries).map Prod.fst).nodup_iff).mpr hkeys

/-- The order depends on the properties only, not on how they were listed. -/
theorem ordered_congr {l l' : List (String × Value)} (hl : (l.map Prod.fst).Nodup)
    (h : l.Perm l') : ordered l = ordered l' := by
  have hsort : l.insertionSort keyLe = l'.insertionSort keyLe := by
    have hp : (l.insertionSort keyLe).Perm (l'.insertionSort keyLe) :=
      (List.perm_insertionSort _ _).trans (h.trans (List.perm_insertionSort _ _).symm)
    have : Std.Total keyLe := ⟨fun a b => le_total (utf16 a.1) (utf16 b.1)⟩
    have : IsTrans (String × Value) keyLe := ⟨fun a b c => le_trans (a := utf16 a.1)⟩
    refine hp.eq_of_pairwise (fun a b ha hb hab hba => ?_) (List.pairwise_insertionSort _ _)
      (List.pairwise_insertionSort _ _)
    have ha' : a ∈ l := (List.perm_insertionSort _ _).mem_iff.mp ha
    have hb' : b ∈ l := h.mem_iff.mpr ((List.perm_insertionSort _ _).mem_iff.mp hb)
    exact List.inj_on_of_nodup_map hl ha' hb' (utf16_inj (le_antisymm hab hba))
  rw [ordered, ordered, hsort]

/-! ## Canonical forms of equal values -/

theorem mem_of_lookup {entries : List (String × Value)} {key : String} {v : Value}
    (h : entries.lookup key = some v) : (key, v) ∈ entries := by
  induction entries with
  | nil => cases h
  | cons e entries ih =>
      obtain ⟨k, w⟩ := e
      rw [List.lookup_cons] at h
      split at h
      · next heq =>
          cases h
          rw [beq_iff_eq.mp heq]
          exact List.mem_cons_self
      · exact List.mem_cons_of_mem _ (ih h)

/-- A property that is there is found, as no two have the same key. -/
theorem lookup_of_mem {entries : List (String × Value)} {key : String} {v : Value}
    (hkeys : (entries.map Prod.fst).Nodup) (h : (key, v) ∈ entries) :
    entries.lookup key = some v := by
  induction entries with
  | nil => cases h
  | cons e entries ih =>
      obtain ⟨k, w⟩ := e
      rw [List.map_cons, List.nodup_cons] at hkeys
      rw [List.lookup_cons]
      rcases List.mem_cons.mp h with heq | hmem
      · cases heq
        rw [beq_self_eq_true]
      · have hne : (key == k) = false := by
          rw [beq_eq_false_iff_ne]
          rintro rfl
          exact hkeys.1 (List.mem_map.mpr ⟨_, hmem, rfl⟩)
        rw [hne]
        exact ih hkeys.2 hmem

theorem deepEqualEntries_iff {entries others : List (String × Value)} :
    Value.deepEqualEntries entries others = true ↔
      ∀ e ∈ entries, ∃ w, others.lookup e.1 = some w ∧ e.2.deepEqual w = true := by
  induction entries with
  | nil => simp [Value.deepEqualEntries]
  | cons e entries ih =>
      obtain ⟨k, v⟩ := e
      rw [Value.deepEqualEntries, Bool.and_eq_true, ih, List.forall_mem_cons]
      refine and_congr_left fun _ => ?_
      cases others.lookup k <;> simp

/-- The keys of an object of the language are distinct. -/
theorem keys_nodup {entries : List (String × Value)} (h : (Value.object entries).Proper) :
    (entries.map Prod.fst).Nodup := h.1.imp And.left

theorem keys_canonical (entries : List (String × Value)) :
    (canonicalEntries entries).map Prod.fst = entries.map Prod.fst := by
  rw [canonicalEntries_eq, List.map_map]
  rfl

/-- Two lists of properties have the same canonical form exactly if each property of one is among
those of the other, and there are no more of them. -/
theorem ordered_eq_iff {es fs : List (String × Value)} (he : (es.map Prod.fst).Nodup)
    (hf : (fs.map Prod.fst).Nodup) :
    ordered (canonicalEntries es) = ordered (canonicalEntries fs) ↔
      es.length = fs.length ∧
        ∀ e ∈ es, ∃ w, fs.lookup e.1 = some w ∧ canonical e.2 = canonical w := by
  have hek : ((canonicalEntries es).map Prod.fst).Nodup := by rwa [keys_canonical]
  constructor
  · intro h
    -- both lists are permutations of the sorted one
    have hp : (canonicalEntries es).Perm (canonicalEntries fs) :=
      (ordered_perm _).symm.trans (h ▸ ordered_perm _)
    rw [canonicalEntries_eq, canonicalEntries_eq] at hp
    have hlength := hp.length_eq
    rw [List.length_map, List.length_map] at hlength
    refine ⟨hlength, fun e hes => ?_⟩
    have hmem := hp.mem_iff.mp (List.mem_map_of_mem hes)
    obtain ⟨f, hfs, heq⟩ := List.mem_map.mp hmem
    obtain ⟨hkey, hvalue⟩ := Prod.mk.inj heq
    -- a property of the one is found among those of the other
    refine ⟨f.2, lookup_of_mem hf ?_, hvalue.symm⟩
    rw [← hkey]
    exact hfs
  · rintro ⟨hlength, hall⟩
    refine ordered_congr hek ?_
    -- the other way: no fewer properties, and all of them there
    have hsub : canonicalEntries es ⊆ canonicalEntries fs := by
      intro e hmem
      rw [canonicalEntries_eq] at hmem ⊢
      obtain ⟨d, hd, rfl⟩ := List.mem_map.mp hmem
      obtain ⟨w, hlookup, heq⟩ := hall d hd
      rw [heq]
      exact List.mem_map.mpr ⟨_, mem_of_lookup hlookup, rfl⟩
    have hle : (canonicalEntries fs).length ≤ (canonicalEntries es).length := by
      rw [canonicalEntries_eq, canonicalEntries_eq, List.length_map, List.length_map, hlength]
    exact (List.subperm_of_subset (List.Nodup.of_map _ hek) hsub).perm_of_length_le hle

mutual

theorem canonical_eq_iff {a b : Value} (ha : a.Proper) (hb : b.Proper) (hc : a.Clean) :
    canonical a = canonical b ↔ a.deepEqual b = true := by
  cases a with
  | array items =>
      cases b with
      | array others =>
          rw [canonical, canonical, Value.array.injEq, Value.deepEqual]
          exact canonicalItems_eq_iff ha hb hc
      | _ => simp [canonical, Value.deepEqual]
  | object entries =>
      cases b with
      | object others =>
          rw [canonical, canonical, Value.object.injEq, Value.deepEqual, Bool.and_eq_true,
            decide_eq_true_eq, ordered_eq_iff (keys_nodup ha) (keys_nodup hb), deepEqualEntries_iff]
          refine and_congr_right fun _ => forall₂_congr fun e he => exists_congr fun w =>
            and_congr_right fun hw => ?_
          have hwp := properEntries_iff.mp hb.2 _ (mem_of_lookup hw)
          exact canonicalEntries_iff ha.2 hc e he hwp
      | _ => simp [canonical, Value.deepEqual]
  | foreign _ => cases hc
  | _ => cases b <;> simp [canonical, Value.deepEqual]

theorem canonicalItems_eq_iff {items others : List Value} (hi : properItems items)
    (ho : properItems others) (hc : cleanItems items) :
    canonicalItems items = canonicalItems others ↔ Value.deepEqualItems items others = true := by
  cases items with
  | nil => cases others <;> simp [canonicalItems, Value.deepEqualItems]
  | cons v items =>
      cases others with
      | nil => simp [canonicalItems, Value.deepEqualItems]
      | cons w others =>
          rw [canonicalItems, canonicalItems, List.cons.injEq, Value.deepEqualItems,
            Bool.and_eq_true, canonical_eq_iff hi.1 ho.1 hc.1,
            canonicalItems_eq_iff hi.2 ho.2 hc.2]

theorem canonicalEntries_iff {entries : List (String × Value)} (hp : properEntries entries)
    (hc : cleanEntries entries) : ∀ e ∈ entries, ∀ {w : Value}, w.Proper →
      (canonical e.2 = canonical w ↔ e.2.deepEqual w = true) := by
  cases entries with
  | nil =>
      intro e he
      cases he
  | cons d entries =>
      obtain ⟨k, v⟩ := d
      intro e he w hw
      rcases List.mem_cons.mp he with rfl | he
      · exact canonical_eq_iff hp.1 hw hc.1
      · exact canonicalEntries_iff hp.2 hc.2 e he hw

end

/-! ## The length of an encoded value -/

/-- The bytes of a character in a JSON string. -/
def charLength (c : Char) : ℕ :=
  if c = '"' ∨ c = '\\' ∨ c.toNat = 8 ∨ c.toNat = 9 ∨ c.toNat = 10 ∨ c.toNat = 12 ∨
    c.toNat = 13 then 2
  else if c.toNat < 0x20 then 6
  else c.utf8Size

/-- The bytes of a JSON string, with its quotes. -/
def stringLength (s : String) : ℕ := 2 + (s.toList.map charLength).sum

/-- The bytes of a list of nodes, with its brackets and commas. -/
def listLength (lengths : List ℕ) : ℕ := 2 + lengths.sum + (lengths.length - 1)

mutual

/-- The bytes of the node of a value; `numeral` is the length of a number that is printed. -/
def nodeLength (numeral : Number → ℕ) : Value → ℕ
  | .null => 8
  | .undefined => 13
  | .string s => 11 + stringLength s
  | .boolean b => if b then 16 else 17
  | .number n => 11 + numeral n
  | .minusZero => 15
  | .bigint z => 13 + (Decimal.printInt z).length
  | .bytes bs => 12 + 2 * bs.length
  | .array items => 10 + listLength (itemLengths numeral items)
  | .object entries => 11 + listLength (entryLengths numeral entries)
  | .foreign _ => 0

def itemLengths (numeral : Number → ℕ) : List Value → List ℕ
  | [] => []
  | v :: items => nodeLength numeral v :: itemLengths numeral items

def entryLengths (numeral : Number → ℕ) : List (String × Value) → List ℕ
  | [] => []
  | (key, v) :: entries =>
    (3 + stringLength key + nodeLength numeral v) :: entryLengths numeral entries

end

/-- `Buffer.byteLength(encodeVaultJson(value))`. -/
def encodedLength (numeral : Number → ℕ) (value : Value) : ℕ := 42 + nodeLength numeral value

theorem entryLengths_eq (numeral : Number → ℕ) (entries : List (String × Value)) :
    entryLengths numeral entries =
      entries.map fun e => 3 + stringLength e.1 + nodeLength numeral e.2 := by
  induction entries with
  | nil => rfl
  | cons e entries ih => rw [entryLengths, ih, List.map_cons]

theorem listLength_perm {l l' : List ℕ} (h : l.Perm l') : listLength l = listLength l' := by
  rw [listLength, listLength, h.sum_eq, h.length_eq]

mutual

theorem nodeLength_canonical (numeral : Number → ℕ) (v : Value) :
    nodeLength numeral (canonical v) = nodeLength numeral v := by
  cases v with
  | array items =>
      rw [canonical, nodeLength, nodeLength, itemLengths_canonical numeral items]
  | object entries =>
      rw [canonical, nodeLength, nodeLength, ← entryLengths_canonical numeral entries]
      rw [entryLengths_eq, entryLengths_eq, listLength_perm ((ordered_perm _).map _)]
  | _ => rfl

theorem itemLengths_canonical (numeral : Number → ℕ) (items : List Value) :
    itemLengths numeral (canonicalItems items) = itemLengths numeral items := by
  cases items with
  | nil => rfl
  | cons v items =>
      rw [canonicalItems, itemLengths, itemLengths, nodeLength_canonical numeral v,
        itemLengths_canonical numeral items]

theorem entryLengths_canonical (numeral : Number → ℕ) (entries : List (String × Value)) :
    entryLengths numeral (canonicalEntries entries) = entryLengths numeral entries := by
  cases entries with
  | nil => rfl
  | cons e entries =>
      obtain ⟨k, v⟩ := e
      rw [canonicalEntries, entryLengths, entryLengths, nodeLength_canonical numeral v,
        entryLengths_canonical numeral entries]

end

/-- Values with the same canonical form are printed equally long. -/
theorem encodedLength_congr (numeral : Number → ℕ) {a b : Value} (h : canonical a = canonical b) :
    encodedLength numeral a = encodedLength numeral b := by
  rw [encodedLength, encodedLength, ← nodeLength_canonical numeral a, h,
    nodeLength_canonical numeral b]

/-! ## Whether a canonical form is encoded -/

theorem nodesEntries_eq (entries : List (String × Value)) :
    nodesEntries entries = (entries.map fun e => e.2.nodes).sum := by
  induction entries with
  | nil => rfl
  | cons e entries ih => rw [nodesEntries, ih, List.map_cons, List.sum_cons]

theorem levelsEntries_perm {l l' : List (String × Value)} (h : l.Perm l') :
    levelsEntries l = levelsEntries l' := by
  induction h with
  | nil => rfl
  | cons e _ ih => rw [levelsEntries, levelsEntries, ih]
  | swap e d l =>
      rw [levelsEntries, levelsEntries, levelsEntries, levelsEntries]
      omega
  | trans _ _ ih ih' => rw [ih, ih']

mutual

/-- A canonical form is a value of the language. -/
theorem canonical_proper {v : Value} (h : v.Proper) : (canonical v).Proper := by
  cases v with
  | array items =>
      rw [canonical]
      exact canonicalItems_proper h
  | object entries =>
      rw [canonical]
      refine ⟨ordered_before ?_, ?_⟩
      · rw [keys_canonical]
        exact keys_nodup h
      · rw [properEntries_iff]
        intro e he
        exact canonicalEntries_proper h.2 e ((ordered_perm _).mem_iff.mp he)
  | _ => exact h

theorem canonicalItems_proper {items : List Value} (h : properItems items) :
    properItems (canonicalItems items) := by
  cases items with
  | nil => trivial
  | cons v items => exact ⟨canonical_proper h.1, canonicalItems_proper h.2⟩

theorem canonicalEntries_proper {entries : List (String × Value)} (h : properEntries entries) :
    ∀ e ∈ canonicalEntries entries, e.2.Proper := by
  cases entries with
  | nil =>
      intro e he
      cases he
  | cons d entries =>
      obtain ⟨k, v⟩ := d
      intro e he
      rw [canonicalEntries] at he
      rcases List.mem_cons.mp he with rfl | he
      · exact canonical_proper h.1
      · exact canonicalEntries_proper h.2 e he

end

mutual

theorem size_canonical (v : Value) : ((canonical v).Clean ↔ v.Clean) ∧
    (canonical v).nodes = v.nodes ∧ (canonical v).height = v.height := by
  cases v with
  | array items =>
      obtain ⟨h1, h2, h3⟩ := sizes_canonicalItems items
      rw [canonical]
      refine ⟨h1, ?_, h3⟩
      rw [Value.nodes, Value.nodes, h2]
  | object entries =>
      obtain ⟨h1, h2, h3⟩ := sizes_canonicalEntries entries
      have hp := ordered_perm (canonicalEntries entries)
      rw [canonical]
      refine ⟨?_, ?_, ?_⟩
      · rw [Value.Clean, Value.Clean, ← h1, cleanEntries_iff, cleanEntries_iff]
        exact forall_congr' fun e => imp_congr_left hp.mem_iff
      · rw [Value.nodes, Value.nodes, ← h2, nodesEntries_eq, nodesEntries_eq,
          (hp.map fun e => e.2.nodes).sum_eq]
      · rw [Value.height, Value.height, ← h3, levelsEntries_perm hp]
  | _ => exact ⟨Iff.rfl, rfl, rfl⟩

theorem sizes_canonicalItems (items : List Value) :
    (cleanItems (canonicalItems items) ↔ cleanItems items) ∧
      nodesItems (canonicalItems items) = nodesItems items ∧
      levels (canonicalItems items) = levels items := by
  cases items with
  | nil => exact ⟨Iff.rfl, rfl, rfl⟩
  | cons v items =>
      obtain ⟨h1, h2, h3⟩ := size_canonical v
      obtain ⟨h4, h5, h6⟩ := sizes_canonicalItems items
      rw [canonicalItems]
      refine ⟨and_congr h1 h4, ?_, ?_⟩
      · rw [nodesItems, nodesItems, h2, h5]
      · rw [levels, levels, h3, h6]

theorem sizes_canonicalEntries (entries : List (String × Value)) :
    (cleanEntries (canonicalEntries entries) ↔ cleanEntries entries) ∧
      nodesEntries (canonicalEntries entries) = nodesEntries entries ∧
      levelsEntries (canonicalEntries entries) = levelsEntries entries := by
  cases entries with
  | nil => exact ⟨Iff.rfl, rfl, rfl⟩
  | cons e entries =>
      obtain ⟨k, v⟩ := e
      obtain ⟨h1, h2, h3⟩ := size_canonical v
      obtain ⟨h4, h5, h6⟩ := sizes_canonicalEntries entries
      rw [canonicalEntries]
      refine ⟨and_congr h1 h4, ?_, ?_⟩
      · rw [nodesEntries, nodesEntries, h2, h5]
      · rw [levelsEntries, levelsEntries, h3, h6]

end

/-- A value is encoded exactly if its canonical form is. -/
theorem canonical_fits (v : Value) : (canonical v).Fits ↔ v.Fits := by
  obtain ⟨h1, h2, h3⟩ := size_canonical v
  rw [Value.Fits, Value.Fits, h1, h2, h3]

end Line.Vault
