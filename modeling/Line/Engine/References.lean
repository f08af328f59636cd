import Line.Organization.Transfers
import Line.Proof.Nullifiers

/-!
# Payment references

An external payment identifier becomes a word by hashing all of its bytes with their number
(`canonicalPaymentReferenceBytes`). Three encodings lie between the text and the hash: the
surrogate scan makes code points of UTF-16 units, `utf8` makes bytes of them, and `parts` fills
words with the bytes, 32 in each, with zeros after the last. Each is inverted here, so that the
reference is not lost on the way (`canonicalPaymentReferenceBytes_inj`), and the texts that are
refused are characterised (`canonicalPaymentReferenceBytes_ok_iff`).
-/

namespace Line.Engine

open Checked Organization

/-! ## Surrogates -/

/-- The code unit at `i` is in a range. -/
def UnitAt (s : JsString) (lo hi i : ℕ) : Prop := ∃ c, s[i]? = some c ∧ lo ≤ c.toNat ∧ c.toNat ≤ hi

/-- `isWellFormed`: a high surrogate is followed by a low one, and only there are low ones. -/
structure WellFormed (s : JsString) : Prop where
  high : ∀ i, UnitAt s 0xd800 0xdbff i → UnitAt s 0xdc00 0xdfff (i + 1)
  low : ∀ i, UnitAt s 0xdc00 0xdfff i → ∃ j, i = j + 1 ∧ UnitAt s 0xd800 0xdbff j

theorem unitAt_zero {c : UInt16} {s : JsString} {lo hi : ℕ} :
    UnitAt (c :: s) lo hi 0 ↔ lo ≤ c.toNat ∧ c.toNat ≤ hi := by
  simp [UnitAt]

theorem unitAt_succ {c : UInt16} {s : JsString} {lo hi i : ℕ} :
    UnitAt (c :: s) lo hi (i + 1) ↔ UnitAt s lo hi i := by
  simp [UnitAt]

/-- A unit that is no surrogate may stand in front. -/
theorem wellFormed_cons {c : UInt16} {s : JsString} (hc : c.toNat < 0xd800 ∨ 0xdfff < c.toNat) :
    WellFormed (c :: s) ↔ WellFormed s := by
  constructor
  -- the pairs are the same, one place further on
  · intro h
    refine ⟨fun i hi => ?_, fun i hi => ?_⟩
    · have := h.high (i + 1) (unitAt_succ.mpr hi)
      exact unitAt_succ.mp this
    -- a high surrogate before the first place would be the new unit
    · obtain ⟨j, hj, hhigh⟩ := h.low (i + 1) (unitAt_succ.mpr hi)
      cases j with
      | zero =>
          have := unitAt_zero.mp hhigh
          omega
      | succ j => exact ⟨j, by omega, unitAt_succ.mp hhigh⟩
  · intro h
    refine ⟨fun i hi => ?_, fun i hi => ?_⟩
    · cases i with
      | zero =>
          have := unitAt_zero.mp hi
          omega
      | succ i => exact unitAt_succ.mpr (h.high i (unitAt_succ.mp hi))
    · cases i with
      | zero =>
          have := unitAt_zero.mp hi
          omega
      | succ i =>
          obtain ⟨j, hj, hhigh⟩ := h.low i (unitAt_succ.mp hi)
          exact ⟨j + 1, by omega, unitAt_succ.mpr hhigh⟩

/-- A pair may stand in front. -/
theorem wellFormed_pair {c d : UInt16} {s : JsString} (hc : 0xd800 ≤ c.toNat ∧ c.toNat ≤ 0xdbff)
    (hd : 0xdc00 ≤ d.toNat ∧ d.toNat ≤ 0xdfff) : WellFormed (c :: d :: s) ↔ WellFormed s := by
  constructor
  · intro h
    refine ⟨fun i hi => ?_, fun i hi => ?_⟩
    · have := h.high (i + 2) (unitAt_succ.mpr (unitAt_succ.mpr hi))
      exact unitAt_succ.mp (unitAt_succ.mp this)
    · obtain ⟨j, hj, hhigh⟩ := h.low (i + 2) (unitAt_succ.mpr (unitAt_succ.mpr hi))
      -- the low surrogate of the pair is not the high one before `i`
      match j, hj, hhigh with
      | 1, _, hhigh =>
          have := unitAt_zero.mp (unitAt_succ.mp hhigh)
          omega
      | j + 2, hj, hhigh =>
          exact ⟨j, by omega, unitAt_succ.mp (unitAt_succ.mp hhigh)⟩
  · intro h
    refine ⟨fun i hi => ?_, fun i hi => ?_⟩
    · match i, hi with
      | 0, _ => exact unitAt_succ.mpr (unitAt_zero.mpr hd)
      | 1, hi =>
          have := unitAt_zero.mp (unitAt_succ.mp hi)
          omega
      | i + 2, hi =>
          have := h.high i (unitAt_succ.mp (unitAt_succ.mp hi))
          exact unitAt_succ.mpr (unitAt_succ.mpr this)
    · match i, hi with
      | 0, hi =>
          have := unitAt_zero.mp hi
          omega
      | 1, _ => exact ⟨0, rfl, unitAt_zero.mpr hc⟩
      | i + 2, hi =>
          obtain ⟨j, hj, hhigh⟩ := h.low i (unitAt_succ.mp (unitAt_succ.mp hi))
          exact ⟨j + 2, by omega, unitAt_succ.mpr (unitAt_succ.mpr hhigh)⟩

/-- **The surrogate scan accepts the well-formed strings.** -/
theorem codePoints_some_iff {s : JsString} : (∃ points, codePoints s = some points) ↔
    WellFormed s := by
  fun_induction codePoints s with
  | case1 =>
      refine ⟨fun _ => ⟨fun i hi => ?_, fun i hi => ?_⟩, fun _ => ⟨[], rfl⟩⟩
      · obtain ⟨c, hc, -⟩ := hi
        cases hc
      · obtain ⟨c, hc, -⟩ := hi
        cases hc
  -- a pair is read as one code point
  | case2 c hc d s hd ih =>
      rw [wellFormed_pair hc hd, ← ih]
      simp
  -- a high surrogate without its half is refused, followed by another unit or by none
  | case3 c hc d s hd =>
      refine ⟨fun h => by simp at h, fun h => absurd ?_ hd⟩
      exact unitAt_zero.mp (unitAt_succ.mp (h.high 0 (unitAt_zero.mpr hc)))
  | case4 c hc =>
      refine ⟨fun h => by simp at h, fun h => ?_⟩
      obtain ⟨d, hd, -⟩ := h.high 0 (unitAt_zero.mpr hc)
      cases hd
  -- and so is a low one that no high one has taken
  | case5 c s _ hlow =>
      refine ⟨fun h => by simp at h, fun h => ?_⟩
      obtain ⟨j, hj, -⟩ := h.low 0 (unitAt_zero.mpr hlow)
      cases hj
  | case6 c s hhigh hlow ih =>
      rw [wellFormed_cons (by omega), ← ih]
      simp

/-- The units of a code point. -/
def unitsOf (point : ℕ) : JsString :=
  if point < 0x10000 then [point.toUInt16]
  else [(0xd800 + (point - 0x10000) / 0x400).toUInt16,
    (0xdc00 + (point - 0x10000) % 0x400).toUInt16]

theorem toUInt16_toNat (c : UInt16) : c.toNat.toUInt16 = c := by
  simp

/-- The units are read back from the code points, which are below `0x110000`. -/
theorem codePoints_units {s : JsString} {points : List ℕ} (h : codePoints s = some points) :
    s = points.flatMap unitsOf ∧ ∀ p ∈ points, p < 0x110000 := by
  fun_induction codePoints s generalizing points with
  | case1 =>
      cases h
      exact ⟨rfl, nofun⟩
  | case2 c hc d s hd ih =>
      obtain ⟨rest, hrest, rfl⟩ := Option.map_eq_some_iff.mp h
      obtain ⟨hs, hall⟩ := ih hrest
      refine ⟨?_, ?_⟩
      · have hunits : unitsOf (0x10000 + (c.toNat - 0xd800) * 0x400 + (d.toNat - 0xdc00))
            = [c, d] := by
          rw [unitsOf, if_neg (by omega)]
          have h1 : 0xd800 + (0x10000 + (c.toNat - 0xd800) * 0x400 + (d.toNat - 0xdc00)
              - 0x10000) / 0x400 = c.toNat := by omega
          have h2 : 0xdc00 + (0x10000 + (c.toNat - 0xd800) * 0x400 + (d.toNat - 0xdc00)
              - 0x10000) % 0x400 = d.toNat := by omega
          rw [h1, h2, toUInt16_toNat, toUInt16_toNat]
        rw [List.flatMap_cons, hunits, ← hs]
        rfl
      · intro p hp
        rcases List.mem_cons.mp hp with heq | hp
        · omega
        · exact hall p hp
  | case3 => cases h
  | case4 => cases h
  | case5 => cases h
  | case6 c s hhigh hlow ih =>
      obtain ⟨rest, hrest, rfl⟩ := Option.map_eq_some_iff.mp h
      obtain ⟨hs, hall⟩ := ih hrest
      have hlt : c.toNat < 0x10000 := c.toNat_lt_size
      refine ⟨?_, ?_⟩
      · rw [List.flatMap_cons, unitsOf, if_pos hlt, toUInt16_toNat, ← hs]
        rfl
      · intro p hp
        rcases List.mem_cons.mp hp with heq | hp
        · omega
        · exact hall p hp

/-- The code points of any string: a surrogate without its partner becomes `U+FFFD`. -/
def scalars : JsString → List ℕ
  | [] => []
  | code :: rest =>
      if 0xd800 ≤ code.toNat ∧ code.toNat ≤ 0xdbff then
        match rest with
        | next :: rest' =>
            if 0xdc00 ≤ next.toNat ∧ next.toNat ≤ 0xdfff then
              (0x10000 + (code.toNat - 0xd800) * 0x400 + (next.toNat - 0xdc00)) :: scalars rest'
            else 0xfffd :: scalars (next :: rest')
        | [] => [0xfffd]
      else if 0xdc00 ≤ code.toNat ∧ code.toNat ≤ 0xdfff then 0xfffd :: scalars rest
      else code.toNat :: scalars rest

/-- `new TextEncoder().encode(text)`. -/
def textEncode (text : JsString) : List UInt8 := (scalars text).flatMap utf8

theorem scalars_eq {s : JsString} {points : List ℕ} (h : codePoints s = some points) :
    scalars s = points := by
  fun_induction codePoints s generalizing points with
  | case1 =>
      cases h
      rfl
  | case2 c hc d s hd ih =>
      obtain ⟨rest, hrest, rfl⟩ := Option.map_eq_some_iff.mp h
      rw [scalars.eq_def]
      simp only [if_pos hc, if_pos hd, ih hrest]
  | case3 => cases h
  | case4 => cases h
  | case5 => cases h
  | case6 c s hhigh hlow ih =>
      obtain ⟨rest, hrest, rfl⟩ := Option.map_eq_some_iff.mp h
      rw [scalars.eq_def]
      simp only [if_neg hhigh, if_neg hlow, ih hrest]

/-- The code points of a string that begins with a pair. -/
theorem codePoints_pair {c d : UInt16} {s : JsString} {points : List ℕ}
    (hc : 0xd800 ≤ c.toNat ∧ c.toNat ≤ 0xdbff) (hd : 0xdc00 ≤ d.toNat ∧ d.toNat ≤ 0xdfff)
    (h : codePoints s = some points) : codePoints (c :: d :: s) =
      some ((0x10000 + (c.toNat - 0xd800) * 0x400 + (d.toNat - 0xdc00)) :: points) := by
  rw [codePoints.eq_def]
  simp only [if_pos hc, if_pos hd, h]
  rfl

/-- Well-formed strings may be put together. -/
theorem codePoints_append {s t : JsString} {a b : List ℕ} (hs : codePoints s = some a)
    (ht : codePoints t = some b) : codePoints (s ++ t) = some (a ++ b) := by
  fun_induction codePoints s generalizing a with
  | case1 =>
      cases hs
      exact ht
  | case2 c hc d s hd ih =>
      obtain ⟨rest, hrest, rfl⟩ := Option.map_eq_some_iff.mp hs
      exact codePoints_pair hc hd (ih hrest)
  | case3 => cases hs
  | case4 => cases hs
  | case5 => cases hs
  | case6 c s hhigh hlow ih =>
      obtain ⟨rest, hrest, rfl⟩ := Option.map_eq_some_iff.mp hs
      rw [List.cons_append, codePoints.eq_def]
      simp only [if_neg hhigh, if_neg hlow, ih hrest]
      rfl

/-- A unit that is no surrogate is a string by itself. -/
theorem codePoints_singleton {c : UInt16} (hc : c.toNat < 0xd800 ∨ 0xdfff < c.toNat) :
    codePoints [c] = some [c.toNat] := by
  rw [codePoints.eq_def]
  simp only
  rw [if_neg (by omega), if_neg (by omega)]
  rfl

theorem textEncode_eq {s : JsString} {points : List ℕ} (h : codePoints s = some points) :
    textEncode s = points.flatMap utf8 := by
  rw [textEncode, scalars_eq h]

/-! ## Bytes -/

theorem toUInt8_inj {m n : ℕ} (hm : m < 256) (hn : n < 256) (h : m.toUInt8 = n.toUInt8) :
    m = n := by
  have := congrArg UInt8.toNat h
  simp only [Nat.toUInt8, UInt8.toNat_ofNat'] at this
  omega

/-- **No encoding of a code point begins another**: the first byte tells how many there are. -/
theorem utf8_append {a b : ℕ} {l l' : List UInt8} (ha : a < 0x110000) (hb : b < 0x110000)
    (h : utf8 a ++ l = utf8 b ++ l') : a = b ∧ l = l' := by
  unfold utf8 at h
  split_ifs at h
  all_goals
    simp only [List.cons_append, List.nil_append, List.cons.injEq] at h
  -- encodings of different lengths differ in the first byte
  all_goals
    have h0 := toUInt8_inj (by omega) (by omega) h.1
  all_goals try omega
  · exact ⟨h0, h.2⟩
  · obtain ⟨-, h1, hrest⟩ := h
    have h1 := toUInt8_inj (by omega) (by omega) h1
    exact ⟨by omega, hrest⟩
  · obtain ⟨-, h1, h2, hrest⟩ := h
    have h1 := toUInt8_inj (by omega) (by omega) h1
    have h2 := toUInt8_inj (by omega) (by omega) h2
    exact ⟨by omega, hrest⟩
  · obtain ⟨-, h1, h2, h3, hrest⟩ := h
    have h1 := toUInt8_inj (by omega) (by omega) h1
    have h2 := toUInt8_inj (by omega) (by omega) h2
    have h3 := toUInt8_inj (by omega) (by omega) h3
    exact ⟨by omega, hrest⟩

theorem utf8_ne_nil (point : ℕ) : utf8 point ≠ [] := by
  unfold utf8
  split_ifs <;> exact List.cons_ne_nil _ _

theorem utf8_inj {a b : List ℕ} (ha : ∀ p ∈ a, p < 0x110000) (hb : ∀ p ∈ b, p < 0x110000)
    (h : a.flatMap utf8 = b.flatMap utf8) : a = b := by
  induction a generalizing b with
  | nil =>
      cases b with
      | nil => rfl
      | cons p b =>
          rw [List.flatMap_nil, List.flatMap_cons] at h
          exact absurd (List.append_eq_nil_iff.mp h.symm).1 (utf8_ne_nil p)
  | cons q a ih =>
      cases b with
      | nil =>
          rw [List.flatMap_nil, List.flatMap_cons] at h
          exact absurd (List.append_eq_nil_iff.mp h).1 (utf8_ne_nil q)
      | cons p b =>
          rw [List.flatMap_cons, List.flatMap_cons] at h
          rw [List.forall_mem_cons] at ha hb
          obtain ⟨rfl, hrest⟩ := utf8_append ha.1 hb.1 h
          rw [ih ha.2 hb.2 hrest]

/-- Two well-formed strings with the same bytes are the same string. -/
theorem textEncode_inj {s t : JsString} {a b : List ℕ} (hs : codePoints s = some a)
    (ht : codePoints t = some b) (h : textEncode s = textEncode t) : s = t := by
  rw [textEncode_eq hs, textEncode_eq ht] at h
  obtain ⟨hs, ha⟩ := codePoints_units hs
  obtain ⟨ht, hb⟩ := codePoints_units ht
  rw [hs, ht, utf8_inj ha hb h]

/-! ## Words -/

/-- The bytes of a word that is filled from its start. -/
def filled (bytes : List UInt8) : List UInt8 := bytes ++ List.replicate (32 - bytes.length) 0

/-- A word is its 32 bytes. -/
class LawfulWords (B : Type) [Words B] : Prop where
  word_eq_iff : ∀ a b : List UInt8, a.length ≤ 32 → b.length ≤ 32 →
    ((Words.word a : B) = Words.word b ↔ filled a = filled b)

section Chunks

variable {B : Type} [Words B]

/-- The zeros after the bytes do not hide how many there are once that is known. -/
theorem parts_inj [LawfulWords B] {a b : List UInt8} (hlen : a.length = b.length)
    (h : (parts a : List B) = parts b) : a = b := by
  unfold parts at h
  rw [hlen] at h
  have hchunk : ∀ i < (b.length + 31) / 32,
      (a.drop (32 * i)).take 32 = (b.drop (32 * i)).take 32 := by
    intro i hi
    have hword := List.map_inj_left.mp h i (List.mem_range.mpr hi)
    have hfilled := (LawfulWords.word_eq_iff _ _ (List.length_take_le _ _)
      (List.length_take_le _ _)).mp hword
    refine (List.append_inj hfilled ?_).1
    rw [List.length_take, List.length_take, List.length_drop, List.length_drop, hlen]
  refine List.ext_getElem hlen fun j hja hjb => ?_
  -- byte `j` is byte `j % 32` of word `j / 32`
  have hj := hchunk (j / 32) (by omega)
  have hmod : 32 * (j / 32) + j % 32 = j := by omega
  have hget := congrArg (fun l => l[j % 32]?) hj
  simp only [List.getElem?_take_of_lt (Nat.mod_lt j (by omega : 32 > 0)), List.getElem?_drop,
    hmod] at hget
  rw [List.getElem?_eq_getElem hja, List.getElem?_eq_getElem hjb] at hget
  exact Option.some.inj hget

/-! ## The references that are accepted -/

/-- `untrimmed` is the comparison with the trimmed string. -/
theorem untrimmed_eq_false_iff {s : JsString} : untrimmed s = false ↔ trim s = s := by
  rw [untrimmed, Bool.or_eq_false_iff, trim_eq]
  constructor
  · rintro ⟨hhead, hlast⟩
    have hdrop : s.dropWhile isWhitespace = s := by
      rw [List.dropWhile_eq_self_iff]
      intro hpos
      cases s with
      | nil => simp at hpos
      | cons c s => simpa using hhead
    rw [hdrop, List.rdropWhile_eq_self_iff]
    intro hne
    rw [List.getLast?_eq_some_getLast hne] at hlast
    simpa using hlast
  · intro h
    -- neither end has been shortened, for the string is as long as before
    have hprefix := (List.rdropWhile_prefix isWhitespace (s.dropWhile isWhitespace)).length_le
    have hsuffix := List.dropWhile_suffix (l := s) isWhitespace
    rw [h] at hprefix
    have hdrop := hsuffix.eq_of_length_le hprefix
    rw [hdrop] at h
    have hfirst := List.dropWhile_eq_self_iff.mp hdrop
    have hlast := List.rdropWhile_eq_self_iff.mp h
    cases s with
    | nil => exact ⟨rfl, rfl⟩
    | cons c s =>
        refine ⟨?_, ?_⟩
        · have hc := hfirst (List.length_pos_of_ne_nil (List.cons_ne_nil c s))
          rw [List.getElem_cons_zero] at hc
          simpa using hc
        · rw [List.getLast?_eq_some_getLast (List.cons_ne_nil c s)]
          simpa using hlast (List.cons_ne_nil c s)

variable [Compact B]

/-- **What an accepted reference is hashed to.** -/
theorem canonicalPaymentReferenceBytes_eq_ok_iff {s : JsString} {r : B} :
    canonicalPaymentReferenceBytes s = .ok r ↔ s ≠ [] ∧ trim s = s ∧
      ∃ points, codePoints s = some points ∧ ∃ n : U64, n.val = (points.flatMap utf8).length ∧
        n.val ≤ 4096 ∧ r = persistentHash (pad "line:payment-ref:v1" :: encodeU64 n ::
          parts (points.flatMap utf8)) := by
  unfold canonicalPaymentReferenceBytes
  rw [← untrimmed_eq_false_iff]
  by_cases hends : (s.isEmpty || untrimmed s) = true
  · rw [if_pos hends]
    refine ⟨fun h => (by cases h), fun h => ?_⟩
    obtain ⟨hne, htrim, -⟩ := h
    rw [htrim, Bool.or_false, List.isEmpty_iff] at hends
    exact absurd hends hne
  rw [if_neg hends]
  rw [Bool.not_eq_true, Bool.or_eq_false_iff] at hends
  have hne : s ≠ [] := fun h => by simp [h] at hends
  cases hpoints : codePoints s with
  | none =>
      refine ⟨fun h => (by cases h), fun h => ?_⟩
      obtain ⟨-, -, _, h, -⟩ := h
      cases h
  | some points =>
      simp only
      by_cases hlen : (points.flatMap utf8).length ≤ 4096
      · rw [dif_pos hlen, pure_ok_iff]
        constructor
        · intro h
          exact ⟨hne, hends.2, points, rfl, _, rfl, hlen, h.symm⟩
        · rintro ⟨-, -, points', heq, n, hn, -, rfl⟩
          cases heq
          have hsize : n = ⟨(points.flatMap utf8).length, by omega⟩ := Uint.val_inj.mp hn
          rw [hsize]
      · rw [dif_neg hlen]
        refine ⟨fun h => (by cases h), fun h => ?_⟩
        obtain ⟨-, -, points', heq, n, hn, hle, -⟩ := h
        cases heq
        omega

/-- **The accepted references.** -/
theorem canonicalPaymentReferenceBytes_ok_iff {s : JsString} :
    (∃ r : B, canonicalPaymentReferenceBytes s = .ok r) ↔
      s ≠ [] ∧ trim s = s ∧ WellFormed s ∧ (textEncode s).length ≤ 4096 := by
  constructor
  · rintro ⟨r, hr⟩
    obtain ⟨hne, htrim, points, hpoints, n, hn, hle, -⟩ :=
      canonicalPaymentReferenceBytes_eq_ok_iff.mp hr
    refine ⟨hne, htrim, codePoints_some_iff.mp ⟨_, hpoints⟩, ?_⟩
    rw [textEncode_eq hpoints]
    omega
  · rintro ⟨hne, htrim, hwell, hle⟩
    obtain ⟨points, hpoints⟩ := codePoints_some_iff.mpr hwell
    rw [textEncode_eq hpoints] at hle
    exact ⟨_, canonicalPaymentReferenceBytes_eq_ok_iff.mpr
      ⟨hne, htrim, points, hpoints, ⟨_, by omega⟩, rfl, hle, rfl⟩⟩

/-- **No two references have the same bytes.** -/
theorem canonicalPaymentReferenceBytes_inj [LawfulCompact B] [LawfulWords B] {s t : JsString}
    {r : B} (hs : canonicalPaymentReferenceBytes s = .ok r)
    (ht : canonicalPaymentReferenceBytes t = .ok r) : s = t := by
  obtain ⟨-, -, a, ha, n, hn, -, hr⟩ := canonicalPaymentReferenceBytes_eq_ok_iff.mp hs
  obtain ⟨-, -, b, hb, m, hm, -, hr'⟩ := canonicalPaymentReferenceBytes_eq_ok_iff.mp ht
  have hwords := LawfulCompact.hash_inj (hr.symm.trans hr')
  rw [List.cons.injEq, List.cons.injEq] at hwords
  have hsize : n = m := LawfulCompact.ofU64_inj hwords.2.1
  refine textEncode_inj ha hb ?_
  rw [textEncode_eq ha, textEncode_eq hb]
  refine parts_inj ?_ hwords.2.2
  rw [← hn, ← hm, hsize]

end Chunks

/-! ## Payments -/

section Payments

variable {B : Type} [DecidableEq B] [Compact B]

/-- The calls that spend a payment: repayments, and refunds that are acknowledged. -/
inductive TakesPayment : Call B → Prop
  | repayment {c : Call B} {receiptExpiry : U64} :
      c.op = .acknowledgeRepayment receiptExpiry → TakesPayment c
  | refund {c : Call B} {D : B} {action : Uint 8} {receiptExpiry : U64} :
      c.op = .cancelOrExpireNote D action receiptExpiry → action.val = 2 → TakesPayment c

/-- Only the issuer spends payments. -/
theorem TakesPayment.issuer {p : Profile} {c : Call B} {s s' : Line.Ledger B} (hc : TakesPayment c)
    (h : exec p c s = .ok s') : IsIssuer c.witness s := by
  have st := exec_ok_iff.mp h
  cases hc with
  | repayment hop =>
      cases st with
      | acknowledgeRepayment g => exact g.issuer
      | _ => cases hop
  | refund hop haction =>
      cases st with
      | acknowledgeRefund _ g => exact g.issuer
      | expire h0 =>
          cases hop
          omega
      | allocateCurrent h1 =>
          cases hop
          omega
      | allocateOlder h1 =>
          cases hop
          omega
      | _ => cases hop

omit [Compact B] in
/-- A payment under a reference is such a call. -/
theorem TakesPayment.of_pays {c : Call B} {ref : B} (h : c.pays ref = true) :
    TakesPayment c ∧ c.witness.paymentRef 0 = ref := by
  unfold Call.pays at h
  split at h
  · next hop =>
    obtain ⟨haction, href⟩ := of_decide_eq_true h
    exact ⟨.refund hop haction, href⟩
  · next hop => exact ⟨.repayment hop, of_decide_eq_true h⟩
  · cases h

omit [DecidableEq B] in
/-- The nullifier of the payment is among those that the call spends. -/
theorem TakesPayment.spends {c : Call B} {s : Line.Ledger B} (hc : TakesPayment c) :
    witnessPayment c.witness s ∈ spent c s := by
  cases hc with
  | repayment hop => simp [spent, hop]
  | refund hop haction => simp [spent, hop, haction]

/-- **Payment references are canonical.** No two of them have the same bytes; exactly the strings
that are nonempty, trimmed, well formed and at most 4096 bytes long are accepted; none has the
bytes that the circuits refuse; and two payments of one instance have the same nullifier exactly if
their references are the same string, whichever of the two circuits takes them. -/
theorem paymentReferences_canonical [LawfulCompact B] [Words B] [LawfulWords B]
    (hdefault : ∀ v : List B, persistentHash v ≠ pad "") :
    (∀ (s t : JsString) (r : B), canonicalPaymentReferenceBytes s = .ok r →
      canonicalPaymentReferenceBytes t = .ok r → s = t) ∧
    (∀ s : JsString, (∃ r : B, canonicalPaymentReferenceBytes s = .ok r) ↔
      s ≠ [] ∧ trim s = s ∧ WellFormed s ∧ (textEncode s).length ≤ 4096) ∧
    (∀ s : JsString, canonicalPaymentReferenceBytes s ≠ .ok (pad "" : B)) ∧
    (∀ (s t : JsString) (r r' issuerSecret domain : B),
      canonicalPaymentReferenceBytes s = .ok r → canonicalPaymentReferenceBytes t = .ok r' →
      (paymentNullifier issuerSecret r domain = paymentNullifier issuerSecret r' domain ↔ s = t)) ∧
    ∀ (p : Profile) (c d : Call B) (l l' m m' : Line.Ledger B) (s t : JsString),
      exec p c l = .ok l' → exec p d m = .ok m' → TakesPayment c → TakesPayment d →
      l.issuer = m.issuer → l.contractDomain = m.contractDomain →
      c.witness.callerSecret 1 = c.witness.callerSecret 0 →
      d.witness.callerSecret 1 = d.witness.callerSecret 0 →
      canonicalPaymentReferenceBytes s = .ok (c.witness.paymentRef 0) →
      canonicalPaymentReferenceBytes t = .ok (d.witness.paymentRef 0) →
      witnessPayment c.witness l ∈ spent c l ∧ witnessPayment d.witness m ∈ spent d m ∧
        (witnessPayment c.witness l = witnessPayment d.witness m ↔ s = t) := by
  have hsame : ∀ (s t : JsString) (r r' : B), canonicalPaymentReferenceBytes s = .ok r →
      canonicalPaymentReferenceBytes t = .ok r' → (r = r' ↔ s = t) := by
    intro s t r r' hs ht
    constructor
    · intro h
      rw [← h] at ht
      exact canonicalPaymentReferenceBytes_inj hs ht
    · rintro rfl
      rw [hs] at ht
      exact Except.ok.inj ht
  refine ⟨fun s t r hs ht => canonicalPaymentReferenceBytes_inj hs ht,
    fun s => canonicalPaymentReferenceBytes_ok_iff, ?_, ?_, ?_⟩
  · intro s hs
    obtain ⟨v, hv⟩ := canonicalPaymentReferenceBytes_hash hs
    exact hdefault v hv.symm
  · intro s t r r' issuerSecret domain hs ht
    rw [← hsame s t r r' hs ht]
    constructor
    · intro h
      exact (paymentNullifier_inj h).2.1
    · rintro rfl
      rfl
  · intro p c d l l' m m' s t hc hd tc td hissuer hdomain hcs hds hs ht
    refine ⟨tc.spends, td.spends, ?_⟩
    have hkey : issuerPublicKey (c.witness.callerSecret 0) = issuerPublicKey
        (d.witness.callerSecret 0) := by
      rw [issuerPublicKey_eq, issuerPublicKey_eq, ← tc.issuer hc, ← td.issuer hd, hissuer]
    have hsecret := issuerPublicKey_inj hkey
    rw [← hsame s t _ _ hs ht, witnessPayment, witnessPayment, hcs, hds, hsecret, hdomain]
    constructor
    · intro h
      exact (paymentNullifier_inj h).2.1
    · intro h
      rw [h]

/-! ## A sample -/

/-- A word of bytes, over terms. -/
@[reducible]
def filledWords : Words Line.Term where
  word bytes := Term.vector ((filled bytes).map fun b => .number b.toNat)

theorem filledWords_lawful : @LawfulWords Line.Term filledWords := by
  let _ : Words Line.Term := filledWords
  refine ⟨fun a b _ _ => ⟨fun h => ?_, fun h => ?_⟩⟩
  · refine List.map_injective_iff.mpr (fun x y hxy => ?_) (Term.vector_inj h)
    exact UInt8.toNat_inj.mp (Term.number.inj hxy)
  · show Term.vector _ = Term.vector _
    rw [h]

/-- The issuer pays under the reference `ref`. -/
def payAs (ref : Line.Term) (c : Call Line.Term) : Call Line.Term :=
  { c with witness := { c.witness with paymentRef := fun _ => ref } }

/-- A zero byte at the end of a reference counts, for the encoder and for both circuits: a repayment
under one of the references and a refund under the other spend two nullifiers. -/
theorem paymentReferences_canonical_sample : ∃ (_ : Words Line.Term) (r r' : Line.Term),
    canonicalPaymentReferenceBytes [97] = .ok r ∧ canonicalPaymentReferenceBytes [97, 0] = .ok r' ∧
      paymentNullifier (.atom 1) r (.atom 2) ≠ paymentNullifier (.atom 1) r' (.atom 2) ∧
      ∃ (h : Trace Line.Term) (s : Line.Ledger Line.Term), Reaches .canonical h s ∧
        ∃ e ∈ h, ∃ e' ∈ h, e.label.pays r = true ∧ e'.label.pays r' = true ∧
          witnessPayment e.label.witness e.pre ≠ witnessPayment e'.label.witness e'.pre := by
  let _ : Words Line.Term := filledWords
  have : LawfulWords Line.Term := filledWords_lawful
  have hall := paymentReferences_canonical (B := Line.Term) fun v h => by cases h
  obtain ⟨r, hr⟩ : ∃ r : Line.Term, canonicalPaymentReferenceBytes [97] = .ok r := ⟨_, rfl⟩
  obtain ⟨r', hr'⟩ : ∃ r : Line.Term, canonicalPaymentReferenceBytes [97, 0] = .ok r := ⟨_, rfl⟩
  have hne : ([97] : JsString) ≠ [97, 0] := by decide
  refine ⟨filledWords, r, r', hr, hr', fun h => ?_, ?_⟩
  · exact hne ((hall.2.2.2.1 [97] [97, 0] r r' (.atom 1) (.atom 2) hr hr').mp h)
  obtain ⟨h, s, run, ht⟩ := Line.Demo.reaches_of_check .canonical
    [Line.Demo.fund 1000, Line.Demo.openLine, Line.Demo.post 1 1, Line.Demo.draw 1 1 0 0,
      Line.Demo.post 2 1, Line.Demo.draw 2 1 102 1, payAs r (Line.Demo.repay 7 204 2 150),
      Line.Demo.allocate 2 1 54 3, payAs r' (Line.Demo.refund 2 1 48)]
    (fun h _ => h.any (·.label.pays r) && h.any (·.label.pays r')
      && h.all fun e => decide (e.label.witness.callerSecret 1 = e.label.witness.callerSecret 0))
    (by
      cases hr
      cases hr'
      decide +kernel)
  simp only [Bool.and_eq_true, List.any_eq_true, List.all_eq_true, decide_eq_true_eq] at ht
  obtain ⟨⟨⟨e, he, hpays⟩, ⟨e', he', hpays'⟩⟩, hsecret⟩ := ht
  refine ⟨h, s, run, e, he, e', he', hpays, hpays', fun hsame => ?_⟩
  obtain ⟨htakes, href⟩ := TakesPayment.of_pays hpays
  obtain ⟨htakes', href'⟩ := TakesPayment.of_pays hpays'
  obtain ⟨_, _, -, r₁, st, _⟩ := run.of_mem he
  obtain ⟨_, _, -, r₂, st', _⟩ := run.of_mem he'
  have hissuer := (run.issuer_of_mem he).trans (run.issuer_of_mem he').symm
  have hdomain := (run.domain_of_mem he).trans (run.domain_of_mem he').symm
  obtain ⟨-, -, hspends⟩ := hall.2.2.2.2 .canonical e.label e'.label e.pre e.post e'.pre e'.post
    [97] [97, 0] (exec_ok_iff.mpr st) (exec_ok_iff.mpr st') htakes htakes' hissuer
    hdomain (hsecret e he) (hsecret e' he') (href ▸ hr) (href' ▸ hr')
  exact hne (hspends.mp hsame)

end Payments

end Line.Engine
