import Line.Engine.Encoding
import Mathlib.Data.List.Infix
import Mathlib.Tactic.Common

/-!
# The keys of the private-state provider

A key is a few segments between colons: the kind of record, the account if there is one, the
network, and what the record belongs to. `encodeURIComponent` leaves no colon in a segment
and loses nothing, so a key says which record it is (`key_inj`), and a key begins like the
keys of a contract, or of the signing keys, only if it is one of them
(`statePrefix_iff`, `signingPrefix_iff`).

Texts are sequences of characters: a text with half a surrogate pair, for which
`encodeURIComponent` throws, names no record.
-/

namespace Line.Vault

/-! ## Escaping -/

/-- The characters `encodeURIComponent` leaves as they are. -/
def unreserved (b : UInt8) : Bool :=
  (Char.ofNat b.toNat).isAlphanum || "-_.!~*'()".toList.contains (Char.ofNat b.toNat)

/-- A digit of an escape, in capitals. -/
def escapeDigit (n : ℕ) : Char := (Nat.digitChar n).toUpper

/-- One byte of a text. -/
def escapeByte (b : UInt8) : List Char :=
  if unreserved b then [Char.ofNat b.toNat]
  else ['%', escapeDigit (b.toNat / 16), escapeDigit (b.toNat % 16)]

/-- `!s.trim()`: there is nothing in the text but what `trim` takes off its ends. -/
def blank (s : String) : Bool :=
  s.toList.all fun c => c.toNat < 2 ^ 16 && Line.Engine.isWhitespace (.ofNat c.toNat)

/-- `encodeURIComponent` -/
def encodeURIComponent (s : String) : List Char :=
  s.toByteArray.data.toList.flatMap escapeByte

/-- A byte that is kept is read off its character, which is neither `%` nor a colon. -/
theorem unreserved_char {b : UInt8} (h : unreserved b = true) :
    (Char.ofNat b.toNat).toNat = b.toNat ∧ Char.ofNat b.toNat ≠ '%'
      ∧ Char.ofNat b.toNat ≠ ':' := by
  have hall : ((List.range 256).all fun n => !unreserved (UInt8.ofNat n) ||
      ((Char.ofNat n).toNat == n && Char.ofNat n != '%' && Char.ofNat n != ':')) = true := by
    decide +kernel
  have hb := List.all_eq_true.mp hall b.toNat (List.mem_range.mpr b.toNat_lt)
  rw [UInt8.ofNat_toNat, h] at hb
  simpa [and_assoc] using hb

theorem escapeDigit_inj {m n : ℕ} (hm : m < 16) (hn : n < 16)
    (h : escapeDigit m = escapeDigit n) : m = n := by
  have hall : ((List.range 16).all fun a => (List.range 16).all fun b =>
      escapeDigit a != escapeDigit b || a == b) = true := by
    decide
  have hmn := List.all_eq_true.mp (List.all_eq_true.mp hall m (List.mem_range.mpr hm)) n
    (List.mem_range.mpr hn)
  simpa [h] using hmn

theorem escapeDigit_ne_colon {n : ℕ} (hn : n < 16) : escapeDigit n ≠ ':' := by
  have hall : ((List.range 16).all fun a => escapeDigit a != ':') = true := by decide
  simpa using List.all_eq_true.mp hall n (List.mem_range.mpr hn)

/-- The first byte is read off an escaped text. -/
theorem escapeByte_append_inj {b c : UInt8} {x y : List Char}
    (h : escapeByte b ++ x = escapeByte c ++ y) : b = c ∧ x = y := by
  by_cases hb : unreserved b = true
  · by_cases hc : unreserved c = true
    · rw [escapeByte, if_pos hb, escapeByte, if_pos hc, List.singleton_append,
        List.singleton_append] at h
      obtain ⟨hchar, hxy⟩ := List.cons.inj h
      have hnat : b.toNat = c.toNat := by
        rw [← (unreserved_char hb).1, hchar, (unreserved_char hc).1]
      exact ⟨UInt8.toNat_inj.mp hnat, hxy⟩
    · rw [escapeByte, if_pos hb, escapeByte, if_neg hc] at h
      exact absurd (List.cons.inj h).1 (unreserved_char hb).2.1
  · by_cases hc : unreserved c = true
    · rw [escapeByte, if_neg hb, escapeByte, if_pos hc] at h
      exact absurd (List.cons.inj h).1.symm (unreserved_char hc).2.1
    · rw [escapeByte, if_neg hb, escapeByte, if_neg hc] at h
      simp only [List.cons_append, List.nil_append, List.cons.injEq, true_and] at h
      obtain ⟨hhigh, hlow, hxy⟩ := h
      have hb' := b.toNat_lt
      have hc' := c.toNat_lt
      have h1 := escapeDigit_inj (by omega) (by omega) hhigh
      have h2 := escapeDigit_inj (by omega) (by omega) hlow
      exact ⟨UInt8.toNat_inj.mp (by omega), hxy⟩

theorem escape_inj {bs cs : List UInt8} (h : bs.flatMap escapeByte = cs.flatMap escapeByte) :
    bs = cs := by
  have hne : ∀ b, escapeByte b ≠ [] := by
    intro b
    unfold escapeByte
    split <;> simp
  induction bs generalizing cs with
  | nil =>
      cases cs with
      | nil => rfl
      | cons c cs =>
          rw [List.flatMap_nil, List.flatMap_cons] at h
          exact absurd (List.append_eq_nil_iff.mp h.symm).1 (hne c)
  | cons b bs ih =>
      cases cs with
      | nil =>
          rw [List.flatMap_nil, List.flatMap_cons] at h
          exact absurd (List.append_eq_nil_iff.mp h).1 (hne b)
      | cons c cs =>
          rw [List.flatMap_cons, List.flatMap_cons] at h
          obtain ⟨hbc, hrest⟩ := escapeByte_append_inj h
          rw [hbc, ih hrest]

/-- Different texts are escaped differently. -/
theorem encodeURIComponent_inj {s t : String} :
    encodeURIComponent s = encodeURIComponent t ↔ s = t := by
  refine ⟨fun h => ?_, fun h => by rw [h]⟩
  have hbytes := Array.toList_inj.mp (escape_inj h)
  exact String.toByteArray_inj.mp (ByteArray.ext hbytes)

theorem colon_notMem_encode (s : String) : ':' ∉ encodeURIComponent s := by
  intro h
  obtain ⟨b, -, hb⟩ := List.mem_flatMap.mp h
  have hlt := b.toNat_lt
  by_cases hu : unreserved b = true
  · rw [escapeByte, if_pos hu, List.mem_singleton] at hb
    exact (unreserved_char hu).2.2 hb.symm
  · rw [escapeByte, if_neg hu] at hb
    simp only [List.mem_cons, List.not_mem_nil, or_false] at hb
    rcases hb with hb | hb | hb
    · cases hb
    · exact escapeDigit_ne_colon (by omega) hb.symm
    · exact escapeDigit_ne_colon (by omega) hb.symm

/-! ## Segments -/

/-- Segments with a colon between them. -/
def segments (l : List (List Char)) : List Char := [':'].intercalate l

theorem segments_inj {a b : List (List Char)} (ha : ∀ s ∈ a, ':' ∉ s) (hb : ∀ s ∈ b, ':' ∉ s)
    (hna : a ≠ []) (hnb : b ≠ []) (h : segments a = segments b) : a = b := by
  have hs := congrArg (List.splitOn ':') h
  rwa [segments, segments, List.splitOn_intercalate _ ha hna,
    List.splitOn_intercalate _ hb hnb] at hs

theorem segments_append {a b : List (List Char)} (ha : a ≠ []) (hb : b ≠ []) :
    segments (a ++ b) = segments a ++ ':' :: segments b := by
  induction a with
  | nil => exact absurd rfl ha
  | cons s a ih =>
      cases a with
      | nil =>
          obtain ⟨t, b', rfl⟩ := List.exists_cons_of_ne_nil hb
          simp [segments, List.intercalate_cons_cons, List.intercalate_singleton]
      | cons t a =>
          have ht := ih (List.cons_ne_nil t a)
          simp only [segments, List.cons_append, List.intercalate_cons_cons] at ht ⊢
          rw [ht]
          simp

/-- A text begins like some segments and a colon when its first segments are these. -/
theorem segments_colon_prefix {a b : List (List Char)} (ha : ∀ s ∈ a, ':' ∉ s)
    (hb : ∀ s ∈ b, ':' ∉ s) (hna : a ≠ []) (hnb : b ≠ []) :
    segments a ++ [':'] <+: segments b ↔ ∃ c, c ≠ [] ∧ b = a ++ c := by
  constructor
  · rintro ⟨r, hr⟩
    refine ⟨r.splitOn ':', List.splitOn_ne_nil _ _, ?_⟩
    have hsplit := congrArg (List.splitOn ':') hr
    rw [List.append_assoc, List.singleton_append, List.splitOn_append_cons_self, segments,
      segments, List.splitOn_intercalate _ ha hna, List.splitOn_intercalate _ hb hnb] at hsplit
    exact hsplit.symm
  · rintro ⟨c, hc, rfl⟩
    rw [segments_append hna hc]
    exact ⟨segments c, by simp⟩

/-! ## Records -/

/-- The account and the network a provider was made for. -/
structure Namespace where
  account : String
  network : String
  deriving DecidableEq

/-- What a record of a provider belongs to. -/
inductive Slot where
  | state (address privateStateId : String)
  | signing (address : String)
  deriving DecidableEq

/-- Private states and signing keys. -/
inductive Kind where
  | ps
  | sk
  deriving DecidableEq

/-- The segment of a kind of record. -/
def Kind.text : Kind → List Char
  | .ps => "ps".toList
  | .sk => "sk".toList

/-- `storagePrefix`, without its last colon; the default account has no segment. -/
def Namespace.storage (n : Namespace) (kind : Kind) : List (List Char) :=
  if n.account = "default" then
    ["midnight".toList, kind.text, encodeURIComponent n.network]
  else
    ["midnight".toList, kind.text ++ "-account".toList, encodeURIComponent n.account,
      encodeURIComponent n.network]

/-- `statePrefix` -/
def Namespace.statePrefix (n : Namespace) (address : String) : List Char :=
  segments (n.storage .ps ++ [encodeURIComponent address]) ++ [':']

/-- `signingPrefix` -/
def Namespace.signingPrefix (n : Namespace) : List Char :=
  segments (n.storage .sk) ++ [':']

/-- `stateKey` and `signingKey` -/
def Namespace.key (n : Namespace) : Slot → List Char
  | .state address id => n.statePrefix address ++ encodeURIComponent id
  | .signing address => n.signingPrefix ++ encodeURIComponent address

/-- The segments of a key. -/
def Namespace.path (n : Namespace) : Slot → List (List Char)
  | .state address id =>
      n.storage .ps ++ [encodeURIComponent address] ++ [encodeURIComponent id]
  | .signing address => n.storage .sk ++ [encodeURIComponent address]

theorem Kind.text_inj {k k' : Kind} (h : k.text = k'.text) : k = k' := by
  revert h
  cases k <;> cases k' <;> decide

/-- A kind of record is not spelled like one of an account. -/
theorem Kind.text_ne_account {k k' : Kind} : k.text ≠ k'.text ++ "-account".toList := by
  cases k <;> cases k' <;> decide

variable {n m : Namespace} {s t : Slot} {address : String}

theorem storage_ne_nil (kind : Kind) : n.storage kind ≠ [] := by
  unfold Namespace.storage
  split <;> simp

theorem key_eq_segments : n.key s = segments (n.path s) := by
  cases s with
  | state address id =>
      rw [Namespace.path, segments_append (by simp) (List.cons_ne_nil _ _)]
      simp [Namespace.key, Namespace.statePrefix, segments]
  | signing address =>
      rw [Namespace.path, segments_append (storage_ne_nil _) (List.cons_ne_nil _ _)]
      simp [Namespace.key, Namespace.signingPrefix, segments]

theorem path_ne_nil : n.path s ≠ [] := by
  cases s <;> simp [Namespace.path]

theorem storage_clean (kind : Kind) : ∀ seg ∈ n.storage kind, ':' ∉ seg := by
  intro seg hseg
  have hn := colon_notMem_encode n.network
  have ha := colon_notMem_encode n.account
  unfold Namespace.storage at hseg
  split at hseg
  · simp only [List.mem_cons, List.not_mem_nil, or_false] at hseg
    rcases hseg with rfl | rfl | rfl
    · decide
    · cases kind <;> decide
    · exact hn
  · simp only [List.mem_cons, List.not_mem_nil, or_false] at hseg
    rcases hseg with rfl | rfl | rfl | rfl
    · decide
    · cases kind <;> decide
    · exact ha
    · exact hn

theorem path_clean : ∀ seg ∈ n.path s, ':' ∉ seg := by
  intro seg hseg
  cases s with
  | state address id =>
      simp only [Namespace.path, List.mem_append, List.mem_singleton] at hseg
      rcases hseg with (hseg | rfl) | rfl
      · exact storage_clean .ps seg hseg
      · exact colon_notMem_encode _
      · exact colon_notMem_encode _
  | signing address =>
      simp only [Namespace.path, List.mem_append, List.mem_singleton] at hseg
      rcases hseg with hseg | rfl
      · exact storage_clean .sk seg hseg
      · exact colon_notMem_encode _

/-- The segments of a namespace say which it is, and which kind of record follows. -/
theorem storage_append_inj {kind kind' : Kind} {a b : List (List Char)}
    (h : n.storage kind ++ a = m.storage kind' ++ b) : n = m ∧ kind = kind' ∧ a = b := by
  obtain ⟨na, nn⟩ := n
  obtain ⟨ma, mn⟩ := m
  simp only [Namespace.storage] at h
  by_cases hn : na = "default"
  · by_cases hm : ma = "default"
    · rw [if_pos hn, if_pos hm] at h
      simp only [List.cons_append, List.nil_append, List.cons.injEq, true_and,
        encodeURIComponent_inj] at h
      obtain ⟨hkind, hnet, hab⟩ := h
      exact ⟨by rw [hn, hm, hnet], Kind.text_inj hkind, hab⟩
    · rw [if_pos hn, if_neg hm] at h
      exact absurd (List.cons.inj (List.cons.inj h).2).1 Kind.text_ne_account
  · by_cases hm : ma = "default"
    · rw [if_neg hn, if_pos hm] at h
      exact absurd (List.cons.inj (List.cons.inj h).2).1.symm Kind.text_ne_account
    · rw [if_neg hn, if_neg hm] at h
      simp only [List.cons_append, List.nil_append, List.cons.injEq, true_and,
        encodeURIComponent_inj, List.append_left_inj] at h
      obtain ⟨hkind, hacc, hnet, hab⟩ := h
      exact ⟨by rw [hacc, hnet], Kind.text_inj hkind, hab⟩

/-- **A key is the key of one record.** -/
theorem key_inj : n.key s = m.key t ↔ n = m ∧ s = t := by
  refine ⟨fun h => ?_, fun h => by rw [h.1, h.2]⟩
  rw [key_eq_segments, key_eq_segments] at h
  -- the keys are joined at a sign that no segment has, so their segments are equal
  have hp := segments_inj path_clean path_clean path_ne_nil path_ne_nil h
  cases s with
  | state a i =>
      cases t with
      | state b j =>
          simp only [Namespace.path, List.append_assoc] at hp
          obtain ⟨hnm, -, hrest⟩ := storage_append_inj hp
          simp only [List.cons_append, List.nil_append, List.cons.injEq, and_true,
            encodeURIComponent_inj] at hrest
          exact ⟨hnm, by rw [hrest.1, hrest.2]⟩
      | signing b =>
          simp only [Namespace.path, List.append_assoc] at hp
          -- a private state and a signing key are kept in stores of different names
          cases (storage_append_inj hp).2.1
  | signing a =>
      cases t with
      | state b j =>
          simp only [Namespace.path, List.append_assoc] at hp
          cases (storage_append_inj hp).2.1
      | signing b =>
          simp only [Namespace.path] at hp
          obtain ⟨hnm, -, hrest⟩ := storage_append_inj hp
          simp only [List.cons.injEq, and_true, encodeURIComponent_inj] at hrest
          exact ⟨hnm, by rw [hrest]⟩

/-- **The keys under a contract's prefix** are those of its private states. -/
theorem statePrefix_iff :
    n.statePrefix address <+: m.key t ↔ n = m ∧ ∃ id, t = .state address id := by
  have hclean : ∀ seg ∈ n.storage .ps ++ [encodeURIComponent address], ':' ∉ seg := by
    intro seg hseg
    rcases List.mem_append.mp hseg with hseg | hseg
    · exact storage_clean .ps seg hseg
    · rw [List.mem_singleton.mp hseg]
      exact colon_notMem_encode _
  rw [key_eq_segments, Namespace.statePrefix,
    segments_colon_prefix hclean path_clean (by simp) path_ne_nil]
  constructor
  · rintro ⟨c, hc, hp⟩
    cases t with
    | state b j =>
        simp only [Namespace.path, List.append_assoc] at hp
        obtain ⟨hnm, -, hrest⟩ := storage_append_inj hp
        simp only [List.cons_append, List.nil_append, List.cons.injEq,
          encodeURIComponent_inj] at hrest
        exact ⟨hnm.symm, j, by rw [hrest.1]⟩
    | signing b =>
        simp only [Namespace.path, List.append_assoc] at hp
        cases (storage_append_inj hp).2.1
  · rintro ⟨rfl, id, rfl⟩
    exact ⟨[encodeURIComponent id], List.cons_ne_nil _ _, rfl⟩

/-- **The keys under the prefix of the signing keys** are those of the signing keys. -/
theorem signingPrefix_iff :
    n.signingPrefix <+: m.key t ↔ n = m ∧ ∃ address, t = .signing address := by
  rw [key_eq_segments, Namespace.signingPrefix, segments_colon_prefix (storage_clean .sk)
    path_clean (storage_ne_nil _) path_ne_nil]
  constructor
  · rintro ⟨c, hc, hp⟩
    cases t with
    | state b j =>
        simp only [Namespace.path, List.append_assoc] at hp
        cases (storage_append_inj hp).2.1
    | signing b =>
        simp only [Namespace.path] at hp
        obtain ⟨hnm, -, -⟩ := storage_append_inj hp
        exact ⟨hnm.symm, b, rfl⟩
  · rintro ⟨rfl, b, rfl⟩
    exact ⟨[encodeURIComponent b], List.cons_ne_nil _ _, rfl⟩

end Line.Vault
