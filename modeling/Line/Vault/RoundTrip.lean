import Line.Vault.Codec

/-!
# What the decoder reads

Whatever tree the decoder is given, what it accepts is a value of the language within the
limits of the codec. So it is encoded again, and read back from that text: a vault that
was opened can be written, whoever wrote it.

The decoder's recursion is inverted once (`decode_some`); the invariants of what is read
(`decode_proper`, `decode_size`) follow the three forms found there. The tree need not be one
that the encoder prints: its objects may list their members in any order, and a text may imitate
the marks of the codec. An object is built by defining one member after the other, so its members
come in the order of the language whatever the order in the text was (`define_ordered`).
-/

namespace Line.Vault

open Checked

/-! ## One node -/

/-- A value that is read or written as one node. -/
def Value.Leaf : Value → Prop
  | .array _ | .object _ | .foreign _ => False
  | .number n => ∃ q, n = .finite q
  | _ => True

/-- **What the decoder accepts**: a leaf, or an array or object of what is below the node. -/
theorem decode_some {j : Json} {depth count n : ℕ} {value : Value}
    (h : decode j depth count = some (value, n)) :
    (count + 1 ≤ MAX_NODES ∧ depth ≤ MAX_DEPTH) ∧
      (value.Leaf ∧ n = count + 1 ∨
        (∃ children items, sizeOf children < sizeOf j ∧ value = .array items ∧
          decodeItems children (depth + 1) (count + 1) = some (items, n)) ∨
        ∃ children entries, sizeOf children < sizeOf j ∧ value = .object entries ∧
          decodeEntries children [] (depth + 1) (count + 1) = some (entries, n)) := by
  unfold decode at h
  split at h
  · split at h
    · cases h
    · next hfit =>
        refine ⟨by omega, ?_⟩
        -- each kind of node is tried in turn, and a test that passes leaves a leaf
        have hleaf : ∀ {c : Prop} [Decidable c] {v : Value} {rest : Option (Value × ℕ)},
            (if c then some (v, count + 1) else rest) = some (value, n) → v.Leaf →
            value.Leaf ∧ n = count + 1 ∨ rest = some (value, n) := by
          intro c _ v rest heq hv
          split at heq
          · cases heq
            exact .inl ⟨hv, rfl⟩
          · exact .inr heq
        split at h
        · rcases hleaf h trivial with hl | h
          · exact .inl hl
          · rcases hleaf h trivial with hl | h
            · exact .inl hl
            · cases h
        · rcases hleaf h trivial with hl | h
          · exact .inl hl
          · rcases hleaf h trivial with hl | h
            · exact .inl hl
            · split at h
              · obtain ⟨_, -, heq⟩ := Option.map_eq_some_iff.mp h
                cases heq
                exact .inl ⟨trivial, rfl⟩
              · split at h
                · obtain ⟨_, -, heq⟩ := Option.map_eq_some_iff.mp h
                  cases heq
                  exact .inl ⟨trivial, rfl⟩
                · cases h
        · rcases hleaf h trivial with hl | h
          · exact .inl hl
          · cases h
        · rcases hleaf h ⟨_, rfl⟩ with hl | h
          · exact .inl hl
          · cases h
        · rcases hleaf h trivial with hl | h
          · exact .inl hl
          · cases h
        · next tag children =>
            have hsize : sizeOf children < sizeOf (Json.array [.string tag, .array children]) := by
              simp only [Json.array.sizeOf_spec, List.cons.sizeOf_spec]
              omega
            split at h
            · obtain ⟨⟨items, m⟩, hitems, heq⟩ := Option.map_eq_some_iff.mp h
              cases heq
              exact .inr (.inl ⟨children, items, hsize, rfl, hitems⟩)
            · split at h
              · obtain ⟨⟨entries, m⟩, hentries, heq⟩ := Option.map_eq_some_iff.mp h
                cases heq
                exact .inr (.inr ⟨children, entries, hsize, rfl, hentries⟩)
              · cases h
        · cases h
  · cases h

/-- The children of an array node, one by one. -/
theorem decodeItems_cons {child : Json} {children : List Json} {depth count n : ℕ}
    {items : List Value} (h : decodeItems (child :: children) depth count = some (items, n)) :
    ∃ value rest m, decode child depth count = some (value, m) ∧
      decodeItems children depth m = some (rest, n) ∧ items = value :: rest := by
  simp only [decodeItems, Option.bind_eq_bind, Option.bind_eq_some_iff, Prod.exists,
    Option.pure_def, Option.some.injEq, Prod.mk.injEq] at h
  obtain ⟨value, m, hvalue, rest, k, hrest, rfl, rfl⟩ := h
  exact ⟨value, rest, m, hvalue, hrest, rfl⟩

/-- The children of an object node, one by one; a key is not read twice. -/
theorem decodeEntries_cons {child : Json} {children : List Json}
    {result entries : List (String × Value)} {depth count n : ℕ}
    (h : decodeEntries (child :: children) result depth count = some (entries, n)) :
    ∃ key node value m, child = .array [.string key, node] ∧ (∀ e ∈ result, e.1 ≠ key) ∧
      decode node depth count = some (value, m) ∧
      decodeEntries children (define result key value) depth m = some (entries, n) := by
  unfold decodeEntries at h
  split at h
  · next heq => cases heq
  · next key node rest heq =>
      cases heq
      split at h
      · cases h
      · next hnew =>
          simp only [Option.bind_eq_bind, Option.bind_eq_some_iff, Prod.exists] at h
          obtain ⟨value, m, hvalue, hrest⟩ := h
          refine ⟨key, node, value, m, rfl, fun e he heq => ?_, hvalue, hrest⟩
          exact hnew (List.any_eq_true.mpr ⟨e, he, decide_eq_true heq⟩)
  · cases h

/-! ## Values of the language -/

theorem arrayIndex_some {key : String} {i : ℕ} (h : arrayIndex key = some i) :
    Decimal.canonical key.toList = true ∧ Decimal.read key.toList = i := by
  unfold arrayIndex at h
  split at h
  · next hc =>
      rw [Bool.and_eq_true] at hc
      exact ⟨hc.1, Option.some.inj h⟩
  · cases h

/-- Different keys are in one order or the other. -/
theorem before_total {a b : String} (hne : a ≠ b) (h : before a b = false) : before b a = true := by
  unfold before at h ⊢
  cases ha : arrayIndex a with
  | none =>
      cases hb : arrayIndex b with
      | none => rfl
      | some j => rfl
  | some i =>
      cases hb : arrayIndex b with
      | none =>
          rw [ha, hb] at h
          cases h
      | some j =>
          rw [ha, hb] at h
          have hij : i ≠ j := by
            rintro rfl
            obtain ⟨hca, hra⟩ := arrayIndex_some ha
            obtain ⟨hcb, hrb⟩ := arrayIndex_some hb
            exact hne (String.toList_inj.mp (Decimal.read_inj hca hcb (hra.trans hrb.symm)))
          have hle := of_decide_eq_false h
          exact decide_eq_true (by omega)

theorem before_trans {a b c : String} (hab : before a b = true) (hbc : before b c = true) :
    before a c = true := by
  unfold before at hab hbc ⊢
  cases ha : arrayIndex a <;> cases hb : arrayIndex b <;> cases hc : arrayIndex c <;>
    simp only [ha, hb, hc, decide_eq_true_eq, Bool.false_eq_true] at hab hbc ⊢
  exact hab.trans hbc

/-- A new property takes its place among the others. -/
theorem define_ordered {entries : List (String × Value)} {key : String} {value : Value}
    (h : (entries.map Prod.fst).Pairwise fun a b => a ≠ b ∧ before a b = true)
    (hnew : ∀ e ∈ entries, e.1 ≠ key) :
    ((define entries key value).map Prod.fst).Pairwise fun a b => a ≠ b ∧ before a b = true := by
  rw [List.pairwise_map] at h ⊢
  have hsplit := List.takeWhile_append_dropWhile (p := fun e => before e.1 key) (l := entries)
  have htake : ∀ e ∈ entries.takeWhile (fun e => before e.1 key), before e.1 key = true :=
    fun e he => List.mem_takeWhile_imp (p := fun e : String × Value => before e.1 key) he
  have hmem : ∀ e, e ∈ entries.takeWhile (fun e => before e.1 key) ∨
      e ∈ entries.dropWhile (fun e => before e.1 key) → e ∈ entries := by
    intro e he
    rw [← hsplit]
    exact List.mem_append.mpr he
  have hnot := List.head?_dropWhile_not (fun e => before e.1 key) entries
  rw [← hsplit, List.pairwise_append] at h
  obtain ⟨h₁, h₂, h₁₂⟩ := h
  rw [define, List.pairwise_append, List.pairwise_cons]
  refine ⟨h₁, ⟨fun e he => ⟨(hnew e (hmem e (.inr he))).symm, ?_⟩, h₂⟩, fun e he e' he' => ?_⟩
  · -- the first of the rest does not come before the key, so all of the rest come after it
    cases hrest : entries.dropWhile (fun e => before e.1 key) with
    | nil =>
        rw [hrest] at he
        cases he
    | cons d rest =>
        rw [hrest] at he h₂ hnot
        have hd : d ∈ entries := hmem d (.inr (hrest ▸ List.mem_cons_self))
        have hkd : before key d.1 = true :=
          before_total (hnew d hd) (by simpa using hnot)
        rcases List.mem_cons.mp he with rfl | hin
        · exact hkd
        · exact before_trans hkd (List.rel_of_pairwise_cons h₂ hin).2
  · rcases List.mem_cons.mp he' with rfl | hin
    · exact ⟨hnew e (hmem e (.inl he)), htake e he⟩
    · exact h₁₂ e he e' hin

theorem mem_define {entries : List (String × Value)} {key : String} {value : Value}
    {e : String × Value} (h : e ∈ define entries key value) : e ∈ entries ∨ e = (key, value) := by
  rcases List.mem_append.mp h with htake | hrest
  · exact .inl ((List.takeWhile_sublist _).subset htake)
  · rcases List.mem_cons.mp hrest with rfl | hdrop
    · exact .inr rfl
    · exact .inl ((List.dropWhile_sublist _).subset hdrop)

theorem properItems_iff {items : List Value} : properItems items ↔ ∀ v ∈ items, v.Proper := by
  induction items with
  | nil => simp [properItems]
  | cons v items ih => rw [properItems, ih, List.forall_mem_cons]

theorem properEntries_iff {entries : List (String × Value)} :
    properEntries entries ↔ ∀ e ∈ entries, e.2.Proper := by
  induction entries with
  | nil => simp [properEntries]
  | cons e entries ih => rw [properEntries, ih, List.forall_mem_cons]

mutual

/-- **What the decoder reads is a value of the language**, whatever it was given. -/
theorem decode_proper {j : Json} {depth count n : ℕ} {value : Value}
    (h : decode j depth count = some (value, n)) : value.Proper := by
  obtain ⟨-, ⟨hleaf, -⟩ | ⟨children, items, hsize, rfl, hitems⟩ |
    ⟨children, entries, hsize, rfl, hentries⟩⟩ := decode_some h
  · cases value <;> first | exact trivial | cases hleaf
  · exact decodeItems_proper hitems
  · have hempty : (Value.object []).Proper := ⟨.nil, by simp [properEntries]⟩
    exact decodeEntries_proper hempty hentries
termination_by sizeOf j

theorem decodeItems_proper {children : List Json} {depth count n : ℕ} {items : List Value}
    (h : decodeItems children depth count = some (items, n)) : properItems items := by
  cases children with
  | nil =>
      cases h
      exact trivial
  | cons child children =>
      obtain ⟨value, rest, m, hvalue, hrest, rfl⟩ := decodeItems_cons h
      exact ⟨decode_proper hvalue, decodeItems_proper hrest⟩
termination_by sizeOf children

theorem decodeEntries_proper {children : List Json} {result entries : List (String × Value)}
    {depth count n : ℕ} (hr : (Value.object result).Proper)
    (h : decodeEntries children result depth count = some (entries, n)) :
    (Value.object entries).Proper := by
  cases children with
  | nil =>
      cases h
      exact hr
  | cons child children =>
      obtain ⟨key, node, value, m, rfl, hnew, hvalue, hrest⟩ := decodeEntries_cons h
      refine decodeEntries_proper ⟨define_ordered hr.1 hnew, ?_⟩ hrest
      rw [properEntries_iff]
      intro e he
      rcases mem_define he with he | rfl
      · exact properEntries_iff.mp hr.2 e he
      · exact decode_proper hvalue
termination_by sizeOf children

end

/-! ## Limits -/

theorem cleanEntries_iff {entries : List (String × Value)} :
    cleanEntries entries ↔ ∀ e ∈ entries, e.2.Clean := by
  induction entries with
  | nil => simp [cleanEntries]
  | cons e entries ih => rw [cleanEntries, ih, List.forall_mem_cons]

/-- A new property adds its nodes, and its depth. -/
theorem define_size (entries : List (String × Value)) (key : String) (value : Value) :
    nodesEntries (define entries key value) = nodesEntries entries + value.nodes ∧
      levelsEntries (define entries key value)
        = max (levelsEntries entries) (value.height + 1) := by
  have hsplit := List.takeWhile_append_dropWhile (p := fun e => before e.1 key) (l := entries)
  have hnodes := congrArg nodesEntries hsplit
  have hlevels := congrArg levelsEntries hsplit
  rw [nodesEntries_append] at hnodes
  rw [levelsEntries_append] at hlevels
  rw [define, nodesEntries_append, levelsEntries_append, nodesEntries, levelsEntries]
  omega

mutual

/-- **What the decoder reads is within the limits**, and it counts the nodes as the encoder does. -/
theorem decode_size {j : Json} {depth count n : ℕ} {value : Value}
    (h : decode j depth count = some (value, n)) : value.Clean ∧ n = count + value.nodes ∧
      n ≤ MAX_NODES ∧ depth + value.height ≤ MAX_DEPTH := by
  obtain ⟨⟨hnodes, hdepth⟩, ⟨hleaf, rfl⟩ | ⟨children, items, hsize, rfl, hitems⟩ |
    ⟨children, entries, hsize, rfl, hentries⟩⟩ := decode_some h
  · have hclean : value.Clean ∧ value.nodes = 1 ∧ value.height = 0 := by
      cases value <;> first | exact ⟨trivial, rfl, rfl⟩ | exact ⟨hleaf, rfl, rfl⟩ | cases hleaf
    obtain ⟨h1, h2, h3⟩ := hclean
    exact ⟨h1, by omega, hnodes, by omega⟩
  · obtain ⟨h1, h2, h3, h4⟩ := decodeItems_size hnodes hdepth hitems
    refine ⟨h1, ?_, h3, h4⟩
    rw [Value.nodes]
    omega
  · obtain ⟨h1, h2, h3, h4⟩ := decodeEntries_size hnodes
      (by rw [levelsEntries]; omega) (by simp [cleanEntries]) hentries
    refine ⟨h1, ?_, h3, h4⟩
    rw [nodesEntries] at h2
    rw [Value.nodes]
    omega
termination_by sizeOf j

theorem decodeItems_size {children : List Json} {depth count n : ℕ} {items : List Value}
    (hcount : count ≤ MAX_NODES) (hdepth : depth ≤ MAX_DEPTH)
    (h : decodeItems children (depth + 1) count = some (items, n)) : cleanItems items ∧
      n = count + nodesItems items ∧ n ≤ MAX_NODES ∧ depth + levels items ≤ MAX_DEPTH := by
  cases children with
  | nil =>
      cases h
      rw [nodesItems, levels]
      exact ⟨trivial, rfl, hcount, hdepth⟩
  | cons child children =>
      obtain ⟨value, rest, m, hvalue, hrest, rfl⟩ := decodeItems_cons h
      obtain ⟨h1, h2, h3, h4⟩ := decode_size hvalue
      obtain ⟨h5, h6, h7, h8⟩ := decodeItems_size h3 hdepth hrest
      rw [nodesItems, levels]
      exact ⟨⟨h1, h5⟩, by omega, h7, by omega⟩
termination_by sizeOf children

theorem decodeEntries_size {children : List Json} {result entries : List (String × Value)}
    {depth count n : ℕ} (hcount : count ≤ MAX_NODES)
    (hdepth : depth + levelsEntries result ≤ MAX_DEPTH) (hclean : cleanEntries result)
    (h : decodeEntries children result (depth + 1) count = some (entries, n)) :
    cleanEntries entries ∧ n + nodesEntries result = count + nodesEntries entries ∧
      n ≤ MAX_NODES ∧ depth + levelsEntries entries ≤ MAX_DEPTH := by
  cases children with
  | nil =>
      cases h
      exact ⟨hclean, rfl, hcount, hdepth⟩
  | cons child children =>
      obtain ⟨key, node, value, m, rfl, hnew, hvalue, hrest⟩ := decodeEntries_cons h
      obtain ⟨h1, h2, h3, h4⟩ := decode_size hvalue
      obtain ⟨hnodes, hlevels⟩ := define_size result key value
      have hclean' : cleanEntries (define result key value) := by
        rw [cleanEntries_iff]
        intro e he
        rcases mem_define he with he | rfl
        · exact cleanEntries_iff.mp hclean e he
        · exact h1
      obtain ⟨h5, h6, h7, h8⟩ := decodeEntries_size h3 (by omega) hclean' hrest
      exact ⟨h5, by omega, h7, h8⟩
termination_by sizeOf children

end

/-! ## Reading back -/

/-- A text under the codec's own header; any other text is read as ordinary JSON. -/
def Headed (text : Json.Text) : Prop :=
  ∃ entries, text = some (.object entries) ∧ entries.lookup "format" = some (.string FORMAT)

/-- Under the header, a text that is read is the root's node. -/
theorem decodeVaultJson_headed {text : Json.Text} {value : Value} (ht : Headed text)
    (h : decodeVaultJson text = .ok value) :
    ∃ payload n, decode payload 0 0 = some (value, n) := by
  obtain ⟨entries, rfl, hformat⟩ := ht
  have hprefix : "line:vault-json/".isPrefixOf FORMAT = true := by decide +kernel
  simp only [decodeVaultJson, hformat, hprefix, Bool.not_true, Bool.false_eq_true, ↓reduceIte,
    ne_eq, not_true_eq_false, false_or] at h
  split at h
  · next payload hpayload =>
      split at h
      · cases h
      · split at h
        · next value' n hdecode =>
            cases h
            exact ⟨payload, n, hdecode⟩
        · cases h
  · cases h

/-- What is read under the header fits the limits of the encoder. -/
theorem decodeVaultJson_fits {text : Json.Text} {value : Value} (ht : Headed text)
    (h : decodeVaultJson text = .ok value) : value.Proper ∧ value.Fits := by
  obtain ⟨payload, n, hdecode⟩ := decodeVaultJson_headed ht h
  obtain ⟨hclean, hnodes, hlimit, hheight⟩ := decode_size hdecode
  exact ⟨decode_proper hdecode, hclean, by omega, by omega⟩

/-- **The codec loses nothing**, in either direction: what is encoded is read back as it was,
so that no two values share a text, and what is read under the header can be written and
is read back from there. -/
theorem codec_round_trip :
    (∀ (value : Data) (text : Json.Text), encodeVaultJson value.val = .ok text →
      Headed text ∧ decodeVaultJson text = .ok value.val) ∧
    (∀ (a b : Data) (text : Json.Text), encodeVaultJson a.val = .ok text →
      encodeVaultJson b.val = .ok text → a = b) ∧
    ∀ (text : Json.Text) (value : Value), Headed text → decodeVaultJson text = .ok value →
      value.Proper ∧ ∃ text', encodeVaultJson value = .ok text' ∧
        decodeVaultJson text' = .ok value := by
  refine ⟨fun value text h => ⟨?_, decodeVaultJson_encode value.property h⟩,
    fun a b text ha hb => Subtype.ext (encodeVaultJson_inj a.property b.property ha hb), ?_⟩
  · simp only [encodeVaultJson, bind_ok_iff, pure_ok_iff, Prod.exists] at h
    obtain ⟨payload, n, -, rfl⟩ := h
    exact ⟨_, rfl, rfl⟩
  · intro text value ht h
    obtain ⟨hproper, hfits⟩ := decodeVaultJson_fits ht h
    obtain ⟨text', htext'⟩ := encodeVaultJson_ok_iff.mpr hfits
    exact ⟨hproper, text', htext', decodeVaultJson_encode hproper htext'⟩

/-- A record that looks like a text of the codec itself, with a key that objects treat
specially, and a number with a sign that equality does not see. -/
def imitation : Value :=
  .object [("format", .string FORMAT), ("payload", .array [.string "bigint", .string "12"]),
    ("__proto__", .array [.minusZero, .undefined, .bytes [0, 255], .bigint (-7)])]

theorem imitation_proper : imitation.Proper := by
  have hbefore : before "format" "payload" = true ∧ before "format" "__proto__" = true ∧
      before "payload" "__proto__" = true := by decide
  simp [imitation, Value.Proper, properEntries, properItems, hbefore]

/-- The record is taken for what it is, however often it is encoded. -/
theorem codec_round_trip_imitation :
    ∃ text, encodeVaultJson imitation = .ok text ∧ decodeVaultJson text = .ok imitation ∧
      ∃ text', encodeVaultJson imitation = .ok text' ∧
        decodeVaultJson text' = .ok imitation := by
  have hfits : imitation.Fits := by
    simp [imitation, Value.Fits, Value.Clean, cleanEntries, cleanItems, Value.height, levelsEntries,
      levels, Value.nodes, nodesEntries, nodesItems, MAX_DEPTH, MAX_NODES]
  obtain ⟨text, htext⟩ := encodeVaultJson_ok_iff.mpr hfits
  obtain ⟨hheaded, hread⟩ := codec_round_trip.1 ⟨imitation, imitation_proper⟩ text htext
  exact ⟨text, htext, hread, (codec_round_trip.2.2 text imitation hheaded hread).2⟩

end Line.Vault
