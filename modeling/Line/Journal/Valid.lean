import Line.Journal.Lease

/-!
# What the validator accepts

`validateRecord` reads a journal back from a value, check by check. A journal that the
lease writes is `Valid`: each operation is in normal form, its fields fit its status,
sequence numbers rise, at most one operation is pending and the latest confirmed one has
its snapshots. `validateRecord_of_valid` says that the value of such a journal is accepted
and read as what it was.

Normalizing is idempotent, so what a caller handed in passes the same checks when it is
read back.
-/

namespace Line.Journal

open Vault Checked

/-! ## What the checks let through -/

@[simp] theorem require_ok_iff {ok : Bool} {e : Error} {u : Unit} :
    require ok e = .ok u ↔ ok = true := by
  cases ok <;> simp [require]

@[simp] theorem map_ok_iff {α β : Type} {x : Result α} {f : α → β} {b : β} :
    x.map f = .ok b ↔ ∃ a, x = .ok a ∧ f a = b := by
  cases x <;> simp [Except.map]

@[simp] theorem toOption_eq_some_iff {α : Type} {x : Result α} {a : α} :
    x.toOption = some a ↔ x = .ok a := by
  cases x <;> simp [Except.toOption]

/-! ## Normal forms -/

theorem toLower_spec {c : Char} (h : isHexDigit c = true) :
    isHexDigit c.toLower = true ∧ c.toLower.toLower = c.toLower := by
  have hall : ("0123456789abcdefABCDEF".toList.all fun x =>
      isHexDigit x.toLower && x.toLower.toLower == x.toLower) = true := by decide
  have hc := List.all_eq_true.mp hall c (List.contains_iff_mem.mp h)
  rwa [Bool.and_eq_true, beq_iff_eq] at hc

/-- Hexadecimal digits do not start with `0x`. -/
theorem strip_digits {cs : List Char} (h : cs.all isHexDigit = true) : strip cs = cs := by
  unfold strip
  split
  · have hx : isHexDigit 'x' = false := by decide
    simp [hx] at h
  · rfl

/-- A word in normal form. -/
def Word (s : String) : Prop := ∀ label, hex (.string s) label = .ok s

theorem word_of_hex {value : Value} {label s : String} (h : hex value label = .ok s) : Word s := by
  intro label'
  unfold hex at h
  split at h
  · next t =>
      split at h
      · next hd =>
          obtain ⟨hlen, hall⟩ := hd
          cases h
          -- what was accepted is hexadecimal in lower case
          have hall' : ((strip t.toList).map Char.toLower).all isHexDigit = true := by
            rw [List.all_map, List.all_eq_true]
            intro c hc
            exact (toLower_spec (List.all_eq_true.mp hall c hc)).1
          -- and stays as it is when it is lowered again
          have hsame : ((strip t.toList).map Char.toLower).map Char.toLower
              = (strip t.toList).map Char.toLower := by
            rw [List.map_map]
            refine List.map_congr_left fun c hc => ?_
            exact (toLower_spec (List.all_eq_true.mp hall c hc)).2
          simp only [hex, String.toList_ofList, strip_digits hall', List.length_map, hlen, hall',
            and_self, ↓reduceIte, hsame]
      · cases h
  · cases h

/-- A commitment in normal form: none, or a word. -/
def Commitment (s : Option String) : Prop := ∀ w ∈ s, Word w

theorem commitment_of_ok {value : Value} {label : String} {s : Option String}
    (h : commitment value label = .ok s) : Commitment s := by
  unfold commitment at h
  split at h
  · cases h
    intro w hw
    cases hw
  · simp only [map_ok_iff] at h
    obtain ⟨w, hw, rfl⟩ := h
    intro x hx
    cases hx
    exact word_of_hex hw

theorem Commitment.normal {s : Option String} (h : Commitment s) (label : String) :
    commitment (nullable s) label = .ok s := by
  cases s with
  | none => rfl
  | some w => simp [commitment, nullable, h w rfl label]

/-- A clone is the value itself, if the value fits. -/
theorem clone_ok_iff {v w : Value} (hv : v.Proper) : clone v = .ok w ↔ v = w ∧ v.Fits := by
  simp only [clone, bind_ok_iff, ← encodeVaultJson_ok_iff]
  constructor
  · rintro ⟨text, ht, hw⟩
    rw [decodeVaultJson_encode hv ht] at hw
    exact ⟨Except.ok.inj hw, text, ht⟩
  · rintro ⟨rfl, text, ht⟩
    exact ⟨text, ht, decodeVaultJson_encode hv ht⟩

theorem sameText_self {v : Value} (h : v.Fits) : sameText v v = .ok true := by
  obtain ⟨text, ht⟩ := encodeVaultJson_ok_iff.mpr h
  simp [sameText, ht]

/-- Values with the same text are the same. -/
theorem eq_of_sameText {v w : Value} (hv : v.Proper) (hw : w.Proper)
    (h : sameText v w = .ok true) : v = w := by
  simp only [sameText, bind_ok_iff, pure_ok_iff, decide_eq_true_eq] at h
  obtain ⟨a, ha, b, hb, rfl⟩ := h
  exact encodeVaultJson_inj hv hw ha hb

/-! ## Effects -/

/-- The words of an effect are in normal form. -/
def PublicEffect.Normal : PublicEffect → Prop
  | noteCompensationAllocated refundCommitment _ lineCommitment =>
    Word refundCommitment ∧ Commitment lineCommitment
  | noteRefundAcknowledged refundCommitment paymentNullifier =>
    Word refundCommitment ∧ Word paymentNullifier
  | _ => True

structure JournalExpectedEffect.Normal (e : JournalExpectedEffect) : Prop where
  target : Word e.targetCommitment
  domain : Word e.contractDomain
  generation : validGeneration e.lineGeneration = true
  details : e.effect.Normal

/-- The details that are read under a name make an effect of that name, in normal form. -/
theorem normalizeDetails_normal {circuit name : String} {value : Value} {e : PublicEffect}
    (hadm : admitted circuit name = true) (h : normalizeDetails name value = .ok e) :
    e.Normal ∧ e.name = name ∧ e.circuit.name = circuit := by
  have hcase : (circuit = "postQuote" ∧ name = "quote-present"
      ∨ circuit = "redeemDraw" ∧ name = "note-redeemed")
      ∨ circuit = "cancelOrExpireNote" ∧ (name = "note-cancelled"
        ∨ name = "note-compensation-allocated" ∨ name = "note-refund-acknowledged") := by
    simpa [Journal.admitted] using hadm
  rcases hcase with (⟨rfl, rfl⟩ | ⟨rfl, rfl⟩) | ⟨rfl, rfl | rfl | rfl⟩
  · cases h
    exact ⟨trivial, rfl, rfl⟩
  · cases h
    exact ⟨trivial, rfl, rfl⟩
  · cases h
    exact ⟨trivial, rfl, rfl⟩
  · simp only [normalizeDetails, String.reduceEq, ↓reduceIte, bind_ok_iff, pure_ok_iff] at h
    obtain ⟨r, hr, b, -, l, hl, rfl⟩ := h
    exact ⟨⟨word_of_hex hr, commitment_of_ok hl⟩, rfl, rfl⟩
  · simp only [normalizeDetails, String.reduceEq, ↓reduceIte, bind_ok_iff, pure_ok_iff] at h
    obtain ⟨r, hr, b, -, _, -, p, hp, rfl⟩ := h
    exact ⟨⟨word_of_hex hr, word_of_hex hp⟩, rfl, rfl⟩

theorem normalizeEffect_normal {value : Value} {e : JournalExpectedEffect}
    (h : normalizeEffect value = .ok e) : e.Normal := by
  unfold normalizeEffect at h
  split at h
  · simp only [bind_ok_iff, require_ok_iff, pure_ok_iff, Bool.and_eq_true, exists_const] at h
    obtain ⟨⟨hadm, hgen⟩, target, ht, domain, hd, details, hdet, rfl⟩ := h
    exact ⟨word_of_hex ht, word_of_hex hd, hgen, (normalizeDetails_normal hadm hdet).1⟩
  · cases h

/-- **An effect in normal form is read back as it is.** -/
theorem JournalExpectedEffect.Normal.normalizeEffect {e : JournalExpectedEffect} (h : e.Normal) :
    normalizeEffect e.toValue = .ok e := by
  obtain ⟨target, domain, generation, effect⟩ := e
  obtain ⟨ht, hd, hg, hdet⟩ := h
  cases effect with
  | noteCompensationAllocated r b l =>
      simp [Journal.normalizeEffect, toValue, Value.get, List.lookup_cons, PublicEffect.details,
        show validGeneration generation = true from hg, admitted, ht _, hd _, normalizeDetails,
        PublicEffect.name, PublicEffect.circuit, OperationKind.name, hdet.1 _, hdet.2.normal,
        boolean]
  | noteRefundAcknowledged r p =>
      simp [Journal.normalizeEffect, toValue, Value.get, List.lookup_cons, PublicEffect.details,
        show validGeneration generation = true from hg, admitted, ht _, hd _, normalizeDetails,
        PublicEffect.name, PublicEffect.circuit, OperationKind.name, hdet.1 _, hdet.2 _, boolean]
  | quotePresent | noteRedeemed | noteCancelled =>
      simp [Journal.normalizeEffect, toValue, Value.get, List.lookup_cons, PublicEffect.details,
        show validGeneration generation = true from hg, admitted, ht _, hd _, normalizeDetails,
        PublicEffect.name, PublicEffect.circuit, OperationKind.name]

/-! ## Shapes -/

/-- The keys that the journal writes are in property order. -/
theorem ordered_keys {keys : List String}
    (h : keys.Pairwise (fun a b => a ≠ b) ∧ keys.all (fun k => arrayIndex k = none) = true) :
    keys.Pairwise fun a b => a ≠ b ∧ before a b = true := by
  refine h.1.imp_of_mem fun {a b} ha hb hne => ⟨hne, ?_⟩
  have hall := List.all_eq_true.mp h.2
  have h1 := of_decide_eq_true (hall a ha)
  have h2 := of_decide_eq_true (hall b hb)
  rw [before, h1, h2]

theorem nullable_shape (s : Option String) :
    (nullable s).Proper ∧ (nullable s).Clean ∧
      (nullable s).nodes = 1 ∧ (nullable s).height = 0 := by
  cases s <;> exact ⟨trivial, trivial, rfl, rfl⟩

theorem effect_keys : ["circuit", "targetCommitment", "contractDomain", "lineGeneration", "effect",
    "refundCommitment", "cashRefundOwed", "lineCommitment", "paymentNullifier"].Pairwise
      fun a b => a ≠ b ∧ before a b = true :=
  ordered_keys (by decide)

/-- An effect is a flat object of at most nine nodes. -/
theorem JournalExpectedEffect.shape (e : JournalExpectedEffect) :
    e.toValue.Proper ∧ e.toValue.Clean ∧ e.toValue.nodes ≤ 9 ∧ e.toValue.height = 1 := by
  obtain ⟨target, domain, generation, effect⟩ := e
  -- the properties that are there are a sublist of the four and five that may be
  cases effect with
  | noteCompensationAllocated r b l =>
      obtain ⟨h1, h2, h3, h4⟩ := nullable_shape l
      refine ⟨⟨effect_keys.sublist ?_, ?_⟩, ?_, ?_, ?_⟩
      · exact List.isSublist_iff_sublist.mp rfl
      · simpa [properEntries, PublicEffect.details, Value.Proper] using h1
      · simpa [toValue, Value.Clean, cleanEntries, PublicEffect.details] using h2
      · simp [toValue, Value.nodes, nodesEntries, PublicEffect.details, h3]
      · simp [toValue, Value.height, levelsEntries, PublicEffect.details, h4]
  | noteRefundAcknowledged r p =>
      refine ⟨⟨effect_keys.sublist ?_, ?_⟩, ?_, ?_, ?_⟩
      · exact List.isSublist_iff_sublist.mp rfl
      · simp [properEntries, PublicEffect.details, Value.Proper]
      · simp [toValue, Value.Clean, cleanEntries, PublicEffect.details]
      · simp [toValue, Value.nodes, nodesEntries, PublicEffect.details]
      · simp [toValue, Value.height, levelsEntries, PublicEffect.details]
  | quotePresent | noteRedeemed | noteCancelled =>
      refine ⟨⟨effect_keys.sublist ?_, ?_⟩, ?_, ?_, ?_⟩
      · exact List.isSublist_iff_sublist.mp rfl
      · simp [properEntries, PublicEffect.details, Value.Proper]
      · simp [toValue, Value.Clean, cleanEntries, PublicEffect.details]
      · simp [toValue, Value.nodes, nodesEntries, PublicEffect.details]
      · simp [toValue, Value.height, levelsEntries, PublicEffect.details]

/-! ## Intents -/

theorem kindOf_name (kind : OperationKind) : kindOf (.string kind.name) = some kind := by
  cases kind <;> rfl

/-- A snapshot that the codec carries unchanged. -/
def Snapshot (v : Value) : Prop := v.Proper ∧ v.Fits

theorem Snapshot.clone {v : Value} (h : Snapshot v) : clone v = .ok v :=
  (clone_ok_iff h.1).mpr ⟨rfl, h.2⟩

theorem snapshot_null : Snapshot .null := by
  refine ⟨trivial, trivial, ?_, ?_⟩
  · exact Nat.zero_le _
  · simp [Value.nodes, MAX_NODES]

/-- Transitions of the book need a candidate of their own. -/
def distinctCandidate (p : PreparedOperation) : Bool :=
  !([.openLine, .draw, .acknowledgeRepayment].contains p.kind) ||
    p.candidateCommitment.isSome && p.candidateCommitment != p.beforeCommitment

/-- An intent as `normalizePrepared` leaves it. -/
structure PreparedOperation.Normal (p : PreparedOperation) : Prop where
  id : identifier 160 p.id = true
  fingerprint : Word p.fingerprint
  before : Commitment p.beforeCommitment
  candidate : Commitment p.candidateCommitment
  beforeSnapshot : Snapshot p.beforeSnapshot
  candidateSnapshot : Snapshot p.candidateSnapshot
  effect : ∀ e ∈ p.expectedEffect, e.Normal ∧ e.effect.circuit = p.kind
  binds : bindsCandidate p = .ok ()
  distinct : distinctCandidate p = true

/-- Dropping the snapshots of an intent keeps it in normal form. -/
theorem PreparedOperation.Normal.forget {p : PreparedOperation} (h : p.Normal) :
    p.forget.Normal :=
  ⟨h.id, h.fingerprint, h.before, h.candidate, snapshot_null, snapshot_null, h.effect, h.binds,
    h.distinct⟩

/-- The properties of a proper object are proper. -/
theorem proper_get {v : Value} (h : v.Proper) (key : String) : (v.get key).Proper := by
  cases v with
  | object entries =>
      have hall := h.2
      have hlook : ∀ es : List (String × Value), properEntries es →
          ((es.lookup key).getD .undefined).Proper := by
        intro es hes
        induction es with
        | nil => exact trivial
        | cons e es ih =>
            obtain ⟨k, w⟩ := e
            rw [List.lookup_cons]
            split
            · exact hes.1
            · exact ih hes.2
      exact hlook entries hall
  | _ => exact trivial

theorem normalizePrepared_normal {input : Value} {p : PreparedOperation} (hin : input.Proper)
    (h : normalizePrepared input = .ok p) : p.Normal := by
  unfold normalizePrepared at h
  split at h
  · cases h
  · simp only [bind_ok_iff, require_ok_iff, pure_ok_iff, exists_const,
      clone_ok_iff (proper_get hin _)] at h
    -- what each check has left: words, commitments, clones and the effect
    obtain ⟨hid, f, hf, b, hb, c, hc, _, ⟨rfl, hbs⟩, _, ⟨rfl, hcs⟩, e, he, hcirc, _, hbind,
      hdist, rfl⟩ := h
    have hid' : identifier 160 (textOf (input.get "id")) = true := by
      unfold validId at hid
      split at hid
      · next hs => rw [hs]; exact hid
      · cases hid
    refine ⟨hid', word_of_hex hf, commitment_of_ok hb, commitment_of_ok hc,
      ⟨proper_get hin _, hbs⟩, ⟨proper_get hin _, hcs⟩, ?_, hbind, hdist⟩
    intro eff heff
    obtain rfl : e = some eff := heff
    refine ⟨?_, by simpa using hcirc⟩
    unfold normalizeExpected at he
    split at he
    · cases he
    · cases he
    · obtain ⟨x, hx, hxe⟩ := map_ok_iff.mp he
      cases hxe
      exact normalizeEffect_normal hx

/-- **An intent in normal form is read back as it is**, from any value with its fields. -/
theorem PreparedOperation.Normal.normalizePrepared {p : PreparedOperation} {v : Value}
    (h : p.Normal) (hv : ∀ key ∈ p.entries.map Prod.fst, v.get key = p.toValue.get key) :
    normalizePrepared v = .ok p := by
  -- the fields are asked for by name, so that a value with more of them will do
  have h1 : v.get "id" = .string p.id := hv _ (by simp [entries])
  have h2 : v.get "kind" = .string p.kind.name := hv _ (by simp [entries])
  have h3 : v.get "fingerprint" = .string p.fingerprint := hv _ (by simp [entries])
  have h4 : v.get "beforeCommitment" = nullable p.beforeCommitment := hv _ (by simp [entries])
  have h5 : v.get "candidateCommitment" = nullable p.candidateCommitment :=
    hv _ (by simp [entries])
  have h6 : v.get "beforeSnapshot" = p.beforeSnapshot := hv _ (by simp [entries])
  have h7 : v.get "candidateSnapshot" = p.candidateSnapshot := hv _ (by simp [entries])
  have h8 : v.get "expectedEffect" = (p.expectedEffect.map (·.toValue)).getD .null :=
    hv _ (by simp [entries])
  have heff : normalizeExpected ((p.expectedEffect.map (·.toValue)).getD .null)
      = .ok p.expectedEffect := by
    cases he : p.expectedEffect with
    | none => rfl
    | some e =>
        have hn := (h.effect e he).1.normalizeEffect
        exact map_ok_iff.mpr ⟨e, hn, rfl⟩
  have hcirc : (p.expectedEffect.all fun e => e.effect.circuit == p.kind) = true := by
    cases he : p.expectedEffect with
    | none => rfl
    | some e => simpa using (h.effect e he).2
  unfold Journal.normalizePrepared
  rw [h1, h2, h3, h4, h5, h6, h7, h8, kindOf_name]
  simp only [bind_ok_iff, require_ok_iff, pure_ok_iff, exists_const]
  exact ⟨h.id, _, h.fingerprint _, _, h.before.normal _, _, h.candidate.normal _, _,
    h.beforeSnapshot.clone, _, h.candidateSnapshot.clone, _, heff, hcirc, (), h.binds, h.distinct,
    rfl⟩

/-! ## Operations -/

theorem safeNat_ofNat {n : ℕ} (h : n ≤ Number.maxSafe) :
    (Value.number (.ofNat n)).safeNat = some n := by
  have hsafe : (Number.ofNat n).isSafeInteger = true := by
    rw [Number.isSafeInteger_ofNat]
    simpa using h
  unfold Value.safeNat Number.ofNat
  simp only
  rw [if_pos]
  · simp
  · rw [show (Number.finite (n : ℚ)).isSafeInteger = true from hsafe]
    simp

theorem statusOf_name (status : OperationStatus) :
    statusOf (.string status.name) = some status := by
  cases status <;> rfl

/-- A checked receipt. -/
def Receipt (r : Value) : Prop := r.Proper ∧ normalizeReceipt r = .ok r

theorem receipt_of_ok {value r : Value} (hv : value.Proper) (h : normalizeReceipt value = .ok r) :
    r = value ∧ Receipt value := by
  have hcopy := h
  simp only [normalizeReceipt, bind_ok_iff, require_ok_iff, exists_const, clone_ok_iff hv] at h
  obtain ⟨-, rfl, -⟩ := h
  exact ⟨rfl, hv, hcopy⟩

/-- What `validateRecord` asks of an operation. -/
structure JournalOperation.Valid (op : JournalOperation) : Prop where
  normal : op.toPreparedOperation.Normal
  times : op.createdAt ≤ op.updatedAt
  late : op.updatedAt ≤ Number.maxSafe
  transaction : ∀ t ∈ op.transactionId, identifier 256 t = true
  receipt : ∀ r ∈ op.receipt, Receipt r
  acknowledged : op.acknowledged = true → op.status = .confirmed
  received : op.receipt ≠ none → op.status = .confirmed
  compacted : op.snapshotsCompacted = true →
    op.settled = true ∧ op.beforeSnapshot = .null ∧ op.candidateSnapshot = .null

theorem JournalOperation.get_retained (op : JournalOperation) :
    ∀ key ∈ op.entries.map Prod.fst,
      op.toValue.get key = op.toPreparedOperation.toValue.get key := by
  intro key hkey
  have hcase : key ∈ ["id", "kind", "fingerprint", "beforeCommitment", "candidateCommitment",
      "beforeSnapshot", "candidateSnapshot", "expectedEffect"] := hkey
  simp only [List.mem_cons, List.not_mem_nil, or_false] at hcase
  rcases hcase with rfl | rfl | rfl | rfl | rfl | rfl | rfl | rfl <;>
    simp [toValue, PreparedOperation.toValue, PreparedOperation.entries, Value.get,
      List.lookup_cons]

theorem storedEffect_of_normal {e : Option JournalExpectedEffect} (h : ∀ x ∈ e, x.Normal) :
    storedEffect ((e.map (·.toValue)).getD .null) = some e := by
  cases e with
  | none => rfl
  | some e =>
      obtain ⟨hp, hc, hn, hh⟩ := e.shape
      have hfits : e.toValue.Fits := ⟨hc, by simp [hh, MAX_DEPTH], hn.trans (by simp [MAX_NODES])⟩
      have hkeys : e.toValue.exactKeys e.toValue.keys = true :=
        List.isPerm_iff.mpr (List.Perm.refl _)
      have hobj : ∃ es, e.toValue = .object es := ⟨_, rfl⟩
      obtain ⟨es, hes⟩ := hobj
      simp only [Option.map_some, Option.getD_some]
      unfold storedEffect
      split
      · next hnull => rw [hes] at hnull; cases hnull
      · simp [(h e rfl).normalizeEffect, Except.toOption, hkeys, sameText_self hfits]

theorem storedReceipt_of_receipt {r : Option Value} (h : ∀ x ∈ r, Receipt x) :
    storedReceipt (r.getD .null) = some r := by
  cases r with
  | none => rfl
  | some r =>
      obtain ⟨-, hr⟩ := h r rfl
      simp only [Option.getD_some]
      unfold storedReceipt
      split
      · simp [normalizeReceipt, Value.truthy, Value.get, require] at hr
      · simp [hr, Except.toOption]

theorem storedTransaction_of_valid {t : Option String} (h : ∀ x ∈ t, identifier 256 x = true) :
    storedTransaction (nullable t) = some t := by
  cases t with
  | none => rfl
  | some t => simp [storedTransaction, nullable, nullableText, validTx, h t rfl]

theorem nullableText_nullable (s : Option String) : nullableText (nullable s) = some s := by
  cases s <;> rfl

/-- **The value of a valid operation is accepted** and read as the operation it was. -/
theorem validateOperation_of_valid {op : JournalOperation} (h : op.Valid)
    (hseq : op.sequence ≤ Number.maxSafe) : validateOperation op.toValue = some op := by
  have hkeys : op.toValue.exactKeys OPERATION_KEYS = true :=
    List.isPerm_iff.mpr (List.Perm.refl OPERATION_KEYS)
  have hprep : normalizePrepared op.toValue = .ok op.toPreparedOperation :=
    h.normal.normalizePrepared op.get_retained
  have heff := storedEffect_of_normal fun e he => (h.normal.effect e he).1
  have hrec := storedReceipt_of_receipt h.receipt
  have htx := storedTransaction_of_valid h.transaction
  -- what the validator asks of flags and receipts are implications of the status
  have hack : op.acknowledged = false ∨ op.status = .confirmed := by
    cases ha : op.acknowledged with
    | false => exact .inl rfl
    | true => exact .inr (h.acknowledged ha)
  have hreceived : op.receipt = none ∨ op.status = .confirmed :=
    Classical.or_iff_not_imp_left.mpr h.received
  have hcompact : op.snapshotsCompacted = false ∨
      (op.settled = true ∧ op.beforeSnapshot.isNull = true) ∧
        op.candidateSnapshot.isNull = true := by
    cases hc : op.snapshotsCompacted with
    | false => exact .inl rfl
    | true =>
        obtain ⟨h1, h2, h3⟩ := h.compacted hc
        rw [h2, h3]
        exact .inr ⟨⟨h1, rfl⟩, rfl⟩
  -- the checks, in the order in which they are made
  unfold validateOperation
  rw [hkeys, hprep]
  simp only [JournalOperation.toValue, PreparedOperation.entries, Value.get, List.cons_append,
    List.nil_append]
  simp [List.lookup_cons, heff, hrec, htx, statusOf_name, safeNat_ofNat hseq,
    safeNat_ofNat (h.times.trans h.late), safeNat_ofNat h.late, nullableText_nullable, h.times,
    booleanOf, textOf, Except.toOption]
  rw [guard, if_pos hack, guard, if_pos hreceived, guard, if_pos hcompact]
  rfl

/-! ## Journals -/

/-- What `validateRecord` asks of a journal. -/
structure OperationJournalRecord.Valid (scope : Scope) (record : OperationJournalRecord) :
    Prop where
  scope : record.scope = scope.val
  revision : record.revision ≤ Number.maxSafe
  size : record.operations.length ≤ MAX_JOURNAL_OPERATIONS
  operations : ∀ op ∈ record.operations, op.Valid
  ids : (record.operations.map (·.id)).Nodup
  sequences : record.operations.Pairwise fun a b => a.sequence < b.sequence
  numbered : ∀ op ∈ record.operations, 0 < op.sequence ∧ op.sequence ≤ record.revision
  pending : record.operations.countP (·.pending) ≤ 1
  latest : ∀ op ∈ latestConfirmedOperation record, op.snapshotsCompacted = false

/-- The operations that are read after `ids` and `sequence`. -/
theorem validateOperations_of_valid {revision : ℕ} (hrev : revision ≤ Number.maxSafe)
    {operations : List JournalOperation} {sequence : ℕ} {ids : List String}
    (hops : ∀ op ∈ operations, op.Valid)
    (hids : (operations.map (·.id)).Nodup) (hnew : ∀ op ∈ operations, op.id ∉ ids)
    (hseq : operations.Pairwise fun a b => a.sequence < b.sequence)
    (hnum : ∀ op ∈ operations, sequence < op.sequence ∧ op.sequence ≤ revision) :
    validateOperations revision (operations.map (·.toValue)) sequence ids = some operations := by
  -- the validator carries the last number and the ids that it has seen
  induction operations generalizing sequence ids with
  | nil => rfl
  | cons op operations ih =>
      obtain ⟨hlt, hle⟩ := hnum op List.mem_cons_self
      have hop := validateOperation_of_valid (hops op List.mem_cons_self) (hle.trans hrev)
      have hfresh : (!ids.contains op.id && decide (sequence < op.sequence)
          && decide (op.sequence ≤ revision)) = true := by
        simp [hnew op List.mem_cons_self, hlt, hle]
      rw [List.map_cons, List.nodup_cons] at hids
      rw [List.pairwise_cons] at hseq
      have hnew' : ∀ o ∈ operations, o.id ∉ op.id :: ids := by
        intro o ho hmem
        rcases List.mem_cons.mp hmem with heq | hold
        · exact hids.1 (List.mem_map.mpr ⟨o, ho, heq⟩)
        · exact hnew o (List.mem_cons_of_mem _ ho) hold
      have hrest := ih (fun o ho => hops o (List.mem_cons_of_mem _ ho)) hids.2 hnew' hseq.2
        fun o ho => ⟨hseq.1 o ho, (hnum o (List.mem_cons_of_mem _ ho)).2⟩
      rw [List.map_cons, validateOperations, hop]
      simp only [Option.bind_eq_bind, Option.bind_some, hrest, hfresh]
      rfl

/-- **The value of a valid journal is accepted** and read as the journal it was. -/
theorem validateRecord_of_valid {scope : Scope} {record : OperationJournalRecord}
    (h : record.Valid scope) : validateRecord record.toValue scope.val = .ok record := by
  obtain ⟨stored, revision, operations⟩ := record
  obtain rfl : stored = scope.val := h.scope
  have hops := validateOperations_of_valid h.revision h.operations h.ids
    (fun _ _ => List.not_mem_nil) h.sequences h.numbered
  -- the latest confirmed operation has its snapshots
  have hlatest : ((latestConfirmedOperation ⟨scope.val, revision, operations⟩).all
      fun op => !op.snapshotsCompacted) = true := by
    cases hl : latestConfirmedOperation ⟨scope.val, revision, operations⟩ with
    | none => rfl
    | some op => simp [h.latest op hl]
  -- the keys of the scope and of the record are those the validator lists
  have hscope : (JournalScope.toValue scope.val).exactKeys
      ["networkId", "contractAddress", "sourceFingerprint"] = true :=
    List.isPerm_iff.mpr (List.Perm.refl _)
  have hkeys : (OperationJournalRecord.toValue ⟨scope.val, revision, operations⟩).exactKeys
      ["schema", "scope", "revision", "operations"] = true :=
    List.isPerm_iff.mpr (List.Perm.refl _)
  have hread : scopeOf (JournalScope.toValue scope.val) = some scope.val := by
    simp [scopeOf, JournalScope.toValue, Value.get, List.lookup_cons]
  have hsize : operations.length ≤ MAX_JOURNAL_OPERATIONS := h.size
  have hpending : operations.countP (·.pending) ≤ 1 := h.pending
  have hchecked : checkedRecord (OperationJournalRecord.toValue ⟨scope.val, revision, operations⟩)
      scope.val = some ⟨scope.val, revision, operations⟩ := by
    unfold checkedRecord
    rw [hkeys]
    simp [OperationJournalRecord.toValue, Value.get, List.lookup_cons, Value.isText, hread,
      scope.property, Except.toOption, hscope, safeNat_ofNat h.revision, arrayOf, hsize, hops,
      hpending, hlatest]
  rw [validateRecord, hchecked]

/-! ## Reading back -/

theorem PreparedOperation.proper {p : PreparedOperation} (hb : p.beforeSnapshot.Proper)
    (hc : p.candidateSnapshot.Proper) : p.toValue.Proper := by
  have hkeys : ["id", "kind", "fingerprint", "beforeCommitment", "candidateCommitment",
      "beforeSnapshot", "candidateSnapshot", "expectedEffect"].Pairwise
      fun a b => a ≠ b ∧ before a b = true := ordered_keys (by decide)
  have heff : Value.Proper ((p.expectedEffect.map fun e => e.toValue).getD .null) := by
    cases p.expectedEffect with
    | none => exact trivial
    | some e => exact e.shape.1
  refine ⟨hkeys, ?_⟩
  simp [PreparedOperation.entries, properEntries, Value.Proper, (nullable_shape _).1, heff, hb, hc]

theorem JournalOperation.Valid.proper {op : JournalOperation} (h : op.Valid) :
    op.toValue.Proper := by
  have hkeys : OPERATION_KEYS.Pairwise fun a b => a ≠ b ∧ before a b = true :=
    ordered_keys (by decide)
  have heff : Value.Proper ((op.expectedEffect.map fun e => e.toValue).getD .null) := by
    cases op.expectedEffect with
    | none => exact trivial
    | some e => exact e.shape.1
  have hrec : Value.Proper (op.receipt.getD .null) := by
    cases hr : op.receipt with
    | none => exact trivial
    | some r => exact (h.receipt r hr).1
  refine ⟨hkeys, ?_⟩
  simp [PreparedOperation.entries, properEntries, Value.Proper, (nullable_shape _).1, heff, hrec,
    h.normal.beforeSnapshot.1, h.normal.candidateSnapshot.1]

theorem OperationJournalRecord.Valid.proper {scope : Scope} {record : OperationJournalRecord}
    (h : record.Valid scope) : record.toValue.Proper := by
  have hitems : ∀ operations : List JournalOperation, (∀ op ∈ operations, op.Valid) →
      properItems (operations.map (·.toValue)) := by
    intro operations hops
    induction operations with
    | nil => exact trivial
    | cons op operations ih =>
        exact ⟨(hops op List.mem_cons_self).proper,
          ih fun o ho => hops o (List.mem_cons_of_mem _ ho)⟩
  have hkeys : ["schema", "scope", "revision", "operations"].Pairwise
      fun a b => a ≠ b ∧ before a b = true := ordered_keys (by decide)
  have hscope : ["networkId", "contractAddress", "sourceFingerprint"].Pairwise
      fun a b => a ≠ b ∧ before a b = true := ordered_keys (by decide)
  exact ⟨hkeys, trivial, ⟨hscope, trivial, trivial, trivial, trivial⟩, trivial,
    hitems _ h.operations, trivial⟩

/-- **The round trip of a journal**: a valid journal that was stored is read as it was. -/
theorem read_back {scope : Scope} {record : OperationJournalRecord} {text : Json.Text}
    (h : record.Valid scope) (ht : encodeVaultJson record.toValue = .ok text) :
    decodeVaultJson text = .ok record.toValue
      ∧ validateRecord record.toValue scope.val = .ok record :=
  ⟨decodeVaultJson_encode h.proper ht, validateRecord_of_valid h⟩

/-! ## What fits the codec

A valid journal holds nothing that the codec refuses for what it is, so only its size can
keep it from being written.
-/

theorem receipt_clean {r : Value} (h : Receipt r) : r.Clean := by
  have hn := h.2
  simp only [normalizeReceipt, bind_ok_iff, require_ok_iff, exists_const, clone_ok_iff h.1] at hn
  exact hn.2.2.1

theorem PreparedOperation.Normal.clean {p : PreparedOperation} (h : p.Normal) :
    cleanEntries p.entries := by
  have heff : Value.Clean ((p.expectedEffect.map fun e => e.toValue).getD .null) := by
    cases p.expectedEffect with
    | none => exact trivial
    | some e => exact e.shape.2.1
  simp [PreparedOperation.entries, cleanEntries, Value.Clean, (nullable_shape _).2.1, heff,
    h.beforeSnapshot.2.1, h.candidateSnapshot.2.1]

theorem JournalOperation.Valid.clean {op : JournalOperation} (h : op.Valid) : op.toValue.Clean := by
  have happend : ∀ a b : List (String × Value), cleanEntries a → cleanEntries b →
      cleanEntries (a ++ b) := by
    intro a b ha hb
    induction a with
    | nil => exact hb
    | cons e a ih => exact ⟨ha.1, ih ha.2⟩
  have hrec : Value.Clean (op.receipt.getD .null) := by
    cases hr : op.receipt with
    | none => exact trivial
    | some r => exact receipt_clean (h.receipt r hr)
  refine happend _ _ h.normal.clean ?_
  simp [cleanEntries, Value.Clean, (nullable_shape _).2.1, hrec, Number.ofNat]

theorem OperationJournalRecord.Valid.clean {scope : Scope} {record : OperationJournalRecord}
    (h : record.Valid scope) : record.toValue.Clean := by
  have hitems : ∀ operations : List JournalOperation, (∀ op ∈ operations, op.Valid) →
      cleanItems (operations.map (·.toValue)) := by
    intro operations hops
    induction operations with
    | nil => exact trivial
    | cons op operations ih =>
        exact ⟨(hops op List.mem_cons_self).clean,
          ih fun o ho => hops o (List.mem_cons_of_mem _ ho)⟩
  exact ⟨trivial, ⟨trivial, trivial, trivial, trivial⟩, ⟨_, rfl⟩, hitems _ h.operations, trivial⟩

end Line.Journal
