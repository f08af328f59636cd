import Line.Journal.Consistency
import Line.Vault.Canonical

/-!
# Room for an outcome

The journal is stored through the codec, which refuses a value of more than `MAX_NODES` nodes.
The capacity is checked where an operation is prepared only as a number of operations, so
the outcome of one that was submitted is written with whatever room is left.

Recording an outcome changes one operation: it gets a status and, if it is confirmed by a receipt,
that receipt instead of null. A confirmation also drops the snapshots of the operation that was
confirmed before. Counting both says exactly which outcomes can be recorded
(`outcomes_recorded`): all but those by a receipt need the revision only, and a receipt, which
has at most five nodes, needs four more nodes than the confirmation frees.
-/

namespace Line.Journal

open Vault Checked History

theorem nodes_nullable (s : Option String) : (nullable s).nodes = 1 ∧ (nullable s).height = 0 := by
  cases s with
  | none => exact ⟨rfl, rfl⟩
  | some s => exact ⟨rfl, rfl⟩

def JournalOperation.effectValue (op : JournalOperation) : Value :=
  (op.expectedEffect.map (·.toValue)).getD .null

def JournalOperation.receiptValue (op : JournalOperation) : Value := op.receipt.getD .null

theorem JournalOperation.nodes (op : JournalOperation) : op.toValue.nodes =
    13 + op.beforeSnapshot.nodes + op.candidateSnapshot.nodes + op.effectValue.nodes +
      op.receiptValue.nodes := by
  simp only [toValue, PreparedOperation.entries, List.cons_append, List.nil_append, Value.nodes,
    nodesEntries, (nodes_nullable _).1]
  rw [effectValue, receiptValue]
  omega

theorem JournalOperation.height (op : JournalOperation) : op.toValue.height =
    max (max (op.beforeSnapshot.height + 1) (op.candidateSnapshot.height + 1))
      (max (op.effectValue.height + 1) (op.receiptValue.height + 1)) := by
  simp only [toValue, PreparedOperation.entries, List.cons_append, List.nil_append, Value.height,
    levelsEntries, (nodes_nullable _).2]
  rw [effectValue, receiptValue]
  omega

theorem OperationJournalRecord.nodes (record : OperationJournalRecord) : record.toValue.nodes =
    8 + (record.operations.map fun op => op.toValue.nodes).sum := by
  have hitems : ∀ ops : List JournalOperation, nodesItems (ops.map JournalOperation.toValue) =
      (ops.map fun op => op.toValue.nodes).sum := by
    intro ops
    induction ops with
    | nil => rfl
    | cons op ops ih => rw [List.map_cons, nodesItems, ih, List.map_cons, List.sum_cons]
  simp only [toValue, JournalScope.toValue, Value.nodes, nodesEntries, hitems]
  omega

theorem OperationJournalRecord.height_le (record : OperationJournalRecord) {n : ℕ} :
    record.toValue.height ≤ n ↔ 2 ≤ n ∧ ∀ op ∈ record.operations, op.toValue.height + 2 ≤ n := by
  have hitems : ∀ (ops : List JournalOperation) (k : ℕ), levels (ops.map JournalOperation.toValue)
      ≤ k ↔ ∀ op ∈ ops, op.toValue.height + 1 ≤ k := by
    intro ops k
    induction ops with
    | nil =>
        rw [List.map_nil, levels]
        exact ⟨fun _ _ h => absurd h List.not_mem_nil, fun _ => Nat.zero_le _⟩
    | cons op ops ih => rw [List.map_cons, levels, max_le_iff, ih, List.forall_mem_cons]
  have hh : record.toValue.height =
      max 2 (levels (record.operations.map JournalOperation.toValue) + 1) := by
    simp only [toValue, JournalScope.toValue, Value.height, levelsEntries]
    omega
  rw [hh, max_le_iff]
  refine and_congr_right fun hn => ?_
  obtain ⟨k, rfl⟩ : ∃ k, n = k + 1 := ⟨n - 1, by omega⟩
  rw [Nat.add_le_add_iff_right, hitems]
  refine forall₂_congr fun op _ => ?_
  omega

/-- A value without parts. -/
def Leaf (v : Value) : Prop := v.nodes = 1 ∧ v.height = 0

theorem leaf_of_checked {v : Value} (h : v.isUndefined = true ∨ validTx v = true) : Leaf v := by
  rcases h with h | h
  · rw [eq_undefined h]
    exact ⟨rfl, rfl⟩
  · obtain ⟨t, rfl, -⟩ := identifier_of_validTx h
    exact ⟨rfl, rfl⟩

theorem leaf_of_number {v : Value} (h : v.isUndefined = true ∨ v.isSafeInteger = true) :
    Leaf v := by
  cases v with
  | array items => rcases h with h | h <;> cases h
  | object entries => rcases h with h | h <;> cases h
  | _ => exact ⟨rfl, rfl⟩

theorem leaf_of_text {v : Value} {s : String} (h : v.isText s = true) : Leaf v := by
  cases v with
  | string t => exact ⟨rfl, rfl⟩
  | _ => cases h

theorem entries_shape {entries : List (String × Value)} (h : ∀ e ∈ entries, Leaf e.2) :
    nodesEntries entries = entries.length ∧ levelsEntries entries ≤ 1 := by
  induction entries with
  | nil => exact ⟨rfl, by rw [levelsEntries]; omega⟩
  | cons e entries ih =>
      obtain ⟨h1, h2⟩ := h e List.mem_cons_self
      obtain ⟨h3, h4⟩ := ih fun e he => h e (List.mem_cons_of_mem _ he)
      rw [nodesEntries, levelsEntries, h1, h2, h3, List.length_cons]
      omega

/-- **A receipt is small**: an object of at most four properties. -/
theorem Receipt.shape {r : Value} (h : Receipt r) : r.nodes ≤ 5 ∧ r.height ≤ 1 := by
  obtain ⟨hproper, hr⟩ := h
  simp only [normalizeReceipt, bind_ok_iff, require_ok_iff, exists_const, Bool.and_eq_true,
    Bool.or_eq_true] at hr
  obtain ⟨⟨⟨⟨⟨⟨⟨-, hmode⟩, hkeys⟩, hhash⟩, hid⟩, -⟩, hheight⟩, -⟩ := hr.1
  cases r with
  | object entries =>
      have hd : (entries.map Prod.fst).Nodup := hproper.1.imp fun h => h.1
      -- a receipt has no properties but these four, and each is a leaf
      have hkeys : ∀ k ∈ entries.map Prod.fst,
          k ∈ ["txHash", "txId", "blockHeight", "executionMode"] := by
        intro k hk
        exact List.contains_iff_mem.mp (List.all_eq_true.mp hkeys k hk)
      have hleaf : ∀ e ∈ entries, Leaf e.2 := by
        intro e he
        have hget : Value.get (.object entries) e.1 = e.2 := by
          rw [Value.get, Vault.lookup_of_mem hd he]
          rfl
        have hk := hkeys e.1 (List.mem_map_of_mem he)
        rw [← hget]
        simp only [List.mem_cons, List.not_mem_nil, or_false] at hk
        rcases hk with hk | hk | hk | hk
        · rw [hk]
          exact leaf_of_checked hhash
        · rw [hk]
          exact leaf_of_checked hid
        · rw [hk]
          exact leaf_of_number (hheight.imp_right And.left)
        · rw [hk]
          rcases hmode with (h | h) | h
          · exact leaf_of_text h
          · exact leaf_of_text h
          · exact leaf_of_text h
      -- their names are different, so there are at most four
      have hlen : entries.length ≤ 4 := by
        have hle := (hd.subperm hkeys).length_le
        rw [List.length_map] at hle
        exact hle
      obtain ⟨h1, h2⟩ := entries_shape hleaf
      rw [Value.nodes, Value.height, h1]
      exact ⟨by omega, h2⟩
  | _ => rcases hmode with (h | h) | h <;> cases h


/-! ## The shape of a journal that was stored -/

/-- A value has at least one node. -/
theorem nodes_pos (v : Value) : 1 ≤ v.nodes := by
  cases v with
  | array items =>
      rw [Value.nodes]
      omega
  | object entries =>
      rw [Value.nodes]
      omega
  | _ => exact Nat.le_refl 1

/-- What a stored journal has besides being valid: it is compacted, and only its last operation
may still need attention. -/
structure Tidy (record : OperationJournalRecord) : Prop where
  compacted : compact record = record
  last : ∀ op ∈ record.operations.dropLast, op.pending = false

theorem retain_idem (latest : Option String) (op : JournalOperation) :
    retain latest (retain latest op) = retain latest op := by
  by_cases hc : latest ≠ some op.id ∧ op.settled = true
  · have hw : retain latest op = op.withoutSnapshots := if_pos hc
    rw [hw]
    exact if_pos hc
  · have hs : retain latest op = op := if_neg hc
    rw [hs, hs]

theorem compact_idem {scope : Scope} {record : OperationJournalRecord} (hr : record.Valid scope) :
    compact (compact record) = compact record := by
  have hl := latestConfirmed_compact hr
  unfold compact at hl ⊢
  simp only [hl, List.map_map]
  congr 1
  refine List.map_congr_left fun op _ => ?_
  exact retain_idem _ op

/-- What is written next to operations that are settled. -/
theorem Writes.last {scope : Scope} {submitted : List String} {now : Time} {c : Call}
    {record next : OperationJournalRecord} {id : String} (hr : record.Valid scope)
    (hlast : ∀ op ∈ record.operations.dropLast, op.pending = false)
    (h : Writes submitted now record c next id) :
    ∀ op ∈ next.operations.dropLast, op.pending = false := by
  cases h with
  | prepare _ _ hpend _ _ =>
      intro op hop
      rw [OperationJournalRecord.push, List.dropLast_concat] at hop
      exact hpend op hop
  | move hmem htr _ =>
      intro o ho
      rw [OperationJournalRecord.replace, ← List.map_dropLast] at ho
      obtain ⟨x, hx, rfl⟩ := List.mem_map.mp ho
      have hxr := List.mem_of_mem_dropLast hx
      split
      · next hid =>
          -- a transition makes nothing pending that was not
          have hxo := List.inj_on_of_nodup_map hr.ids hxr hmem hid
          subst hxo
          have hnot := hlast _ hx
          by_contra hp
          rw [htr.pending (Bool.eq_true_of_not_eq_false hp)] at hnot
          cases hnot
      · exact hlast _ hx

theorem tidy_compact {scope : Scope} {record : OperationJournalRecord} (hr : record.Valid scope)
    (hlast : ∀ op ∈ record.operations.dropLast, op.pending = false) : Tidy (compact record) := by
  refine ⟨compact_idem hr, fun o ho => ?_⟩
  rw [compact, ← List.map_dropLast] at ho
  obtain ⟨x, hx, rfl⟩ := List.mem_map.mp ho
  rw [(retain_fields _ x).2.2.2]
  exact hlast x hx

theorem Holds.text {text : Json.Text} {scope : Scope} {record : OperationJournalRecord}
    (h : Holds (some text) scope record) :
    record.Valid scope ∧ encodeVaultJson record.toValue = .ok text := by
  rcases h with ⟨hnone, -⟩ | ⟨_, htext, hv, henc⟩
  · cases hnone
  · cases htext
    exact ⟨hv, henc⟩

/-- **Every journal that sessions store is tidy.** -/
theorem Reaches.tidy {h : Trace} {w : World} (r : Reaches h w) :
    ∀ scope record, Holds w.store scope record → Tidy record := by
  refine Run.invariant (I := fun _ w => ∀ scope record, Holds w.store scope record → Tidy record)
    ?_ ?_ r
  · intro w hw scope record hr
    have hempty : record = ⟨scope.val, 0, []⟩ := hr.unique (.inl ⟨hw.1, rfl⟩)
    rw [hempty]
    refine ⟨rfl, fun op hop => ?_⟩
    cases hop
  · intro h s l s' r ih st scope record hr
    cases st.stores (Reaches.sound r) with
    | same heq =>
        rw [heq] at hr
        exact ih scope record hr
    | wrote hl hold hc ht hw' =>
        have hnew := hold.change hc ht
        rw [hw'] at hr
        have hwrites := change_writes hold.valid.operations hc
        have htidy := tidy_compact (hwrites.valid hold.valid)
          (hwrites.last hold.valid (ih _ _ hold).last)
        -- the text that was written is read in one scope only, and as one journal
        obtain ⟨hv, henc⟩ := hr.text
        obtain ⟨hv', henc'⟩ := hnew.text
        have hsame := encodeVaultJson_inj hv.proper hv'.proper henc henc'
        have hread := (read_back hv henc).2
        rw [hsame] at hread
        obtain rfl := validateRecord_scope hv' hread
        rw [validateRecord_of_valid hv'] at hread
        cases hread
        exact htidy

/-! ## The size of what is written -/

theorem settled_of_pending {op : JournalOperation} (h : op.pending = false) :
    op.settled = true := by
  unfold JournalOperation.pending at h
  cases hst : op.status with
  | rejected => simp [JournalOperation.settled, hst]
  | confirmed =>
      rw [hst] at h
      simpa [JournalOperation.settled, hst] using h
  | _ =>
      rw [hst] at h
      cases h

/-- A tidy journal with an operation that needs attention ends with it. -/
theorem Tidy.split {scope : Scope} {record : OperationJournalRecord} (ht : Tidy record)
    (hv : record.Valid scope) {op : JournalOperation} (hop : op ∈ record.operations)
    (hp : op.pending = true) : ∃ pre, record.operations = pre ++ [op] ∧
      ∀ o ∈ pre, o.settled = true ∧ o.id ≠ op.id := by
  have hne : record.operations ≠ [] := List.ne_nil_of_mem hop
  have hsplit := List.dropLast_concat_getLast hne
  have hlast : op = record.operations.getLast hne := by
    rw [← hsplit] at hop
    rcases List.mem_append.mp hop with hd | hl
    · rw [ht.last op hd] at hp
      cases hp
    · exact List.mem_singleton.mp hl
  rw [← hlast] at hsplit
  refine ⟨_, hsplit.symm, fun o ho => ⟨settled_of_pending (ht.last o ho), fun hid => ?_⟩⟩
  have heq := List.inj_on_of_nodup_map hv.ids (List.mem_of_mem_dropLast ho) hop hid
  subst heq
  rw [ht.last o ho] at hp
  cases hp

theorem replace_last {record : OperationJournalRecord} {pre : List JournalOperation}
    {op : JournalOperation} (hsplit : record.operations = pre ++ [op])
    (hne : ∀ o ∈ pre, o.id ≠ op.id) (new : JournalOperation) :
    record.replace op.id new = ⟨record.scope, record.revision + 1, pre ++ [new]⟩ := by
  have hpre : pre.map (fun o => if o.id = op.id then new else o) = pre := by
    rw [List.map_congr_left fun o ho => if_neg (hne o ho)]
    exact List.map_id pre
  rw [OperationJournalRecord.replace, hsplit, List.map_append, hpre, List.map_singleton,
    if_pos rfl]

theorem latest_last (scope : JournalScope) (revision : ℕ) (pre : List JournalOperation)
    (op : JournalOperation) : latestConfirmedOperation ⟨scope, revision, pre ++ [op]⟩ =
      if op.status = .confirmed then some op
      else latestConfirmedOperation ⟨scope, revision, pre⟩ := by
  unfold latestConfirmedOperation
  simp only [List.reverse_append, List.reverse_singleton, List.singleton_append, List.find?_cons]
  by_cases hst : op.status = .confirmed
  · rw [if_pos hst, hst]
    rfl
  · have hb : (op.status == .confirmed) = false := by
      rw [beq_eq_false_iff_ne]
      exact hst
    rw [if_neg hst, hb]

theorem withoutSnapshots_nodes (op : JournalOperation) : op.withoutSnapshots.toValue.nodes +
    (op.beforeSnapshot.nodes + op.candidateSnapshot.nodes - 2) = op.toValue.nodes := by
  have hb := nodes_pos op.beforeSnapshot
  have hc := nodes_pos op.candidateSnapshot
  have hnull : Value.null.nodes = 1 := rfl
  rw [JournalOperation.nodes, JournalOperation.nodes]
  show 13 + Value.null.nodes + Value.null.nodes + op.effectValue.nodes + op.receiptValue.nodes +
    _ = _
  omega

theorem withoutSnapshots_height (op : JournalOperation) :
    op.withoutSnapshots.toValue.height ≤ op.toValue.height := by
  have hnull : Value.null.height = 0 := rfl
  rw [JournalOperation.height, JournalOperation.height]
  show max (max (Value.null.height + 1) (Value.null.height + 1))
    (max (op.effectValue.height + 1) (op.receiptValue.height + 1)) ≤ _
  omega

/-- Compaction adds nothing. -/
theorem retain_size (latest : Option String) (op : JournalOperation) :
    (retain latest op).toValue.nodes ≤ op.toValue.nodes ∧
      (retain latest op).toValue.height ≤ op.toValue.height := by
  unfold retain
  split
  · have hn := withoutSnapshots_nodes op
    exact ⟨by omega, withoutSnapshots_height op⟩
  · exact ⟨Nat.le_refl _, Nat.le_refl _⟩

theorem compact_nodes (record : OperationJournalRecord) :
    (compact record).toValue.nodes ≤ record.toValue.nodes := by
  rw [OperationJournalRecord.nodes, OperationJournalRecord.nodes, compact]
  simp only [List.map_map]
  have hle : ∀ (latest : Option String) (ops : List JournalOperation),
      (ops.map ((fun op => op.toValue.nodes) ∘ retain latest)).sum ≤
        (ops.map fun op => op.toValue.nodes).sum := by
    intro latest ops
    induction ops with
    | nil => rw [List.map_nil, List.map_nil]
    | cons op ops ih =>
        have hop := (retain_size latest op).1
        simp only [List.map_cons, List.sum_cons, Function.comp_apply]
        omega
  exact Nat.add_le_add_left (hle _ _) 8

theorem compact_height {record : OperationJournalRecord} {n : ℕ} (h : record.toValue.height ≤ n) :
    (compact record).toValue.height ≤ n := by
  rw [OperationJournalRecord.height_le] at h ⊢
  refine ⟨h.1, fun o ho => ?_⟩
  obtain ⟨x, hx, rfl⟩ := List.mem_map.mp ho
  have hle := (retain_size ((latestConfirmedOperation record).map (·.id)) x).2
  have hxn := h.2 x hx
  omega

/-! ## What an outcome needs -/

section Outcome

variable {scope : Scope} {record : OperationJournalRecord} {pre : List JournalOperation}
  {op new : JournalOperation}

theorem nodes_of_same (h : new.toPreparedOperation = op.toPreparedOperation) :
    new.toValue.nodes + op.receiptValue.nodes = op.toValue.nodes + new.receiptValue.nodes := by
  have heff : new.effectValue = op.effectValue := by
    rw [JournalOperation.effectValue, h]
    rfl
  rw [JournalOperation.nodes, JournalOperation.nodes, heff, h]
  omega

theorem height_of_same (h : new.toPreparedOperation = op.toPreparedOperation) :
    new.toValue.height ≤ max op.toValue.height (new.receiptValue.height + 1) := by
  have heff : new.effectValue = op.effectValue := by
    rw [JournalOperation.effectValue, h]
    rfl
  rw [JournalOperation.height, JournalOperation.height, heff, h]
  omega

/-- The height of a receipt is no trouble. -/
theorem replaced_height (hfit : record.toValue.height ≤ MAX_DEPTH)
    (hsplit : record.operations = pre ++ [op])
    (hsame : new.toPreparedOperation = op.toPreparedOperation)
    (hr : new.receiptValue.height ≤ 1) (s : JournalScope) (n : ℕ) :
    (OperationJournalRecord.toValue ⟨s, n, pre ++ [new]⟩).height ≤ MAX_DEPTH := by
  rw [OperationJournalRecord.height_le] at hfit ⊢
  refine ⟨hfit.1, fun o ho => ?_⟩
  rcases List.mem_append.mp ho with ho | ho
  · exact hfit.2 o (hsplit ▸ List.mem_append_left _ ho)
  · rw [List.mem_singleton.mp ho]
    have hop := hfit.2 op (hsplit ▸ List.mem_append_right _ List.mem_cons_self)
    have hnew := height_of_same hsame
    have hmax : MAX_DEPTH = 100 := rfl
    omega

theorem replaced_nodes (hsplit : record.operations = pre ++ [op])
    (hsame : new.toPreparedOperation = op.toPreparedOperation) (s : JournalScope) (n : ℕ) :
    (OperationJournalRecord.toValue ⟨s, n, pre ++ [new]⟩).nodes + op.receiptValue.nodes =
      record.toValue.nodes + new.receiptValue.nodes := by
  have hnew := nodes_of_same hsame
  rw [OperationJournalRecord.nodes, OperationJournalRecord.nodes, hsplit]
  simp only [List.map_append, List.map_cons, List.map_nil, List.sum_append, List.sum_cons,
    List.sum_nil]
  omega

/-- What leaves the size of the receipt leaves the journal as large as it was, or smaller. -/
theorem replaced_fits (hfit : record.toValue.Fits) (hsplit : record.operations = pre ++ [op])
    (hne : ∀ o ∈ pre, o.id ≠ op.id) (hsame : new.toPreparedOperation = op.toPreparedOperation)
    (hheight : new.receiptValue.height ≤ 1)
    (hnodes : new.receiptValue.nodes = op.receiptValue.nodes)
    (hvalid : (record.replace op.id new).Valid scope) :
    (compact (record.replace op.id new)).toValue.Fits := by
  have hclean := (valid_compact hvalid).clean
  rw [replace_last hsplit hne] at hclean ⊢
  have hle := compact_nodes ⟨record.scope, record.revision + 1, pre ++ [new]⟩
  have hrep := replaced_nodes hsplit hsame record.scope (record.revision + 1)
  have hbefore := hfit.2.2
  refine ⟨hclean, compact_height (replaced_height hfit.2.1 hsplit hsame hheight _ _), ?_⟩
  omega

/-- The nodes that go where the snapshots of an operation are dropped. -/
def freedBy : Option JournalOperation → ℕ
  | some op => op.beforeSnapshot.nodes + op.candidateSnapshot.nodes - 2
  | none => 0

/-- The nodes that a confirmation frees: those of the operation that was confirmed before. -/
def freed (record : OperationJournalRecord) : ℕ := freedBy (latestConfirmedOperation record)

theorem sum_freed {latest : Option JournalOperation} (hmem : ∀ l ∈ latest, l ∈ pre)
    (hids : (pre.map (·.id)).Nodup) (hset : ∀ o ∈ pre, o.settled = true)
    (hkeep : ∀ o ∈ pre, retain (latest.map (·.id)) o = o) :
    (pre.map fun o => o.withoutSnapshots.toValue.nodes).sum + freedBy latest =
      (pre.map fun o => o.toValue.nodes).sum := by
  -- all but the latest have none
  have hsame : ∀ o ∈ pre, latest.map (·.id) ≠ some o.id → o.withoutSnapshots = o := by
    intro o ho hne
    have hk := hkeep o ho
    rw [retain, if_pos ⟨hne, hset o ho⟩] at hk
    exact hk
  have hsums : ∀ l : List JournalOperation, (∀ o ∈ l, o.withoutSnapshots = o) →
      (l.map fun o => o.withoutSnapshots.toValue.nodes).sum =
        (l.map fun o => o.toValue.nodes).sum := by
    intro l hl
    rw [List.map_congr_left fun o ho => by rw [hl o ho]]
  cases latest with
  | none =>
      refine hsums pre fun o ho => hsame o ho fun h => ?_
      cases h
  | some l =>
      obtain ⟨a, b, rfl⟩ := List.append_of_mem (hmem l rfl)
      rw [List.map_append, List.map_cons, List.nodup_append, List.nodup_cons] at hids
      obtain ⟨-, ⟨hlb, -⟩, hab⟩ := hids
      have ha := hsums a fun o ho => hsame o (List.mem_append_left _ ho) fun heq =>
        hab o.id (List.mem_map_of_mem ho) l.id List.mem_cons_self (Option.some.inj heq).symm
      have hb := hsums b fun o ho =>
        hsame o (List.mem_append_right _ (List.mem_cons_of_mem _ ho)) fun heq =>
          hlb (List.mem_map.mpr ⟨o, ho, (Option.some.inj heq).symm⟩)
      have hl := withoutSnapshots_nodes l
      simp only [List.map_append, List.map_cons, List.sum_append, List.sum_cons, ha, hb, freedBy]
      omega

/-- **A confirmation frees what the one before it kept.** -/
theorem confirmed_nodes (hv : record.Valid scope) (ht : Tidy record)
    (hsplit : record.operations = pre ++ [op])
    (hpre : ∀ o ∈ pre, o.settled = true ∧ o.id ≠ op.id) (hop : op.status ≠ .confirmed)
    (hid : new.id = op.id) (hst : new.status = .confirmed) (s : JournalScope) (n : ℕ) :
    (compact ⟨s, n, pre ++ [new]⟩).toValue.nodes + freed record =
      (OperationJournalRecord.toValue ⟨s, n, pre ++ [new]⟩).nodes := by
  -- the operation is the latest confirmed one now; before, it was one of the others, or none
  have hlatest : latestConfirmedOperation ⟨s, n, pre ++ [new]⟩ = some new := by
    rw [latest_last, if_pos hst]
  have hbefore : latestConfirmedOperation record =
      latestConfirmedOperation ⟨record.scope, record.revision, pre⟩ := by
    have heq : record = ⟨record.scope, record.revision, pre ++ [op]⟩ := by
      rw [← hsplit]
    rw [heq, latest_last, if_neg hop]
  have hops : (compact ⟨s, n, pre ++ [new]⟩).operations =
      pre.map JournalOperation.withoutSnapshots ++ [new] := by
    rw [compact, hlatest]
    simp only [List.map_append, List.map_cons, List.map_nil, Option.map_some]
    congr 1
    · refine List.map_congr_left fun o ho => ?_
      obtain ⟨hset, hne⟩ := hpre o ho
      exact if_pos ⟨fun h => hne ((Option.some.inj h).symm.trans hid), hset⟩
    · have hself : retain (some new.id) new = new := if_neg fun h => h.1 rfl
      rw [hself]
  -- the stored journal is compacted already, so the others are as they are kept
  have hkeep : ∀ o ∈ pre, retain ((latestConfirmedOperation record).map (·.id)) o = o := by
    have hmap : record.operations.map (retain ((latestConfirmedOperation record).map (·.id))) =
        record.operations.map id :=
      (congrArg OperationJournalRecord.operations ht.compacted).trans (List.map_id _).symm
    intro o ho
    exact List.map_inj_left.mp hmap o (hsplit ▸ List.mem_append_left _ ho)
  have hmem : ∀ l ∈ latestConfirmedOperation record, l ∈ pre := by
    intro l hl
    rw [hbefore] at hl
    exact List.mem_reverse.mp (List.mem_of_find?_eq_some hl)
  have hids : (pre.map (·.id)).Nodup := by
    have hall := hv.ids
    rw [hsplit, List.map_append] at hall
    exact (List.nodup_append.mp hall).1
  -- what is freed is what the one confirmed before kept, if there is one
  have hsum := sum_freed hmem hids (fun o ho => (hpre o ho).1) hkeep
  rw [OperationJournalRecord.nodes, OperationJournalRecord.nodes, hops, freed]
  simp only [List.map_append, List.map_map, List.map_cons, List.map_nil, List.sum_append,
    List.sum_cons, List.sum_nil, Function.comp_def]
  omega

end Outcome

/-! ## Outcomes -/

/-- An operation that was submitted, of which the outcome is not known yet. -/
def JournalOperation.Submitted (op : JournalOperation) : Prop :=
  op.status = .submitting ∨ op.status = .uncertain

/-- A call that records an outcome of an operation, with evidence that passes its checks, and what
it makes of the operation. -/
inductive Outcome (scope : Scope) (op : JournalOperation) : Call → JournalOperation → Prop
  | doubt {op' : JournalOperation} : markUncertain op = .ok op' →
      Outcome scope op (.markUncertain op.id) op'
  | confirm {evidence : JournalConfirmationEvidence} {op' : JournalOperation} :
      Journal.confirm scope evidence op = .ok op' → Outcome scope op (.confirm op.id evidence) op'
  | reject {evidence : JournalRejectionEvidence} {op' : JournalOperation} :
      Journal.reject scope evidence op = .ok op' → Outcome scope op (.reject op.id evidence) op'

/-- The nodes of what is recorded as the receipt; null is one. -/
def Confirmation.nodes : Confirmation → ℕ
  | .definiteReceipt receipt => receipt.val.nodes
  | _ => 1

def Call.receiptNodes : Call → ℕ
  | .confirm _ evidence => evidence.kind.nodes
  | _ => 1

/-- There is room in a journal for what a call records. -/
structure Room (record : OperationJournalRecord) (c : Call) : Prop where
  revision : record.revision < Number.maxSafe
  nodes : record.toValue.nodes + c.receiptNodes ≤ MAX_NODES + 1 + freed record

section Records

variable {scope : Scope} {record : OperationJournalRecord} {op op' : JournalOperation} {c : Call}

theorem Outcome.transition (h : Outcome scope op c op') (hop : op.Valid) (submitted : List String) :
    Transition submitted op c op' := by
  cases h with
  | doubt h => exact markUncertain_ok h
  | confirm h => exact confirm_ok hop h
  | reject h => exact reject_ok h

theorem JournalOperation.Submitted.unreceived (hs : op.Submitted) (hop : op.Valid) :
    op.receipt = none := by
  by_contra hne
  have hst := hop.received hne
  rcases hs with h | h
  · rw [h] at hst
    cases hst
  · rw [h] at hst
    cases hst

/-- What a confirmation records as the receipt. -/
theorem confirm_receipt {evidence : JournalConfirmationEvidence} (hnone : op.receipt = none)
    (h : Journal.confirm scope evidence op = .ok op') :
    op'.receiptValue.nodes = evidence.kind.nodes ∧ op'.receiptValue.height ≤ 1 ∧
      evidence.kind.nodes ≤ 5 := by
  simp only [Journal.confirm, bind_ok_iff, require_ok_iff, exists_const, pure_ok_iff] at h
  obtain ⟨_, -, -, op₁, hest, op₂, hatt, rfl⟩ := h
  obtain ⟨t, -, rfl⟩ := attach_ok hatt
  cases hkind : evidence.kind with
  | definiteReceipt receipt =>
      rw [hkind] at hest
      simp only [establish, definiteReceipt, bind_ok_iff, require_ok_iff, exists_const,
        pure_ok_iff] at hest
      obtain ⟨-, r, hr, -, same, -, -, rfl⟩ := hest
      obtain ⟨rfl, hrec⟩ := receipt_of_ok receipt.property hr
      exact ⟨rfl, hrec.shape.2, hrec.shape.1⟩
  -- no receipt is recorded, and none was there
  | observedCandidate | observedEffect =>
      rw [hkind] at hest
      simp only [establish, bind_ok_iff, pure_ok_iff] at hest
      obtain ⟨-, -, rfl⟩ := hest
      show (op.receipt.getD .null).nodes = 1 ∧ (op.receipt.getD .null).height ≤ 1 ∧ 1 ≤ 5
      rw [hnone]
      exact ⟨rfl, Nat.zero_le _, by omega⟩
  | other =>
      rw [hkind] at hest
      cases hest

/-- What an outcome records as the receipt, and of which outcome. -/
theorem Outcome.receipt (h : Outcome scope op c op') (hop : op.Valid) (hs : op.Submitted) :
    op'.receiptValue.nodes = c.receiptNodes ∧ op'.receiptValue.height ≤ 1 ∧
      (op'.status = .confirmed ∨ c.receiptNodes = 1) ∧ c.receiptNodes ≤ 5 := by
  have hnone := hs.unreceived hop
  have hnull : (op.receipt.getD .null).nodes = 1 ∧ (op.receipt.getD .null).height ≤ 1 := by
    rw [hnone]
    exact ⟨rfl, Nat.zero_le _⟩
  cases h with
  | @doubt op' h =>
      have htr : Transition [] op (.markUncertain op.id) op' := markUncertain_ok h
      cases htr with
      | doubt _ => exact ⟨hnull.1, hnull.2, .inr rfl, Nat.le_add_left 1 4⟩
  | @confirm evidence op' h =>
      obtain ⟨h1, h2, h3⟩ := confirm_receipt hnone h
      have htr : Transition [] op (.confirm op.id evidence) op' := confirm_ok hop h
      cases htr with
      | confirm _ _ _ => exact ⟨h1, h2, .inl rfl, h3⟩
  | @reject evidence op' h =>
      have htr : Transition [] op (.reject op.id evidence) op' := reject_ok h
      cases htr with
      | reject _ _ => exact ⟨hnull.1, hnull.2, .inr rfl, Nat.le_add_left 1 4⟩

/-- What an amendment comes to where its own checks pass. -/
theorem amend_of_ok {update : JournalOperation → Result JournalOperation}
    (hv : record.Valid scope) (hop : op ∈ record.operations) (h : update op = .ok op')
    (hmax : record.revision < Number.maxSafe) (now : Time) :
    (amend op.id update now record).map some =
      .ok (some (.next (record.replace op.id (op'.touch now)) op.id)) := by
  have hne : decide (record.revision ≠ Number.maxSafe) = true := decide_eq_true hmax.ne
  refine map_ok_iff.mpr ⟨_, ?_, rfl⟩
  unfold amend
  rw [find_of_id hv hop rfl]
  simp only [bind_ok_iff, require_ok_iff, exists_const, pure_ok_iff]
  exact ⟨op', h, hne, rfl⟩

theorem Outcome.change (h : Outcome scope op c op') (hv : record.Valid scope)
    (hop : op ∈ record.operations) (hmax : record.revision < Number.maxSafe)
    (submitted : List String) (now : Time) : Journal.change scope submitted now record c =
      .ok (some (.next (record.replace op.id (op'.touch now)) op.id)) := by
  cases h with
  | doubt h => exact amend_of_ok hv hop h hmax now
  | confirm h => exact amend_of_ok hv hop h hmax now
  | reject h => exact amend_of_ok hv hop h hmax now

/-- What a tidy, stored journal becomes by an outcome fits where there is room, and only there. -/
theorem Outcome.fits_iff (h : Outcome scope op c op') (hv : record.Valid scope) (ht : Tidy record)
    (hfit : record.toValue.Fits) (hop : op ∈ record.operations) (hs : op.Submitted)
    (hmax : record.revision < Number.maxSafe) (now : Time) :
    (compact (record.replace op.id (op'.touch now))).toValue.Fits ↔
      record.toValue.nodes + c.receiptNodes ≤ MAX_NODES + 1 + freed record := by
  have hopv := hv.operations op hop
  have hpending : op.pending = true := by
    rcases hs with hs | hs
    · simp [JournalOperation.pending, hs]
    · simp [JournalOperation.pending, hs]
  -- an operation that is still pending is the last one
  obtain ⟨pre, hsplit, hpre⟩ := ht.split hv hop hpending
  obtain ⟨hnodes, hheight, hkind, -⟩ := h.receipt hopv hs
  have htr := h.transition hopv []
  have hsame : (op'.touch now).toPreparedOperation = op.toPreparedOperation :=
    htr.sameIntent.prepared
  have hvalid : (record.replace op.id (op'.touch now)).Valid scope :=
    valid_replace hv hop htr hmax.ne now
  have hnone : op.receiptValue.nodes = 1 := by
    rw [JournalOperation.receiptValue, hs.unreceived hopv]
    rfl
  have hnew : (op'.touch now).receiptValue.nodes = c.receiptNodes := hnodes
  have hne : ∀ o ∈ pre, o.id ≠ op.id := fun o ho => (hpre o ho).2
  -- only a confirmation frees anything
  by_cases hst : op'.status = .confirmed
  · have hopen : op.status ≠ .confirmed := by
      intro hc
      rcases hs with hs | hs
      · rw [hs] at hc
        cases hc
      · rw [hs] at hc
        cases hc
    have hid : (op'.touch now).id = op.id := congrArg PreparedOperation.id hsame
    have hclean := (valid_compact hvalid).clean
    rw [replace_last hsplit hne] at hclean ⊢
    have hrep := replaced_nodes hsplit hsame record.scope (record.revision + 1)
    have hconf := confirmed_nodes hv ht hsplit hpre hopen hid hst record.scope (record.revision + 1)
    constructor
    · rintro ⟨-, -, hle⟩
      omega
    · intro hle
      exact ⟨hclean, compact_height (replaced_height hfit.2.1 hsplit hsame hheight _ _), by omega⟩
  · have hone := hkind.resolve_left hst
    have hbefore := hfit.2.2
    constructor
    · intro _
      omega
    · intro _
      exact replaced_fits hfit hsplit hne hsame hheight (by omega) hvalid

end Records

/-! ## What is stored -/

/-- A call stores what becomes of an operation. -/
def Records (scope : Scope) (env : Env) (held : Held) (c : Call) (record : OperationJournalRecord)
    (op op' : JournalOperation) : Prop :=
  ∃ answer held', perform scope env c held = .ok answer held' ∧
    Holds held'.store scope (compact (record.replace op.id (op'.touch env.now)))

section Stored

variable {w : World} {lease : OpenLease} {record : OperationJournalRecord}
  {op op' : JournalOperation} {c : Call} {env : Env}

/-- A journal with an operation in it was written, so it fits. -/
theorem Holds.fits {store : Option Json.Text} {scope : Scope} (h : Holds store scope record)
    (hop : op ∈ record.operations) : record.toValue.Fits := by
  rcases h with ⟨-, rfl⟩ | ⟨text, -, -, henc⟩
  · cases hop
  · exact encodeVaultJson_ok_iff.mp ⟨text, henc⟩

/-- What a call that succeeded wrote. -/
theorem wrote_of_ok {answer : Answer} {held : Held} {id : String} {next : OperationJournalRecord}
    (hs : w.Sound) (hl : w.lease = some lease) (hr : Holds w.store lease.scope record)
    (hread : c ≠ .read) (hprepare : ∀ input, c ≠ .prepare input)
    (hc : record.revision < Number.maxSafe →
      change lease.scope lease.submittedInLease env.now record c = .ok (some (.next next id)))
    (h : perform lease.scope env c (lease.held w) = .ok answer held) :
    record.revision < Number.maxSafe ∧ (compact next).toValue.Fits := by
  cases perform_ok h with
  | looked _ => exact absurd rfl hread
  | repeated _ _ => exact absurd rfl (hprepare _)
  | wrote hreads hchange ht =>
      have hsame := hr.unique (hs.holds hl hreads)
      subst hsame
      have hmax : record.revision < Number.maxSafe := by
        cases change_writes hr.valid.operations hchange with
        | prepare _ _ _ _ _ => exact absurd rfl (hprepare _)
        | move _ _ hne => exact Nat.lt_of_le_of_ne hr.valid.revision hne
      have heq := (hc hmax).symm.trans hchange
      cases heq
      exact ⟨hmax, encodeVaultJson_ok_iff.mp ⟨_, ht⟩⟩

/-- **An outcome is stored where there is room for it**, and only there. -/
theorem Outcome.records_iff (ho : Outcome lease.scope op c op') (hs : w.Sound)
    (ht : Tidy record) (hl : w.lease = some lease) (hr : Holds w.store lease.scope record)
    (hop : op ∈ record.operations) (hsub : op.Submitted) (hrec : env.Recovers (lease.held w)) :
    Records lease.scope env (lease.held w) c record op op' ↔ Room record c := by
  have hv := hr.valid
  have hchange := fun hmax => ho.change hv hop hmax lease.submittedInLease env.now
  have hfits := fun hmax => ho.fits_iff hv ht (hr.fits hop) hop hsub hmax env.now
  constructor
  -- what was written fits, so there was room
  · rintro ⟨answer, held, h, -⟩
    have hread : c ≠ .read := by
      rintro rfl
      cases ho
    have hprepare : ∀ input, c ≠ .prepare input := by
      rintro input rfl
      cases ho
    obtain ⟨hmax, hfit⟩ := wrote_of_ok hs hl hr hread hprepare hchange h
    exact ⟨hmax, (hfits hmax).mp hfit⟩
  -- there is room, so the change can be written, by the method of the outcome
  · rintro ⟨hmax, hnodes⟩
    have hc := hchange hmax
    have hfit := (hfits hmax).mpr hnodes
    have hvalid := (change_writes hv.operations hc).valid hv
    have hknows := hs.knows hl hr
    have hlocked : false = true → ∀ check, env.unlocked check = true := by
      intro h
      cases h
    cases ho with
    | doubt h =>
        obtain ⟨text, henc, hm⟩ :=
          mutate_recovers (fun _ => markUncertain) hrec hlocked hknows hc hvalid hfit
        exact ⟨_, _, hm, hr.change hc henc⟩
    | confirm h =>
        obtain ⟨text, henc, hm⟩ :=
          mutate_recovers (fun _ => Journal.confirm lease.scope _) hrec hlocked hknows hc hvalid
            hfit
        exact ⟨_, _, hm, hr.change hc henc⟩
    | reject h =>
        obtain ⟨text, henc, hm⟩ :=
          mutate_recovers (fun _ => Journal.reject lease.scope _) hrec hlocked hknows hc hvalid hfit
        exact ⟨_, _, hm, hr.change hc henc⟩

/-- An acknowledgement takes no room. -/
theorem acknowledgement_records_iff (hs : w.Sound) (ht : Tidy record)
    (hl : w.lease = some lease) (hr : Holds w.store lease.scope record)
    (hop : op ∈ record.operations) (hack : op.acknowledged = false)
    (hok : acknowledgeConfirmed op = .ok op') (hcalm : env.Calm) :
    Records lease.scope env (lease.held w) (.acknowledgeConfirmed op.id) record op op' ↔
      record.revision < Number.maxSafe := by
  have hv := hr.valid
  have hopv := hv.operations op hop
  have htr : Transition [] op (.acknowledgeConfirmed op.id) op' := acknowledgeConfirmed_ok hok
  have hchange : record.revision < Number.maxSafe →
      change lease.scope lease.submittedInLease env.now record (.acknowledgeConfirmed op.id) =
        .ok (some (.next (record.replace op.id (op'.touch env.now)) op.id)) :=
    fun hmax => amend_of_ok hv hop hok hmax env.now
  constructor
  · rintro ⟨answer, held, h, -⟩
    have hread : Call.acknowledgeConfirmed op.id ≠ .read := by
      intro h
      cases h
    have hprepare : ∀ input, Call.acknowledgeConfirmed op.id ≠ .prepare input := by
      intro input h
      cases h
    exact (wrote_of_ok hs hl hr hread hprepare hchange h).1
  · intro hmax
    have hc := hchange hmax
    -- an acknowledgement changes a flag, so the record is as large as it was
    have hsame : (op'.touch env.now).toPreparedOperation = op.toPreparedOperation :=
      htr.sameIntent.prepared
    have hkept : (op'.touch env.now).receiptValue = op.receiptValue ∧ op.status = .confirmed := by
      cases htr with
      | acknowledge hst => exact ⟨rfl, hst⟩
    have hpending : op.pending = true := by
      rw [JournalOperation.pending, hkept.2, hack]
      rfl
    obtain ⟨pre, hsplit, hpre⟩ := ht.split hv hop hpending
    have hreceipt : op.receiptValue.height ≤ 1 := by
      rw [JournalOperation.receiptValue]
      cases hrec : op.receipt with
      | none => exact Nat.zero_le _
      | some r => exact (hopv.receipt r hrec).shape.2
    have hnew := replaced_fits (hr.fits hop) hsplit (fun o ho => (hpre o ho).2) hsame
      (hkept.1 ▸ hreceipt) (congrArg Value.nodes hkept.1) (valid_replace hv hop htr hmax.ne env.now)
    obtain ⟨text, henc, hp⟩ := perform_calm hcalm (hs.knows hl hr) hc hnew
    exact ⟨_, _, hp, hr.change hc henc⟩

end Stored

/-- **The outcome of a submitted operation can be recorded exactly if there is room for it**, in
every journal that sessions reach: a revision is left, and, for a receipt, enough nodes. -/
theorem outcomes_recorded {h : Trace} {w : World} {lease : OpenLease}
    {record : OperationJournalRecord} (r : Reaches h w) (hl : w.lease = some lease)
    (hr : Holds w.store lease.scope record) :
    (∀ op ∈ record.operations, op.Submitted → ∀ env, env.Recovers (lease.held w) →
      ∀ c op', Outcome lease.scope op c op' →
        (Records lease.scope env (lease.held w) c record op op' ↔ Room record c) ∧
        (c.receiptNodes = 1 → (Room record c ↔ record.revision < Number.maxSafe)) ∧
        c.receiptNodes ≤ 5) ∧
    ∀ op ∈ record.operations, op.acknowledged = false → ∀ op', acknowledgeConfirmed op = .ok op' →
      ∀ env, env.Calm →
        (Records lease.scope env (lease.held w) (.acknowledgeConfirmed op.id) record op op' ↔
          record.revision < Number.maxSafe) := by
  have hs := Reaches.sound r
  have ht := Reaches.tidy r lease.scope record hr
  constructor
  · intro op hop hsub env hrec c op' ho
    obtain ⟨-, -, -, hfive⟩ := ho.receipt (hr.valid.operations op hop) hsub
    refine ⟨ho.records_iff hs ht hl hr hop hsub hrec, fun hone => ?_, hfive⟩
    have hfit := (hr.fits hop).2.2
    exact ⟨Room.revision, fun hmax => ⟨hmax, by omega⟩⟩
  · intro op hop hack op' hok env hcalm
    exact acknowledgement_records_iff hs ht hl hr hop hack hok hcalm

/-! ## A journal that is full -/

/-- A draw with this candidate, submitted as the first operation of its journal. -/
def sampleSubmitting (snapshot : Value) : JournalOperation :=
  { (sampleDraw "op1" snapshot).operation 1 sampleEnv.now with status := .submitting }

def sampleRecordOf (op : JournalOperation) (revision : ℕ) : OperationJournalRecord :=
  ⟨sampleScope.val, revision, [op]⟩

theorem sampleRecordOf_nodes (op : JournalOperation) (revision : ℕ) :
    (sampleRecordOf op revision).toValue.nodes = 8 + op.toValue.nodes := by
  rw [OperationJournalRecord.nodes, sampleRecordOf, List.map_singleton, List.sum_singleton]

/-- It is submitted if it fits. -/
theorem sample_submitted {snapshot : Value} (hs : Snapshot snapshot)
    (hfit : (sampleSubmitting snapshot).toValue.nodes + 8 ≤ MAX_NODES)
    (hdeep : (sampleSubmitting snapshot).toValue.height + 2 ≤ MAX_DEPTH) :
    ∃ (h : Trace) (text : Json.Text) (lease : OpenLease), Reaches h ⟨some text, some lease⟩ ∧
      lease.scope = sampleScope ∧
      Holds (some text) sampleScope (sampleRecordOf (sampleSubmitting snapshot) 2) := by
  have hid : identifier 160 "op1" = true := by decide
  have hempty : Knows sampleScope ⟨none, none, []⟩ ⟨sampleScope.val, 0, []⟩ :=
    ⟨.inl ⟨rfl, rfl⟩, by simp⟩
  have hprepare : change sampleScope [] sampleEnv.now ⟨sampleScope.val, 0, []⟩
      (.prepare (sampleIntent "op1" ⟨snapshot, hs.1⟩)) =
        .ok (some (.next (sampleRecordOf ((sampleDraw "op1" snapshot).operation 1 sampleEnv.now) 1)
          "op1")) := by
    rw [change, sampleIntent_normalized hid hs.2]
    rfl
  -- as long as nothing but status and revision change, the size is the same
  have hsize : ∀ op : JournalOperation, op.toPreparedOperation = sampleDraw "op1" snapshot →
      op.receipt = none → ∀ n, (sampleRecordOf op n).Valid sampleScope →
      compact (sampleRecordOf op n) = sampleRecordOf op n →
      (compact (sampleRecordOf op n)).toValue.Fits := by
    intro op hp hnone n hvalid hcompact
    have hreceipt : op.receiptValue = (sampleSubmitting snapshot).receiptValue := by
      rw [JournalOperation.receiptValue, hnone]
      rfl
    have heffect : op.effectValue = (sampleSubmitting snapshot).effectValue := by
      rw [JournalOperation.effectValue, hp]
      rfl
    have hnodes : op.toValue.nodes = (sampleSubmitting snapshot).toValue.nodes := by
      rw [JournalOperation.nodes, JournalOperation.nodes, hreceipt, heffect, hp]
      rfl
    have hheight : op.toValue.height = (sampleSubmitting snapshot).toValue.height := by
      rw [JournalOperation.height, JournalOperation.height, hreceipt, heffect, hp]
      rfl
    rw [hcompact]
    refine ⟨hvalid.clean, ?_, ?_⟩
    · refine (OperationJournalRecord.height_le _).mpr ⟨by decide, fun o ho => ?_⟩
      rw [List.mem_singleton.mp ho, hheight]
      exact hdeep
    · rw [sampleRecordOf_nodes, hnodes, Nat.add_comm]
      exact hfit
  have hvalid := (change_writes (by simp) hprepare).valid (valid_empty sampleScope)
  -- the operation is prepared, and then it is marked
  obtain ⟨answer, text, lease, st, hscope, hmarked, hk⟩ :=
    Step.calm (w := ⟨none, some ⟨sampleScope, none, []⟩⟩) rfl sampleEnv_calm hempty hprepare
      (hsize _ rfl rfl _ hvalid rfl)
  have hstart : Reaches [] ⟨none, none⟩ := .start ⟨rfl, rfl⟩
  have r : Reaches _ _ := .next (hstart.next (.acquire rfl)) st
  have hsubmit : change lease.scope lease.submittedInLease sampleEnv.now
      (sampleRecordOf ((sampleDraw "op1" snapshot).operation 1 sampleEnv.now) 1)
      (.markSubmitting "op1" .undefined) =
        .ok (some (.next (sampleRecordOf (sampleSubmitting snapshot) 2) "op1")) := by
    rw [hmarked]
    rfl
  have hvalid' := (change_writes hvalid.operations hsubmit).valid hvalid
  have hk' : Knows lease.scope (lease.held ⟨some text, some lease⟩)
      (sampleRecordOf ((sampleDraw "op1" snapshot).operation 1 sampleEnv.now) 1) := by
    rw [hscope]
    exact hk
  obtain ⟨answer', text', lease', st', hscope', -, hk''⟩ :=
    Step.calm rfl sampleEnv_calm hk' hsubmit (hsize _ rfl rfl _ hvalid' rfl)
  refine ⟨_, text', lease', r.next st', hscope'.trans hscope, ?_⟩
  have hstore := hk''.store
  rw [hscope] at hstore
  exact hstore

/-- A snapshot of any size. -/
def nulls (n : ℕ) : Value := .array (List.replicate n .null)

theorem nulls_shape (n : ℕ) : (nulls n).Proper ∧ (nulls n).Clean ∧ (nulls n).nodes = n + 1 ∧
    (nulls n).height ≤ 1 := by
  have hitems : properItems (List.replicate n Value.null) ∧
      cleanItems (List.replicate n Value.null) ∧ nodesItems (List.replicate n Value.null) = n ∧
      levels (List.replicate n Value.null) ≤ 1 := by
    induction n with
    | zero => exact ⟨trivial, trivial, rfl, Nat.zero_le _⟩
    | succ n ih =>
        obtain ⟨h1, h2, h3, h4⟩ := ih
        rw [List.replicate_succ]
        refine ⟨⟨trivial, h1⟩, ⟨trivial, h2⟩, ?_, ?_⟩
        · rw [nodesItems, h3]
          show 1 + n = n + 1
          omega
        · rw [levels]
          exact max_le (Nat.le_refl 1) h4
  obtain ⟨h1, h2, h3, h4⟩ := hitems
  refine ⟨h1, h2, ?_, h4⟩
  rw [nulls, Value.nodes, h3]
  omega

def sampleTransaction : Data :=
  ⟨.object [("txHash", .string "t1"), ("executionMode", .string "local")],
    by decide, trivial, trivial, trivial⟩

def sampleReceipt : JournalConfirmationEvidence where
  scope := sampleScope.val
  transactionId := .undefined
  kind := .definiteReceipt sampleTransaction

theorem sampleTransaction_normal :
    normalizeReceipt sampleTransaction.val = .ok sampleTransaction.val := by
  have hcopy : clone sampleTransaction.val = .ok sampleTransaction.val :=
    (clone_ok_iff sampleTransaction.property).mpr ⟨rfl, ⟨trivial, trivial, trivial⟩, by decide,
      by decide⟩
  exact bind_ok_iff.mpr ⟨(), require_ok_iff.mpr (by decide), hcopy⟩

theorem sample_confirms (snapshot : Value) : ∃ op',
    Journal.confirm sampleScope sampleReceipt (sampleSubmitting snapshot) = .ok op' := by
  have hscope : sameScope sampleScope sampleReceipt.scope = .ok () :=
    bind_ok_iff.mpr ⟨_, sampleScope.property, require_ok_iff.mpr (decide_eq_true rfl)⟩
  have hreceipt : definiteReceipt sampleTransaction.val (sampleSubmitting snapshot) =
      .ok { sampleSubmitting snapshot with
        receipt := some sampleTransaction.val
        transactionId := some "t1" } := by
    refine bind_ok_iff.mpr ⟨(), require_ok_iff.mpr rfl, ?_⟩
    exact bind_ok_iff.mpr ⟨_, sampleTransaction_normal, rfl⟩
  refine ⟨{ sampleSubmitting snapshot with
    receipt := some sampleTransaction.val
    transactionId := some "t1"
    status := .confirmed }, ?_⟩
  refine bind_ok_iff.mpr ⟨(), hscope, bind_ok_iff.mpr ⟨(), require_ok_iff.mpr rfl, ?_⟩⟩
  exact bind_ok_iff.mpr ⟨_, hreceipt, rfl⟩

theorem sampleSubmitting_size (snapshot : Value) :
    (sampleSubmitting snapshot).toValue.nodes = snapshot.nodes + 16 ∧
      (sampleSubmitting snapshot).toValue.height = snapshot.height + 1 := by
  rw [JournalOperation.nodes, JournalOperation.height]
  show 13 + 1 + snapshot.nodes + 1 + 1 = _ ∧
    max (max (0 + 1) (snapshot.height + 1)) (max (0 + 1) (0 + 1)) = _
  omega

/-- A draw fills the journal and is submitted: that it succeeded cannot be recorded any more, that
its outcome is in doubt can. -/
theorem outcomes_recorded_sample : ∃ (h : Trace) (w : World) (lease : OpenLease)
    (record : OperationJournalRecord) (op op' op'' : JournalOperation),
    Reaches h w ∧ w.lease = some lease ∧ Holds w.store lease.scope record ∧
      op ∈ record.operations ∧ Journal.confirm lease.scope sampleReceipt op = .ok op' ∧
      ¬ Records lease.scope sampleEnv (lease.held w) (.confirm op.id sampleReceipt) record op op' ∧
      Records lease.scope sampleEnv (lease.held w) (.markUncertain op.id) record op op'' := by
  obtain ⟨snapshot, hs, hnodes, hheight⟩ : ∃ snapshot, Snapshot snapshot ∧
      snapshot.nodes = 99976 ∧ snapshot.height ≤ 1 := by
    obtain ⟨hproper, hclean, hnodes, hheight⟩ := nulls_shape 99975
    refine ⟨_, ⟨hproper, hclean, Nat.le_trans hheight (by decide), ?_⟩, hnodes, hheight⟩
    rw [hnodes]
    decide
  obtain ⟨hsize, hlevel⟩ := sampleSubmitting_size snapshot
  have hmax : MAX_NODES = 100000 := rfl
  have hdepth : MAX_DEPTH = 100 := rfl
  obtain ⟨h, text, lease, r, hscope, hstored⟩ := sample_submitted hs (by omega) (by omega)
  have hr : Holds (World.mk (some text) (some lease)).store lease.scope
      (sampleRecordOf (sampleSubmitting snapshot) 2) := by
    rw [hscope]
    exact hstored
  have hmem : sampleSubmitting snapshot ∈
      (sampleRecordOf (sampleSubmitting snapshot) 2).operations := List.mem_singleton.mpr rfl
  obtain ⟨op', hop'⟩ := sample_confirms snapshot
  rw [← hscope] at hop'
  have hrec := sampleEnv_calm.recovers (lease.held ⟨some text, some lease⟩)
  obtain ⟨hrecords, -⟩ := outcomes_recorded r rfl hr
  obtain ⟨hconfirm, -, -⟩ := hrecords _ hmem (.inl rfl) sampleEnv hrec _ op' (.confirm hop')
  obtain ⟨hdoubt, hroom, -⟩ := hrecords _ hmem (.inl rfl) sampleEnv hrec _ _ (.doubt rfl)
  have hrevision : 2 < Number.maxSafe := by decide
  refine ⟨h, _, lease, _, _, op', _, r, rfl, hr, hmem, hop', fun hyes => ?_,
    hdoubt.mpr ((hroom rfl).mpr hrevision)⟩
  -- the receipt has three nodes, and nothing was confirmed before
  have hfull := (hconfirm.mp hyes).nodes
  have hnone : freed (sampleRecordOf (sampleSubmitting snapshot) 2) = 0 := rfl
  have hthree : (Call.confirm (sampleSubmitting snapshot).id sampleReceipt).receiptNodes = 3 := rfl
  rw [sampleRecordOf_nodes, hsize, hnone, hthree] at hfull
  omega

end Line.Journal
