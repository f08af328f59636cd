import Line.Journal.Refusals

/-!
# The journal stays valid

A valid journal that a method changes is valid again, and so is the compacted one that is
written. So what the lease writes is accepted, at once and by every later read.

Compaction drops the two snapshots of settled operations, other than the latest confirmed
one, and nothing else.

A method does one of two things to the operations: it appends a new one, with the next number and
while no other is pending (`valid_push`), or it moves one along its statuses and leaves its intent
as it is (`valid_replace`). What validity asks of the list then has to be carried over conjunct by
conjunct: ids and numbers stay different, at most one operation is pending, and each operation's
fields fit its status. Which operation is the latest confirmed one is a matter of the numbers
(`latestConfirmed_iff`), so it is the same before and after compaction, which looks at statuses
and numbers and changes neither.
-/

namespace Line.Journal

open Vault Checked

/-! ## One operation -/

/-- A transition leaves the intent, its number and its snapshots alone. -/
structure SameIntent (op op' : JournalOperation) : Prop where
  prepared : op'.toPreparedOperation = op.toPreparedOperation
  sequence : op'.sequence = op.sequence
  createdAt : op'.createdAt = op.createdAt
  compacted : op'.snapshotsCompacted = op.snapshotsCompacted

theorem Transition.sameIntent {submitted : List String} {c : Call} {op op' : JournalOperation}
    (h : Transition submitted op c op') : SameIntent op op' := by
  cases h <;> exact ⟨rfl, rfl, rfl, rfl⟩

theorem Attached.valid {old new : Option String} (h : Attached old new)
    (hold : ∀ t ∈ old, identifier 256 t = true) : ∀ t ∈ new, identifier 256 t = true := by
  rcases h with rfl | ⟨-, s, rfl, hs⟩
  · exact hold
  · intro t ht
    cases ht
    exact hs

theorem Received.valid {old new : Option Value} (h : Received old new)
    (hold : ∀ r ∈ old, Receipt r) : ∀ r ∈ new, Receipt r := by
  rcases h with rfl | ⟨-, s, rfl, hs⟩
  · exact hold
  · intro r hr
    cases hr
    exact hs

/-- Before its outcome is known an operation is as it was prepared, but for its transaction. -/
theorem JournalOperation.Valid.open_fields {op : JournalOperation} (h : op.Valid)
    (hc : op.status ≠ .confirmed) (hr : op.status ≠ .rejected) :
    op.acknowledged ≠ true ∧ op.receipt = none ∧ op.snapshotsCompacted ≠ true := by
  refine ⟨fun ha => hc (h.acknowledged ha), ?_, fun hk => ?_⟩
  · by_contra hne
    exact hc (h.received hne)
  · have hs := (h.compacted hk).1
    simp only [settled, Bool.or_eq_true, Bool.and_eq_true, beq_iff_eq] at hs
    rcases hs with hs | ⟨hs, -⟩
    · exact hr hs
    · exact hc hs

/-- A status that comes before the outcome. -/
theorem open_status {s a b : OperationStatus} (h : s = a ∨ s = b)
    (ha : a ≠ .confirmed ∧ a ≠ .rejected)
    (hb : b ≠ .confirmed ∧ b ≠ .rejected) : s ≠ .confirmed ∧ s ≠ .rejected := by
  rcases h with rfl | rfl
  · exact ha
  · exact hb

/-- **Every transition leads to a valid operation**, at any later time. -/
theorem Transition.valid {submitted : List String} {c : Call} {op op' : JournalOperation}
    (h : Transition submitted op c op') (hop : op.Valid) (now : Time) :
    (op'.touch now).Valid := by
  have hlate : max op.createdAt now ≤ Number.maxSafe := by
    have h1 := hop.times.trans hop.late
    have h2 := now.property
    simp only [Number.maxSafe] at h1 ⊢
    omega
  -- until the outcome is known nothing but the status and the transaction moves
  have hopen : op.status ≠ .confirmed ∧ op.status ≠ .rejected → ∀ status t,
      Attached op.transactionId t → JournalOperation.Valid
        { op with
          status := status
          transactionId := t
          updatedAt := max op.createdAt now } := by
    intro hst status t ht
    obtain ⟨h1, h2, h3⟩ := hop.open_fields hst.1 hst.2
    exact ⟨hop.normal, le_max_left _ _, hlate, ht.valid hop.transaction, hop.receipt,
      fun ha => absurd ha h1, fun hr => absurd h2 hr, fun hc => absurd hc h3⟩
  cases h with
  | submit hst ht =>
      have hcase : op.status = .prepared ∨ op.status = .submitting := hst.imp_right And.left
      exact hopen (open_status hcase (by decide) (by decide)) _ _ ht
  | doubt hst => exact hopen (open_status hst (by decide) (by decide)) _ _ (.inl rfl)
  | reject hst ht => exact hopen (open_status hst (by decide) (by decide)) _ _ ht
  | abandon hst =>
      have hcase : op.status = .prepared ∨ op.status = .prepared := .inl hst
      exact hopen (open_status hcase (by decide) (by decide)) _ _ (.inl rfl)
  | confirm hst ht hr =>
      refine ⟨hop.normal, le_max_left _ _, hlate, ht.valid hop.transaction, hr.valid hop.receipt,
        fun _ => rfl, fun _ => rfl, fun hc => ?_⟩
      obtain ⟨hs, hb, hcs⟩ := hop.compacted hc
      refine ⟨?_, hb, hcs⟩
      simp only [JournalOperation.settled, Bool.or_eq_true, Bool.and_eq_true, beq_iff_eq] at hs ⊢
      rcases hs with hs | ⟨-, ha⟩
      · rcases hst with h | h | h <;> rw [h] at hs <;> cases hs
      · exact .inr ⟨rfl, ha⟩
  | acknowledge hst =>
      refine ⟨hop.normal, le_max_left _ _, hlate, hop.transaction, hop.receipt,
        fun _ => hst, hop.received, fun hc => ?_⟩
      obtain ⟨-, hb, hcs⟩ := hop.compacted hc
      exact ⟨by simp [JournalOperation.settled, JournalOperation.touch, hst], hb, hcs⟩

/-- A settled operation is not pending, and no transition makes it so. -/
theorem Transition.pending {submitted : List String} {c : Call} {op op' : JournalOperation}
    (h : Transition submitted op c op') (hp : op'.pending = true) : op.pending = true := by
  cases h with
  | submit hst _ => rcases hst with h | ⟨h, -⟩ <;> simp [JournalOperation.pending, h]
  | doubt hst => rcases hst with h | h <;> simp [JournalOperation.pending, h]
  | reject hst _ => rcases hst with h | h <;> simp [JournalOperation.pending, h]
  | abandon hst => simp [JournalOperation.pending, hst]
  | confirm hst _ _ =>
      rcases hst with h | h | h
      · simp [JournalOperation.pending, h]
      · simp [JournalOperation.pending, h]
      · simpa [JournalOperation.pending, h] using hp
  | acknowledge hst => simp [JournalOperation.pending, hst] at hp

/-! ## The latest confirmed operation -/

/-- Numbers tell operations apart. -/
theorem eq_of_sequence {operations : List JournalOperation} {a b : JournalOperation}
    (hseq : operations.Pairwise fun a b => a.sequence < b.sequence) (ha : a ∈ operations)
    (hb : b ∈ operations) (heq : a.sequence = b.sequence) : a = b := by
  induction operations with
  | nil => cases ha
  | cons x operations ih =>
      rw [List.pairwise_cons] at hseq
      rcases List.mem_cons.mp ha with rfl | ha'
      · rcases List.mem_cons.mp hb with rfl | hb'
        · rfl
        · exact absurd heq (hseq.1 b hb').ne
      · rcases List.mem_cons.mp hb with rfl | hb'
        · exact absurd heq.symm (hseq.1 a ha').ne
        · exact ih hseq.2 ha' hb'

/-- The latest confirmed operation is the confirmed one with the largest number. -/
theorem latestConfirmed_iff {record : OperationJournalRecord}
    (hseq : record.operations.Pairwise fun a b => a.sequence < b.sequence) {op : JournalOperation} :
    latestConfirmedOperation record = some op ↔ op ∈ record.operations ∧ op.status = .confirmed
      ∧ ∀ o ∈ record.operations, o.status = .confirmed → o.sequence ≤ op.sequence := by
  have hmp : ∀ x, latestConfirmedOperation record = some x → x ∈ record.operations
      ∧ x.status = .confirmed
      ∧ ∀ o ∈ record.operations, o.status = .confirmed → o.sequence ≤ x.sequence := by
    intro x hx
    obtain ⟨hst, after, earlier, hsplit, hnone⟩ := List.find?_eq_some_iff_append.mp hx
    -- the search goes from the end, so what it passed has larger numbers and is not confirmed
    have hops : record.operations = earlier.reverse ++ x :: after.reverse := by
      have := congrArg List.reverse hsplit
      simpa using this
    refine ⟨by rw [hops]; simp, by simpa using hst, fun o ho hconf => ?_⟩
    rw [hops] at ho hseq
    rcases List.mem_append.mp ho with hbefore | hrest
    · exact (List.pairwise_append.mp hseq).2.2 o hbefore x List.mem_cons_self |>.le
    · rcases List.mem_cons.mp hrest with rfl | hafter
      · exact Nat.le_refl _
      · have := hnone o (List.mem_reverse.mp hafter)
        simp [hconf] at this
  refine ⟨hmp op, fun ⟨hmem, hconf, hmax⟩ => ?_⟩
  -- numbers are different, so there is one with the largest
  cases hl : latestConfirmedOperation record with
  | none =>
      have := List.find?_eq_none.mp hl op (List.mem_reverse.mpr hmem)
      simp [hconf] at this
  | some x =>
      obtain ⟨hx, hxc, hxmax⟩ := hmp x hl
      have heq : x.sequence = op.sequence := Nat.le_antisymm (hmax x hx hxc) (hxmax op hmem hconf)
      rw [eq_of_sequence hseq hx hmem heq]

/-! ## The whole journal -/

/-- The journal of a store that holds none. -/
theorem valid_empty (scope : Scope) : OperationJournalRecord.Valid scope ⟨scope.val, 0, []⟩ where
  scope := rfl
  revision := Nat.zero_le _
  size := Nat.zero_le _
  operations := by simp
  ids := by simp
  sequences := .nil
  numbered := by simp
  pending := by simp
  latest := by simp [latestConfirmedOperation]

theorem valid_operation {p : PreparedOperation} (hp : p.Normal) (sequence : ℕ) (now : Time) :
    (p.operation sequence now).Valid where
  normal := hp
  times := Nat.le_refl _
  late := by
    have := now.property
    show now.val ≤ Number.maxSafe
    simp only [Number.maxSafe]
    omega
  transaction := by simp [PreparedOperation.operation]
  receipt := by simp [PreparedOperation.operation]
  acknowledged := by simp [PreparedOperation.operation]
  received := by simp [PreparedOperation.operation]
  compacted := by simp [PreparedOperation.operation]

/-- A new operation is not the latest confirmed one. -/
theorem latestConfirmed_push {record : OperationJournalRecord} (p : PreparedOperation)
    (sequence : ℕ) (now : Time) :
    latestConfirmedOperation (record.push (p.operation sequence now))
      = latestConfirmedOperation record := by
  simp [latestConfirmedOperation, OperationJournalRecord.push, PreparedOperation.operation]

/-- **Preparing keeps the journal valid.** -/
theorem valid_push {scope : Scope} {record : OperationJournalRecord} {p : PreparedOperation}
    (hr : record.Valid scope) (hp : p.Normal) (hnew : ∀ op ∈ record.operations, op.id ≠ p.id)
    (hpend : ∀ op ∈ record.operations, op.pending = false) (hmax : record.revision ≠ Number.maxSafe)
    (hlen : record.operations.length < MAX_JOURNAL_OPERATIONS) (now : Time) :
    (record.push (p.operation (record.revision + 1) now)).Valid scope := by
  have hrev := hr.revision
  -- the conjuncts of validity, for the list with one more operation
  refine ⟨hr.scope, ?_, ?_, ?_, ?_, ?_, ?_, ?_, ?_⟩
  · show record.revision + 1 ≤ Number.maxSafe
    omega
  · rw [OperationJournalRecord.push, List.length_append]
    exact hlen
  · intro op hop
    rcases List.mem_append.mp hop with hold | hadd
    · exact hr.operations op hold
    · rw [List.mem_singleton.mp hadd]
      exact valid_operation hp _ now
  · rw [OperationJournalRecord.push, List.map_append, List.nodup_append]
    refine ⟨hr.ids, by simp, ?_⟩
    intro a ha b hb heq
    obtain ⟨op, hop, rfl⟩ := List.mem_map.mp ha
    rw [List.map_singleton, List.mem_singleton] at hb
    exact hnew op hop (heq.trans hb)
  · rw [OperationJournalRecord.push, List.pairwise_append]
    refine ⟨hr.sequences, List.pairwise_singleton _ _, ?_⟩
    intro a ha b hb
    rw [List.mem_singleton.mp hb]
    exact Nat.lt_succ_of_le (hr.numbered a ha).2
  · intro op hop
    rcases List.mem_append.mp hop with hold | hadd
    · exact ⟨(hr.numbered op hold).1, (hr.numbered op hold).2.trans (Nat.le_succ _)⟩
    · rw [List.mem_singleton.mp hadd]
      exact ⟨Nat.succ_pos _, Nat.le_refl _⟩
  · have hzero : record.operations.countP (·.pending) = 0 := by
      rw [List.countP_eq_zero]
      intro op hop
      simp [hpend op hop]
    rw [OperationJournalRecord.push, List.countP_append, hzero, Nat.zero_add]
    exact List.countP_le_length
  · rw [latestConfirmed_push]
    exact hr.latest

/-- The operation of an id, replaced by one with the same id and number. -/
structure Replaces (record : OperationJournalRecord) (op new : JournalOperation) : Prop where
  mem : op ∈ record.operations
  id : new.id = op.id
  sequence : new.sequence = op.sequence

/-- A transition replaces the operation it is about. -/
theorem Transition.replaces {submitted : List String} {c : Call} {record : OperationJournalRecord}
    {op op' : JournalOperation} (h : Transition submitted op c op') (hmem : op ∈ record.operations)
    (now : Time) : Replaces record op (op'.touch now) :=
  ⟨hmem, congrArg PreparedOperation.id h.sameIntent.prepared, h.sameIntent.sequence⟩

/-- What is in a journal after one operation was replaced. -/
theorem Replaces.mem_iff {scope : Scope} {record : OperationJournalRecord}
    {op new o : JournalOperation} (h : Replaces record op new) (hr : record.Valid scope) :
    o ∈ (record.replace op.id new).operations ↔ o = new ∨ o ∈ record.operations ∧ o ≠ op := by
  have hne : ∀ x ∈ record.operations, x.id = op.id ↔ x = op := fun x hx =>
    ⟨fun heq => List.inj_on_of_nodup_map hr.ids hx h.mem heq, fun heq => heq ▸ rfl⟩
  simp only [OperationJournalRecord.replace, List.mem_map]
  constructor
  · rintro ⟨x, hx, rfl⟩
    split
    · exact .inl rfl
    · next hid => exact .inr ⟨hx, fun heq => hid ((hne x hx).mpr heq)⟩
  · rintro (rfl | ⟨hmem, hneq⟩)
    · exact ⟨op, h.mem, if_pos rfl⟩
    · exact ⟨o, hmem, if_neg fun hid => hneq ((hne o hmem).mp hid)⟩

theorem Replaces.ids {record : OperationJournalRecord} {op new : JournalOperation}
    (h : Replaces record op new) :
    (record.replace op.id new).operations.map (·.id) = record.operations.map (·.id) := by
  simp only [OperationJournalRecord.replace, List.map_map]
  refine List.map_congr_left fun o _ => ?_
  simp only [Function.comp_apply]
  split
  · next heq => rw [h.id, heq]
  · rfl

theorem Replaces.sequences {scope : Scope} {record : OperationJournalRecord}
    {op new : JournalOperation} (h : Replaces record op new) (hr : record.Valid scope) :
    (record.replace op.id new).operations.Pairwise fun a b => a.sequence < b.sequence := by
  have hsame : ∀ o ∈ record.operations,
      (if o.id = op.id then new else o).sequence = o.sequence := by
    intro o ho
    split
    · next heq => rw [List.inj_on_of_nodup_map hr.ids ho h.mem heq, h.sequence]
    · rfl
  rw [OperationJournalRecord.replace, List.pairwise_map]
  refine hr.sequences.imp_of_mem fun {a b} ha hb hlt => ?_
  rw [hsame a ha, hsame b hb]
  exact hlt

/-- Replacing an operation by one that is pending only if it was adds nothing pending. -/
theorem Replaces.pending {scope : Scope} {record : OperationJournalRecord}
    {op new : JournalOperation} (h : Replaces record op new) (hr : record.Valid scope)
    (hp : new.pending = true → op.pending = true) :
    (record.replace op.id new).operations.countP (·.pending) ≤ 1 := by
  refine le_trans ?_ hr.pending
  rw [OperationJournalRecord.replace, List.countP_map]
  refine List.countP_mono_left fun o ho hpend => ?_
  simp only [Function.comp_apply] at hpend
  split at hpend
  · next heq => exact List.inj_on_of_nodup_map hr.ids ho h.mem heq ▸ hp hpend
  · exact hpend

/-- **A transition keeps the journal valid.** -/
theorem valid_replace {scope : Scope} {submitted : List String} {c : Call}
    {record : OperationJournalRecord} {op op' : JournalOperation} (hr : record.Valid scope)
    (hmem : op ∈ record.operations) (htr : Transition submitted op c op')
    (hmax : record.revision ≠ Number.maxSafe) (now : Time) :
    (record.replace op.id (op'.touch now)).Valid scope := by
  have hrev := hr.revision
  have hsame := htr.sameIntent
  have hrep : Replaces record op (op'.touch now) := htr.replaces hmem now
  have hpend : (op'.touch now).pending = true → op.pending = true := htr.pending
  refine ⟨hr.scope, ?_, ?_, ?_, ?_, hrep.sequences hr, ?_, hrep.pending hr hpend, ?_⟩
  · show record.revision + 1 ≤ Number.maxSafe
    omega
  · rw [OperationJournalRecord.replace, List.length_map]
    exact hr.size
  · intro o ho
    rcases (hrep.mem_iff hr).mp ho with rfl | ⟨hold, -⟩
    · exact htr.valid (hr.operations op hmem) now
    · exact hr.operations o hold
  · rw [hrep.ids]
    exact hr.ids
  · intro o ho
    rcases (hrep.mem_iff hr).mp ho with rfl | ⟨hold, -⟩
    · rw [hrep.sequence]
      exact ⟨(hr.numbered op hmem).1, (hr.numbered op hmem).2.trans (Nat.le_succ _)⟩
    · exact ⟨(hr.numbered o hold).1, (hr.numbered o hold).2.trans (Nat.le_succ _)⟩
  · -- an operation without snapshots was confirmed before, so it was the latest before
    intro o ho
    obtain ⟨hmo, hconf, hlast⟩ := (latestConfirmed_iff (hrep.sequences hr)).mp ho
    rcases (hrep.mem_iff hr).mp hmo with rfl | ⟨hold, hne⟩
    · by_contra hc
      have hcomp : op.snapshotsCompacted = true := by
        rw [← hsame.compacted]
        exact Bool.eq_true_of_not_eq_false hc
      have hset := ((hr.operations op hmem).compacted hcomp).1
      have hbefore : op.status = .confirmed := by
        simp only [JournalOperation.settled, Bool.or_eq_true, Bool.and_eq_true, beq_iff_eq] at hset
        rcases hset with hrej | ⟨hcf, -⟩
        · cases htr <;> simp_all
        · exact hcf
      have hlatest : latestConfirmedOperation record = some op := by
        refine (latestConfirmed_iff hr.sequences).mpr ⟨hmem, hbefore, fun x hx hxc => ?_⟩
        by_cases hxo : x = op
        · rw [hxo]
        · rw [← hrep.sequence]
          exact hlast x ((hrep.mem_iff hr).mpr (.inr ⟨hx, hxo⟩)) hxc
      rw [hr.latest op hlatest] at hcomp
      cases hcomp
    · by_contra hc
      -- another operation: it is still confirmed, and nothing later was confirmed before
      have hlatest : latestConfirmedOperation record = some o := by
        refine (latestConfirmed_iff hr.sequences).mpr ⟨hold, hconf, fun x hx hxc => ?_⟩
        by_cases hxo : x = op
        · rw [hxo]
          have hnew : (op'.touch now).status = .confirmed := by
            rw [hxo] at hxc
            cases htr <;> simp_all [JournalOperation.touch]
          rw [← hrep.sequence]
          exact hlast _ ((hrep.mem_iff hr).mpr (.inl rfl)) hnew
        · exact hlast x ((hrep.mem_iff hr).mpr (.inr ⟨hx, hxo⟩)) hxc
      exact hc (hr.latest o hlatest)

/-- **A change leaves the journal valid.** -/
theorem Writes.valid {scope : Scope} {submitted : List String} {now : Time} {c : Call}
    {record next : OperationJournalRecord} {id : String}
    (h : Writes submitted now record c next id) (hr : record.Valid scope) : next.Valid scope := by
  cases h with
  | @prepare input p hp hnew hpend hmax hlen =>
      exact valid_push hr (normalizePrepared_normal input.property hp) hnew hpend hmax hlen now
  | move hmem htr hmax => exact valid_replace hr hmem htr hmax now

/-! ## Compaction -/

/-- **What compaction does to an operation**: nothing, or it drops the snapshots of one that is
settled and not the latest confirmed. -/
theorem retain_cases (record : OperationJournalRecord) (op : JournalOperation) :
    retain ((latestConfirmedOperation record).map (·.id)) op = op ∨
      retain ((latestConfirmedOperation record).map (·.id)) op = op.withoutSnapshots
        ∧ op.settled = true ∧ ∀ o ∈ latestConfirmedOperation record, o.id ≠ op.id := by
  unfold retain
  split
  · next h =>
      refine .inr ⟨rfl, h.2, fun o ho heq => h.1 ?_⟩
      rw [ho, Option.map_some, heq]
  · exact .inl rfl

theorem withoutSnapshots_valid {op : JournalOperation} (h : op.Valid) (hs : op.settled = true) :
    op.withoutSnapshots.Valid :=
  ⟨h.normal.forget, h.times, h.late, h.transaction, h.receipt, h.acknowledged, h.received,
    fun _ => ⟨hs, rfl, rfl⟩⟩

/-- What compaction leaves alone. -/
theorem retain_fields (latest : Option String) (op : JournalOperation) :
    (retain latest op).id = op.id ∧ (retain latest op).sequence = op.sequence
      ∧ (retain latest op).status = op.status ∧ (retain latest op).pending = op.pending := by
  unfold retain
  split <;> exact ⟨rfl, rfl, rfl, rfl⟩

/-- The latest confirmed operation survives compaction with its snapshots. -/
theorem latestConfirmed_compact {scope : Scope} {record : OperationJournalRecord}
    (hr : record.Valid scope) :
    latestConfirmedOperation (compact record) = latestConfirmedOperation record := by
  have hseq : (compact record).operations.Pairwise fun a b => a.sequence < b.sequence := by
    rw [compact, List.pairwise_map]
    refine hr.sequences.imp fun {a b} hlt => ?_
    rw [(retain_fields _ a).2.1, (retain_fields _ b).2.1]
    exact hlt
  -- compaction changes neither a status nor a number
  cases hl : latestConfirmedOperation record with
  | none =>
      refine List.find?_eq_none.mpr fun o ho => ?_
      obtain ⟨x, hx, rfl⟩ := List.mem_map.mp (List.mem_reverse.mp ho)
      rw [(retain_fields _ x).2.2.1]
      exact List.find?_eq_none.mp hl x (List.mem_reverse.mpr hx)
  | some op =>
      obtain ⟨hmem, hconf, hmax⟩ := (latestConfirmed_iff hr.sequences).mp hl
      -- the one operation whose snapshots are kept whatever its status
      have hself : retain ((latestConfirmedOperation record).map (·.id)) op = op := by
        rw [retain, hl, if_neg]
        exact fun h => h.1 rfl
      refine (latestConfirmed_iff hseq).mpr ⟨?_, hconf, ?_⟩
      · exact List.mem_map.mpr ⟨op, hmem, hself⟩
      · intro o ho hoc
        obtain ⟨x, hx, rfl⟩ := List.mem_map.mp ho
        rw [(retain_fields _ x).2.1]
        rw [(retain_fields _ x).2.2.1] at hoc
        exact hmax x hx hoc

/-- **Compaction keeps the journal valid.** -/
theorem valid_compact {scope : Scope} {record : OperationJournalRecord}
    (hr : record.Valid scope) : (compact record).Valid scope := by
  refine ⟨hr.scope, hr.revision, ?_, ?_, ?_, ?_, ?_, ?_, ?_⟩
  · rw [compact, List.length_map]
    exact hr.size
  · intro o ho
    obtain ⟨op, hop, rfl⟩ := List.mem_map.mp ho
    -- a settled operation is well formed without its snapshots too
    rcases retain_cases record op with heq | ⟨heq, hs, -⟩
    · rw [heq]
      exact hr.operations op hop
    · rw [heq]
      exact withoutSnapshots_valid (hr.operations op hop) hs
  · rw [compact, List.map_map]
    have hsame : record.operations.map
        ((·.id) ∘ retain ((latestConfirmedOperation record).map (·.id)))
          = record.operations.map (·.id) :=
      List.map_congr_left fun o _ => (retain_fields _ o).1
    rw [hsame]
    exact hr.ids
  · rw [compact, List.pairwise_map]
    refine hr.sequences.imp fun {a b} hlt => ?_
    rw [(retain_fields _ a).2.1, (retain_fields _ b).2.1]
    exact hlt
  · intro o ho
    obtain ⟨op, hop, rfl⟩ := List.mem_map.mp ho
    rw [(retain_fields _ op).2.1]
    exact hr.numbered op hop
  · rw [compact, List.countP_map]
    -- what is pending after compaction was pending before
    refine le_trans (List.countP_mono_left fun o _ h => ?_) hr.pending
    rw [← (retain_fields _ o).2.2.2]
    exact h
  · rw [latestConfirmed_compact hr]
    exact hr.latest

end Line.Journal
