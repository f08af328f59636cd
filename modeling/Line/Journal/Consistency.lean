import Line.Journal.Submission

/-!
# The journal accepts what it writes

The validator describes every status and the order of the operations a second time. A
user is locked out if the two descriptions ever part, so whatever a lease writes has to
be accepted, at once and by every later read. What is lost between a write and a read is
nothing, and what compaction drops is nothing that is needed again.

A read compares the scope in the record with the lease's own. The key under which the
record is stored leaves the release out, so two releases open one journal, and the one
that did not write it is refused although nothing is wrong with the record
(`upgrade_mismatched`). The results here are therefore about runs whose leases are all of
one scope (`InScope`).

The other half is about a used id. An intent that differs from the one recorded under its
id is refused (`prepareIn_different`), with the conflict the source names wherever the new
intent is small enough to be written out for the comparison.
-/

namespace Line.Journal

open Vault Checked History

variable {scope : Scope} {h : Trace} {w : World}

/-! ## One scope -/

/-- What sessions of one scope have in their store. -/
structure InScope.State (scope : Scope) (w : World) : Prop where
  lease : ∀ lease, w.lease = some lease → lease.scope = scope
  store : ∃ record, Holds w.store scope record

theorem Reaches.inScope (r : Reaches h w) (hs : InScope scope h) : InScope.State scope w := by
  refine Run.invariant (I := fun h w => InScope scope h → InScope.State scope w) ?_ ?_ r hs
  -- at first no lease is open and nothing was stored
  · intro w hw _
    -- a lease has the scope it was acquired with, whatever it answers
    refine ⟨fun lease hl => ?_, ⟨_, .inl ⟨hw.1, rfl⟩⟩⟩
    rw [hw.2] at hl
    cases hl
  · intro h s l s' r ih st hin
    have hprev := ih fun e he => hin e (List.mem_cons_of_mem _ he)
    refine ⟨fun lease hl => ?_, ?_⟩
    · cases st with
      | acquire _ =>
          cases hl
          exact hin _ List.mem_cons_self _ rfl
      | release _ => cases hl
      | answered hlease _ | failed hlease _ =>
          cases hl
          have hscope := hprev.lease _ hlease
          exact hscope
    -- a write carries the scope of the record that it changed
    · cases st.stores (Reaches.sound r) with
      | same heq =>
          rw [heq]
          exact hprev.store
      | wrote hlease hr hc ht hw' =>
          rw [hw', ← hprev.lease _ hlease]
          exact ⟨_, hr.change hc ht⟩

/-- The store holds one journal. -/
theorem Holds.unique {store : Option Json.Text} {a b : OperationJournalRecord}
    (ha : Holds store scope a) (hb : Holds store scope b) : a = b := by
  rcases ha with ⟨rfl, rfl⟩ | ⟨text, rfl, hv, ht⟩
  · rcases hb with ⟨-, rfl⟩ | ⟨_, heq, -⟩
    · rfl
    · cases heq
  · rcases hb with ⟨heq, -⟩ | ⟨_, heq, hv', ht'⟩
    · cases heq
    · cases heq
      have hsame := encodeVaultJson_inj hv.proper hv'.proper ht ht'
      have hread := (read_back hv ht).2
      rw [hsame, (read_back hv' ht').2] at hread
      exact (Except.ok.inj hread).symm

/-- What a lease keeps is what is stored. -/
theorem World.Sound.knows (hs : w.Sound) {lease : OpenLease} (hl : w.lease = some lease)
    {record : OperationJournalRecord} (h : Holds w.store lease.scope record) :
    Knows lease.scope (lease.held w) record :=
  ⟨h, fun r hr => (hs.lease lease hl r hr).unique h⟩

/-! ## No false report of tampering -/

/-- A call of a session finds a store that opens, and its change is accepted. -/
theorem Step.honest {w' : World} {env : Env} {c : Call} {e : Error} (hs : w.Sound)
    (hopen : ∀ lease, w.lease = some lease → ∃ record, Holds w.store lease.scope record)
    (st : Step (.call env c (.error e)) w w') : Honest e := by
  cases st with
  | failed hl hp =>
      obtain ⟨record, hr⟩ := hopen _ hl
      refine (perform_error hp).2 ?_ ?_
      · intro text ht
        rcases hr with ⟨hnone, -⟩ | ⟨text', hstore, hv, henc⟩
        · cases hnone.symm.trans ht
        · cases hstore.symm.trans ht
          exact ⟨_, _, read_back hv henc⟩
      · intro r next id hreads hc
        have hv := (hs.holds hl hreads).valid
        exact ⟨_,
          validateRecord_of_valid (valid_compact ((change_writes hv.operations hc).valid hv))⟩

/-! ## What compaction does -/

/-- What a journal has become by compaction. -/
structure Compacts (record next : OperationJournalRecord) : Prop where
  scope : next.scope = record.scope
  revision : next.revision = record.revision
  /-- Operation by operation: nothing, or the snapshots of what is settled are dropped. -/
  operations : List.Forall₂ (fun op op' => op' = op ∨ op' = op.withoutSnapshots ∧
    (op.status = .rejected ∨ op.status = .confirmed ∧ op.acknowledged = true) ∧
    latestConfirmedOperation record ≠ some op) record.operations next.operations
  pending : List.Forall₂ (fun op op' => op.pending = true → op' = op)
    record.operations next.operations
  latest : latestConfirmedOperation next = latestConfirmedOperation record
  full : ∀ op ∈ latestConfirmedOperation next, op.snapshotsCompacted = false

theorem compacts_of_valid {record : OperationJournalRecord} (hr : record.Valid scope) :
    Compacts record (compact record) where
  scope := rfl
  revision := rfl
  operations := by
    rw [compact, List.forall₂_map_right_iff, List.forall₂_same]
    intro op _
    rcases retain_cases record op with heq | ⟨heq, hs, hne⟩
    · exact .inl heq
    -- only what is settled, and is not the latest confirmed one, loses its snapshots
    · refine .inr ⟨heq, ?_, fun hl => hne op hl rfl⟩
      simpa [JournalOperation.settled] using hs
  pending := by
    rw [compact, List.forall₂_map_right_iff, List.forall₂_same]
    intro op _ hp
    rcases retain_cases record op with heq | ⟨-, hs, -⟩
    · exact heq
    · -- what is settled is not pending
      rw [JournalOperation.settled] at hs
      rw [JournalOperation.pending] at hp
      cases hst : op.status <;> simp_all
  latest := latestConfirmed_compact hr
  full := by
    rw [latestConfirmed_compact hr]
    exact hr.latest

/-! ## Ids that were used before -/

/-- What a new intent is compared with: what is retained of the operation of that id. -/
def JournalOperation.compared (op : JournalOperation) (p : PreparedOperation) :
    PreparedOperation :=
  if op.snapshotsCompacted then p.forget else p

/-- The intent of a stored operation fits the codec, as the whole journal does. -/
theorem Holds.intent_fits {store : Option Json.Text} {record : OperationJournalRecord}
    (h : Holds store scope record) {op : JournalOperation} (hop : op ∈ record.operations) :
    op.toPreparedOperation.toValue.Fits := by
  rcases h with ⟨-, rfl⟩ | ⟨text, -, hv, ht⟩
  · cases hop
  · obtain ⟨-, hheight, hnodes⟩ := encodeVaultJson_ok_iff.mp ⟨text, ht⟩
    have hmem : op.toValue ∈ record.operations.map JournalOperation.toValue :=
      List.mem_map.mpr ⟨op, hop, rfl⟩
    obtain ⟨hn, hh⟩ := item_bounds hmem
    have hsub : op.toPreparedOperation.toValue.nodes ≤ op.toValue.nodes ∧
        op.toPreparedOperation.toValue.height ≤ op.toValue.height := by
      simp only [PreparedOperation.toValue, JournalOperation.toValue, Value.nodes, Value.height,
        nodesEntries_append, levelsEntries_append]
      omega
    simp only [OperationJournalRecord.toValue, Value.nodes, nodesEntries, Value.height,
      levelsEntries] at hheight hnodes
    exact ⟨(hv.operations op hop).normal.clean, by omega, by omega⟩

theorem find_of_id {record : OperationJournalRecord} (hr : record.Valid scope)
    {op : JournalOperation} (hop : op ∈ record.operations) {id : String} (hid : op.id = id) :
    record.operations.find? (fun o => o.id = id) = some op := by
  cases hf : record.operations.find? (fun o => o.id = id) with
  | none =>
      have := List.find?_eq_none.mp hf op hop
      simp [hid] at this
  | some o =>
      have ho : o.id = id := by simpa using List.find?_some hf
      rw [List.inj_on_of_nodup_map hr.ids (List.mem_of_find?_eq_some hf) hop (ho.trans hid.symm)]

section Reuse

variable {store : Option Json.Text} {record : OperationJournalRecord} {op : JournalOperation}
  {p : PreparedOperation}

theorem prepareIn_same (hr : Holds store scope record) (hop : op ∈ record.operations)
    (hid : op.id = p.id)
    (hsame : op.toPreparedOperation.toValue = (op.compared p).toValue) (now : Time) :
    prepareIn p now record = .ok (.existing op) := by
  have htext := sameText_self (hr.intent_fits hop)
  unfold prepareIn
  rw [find_of_id hr.valid hop hid]
  show (do
    let same ← sameText op.toPreparedOperation.toValue (op.compared p).toValue
    require same _
    pure (Proposal.existing op)) = _
  rw [← hsame, htext]
  rfl

theorem prepareIn_different (hr : Holds store scope record) (hop : op ∈ record.operations)
    (hp : p.Normal) (hid : op.id = p.id)
    (hne : op.toPreparedOperation.toValue ≠ (op.compared p).toValue)
    (hfit : (op.compared p).toValue.Fits) (now : Time) :
    prepareIn p now record
      = .error (.conflict "Operation ID was already used for a different intent.") := by
  have hnorm := (hr.valid.operations op hop).normal
  have hcompared : (op.compared p).Normal := by
    unfold JournalOperation.compared
    split
    · exact hp.forget
    · exact hp
  -- both texts can be written, so the comparison answers
  obtain ⟨a, ha⟩ := encodeVaultJson_ok_iff.mpr (hr.intent_fits hop)
  obtain ⟨b, hb⟩ := encodeVaultJson_ok_iff.mpr hfit
  -- equal texts would be equal intents
  have hab : a ≠ b := by
    intro heq
    rw [heq] at ha
    exact hne (encodeVaultJson_inj
      (PreparedOperation.proper hnorm.beforeSnapshot.1 hnorm.candidateSnapshot.1)
      (PreparedOperation.proper hcompared.beforeSnapshot.1 hcompared.candidateSnapshot.1) ha hb)
  have htext : sameText op.toPreparedOperation.toValue (op.compared p).toValue = .ok false := by
    rw [sameText, ha, hb]
    show Except.ok (decide (a = b)) = _
    rw [decide_eq_false hab]
  unfold prepareIn
  rw [find_of_id hr.valid hop hid]
  show (do
    let same ← sameText op.toPreparedOperation.toValue (op.compared p).toValue
    require same _
    pure (Proposal.existing op)) = _
  rw [htext]
  rfl

/-- The comparison writes both intents out, so it refuses one that is too large for that. -/
theorem prepareIn_unfit (hr : Holds store scope record) (hop : op ∈ record.operations)
    (hid : op.id = p.id) (hfit : ¬ (op.compared p).toValue.Fits) (now : Time) :
    ∃ message, prepareIn p now record = .error (.typeError message) := by
  obtain ⟨a, ha⟩ := encodeVaultJson_ok_iff.mpr (hr.intent_fits hop)
  cases hb : encodeVaultJson (op.compared p).toValue with
  | ok b => exact absurd (encodeVaultJson_ok_iff.mp ⟨b, hb⟩) hfit
  | error e =>
      obtain ⟨m, rfl⟩ := encodeVaultJson_typed (P := fun e => ∃ m, e = .typeError m)
        (fun m => ⟨m, rfl⟩) (op.compared p).toValue e hb
      refine ⟨m, ?_⟩
      unfold prepareIn
      rw [find_of_id hr.valid hop hid]
      show (do
        let same ← sameText op.toPreparedOperation.toValue (op.compared p).toValue
        require same _
        pure (Proposal.existing op)) = _
      rw [sameText, ha, hb]
      rfl

end Reuse

/-! ## Another release

The key of a journal leaves the release out, so a session of another release finds this one.
-/

section Other

variable {other : Scope} {env : Env} {record : OperationJournalRecord} {text : Json.Text}

/-- What a session is told that finds the journal of another scope. -/
def mismatched : Error := .tampered "Invalid or mismatched encrypted operation journal."

/-- The stored scope is compared as a whole. -/
theorem validateRecord_other (hr : record.Valid scope) (hne : other ≠ scope) :
    validateRecord record.toValue other.val = .error mismatched := by
  have hnone : checkedRecord record.toValue other.val = none := by
    cases hc : checkedRecord record.toValue other.val with
    | none => rfl
    | some r =>
        simp only [checkedRecord, Option.bind_eq_bind, Option.bind_eq_some_iff,
          Option.guard_eq_some', scopeOf_record, Option.some.injEq] at hc
        obtain ⟨-, -, -, -, stored, rfl, normalized, hnorm, -, heq, -⟩ := hc
        rw [hr.scope, scope.property] at hnorm
        cases hnorm
        exact absurd (Subtype.ext heq.symm) hne
  rw [validateRecord, hnone]
  rfl

/-- **No call of another release gets past reading the journal.** -/
theorem perform_other {c : Call} (hcalm : env.Calm) (hr : record.Valid scope)
    (ht : encodeVaultJson record.toValue = .ok text) (hne : other ≠ scope)
    (hc : ∀ input, c = .prepare input → ∃ p, normalizePrepared input.val = .ok p)
    (submitted : List String) :
    perform other env c ⟨some text, none, submitted⟩ =
      .error mismatched ⟨some text, none, submitted⟩ := by
  -- the text decrypts and reads back as the record that was written
  have hload : loadEncryptedJson env ⟨some text, none, submitted⟩ =
      .ok (some record.toValue) ⟨some text, none, submitted⟩ := by
    simp only [loadEncryptedJson, Stateful.bind_ok_iff, Stateful.get_bind]
    refine ⟨(), _, lift_ok (by rw [hcalm.loads]; rfl), lift_ok ?_⟩
    rw [openStore, (read_back hr ht).1]
    rfl
  -- the scope is the first thing the reader compares
  have hrefresh : refresh other env ⟨some text, none, submitted⟩ =
      .error mismatched ⟨some text, none, submitted⟩ := by
    simp only [refresh, readRecord, Stateful.bind_error_iff]
    exact .inl (.inr ⟨(), _, assertSession_calm hcalm _, .inr ⟨_, _, hload, .inr ⟨(), _,
      assertSession_calm hcalm _, lift_error (validateRecord_other hr hne)⟩⟩⟩)
  have hmutate : ∀ id b update, mutate other env id b update ⟨some text, none, submitted⟩ =
      .error mismatched ⟨some text, none, submitted⟩ := by
    intro id b update
    simp only [mutate, Stateful.bind_error_iff]
    exact .inl hrefresh
  -- every method reads the journal before it does anything else
  cases c with
  | read =>
      simp only [perform, Stateful.bind_error_iff]
      exact .inl hrefresh
  | prepare input =>
      obtain ⟨p, hp⟩ := hc input rfl
      simp only [perform, Stateful.bind_error_iff]
      exact .inr ⟨(), _, assertSession_calm hcalm _, .inr ⟨p, _, lift_ok hp, .inl hrefresh⟩⟩
  | markSubmitting id v =>
      simp only [perform, Stateful.bind_error_iff]
      exact .inl (hmutate id true _)
  | markUncertain id =>
      rw [perform]
      exact hmutate id false _
  | confirm id evidence =>
      rw [perform]
      exact hmutate id false _
  | reject id evidence =>
      rw [perform]
      exact hmutate id false _
  | abandonPrepared id =>
      rw [perform]
      exact hmutate id true _
  | acknowledgeConfirmed id =>
      rw [perform]
      exact hmutate id true _

end Other

/-! ## The journal of a scope -/

/-- What holds of the sessions of one scope. -/
structure Consistent (scope : Scope) (h : Trace) (w : World) : Prop where
  /-- No call reports that the journal was tampered with. -/
  honest : ∀ e ∈ h, ∀ env c err, e.label = .call env c (.error err) → Honest err
  /-- The store holds a journal, and every session reads just that one. -/
  read : ∃ record, Holds w.store scope record ∧ ∀ lease, w.lease = some lease →
    ∀ env : Env, env.Calm → ∃ held, held.store = w.store ∧
      perform scope env .read (lease.held w) = .ok (.record record) held
  /-- What passes the checks of a call is accepted, and reads back as it is written. -/
  accepted : ∀ record, Holds w.store scope record → ∀ submitted now c next id,
    change scope submitted now record c = .ok (some (.next next id)) →
      validateRecord (compact next).toValue scope.val = .ok (compact next) ∧
      (∀ text, encodeVaultJson (compact next).toValue = .ok text →
        decodeVaultJson text = .ok (compact next).toValue) ∧
      Compacts next (compact next)
  /-- The store changes only to what a call made of the journal in it. -/
  wrote : ∀ e ∈ h, e.post.store = e.pre.store ∨ ∃ (lease : OpenLease) (record : _) (env : Env)
    (c : Call) (next : OperationJournalRecord) (id : String),
    e.pre.lease = some lease ∧ Holds e.pre.store scope record ∧
      change scope lease.submittedInLease env.now record c = .ok (some (.next next id)) ∧
      Holds e.post.store scope (compact next)
  /-- As long as an operation keeps its snapshots they are those it was prepared with. -/
  snapshots : ∀ e ∈ h, ∀ op ∈ operations e.post.store, ∀ op' ∈ operations w.store,
    op'.id = op.id → op'.snapshotsCompacted = false →
      op'.beforeSnapshot = op.beforeSnapshot ∧ op'.candidateSnapshot = op.candidateSnapshot
  /-- The same intent again is answered with the operation that is there. -/
  repeated : ∀ lease, w.lease = some lease → ∀ env : Env, env.Calm → ∀ (input : Data) p,
    normalizePrepared input.val = .ok p → ∀ op ∈ operations w.store, op.id = p.id →
      op.toPreparedOperation.toValue = (op.compared p).toValue →
        ∃ held, held.store = w.store ∧
          perform scope env (.prepare input) (lease.held w) = .ok (.operation (some op)) held
  /-- Another intent under a used id is a conflict, or too large to be compared. -/
  refused : ∀ lease, w.lease = some lease → ∀ env : Env, env.Calm → ∀ (input : Data) p,
    normalizePrepared input.val = .ok p → ∀ op ∈ operations w.store, op.id = p.id →
      op.toPreparedOperation.toValue ≠ (op.compared p).toValue → ∃ held e, held.store = w.store ∧
        perform scope env (.prepare input) (lease.held w) = .error e held ∧
        ((op.compared p).toValue.Fits →
          e = .conflict "Operation ID was already used for a different intent.") ∧
        (¬ (op.compared p).toValue.Fits → ∃ message, e = .typeError message)
  /-- A session of another release, whose journal has the same key, is refused by whatever it
  calls, and changes nothing. -/
  other : w.store ≠ none → ∀ other : Scope, other ≠ scope → ∀ env : Env, env.Calm →
    ∀ c, (∀ input, c = .prepare input → ∃ p, normalizePrepared input.val = .ok p) →
      perform other env c ⟨w.store, none, []⟩ = .error mismatched ⟨w.store, none, []⟩

/-- **The journal of a scope is never refused by its own validator.** -/
theorem journal_consistent (r : Reaches h w) (hin : InScope scope h) : Consistent scope h w := by
  have hs := Reaches.sound r
  obtain ⟨hscope, record, hrec⟩ := Reaches.inScope r hin
  have hknows : ∀ lease, w.lease = some lease → Knows scope (lease.held w) record := by
    intro lease hl
    obtain rfl := hscope lease hl
    exact hs.knows hl hrec
  -- a recorded step was taken from such a state too
  have hbefore : ∀ e ∈ h, e.pre.Sound ∧ InScope.State scope e.pre ∧
      Step e.label e.pre e.post ∧ ∃ later, Run (· = e.post) Step later w := by
    intro e he
    obtain ⟨h₁, h₂, rfl, r₁, st, r₂⟩ := r.of_mem he
    refine ⟨Reaches.sound r₁, Reaches.inScope r₁ fun x hx => hin x ?_, st, h₂, r₂⟩
    exact List.mem_append_right _ (List.mem_cons_of_mem _ hx)
  refine ⟨?_, ⟨record, hrec, ?_⟩, ?_, ?_, ?_, ?_, ?_, ?_⟩
  · intro e he env c err hl
    obtain ⟨hsound, ⟨hsc, rec, hr⟩, st, -⟩ := hbefore e he
    rw [hl] at st
    refine st.honest hsound fun lease hlease => ⟨rec, ?_⟩
    rw [hsc lease hlease]
    exact hr
  · intro lease hl env hcalm
    exact ⟨⟨w.store, some record, lease.submittedInLease⟩, rfl,
      read_calm hcalm (hknows lease hl).store⟩
  · intro rec hr submitted now c next id hc
    have hv := (change_writes hr.valid.operations hc).valid hr.valid
    have hcv := valid_compact hv
    exact ⟨validateRecord_of_valid hcv, fun text ht => (read_back hcv ht).1,
      compacts_of_valid hv⟩
  · intro e he
    obtain ⟨hsound, ⟨hsc, -⟩, st, -⟩ := hbefore e he
    generalize e.label = l at st
    cases st.stores hsound with
    | same heq => exact .inl heq
    | wrote hl hr hc ht hpost =>
        have hnew := hr.change hc ht
        rw [hsc _ hl] at hr hc hnew
        rw [hpost]
        exact .inr ⟨_, _, _, _, _, _, hl, hr, hc, hnew⟩
  · intro e he op hop op' hop' hid hkept
    obtain ⟨hsound, -, st, later, r₂⟩ := hbefore e he
    obtain ⟨op₂, hop₂, hev⟩ := Continues.evolves (st.sound hsound) r₂ op hop
    obtain rfl := List.inj_on_of_nodup_map hs.single.1 hop' hop₂ (hid.trans hev.id.symm)
    exact (hev.snapshots hkept).2
  · intro lease hl env hcalm input p hp op hop hid hsame
    rw [hrec.operations] at hop
    refine ⟨⟨w.store, some record, lease.submittedInLease⟩, rfl,
      prepare_existing hcalm (hknows lease hl) ?_⟩
    rw [change, hp]
    show (prepareIn p env.now record).map some = _
    rw [prepareIn_same hrec hop hid hsame]
    rfl
  · intro lease hl env hcalm input p hp op hop hid hne
    rw [hrec.operations] at hop
    have hnorm := normalizePrepared_normal input.property hp
    by_cases hfit : (op.compared p).toValue.Fits
    · have ha := prepareIn_different hrec hop hnorm hid hne hfit env.now
      exact ⟨⟨w.store, some record, lease.submittedInLease⟩, _, rfl,
        prepare_refused hcalm (hknows lease hl) hp ha, fun _ => rfl, fun hno => absurd hfit hno⟩
    · obtain ⟨message, ha⟩ := prepareIn_unfit hrec hop hid hfit env.now
      exact ⟨⟨w.store, some record, lease.submittedInLease⟩, _, rfl,
        prepare_refused hcalm (hknows lease hl) hp ha, fun hyes => absurd hyes hfit,
        fun _ => ⟨message, rfl⟩⟩
  · intro hstore other hne env hcalm c hc
    rcases hrec with ⟨hnone, -⟩ | ⟨text, htext, hv, ht⟩
    · exact absurd hnone hstore
    · rw [htext]
      exact perform_other hcalm hv ht hne hc []

theorem journal_consistent_sample : ∃ h w, Consistent sampleScope h w ∧
    (operations w.store).map (fun op => (op.id, op.status)) = [("op1", .prepared)] := by
  obtain ⟨h, text, lease, r, hin, -, -, -, hk⟩ := sample_prepared
  have hops : operations (some text) = samplePrepared.operations := hk.store.operations
  refine ⟨h, _, journal_consistent r hin, ?_⟩
  rw [hops]
  rfl

/-! A snapshot may be as deep as the codec allows, but not inside the intent it belongs to. -/

def deep : ℕ → Value
  | 0 => .null
  | n + 1 => .array [deep n]

theorem deep_shape (n : ℕ) :
    (deep n).Proper ∧ (deep n).Clean ∧ (deep n).nodes = n + 1 ∧ (deep n).height = n := by
  induction n with
  | zero => exact ⟨trivial, trivial, rfl, rfl⟩
  | succ n ih =>
      obtain ⟨h1, h2, h3, h4⟩ := ih
      refine ⟨⟨h1, trivial⟩, ⟨h2, trivial⟩, ?_, ?_⟩
      · rw [deep, Value.nodes, nodesItems, nodesItems, h3]
        omega
      · rw [deep, Value.height, levels, levels, h4]
        omega

/-- A second intent with that id differs, and still it is no conflict. -/
theorem used_id_without_conflict : ∃ (h : Trace) (w : World) (lease : OpenLease) (env : Env)
    (input : Data) (p : PreparedOperation) (op : JournalOperation) (held : Held) (message : String),
    Reaches h w ∧ InScope sampleScope h ∧ w.lease = some lease ∧ env.Calm ∧
      normalizePrepared input.val = .ok p ∧ op ∈ operations w.store ∧ op.id = p.id ∧
      op.toPreparedOperation.toValue ≠ (op.compared p).toValue ∧
      perform sampleScope env (.prepare input) (lease.held w)
        = .error (.typeError message) held := by
  obtain ⟨h, text, lease, r, hin, -, -, -, hk⟩ := sample_prepared
  -- an intent as deep as a value may be: one level more does not fit the record
  obtain ⟨hproper, hclean, hnodes, hheight⟩ := deep_shape MAX_DEPTH
  have hid : identifier 160 "op1" = true := by decide +kernel
  have hfit : (deep MAX_DEPTH).Fits := ⟨hclean, hheight.le, by rw [hnodes]; decide⟩
  have hops : operations (some text) = samplePrepared.operations := hk.store.operations
  have hmem : (sampleDraw "op1" .null).operation 1 sampleEnv.now ∈ samplePrepared.operations :=
    List.mem_singleton.mpr rfl
  have hlarge : ¬ (sampleDraw "op1" (deep MAX_DEPTH)).toValue.Fits := by
    rintro ⟨-, hle, -⟩
    simp only [PreparedOperation.toValue, PreparedOperation.entries, Value.height, levelsEntries,
      sampleDraw, hheight] at hle
    omega
  -- so writing it out for the comparison is what fails
  obtain ⟨message, ha⟩ := prepareIn_unfit (p := sampleDraw "op1" (deep MAX_DEPTH)) hk.store hmem rfl
    hlarge sampleEnv.now
  have hne : (sampleDraw "op1" .null).toValue ≠ (sampleDraw "op1" (deep MAX_DEPTH)).toValue := by
    intro heq
    exact hlarge (heq ▸ hk.store.intent_fits hmem)
  have hn : normalizePrepared (sampleIntent "op1" ⟨deep MAX_DEPTH, hproper⟩).val
      = .ok (sampleDraw "op1" (deep MAX_DEPTH)) := sampleIntent_normalized hid hfit
  exact ⟨h, _, lease, sampleEnv, _, _, _, _, message, r, hin, rfl, sampleEnv_calm, hn,
    hops ▸ hmem, rfl, hne, prepare_refused sampleEnv_calm hk hn ha⟩

/-- The same network and contract, in the next release. -/
def upgradedScope : Scope :=
  ⟨⟨"preprod", word 'a', word 'c'⟩, by
    have ha : Word (word 'a') := word_normal (by decide) (by decide)
    have hc : Word (word 'c') := word_normal (by decide) (by decide)
    have hnet : validNetworkId "preprod" = true := by decide
    simp only [normalizeScope, ha _, hc _, hnet]
    rfl⟩

/-- A session prepares a draw and ends; the next release opens the same journal and reads. -/
theorem upgrade_mismatched : operationJournalStorageKey upgradedScope.val =
      operationJournalStorageKey sampleScope.val ∧
    ∃ (h : Trace) (w : World) (e : Event World Label), Reaches h w ∧ e ∈ h ∧
      (∀ e ∈ h, ∀ s, e.label = .acquire s → s = sampleScope ∨ s = upgradedScope) ∧
      sampleEnv.Calm ∧ e.label = .call sampleEnv .read (.error mismatched) := by
  obtain ⟨h, text, lease, r, hin, -, -, -, hk⟩ := sample_prepared
  have hne : upgradedScope ≠ sampleScope := fun heq =>
    absurd (congrArg (·.val.sourceFingerprint) heq) (by decide)
  obtain ⟨hnone, -⟩ | ⟨text', htext, hv, ht⟩ := hk.store
  · cases hnone
  · cases htext
    -- the store is the first release's, the lease that reads it the second's
    have hread := perform_other (c := .read) sampleEnv_calm hv ht hne nofun []
    have hfail := Step.failed (w := ⟨some text, some ⟨upgradedScope, none, []⟩⟩) rfl hread
    refine ⟨rfl, _, _, _, ((r.next (.release rfl)).next (.acquire rfl)).next hfail,
      List.mem_cons_self, ?_, sampleEnv_calm, rfl⟩
    -- the three steps after the first release's run
    intro e he s hl
    rcases List.mem_cons.mp he with rfl | he
    · cases hl
    · rcases List.mem_cons.mp he with rfl | he
      · cases hl
        exact .inr rfl
      · rcases List.mem_cons.mp he with rfl | he
        · cases hl
        · exact .inl (hin e he s hl)

/-- Two calls that the first statement does not allow. -/
theorem journal_consistent_fails :
    (∃ (h : Trace) (w : World) (lease : OpenLease) (env : Env) (input : Data)
      (p : PreparedOperation) (op : JournalOperation) (held : Held) (message : String),
      Reaches h w ∧ InScope sampleScope h ∧ w.lease = some lease ∧ env.Calm ∧
        normalizePrepared input.val = .ok p ∧ op ∈ operations w.store ∧ op.id = p.id ∧
        op.toPreparedOperation.toValue ≠ (op.compared p).toValue ∧
        perform sampleScope env (.prepare input) (lease.held w) =
          .error (.typeError message) held) ∧
    operationJournalStorageKey upgradedScope.val = operationJournalStorageKey sampleScope.val ∧
    ∃ (h : Trace) (w : World) (e : Event World Label), Reaches h w ∧ e ∈ h ∧
      (∀ e ∈ h, ∀ s, e.label = .acquire s → s = sampleScope ∨ s = upgradedScope) ∧
      sampleEnv.Calm ∧ e.label = .call sampleEnv .read (.error mismatched) :=
  ⟨used_id_without_conflict, upgrade_mismatched⟩

end Line.Journal
