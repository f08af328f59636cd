import Line.Journal.Progress

/-!
# Nothing is submitted twice

The journal is what stands between a crash and a second transaction. Everything here is
about the stored operations, so it holds whichever sessions hold leases, in whichever
order, and wherever they crash.

Three facts carry the result: a stored operation only evolves (`Step.evolves`), an
operation leaves `prepared` only by a call that names it (`Step.leaves`), and the ids that
a lease may mark again were marked in the same lease (`Reaches.marked`).
-/

namespace Line.Journal

open Vault Checked History

/-! ## How a stored operation evolves -/

/-- What is never changed of an operation, and what is never taken back. -/
structure JournalOperation.Evolves (op op' : JournalOperation) : Prop where
  id : op'.id = op.id
  kind : op'.kind = op.kind
  fingerprint : op'.fingerprint = op.fingerprint
  before : op'.beforeCommitment = op.beforeCommitment
  candidate : op'.candidateCommitment = op.candidateCommitment
  effect : op'.expectedEffect = op.expectedEffect
  transaction : ∀ t, op.transactionId = some t → op'.transactionId = some t
  receipt : ∀ r, op.receipt = some r → op'.receipt = some r
  confirmed : op.status = .confirmed → op'.status = .confirmed
  rejected : op.status = .rejected → op'.status = .rejected
  /-- Snapshots are dropped, never changed. -/
  snapshots : op'.snapshotsCompacted = false → op.snapshotsCompacted = false ∧
    op'.beforeSnapshot = op.beforeSnapshot ∧ op'.candidateSnapshot = op.candidateSnapshot

theorem JournalOperation.Evolves.refl (op : JournalOperation) : op.Evolves op :=
  ⟨rfl, rfl, rfl, rfl, rfl, rfl, fun _ h => h, fun _ h => h, fun h => h, fun h => h,
    fun h => ⟨h, rfl, rfl⟩⟩

theorem JournalOperation.Evolves.trans {a b c : JournalOperation} (h : a.Evolves b)
    (h' : b.Evolves c) : a.Evolves c where
  id := h'.id.trans h.id
  kind := h'.kind.trans h.kind
  fingerprint := h'.fingerprint.trans h.fingerprint
  before := h'.before.trans h.before
  candidate := h'.candidate.trans h.candidate
  effect := h'.effect.trans h.effect
  transaction t ht := h'.transaction t (h.transaction t ht)
  receipt r hr := h'.receipt r (h.receipt r hr)
  confirmed hc := h'.confirmed (h.confirmed hc)
  rejected hr := h'.rejected (h.rejected hr)
  snapshots hs := by
    obtain ⟨h1, h2, h3⟩ := h'.snapshots hs
    obtain ⟨h4, h5, h6⟩ := h.snapshots h1
    exact ⟨h4, h2.trans h5, h3.trans h6⟩

/-- What is recorded once is kept. -/
theorem keeps {α : Type} {P : α → Prop} {old new : Option α}
    (h : new = old ∨ old = none ∧ ∃ a, new = some a ∧ P a) (a : α) (ha : old = some a) :
    new = some a := by
  rcases h with rfl | ⟨hnone, -⟩
  · exact ha
  · rw [hnone] at ha
    cases ha

theorem Transition.evolves {submitted : List String} {c : Call} {op op' : JournalOperation}
    (h : Transition submitted op c op') (now : Time) : op.Evolves (op'.touch now) := by
  -- a transition changes fields of the outcome; the intent it leaves alone
  have hsnap : op'.snapshotsCompacted = false → op.snapshotsCompacted = false ∧
      op'.beforeSnapshot = op.beforeSnapshot ∧ op'.candidateSnapshot = op.candidateSnapshot := by
    have hsame := h.sameIntent
    exact fun hc => ⟨hsame.compacted ▸ hc, congrArg PreparedOperation.beforeSnapshot hsame.prepared,
      congrArg PreparedOperation.candidateSnapshot hsame.prepared⟩
  -- a final status is never a source of a transition, so that what is confirmed or rejected stays
  -- so
  cases h with
  | submit hst ht =>
      refine ⟨rfl, rfl, rfl, rfl, rfl, rfl, keeps ht, fun _ h => h, ?_, ?_, hsnap⟩ <;>
        rcases hst with h | ⟨h, -⟩ <;> simp [h]
  | doubt hst =>
      refine ⟨rfl, rfl, rfl, rfl, rfl, rfl, fun _ h => h, fun _ h => h, ?_, ?_, hsnap⟩ <;>
        rcases hst with h | h <;> simp [h]
  | confirm hst ht hr =>
      refine ⟨rfl, rfl, rfl, rfl, rfl, rfl, keeps ht, keeps hr, fun _ => rfl, ?_, hsnap⟩
      rcases hst with h | h | h <;> simp [h]
  | reject hst ht =>
      refine ⟨rfl, rfl, rfl, rfl, rfl, rfl, keeps ht, fun _ h => h, ?_, fun _ => rfl, hsnap⟩
      rcases hst with h | h <;> simp [h]
  | abandon hst =>
      refine ⟨rfl, rfl, rfl, rfl, rfl, rfl, fun _ h => h, fun _ h => h, ?_, fun _ => rfl, hsnap⟩
      simp [hst]
  | acknowledge hst =>
      exact ⟨rfl, rfl, rfl, rfl, rfl, rfl, fun _ h => h, fun _ h => h, fun h => h, fun h => h,
        hsnap⟩

theorem retain_evolves (latest : Option String) (op : JournalOperation) :
    op.Evolves (retain latest op) := by
  unfold retain
  split
  · refine ⟨rfl, rfl, rfl, rfl, rfl, rfl, fun _ h => h, fun _ h => h, fun h => h, fun h => h, ?_⟩
    intro hc
    cases hc
  · exact .refl op

/-- Every operation of a journal is in the one that is written over it. -/
theorem Writes.evolves {scope : Scope} {submitted : List String} {now : Time} {c : Call}
    {record next : OperationJournalRecord} {id : String} (hr : record.Valid scope)
    (h : Writes submitted now record c next id) {op : JournalOperation}
    (hop : op ∈ record.operations) : ∃ op' ∈ (compact next).operations, op.Evolves op' := by
  have hkept : ∀ o ∈ next.operations, op.Evolves o →
      ∃ op' ∈ (compact next).operations, op.Evolves op' := fun o ho he =>
    ⟨_, List.mem_map.mpr ⟨o, ho, rfl⟩, he.trans (retain_evolves _ o)⟩
  cases h with
  | prepare _ _ _ _ _ => exact hkept op (List.mem_append_left _ hop) (.refl op)
  | @move _ x x' hmem htr _ =>
      have hrep : Replaces record x (x'.touch now) := htr.replaces hmem now
      by_cases hx : op = x
      · rw [hx] at hkept ⊢
        exact hkept _ ((hrep.mem_iff hr).mpr (.inl rfl)) (htr.evolves now)
      · exact hkept op ((hrep.mem_iff hr).mpr (.inr ⟨hop, hx⟩)) (.refl op)

/-- **Stored operations only evolve.** -/
theorem Step.evolves {w w' : World} {l : Label} (hs : w.Sound) (st : Step l w w') :
    ∀ op ∈ operations w.store, ∃ op' ∈ operations w'.store, op.Evolves op' := by
  intro op hop
  cases st.stores hs with
  | same hsame =>
      rw [hsame]
      exact ⟨op, hop, .refl op⟩
  | wrote _ hr hc ht hw' =>
      rw [hr.operations] at hop
      rw [hw', (hr.change hc ht).operations]
      exact (change_writes hr.valid.operations hc).evolves hr.valid hop

/-- … however long sessions go on. -/
theorem Continues.evolves {h' : Trace} {w w' : World} (hs : w.Sound)
    (r : Run (· = w) Step h' w') :
    ∀ op ∈ operations w.store, ∃ op' ∈ operations w'.store, op.Evolves op' := by
  have hP : w'.Sound ∧ ∀ op ∈ operations w.store, ∃ op' ∈ operations w'.store, op.Evolves op' := by
    refine Run.preserves (P := fun x => x.Sound ∧
      ∀ op ∈ operations w.store, ∃ op' ∈ operations x.store, op.Evolves op') ?_ r
        ⟨hs, fun op hop => ⟨op, hop, .refl op⟩⟩
    intro l x x' hx st
    refine ⟨st.sound hx.1, fun op hop => ?_⟩
    obtain ⟨op₁, hop₁, h₁⟩ := hx.2 op hop
    obtain ⟨op₂, hop₂, h₂⟩ := st.evolves hx.1 op₁ hop₁
    exact ⟨op₂, hop₂, h₁.trans h₂⟩
  exact hP.2

/-! ## What is stored of a journal -/

/-- The ids of what is stored are distinct, and at most one operation is pending. -/
theorem World.Sound.single {w : World} (hs : w.Sound) :
    ((operations w.store).map (·.id)).Nodup ∧ (operations w.store).countP (·.pending) ≤ 1 := by
  cases hw : w.store with
  | none => exact ⟨.nil, Nat.zero_le _⟩
  | some text =>
      obtain ⟨scope, record, hr, ht⟩ := hs.store text hw
      have hholds : Holds (some text) scope record := .inr ⟨text, rfl, hr, ht⟩
      rw [hholds.operations]
      exact ⟨hr.ids, hr.pending⟩

/-! ## New operations -/

/-- **An operation is added only by `prepare`, while nothing is pending.** -/
theorem Step.adds {w w' : World} {l : Label} (hs : w.Sound) (st : Step l w w')
    {op : JournalOperation} (hop : op ∈ operations w'.store)
    (hnew : ∀ o ∈ operations w.store, o.id ≠ op.id) :
    op.status = .prepared ∧ (∀ o ∈ operations w.store, o.pending = false) ∧
      ∃ env input answer, l = .call env (.prepare input) (.ok answer) := by
  cases st.stores hs with
  | same hsame =>
      rw [hsame] at hop
      exact absurd rfl (hnew op hop)
  | @wrote _ env _ _ _ _ _ _ hr hc ht hw' =>
      rw [hw', (hr.change hc ht).operations] at hop
      rw [hr.operations] at hnew ⊢
      -- what is stored is the compacted list, which has the same ids and statuses
      obtain ⟨o, ho, rfl⟩ := List.mem_map.mp hop
      rw [(retain_fields _ o).2.2.1]
      rw [(retain_fields _ o).1] at hnew
      cases change_writes hr.valid.operations hc with
      | prepare _ _ hpend _ _ =>
          rcases List.mem_append.mp ho with hold | hadd
          · exact absurd rfl (hnew o hold)
          · rw [List.mem_singleton.mp hadd]
            exact ⟨rfl, hpend, _, _, _, rfl⟩
      | @move _ x x' hmem htr _ =>
          -- a transition keeps the ids, so it adds none
          have hrep := htr.replaces hmem env.now
          rcases (hrep.mem_iff hr.valid).mp ho with rfl | ⟨hold, -⟩
          · exact absurd hrep.id.symm (hnew x hmem)
          · exact absurd rfl (hnew o hold)

/-! ## Leaving `prepared` -/

/-- What ends the time an operation is only prepared: the step wrote one of these. -/
inductive Leaves (id : String) : Label → OperationStatus → Prop
  | submitted {env : Env} {v : Value} {answer : Answer} :
      Leaves id (.call env (.markSubmitting id v) (.ok answer)) .submitting
  | abandoned {env : Env} {answer : Answer} :
      Leaves id (.call env (.abandonPrepared id) (.ok answer)) .rejected

/-- **An operation leaves `prepared` only by a call that names it and was written.** -/
theorem Step.leaves {w w' : World} {l : Label} (hs : w.Sound) (st : Step l w w')
    {op op' : JournalOperation} (hop : op ∈ operations w.store) (hp : op.status = .prepared)
    (hop' : op' ∈ operations w'.store) (hid : op'.id = op.id) (hq : op'.status ≠ .prepared) :
    Leaves op.id l op'.status := by
  cases st.stores hs with
  | same hsame =>
      -- ids are distinct, so nothing stored has changed
      rw [hsame] at hop'
      obtain rfl := List.inj_on_of_nodup_map hs.single.1 hop' hop hid
      exact absurd hp hq
  | @wrote _ env _ record _ _ _ _ hr hc ht hw' =>
      rw [hw', (hr.change hc ht).operations] at hop'
      rw [hr.operations] at hop
      obtain ⟨o, ho, rfl⟩ := List.mem_map.mp hop'
      rw [(retain_fields _ o).1] at hid
      rw [(retain_fields _ o).2.2.1] at hq ⊢
      have hids := hr.valid.ids
      cases change_writes hr.valid.operations hc with
      | prepare _ _ _ _ _ =>
          rcases List.mem_append.mp ho with hold | hadd
          · obtain rfl := List.inj_on_of_nodup_map hids hold hop hid
            exact absurd hp hq
          · rw [List.mem_singleton.mp hadd] at hq
            exact absurd rfl hq
      | @move _ x x' hmem htr _ =>
          have hrep := htr.replaces hmem env.now
          rcases (hrep.mem_iff hr.valid).mp ho with rfl | ⟨hold, -⟩
          · have hxo : x = op := List.inj_on_of_nodup_map hids hmem hop (hrep.id.symm.trans hid)
            rw [hxo] at htr
            cases htr with
            | submit _ _ => exact .submitted
            | abandon _ => exact .abandoned
            | doubt hst => rcases hst with h | h <;> rw [hp] at h <;> cases h
            | confirm hst _ _ => rcases hst with h | h | h <;> rw [hp] at h <;> cases h
            | reject hst _ => rcases hst with h | h <;> rw [hp] at h <;> cases h
            | acknowledge hst =>
                rw [hp] at hst
                cases hst
          · obtain rfl := List.inj_on_of_nodup_map hids hold hop hid
            exact absurd hp hq

/-! ## Marking a submission -/

/-- A `markSubmitting` that was answered. -/
inductive Label.Marks (id : String) : Label → Prop
  | answered {env : Env} {v : Value} {answer : Answer} :
      Label.Marks id (.call env (.markSubmitting id v) (.ok answer))

/-- Neither the end nor the beginning of a lease. -/
def Label.IsCall : Label → Prop
  | .call .. => True
  | _ => False

/-- The step moved the operation of an id from `prepared` into submission. -/
def Submits (id : String) (e : Event World Label) : Prop :=
  e.label.Marks id ∧ ∃ op ∈ operations e.pre.store, op.id = id ∧ op.status = .prepared

/-- Since the last lease was acquired. -/
def InLease (P : Event World Label → Prop) (h : Trace) : Prop :=
  ∃ later e earlier, h = later ++ e :: earlier ∧ P e ∧ ∀ x ∈ later, x.label.IsCall

theorem InLease.next {P : Event World Label → Prop} {h : Trace} (hi : InLease P h)
    {e : Event World Label} (he : e.label.IsCall) : InLease P (e :: h) := by
  obtain ⟨later, e₀, earlier, rfl, hP, hall⟩ := hi
  exact ⟨e :: later, e₀, earlier, rfl, hP, List.forall_mem_cons.mpr ⟨he, hall⟩⟩

/-- What `markSubmitting` finds when it succeeds. -/
theorem Step.marks {w w' : World} {l : Label} (hs : w.Sound) (st : Step l w w') {id : String}
    (hl : l.Marks id) : ∃ lease, w.lease = some lease ∧ ∃ op ∈ operations w.store, op.id = id ∧
      (op.status = .prepared ∨ op.status = .submitting ∧ id ∈ lease.submittedInLease) := by
  cases st with
  | acquire _ => cases hl
  | release _ => cases hl
  | failed _ _ => cases hl
  | answered hlease h =>
      cases perform_ok h with
      | looked _ => cases hl
      | repeated _ _ => cases hl
      | wrote hr hc ht =>
          -- the check ran on the record that is stored
          have hholds := hs.holds hlease hr
          refine ⟨_, hlease, ?_⟩
          rw [hholds.operations]
          cases change_writes hholds.valid.operations hc with
          | prepare _ _ _ _ _ => cases hl
          | move hmem htr _ =>
              -- of the transitions only this one is a call of `markSubmitting`
              cases htr with
              | submit hst _ =>
                  cases hl
                  exact ⟨_, hmem, rfl, hst⟩
              | doubt | confirm | reject | abandon | acknowledge => cases hl

/-- **What a lease may mark again it marked first**, while it was prepared. -/
theorem Reaches.marked {h : Trace} {w : World} (r : Reaches h w) :
    ∀ lease, w.lease = some lease → ∀ id ∈ lease.submittedInLease, InLease (Submits id) h := by
  refine Run.invariant (I := fun h w => ∀ lease, w.lease = some lease →
    ∀ id ∈ lease.submittedInLease, InLease (Submits id) h) ?_ ?_ r
  -- no lease is open at first
  · intro w hw lease hl
    rw [hw.2] at hl
    cases hl
  · intro h s l s' r ih st lease hl id hid
    have hs := Reaches.sound r
    cases st with
    | acquire _ =>
        cases hl
        cases hid
    | release _ => cases hl
    | @failed _ lease₀ _ _ _ _ hlease hf =>
        cases hl
        -- a call that fails leaves the list of the lease alone
        have hkept : id ∈ lease₀.submittedInLease := by
          rcases (perform_error hf).1 with rfl | ⟨_, _, rfl⟩ <;> exact hid
        exact (ih _ hlease id hkept).next trivial
    | @answered _ lease₀ env c answer _ hlease ha =>
        cases hl
        by_cases hold : id ∈ lease₀.submittedInLease
        · exact (ih _ hlease id hold).next trivial
        · -- the call itself is the first to mark this id
          have hmarks : Label.Marks id (.call env c (.ok answer)) := by
            cases perform_ok ha with
            | looked _ => exact absurd hid hold
            | repeated _ _ => exact absurd hid hold
            | wrote _ _ _ =>
                cases c with
                | markSubmitting i v =>
                    rcases List.mem_cons.mp hid with heq | hmem
                    · rw [heq]
                      exact .answered
                    · exact absurd hmem hold
                | read | prepare | markUncertain | confirm | reject | abandonPrepared
                  | acknowledgeConfirmed => exact absurd hid hold
          obtain ⟨lease₁, hl₁, op, hop, hopid, hst⟩ :=
            (Step.answered hlease ha).marks hs hmarks
          rw [hlease] at hl₁
          cases hl₁
          rcases hst with hp | ⟨-, hin⟩
          · exact ⟨[], _, _, rfl, ⟨hmarks, op, hop, hopid, hp⟩, by simp⟩
          · exact absurd hin hold

/-! ## The discipline of the journal -/

/-- What holds of a run of sessions on one journal. -/
structure Discipline (h : Trace) (w : World) : Prop where
  /-- At most one stored operation is pending, and ids are unique. -/
  single : ((operations w.store).map (·.id)).Nodup
    ∧ (operations w.store).countP (·.pending) ≤ 1
  /-- A new id is prepared only while nothing is pending. -/
  admitted : ∀ e ∈ h, ∀ op ∈ operations e.post.store,
    (∀ o ∈ operations e.pre.store, o.id ≠ op.id) →
      op.status = .prepared ∧ (∀ o ∈ operations e.pre.store, o.pending = false) ∧
        ∃ env input answer, e.label = .call env (.prepare input) (.ok answer)
  /-- Whatever was stored is still there, and only evolved. -/
  evolves : ∀ e ∈ h, ∀ op ∈ operations e.pre.store, ∃ op' ∈ operations w.store, op.Evolves op'
  /-- It leaves `prepared` by a durable `markSubmitting` or `abandonPrepared`. -/
  leaves : ∀ e ∈ h, ∀ op ∈ operations e.pre.store, ∀ op' ∈ operations e.post.store,
    op'.id = op.id → op.status = .prepared → op'.status ≠ .prepared →
      Leaves op.id e.label op'.status
  /-- `markSubmitting` succeeds on what is prepared, or again in the lease that submitted it. -/
  marked : ∀ later e earlier, h = later ++ e :: earlier → ∀ id, e.label.Marks id →
    ∃ op ∈ operations e.pre.store, op.id = id ∧
      (op.status = .prepared ∨ op.status = .submitting ∧ InLease (Submits id) earlier)

/-- **Nothing is submitted twice**, whatever sessions do and wherever they crash. -/
theorem never_submits_twice {h : Trace} {w : World} (r : Reaches h w) : Discipline h w where
  single := (Reaches.sound r).single
  admitted e he op hop hnew := by
    obtain ⟨h₁, h₂, rfl, r₁, st, -⟩ := r.of_mem he
    exact st.adds (Reaches.sound r₁) hop hnew
  evolves e he op hop := by
    obtain ⟨h₁, h₂, rfl, r₁, st, r₂⟩ := r.of_mem he
    obtain ⟨op₁, hop₁, hev⟩ := st.evolves (Reaches.sound r₁) op hop
    obtain ⟨op₂, hop₂, hev₂⟩ := Continues.evolves (st.sound (Reaches.sound r₁)) r₂ op₁ hop₁
    exact ⟨op₂, hop₂, hev.trans hev₂⟩
  leaves e he op hop op' hop' hid hp hq := by
    obtain ⟨h₁, h₂, rfl, r₁, st, -⟩ := r.of_mem he
    exact st.leaves (Reaches.sound r₁) hop hp hop' hid hq
  marked later e earlier heq id hid := by
    rw [heq] at r
    obtain ⟨r₁, st, -⟩ := r.split
    obtain ⟨lease, hl, op, hop, hopid, hst⟩ := st.marks (Reaches.sound r₁) hid
    refine ⟨op, hop, hopid, hst.imp_right fun ⟨hsub, hmem⟩ => ⟨hsub, ?_⟩⟩
    exact Reaches.marked r₁ lease hl id hmem

def sampleSubmitted : OperationJournalRecord :=
  samplePrepared.replace "op1"
    { (sampleDraw "op1" .null).operation 1 sampleEnv.now with status := .submitting }

/-- A session submits a draw and crashes; another one opens the journal. -/
theorem never_submits_twice_sample : ∃ h w, Discipline h w ∧
    (operations w.store).map (·.status) = [.submitting] ∧ h.length = 5 := by
  obtain ⟨h, text, lease, r, -, hlen, hscope, hmarked, hk⟩ := sample_prepared
  have hsubmit : change lease.scope lease.submittedInLease sampleEnv.now samplePrepared
      (.markSubmitting "op1" .undefined) = .ok (some (.next sampleSubmitted "op1")) := by
    rw [hmarked]
    rfl
  have hvalid : sampleSubmitted.Valid sampleScope :=
    (change_writes hk.store.valid.operations hsubmit).valid hk.store.valid
  have hfit : (compact sampleSubmitted).toValue.Fits :=
    ⟨(valid_compact hvalid).clean, by decide +kernel, by decide +kernel⟩
  rw [← hscope] at hk
  obtain ⟨answer, text', lease', st, -, -, hk'⟩ := Step.calm rfl sampleEnv_calm hk hsubmit hfit
  have r' :=
    ((r.next st).next (.release rfl)).next (Step.acquire rfl : Step (.acquire sampleScope) _ _)
  refine ⟨_, _, never_submits_twice r', ?_, ?_⟩
  · have hops : operations (some text') = (compact sampleSubmitted).operations :=
      hk'.store.operations
    rw [hops]
    rfl
  · simp [hlen]

end Line.Journal
