import Line.Console.Asking

/-!
# What reconciliation adopts

If reconciliation goes through, the operations that the journal had when it was read first
are settled one by one (`Settled`): an outcome that was open is established by a finalized
receipt or by an observation of the ledger (`Established`), and what was only prepared is
abandoned. The private state that it returns, if it returns one, is that of the latest
confirmed operation of the journal as it was read last (`Adopted`): its book opens what the
ledger shows (`Opens`), and it comes from the candidate snapshot of that operation (`Origin`).

Two runs stand at the end. In one an unsettled compensation is found on the ledger, and its
state is restored with a book, notes, repayments, refunds and earlier keys. In the other a
quote was confirmed before, and is restored although nothing that is observed shows it.
-/

namespace Line.Console

open Vault Journal Checked Relation

section Reconciliation

variable {runtime : Runtime} {ledger : LedgerPublicStatus} {scope : Scope}
  {journalScope : JournalScope} {around : Surroundings} {allowed : Interaction → Prop}
  [Line.Compact Bytes]

/-! ## What reconciliation found -/

/-- Matching evidence of an open operation, among what was asked: the finalized receipt of its
transaction, or an observation. -/
inductive Established (operation : JournalOperation) (runtime : Runtime)
    (ledger : LedgerPublicStatus) (asked : List Interaction) : Prop
  | receipt {t : String} {receipt : TransactionResult} :
      operation.transactionId = some t → .receipt t (.ok (some receipt)) ∈ asked →
      receipt.txId = some t →
      (receipt.disposition = some .confirmedSuccess ∧ receipt.ok = true ∨
        receipt.disposition = some .definitiveRejection ∧ receipt.ok = false) →
      Established operation runtime ledger asked
  | observation {evidence : RuntimeRecoveryEvidence} :
      .evidence (recoveryQuery operation) (.ok evidence) ∈ asked →
      Evident operation runtime ledger evidence → Established operation runtime ledger asked

theorem Established.mono {operation : JournalOperation} {asked asked' : List Interaction}
    (h : Established operation runtime ledger asked) (hsub : ∀ i ∈ asked, i ∈ asked') :
    Established operation runtime ledger asked' := by
  cases h with
  | receipt ht hr hid hd => exact .receipt ht (hsub _ hr) hid hd
  | observation he hev => exact .observation (hsub _ he) hev

/-- What became of an operation of the journal: an outcome that was open is established, and what
was only prepared is abandoned. -/
structure Settled (operation : JournalOperation) (runtime : Runtime) (ledger : LedgerPublicStatus)
    (asked : List Interaction) : Prop where
  established : operation.status = .submitting ∨ operation.status = .uncertain →
    Established operation runtime ledger asked
  abandoned : operation.status = .prepared →
    ∃ env answer, .journal env (.abandonPrepared operation.id) (.ok answer) ∈ asked

theorem Settled.mono {operation : JournalOperation} {asked asked' : List Interaction}
    (h : Settled operation runtime ledger asked) (hsub : ∀ i ∈ asked, i ∈ asked') :
    Settled operation runtime ledger asked' := by
  refine ⟨fun hopen => (h.established hopen).mono hsub, fun hprepared => ?_⟩
  obtain ⟨env, answer, hmem⟩ := h.abandoned hprepared
  exact ⟨env, answer, hsub _ hmem⟩

omit [Line.Compact Bytes] in
/-- What was asked up to here, when a computation succeeds. -/
theorem asked_of_moves {α : Type} {x : Session α} {a : α} {s s' : Running}
    (hx : Stateful.Moves (Through scope allowed) x) (h : x s = .ok a s') :
    ∃ asked, s'.log = asked ++ s.log ∧ ∀ i ∈ asked, allowed i := by
  have hs := hx s
  rw [h] at hs
  exact asked_of_through hs

theorem byReceipt_ok {operation : JournalOperation} {s s' : Running}
    (h : byReceipt runtime scope journalScope around operation s = .ok true s') :
    ∃ asked, s'.log = asked ++ s.log ∧ Established operation runtime ledger asked := by
  unfold byReceipt at h
  generalize runtime.observesReceipts = observes at h
  generalize ht : filled operation.transactionId = transaction at h
  match observes, transaction with
  | false, _ => cases (Stateful.pure_ok_iff.mp h).1
  | true, none => cases (Stateful.pure_ok_iff.mp h).1
  | true, some t =>
      obtain ⟨receipt, s₁, hreceipt, h⟩ := Stateful.bind_ok_iff.mp h
      obtain ⟨_, s₂, hcurrent, h⟩ := Stateful.bind_ok_iff.mp h
      have hs₁ := getTransactionReceipt_ok hreceipt
      have hs₂ := assertCurrent_ok hcurrent
      cases receipt with
      | none => cases (Stateful.pure_ok_iff.mp h).1
      | some receipt =>
          -- both outcomes are written in the same way
          have hestablished : ∀ {asked}, s'.log = asked ++ s₂.log → receipt.txId = some t →
              (receipt.disposition = some .confirmedSuccess ∧ receipt.ok = true ∨
                receipt.disposition = some .definitiveRejection ∧ receipt.ok = false) →
              ∃ asked, s'.log = asked ++ s.log ∧ Established operation runtime ledger asked := by
            intro asked hs' hid hd
            refine ⟨asked ++ [.current (.ok ()), .receipt t (.ok (some receipt))], ?_,
              .receipt (filled_some ht) (by simp) hid hd⟩
            rw [hs', hs₂, hs₁, List.append_assoc]
            rfl
          dsimp only at h
          split at h
          · next hmatch =>
              obtain ⟨asked, hasked, -⟩ :=
                asked_of_moves (record_moves (fun _ _ => by trivial) (.pure true)) h
              exact hestablished hasked hmatch.1 (.inl hmatch.2)
          · split at h
            · next hmatch =>
                obtain ⟨asked, hasked, -⟩ :=
                  asked_of_moves (record_moves (fun _ _ => by trivial) (.pure true)) h
                exact hestablished hasked hmatch.1 (.inr hmatch.2)
            · cases (Stateful.pure_ok_iff.mp h).1

theorem byObservation_ok {operation : JournalOperation} {s s' : Running}
    (h : byObservation runtime ledger scope journalScope around operation s = .ok true s') :
    ∃ asked, s'.log = asked ++ s.log ∧ Established operation runtime ledger asked := by
  unfold byObservation at h
  split at h
  · cases (Stateful.pure_ok_iff.mp h).1
  · obtain ⟨observed, s₁, hobserve, h⟩ := Stateful.bind_ok_iff.mp h
    cases observed with
    | none => cases (Stateful.pure_ok_iff.mp h).1
    | some evidence =>
        have hs₁ := observe_ok hobserve
        dsimp only at h
        -- an observation that cannot be judged establishes nothing
        cases hj : judge runtime ledger operation evidence with
        | error e =>
            rw [hj] at h
            cases (Stateful.pure_ok_iff.mp h).1
        | ok judgement =>
            rw [hj] at h
            have hne : judgement ≠ .nothing := by
              rintro rfl
              cases (Stateful.pure_ok_iff.mp h).1
            -- what follows the judgement is one confirmation in the journal
            have hmoves : Stateful.Moves (Through scope Harmless) (do
                assertCurrent around
                let _ ← lease scope around (.confirm operation.id ⟨journalScope,
                  .optional (filled operation.transactionId),
                  observedEvidence operation evidence judgement⟩)
                assertCurrent around
                pure true : Session Bool) :=
              .bind (assertCurrent_moves fun _ => trivial) fun _ =>
                record_moves (fun _ _ => trivial) (.pure true)
            have hdone : ∃ asked, s'.log = asked ++ s₁.log ∧ ∀ i ∈ asked, Harmless i := by
              cases judgement with
              | nothing => exact absurd rfl hne
              | candidate => exact asked_of_moves hmoves h
              | effect => exact asked_of_moves hmoves h
            obtain ⟨asked, hasked, -⟩ := hdone
            -- the log has the observation, and then what was asked after it
            refine
              ⟨asked ++ [.current (.ok ()), .evidence (recoveryQuery operation) (.ok evidence)],
                ?_, .observation (by simp) (judge_ok hj hne)⟩
            rw [hasked, hs₁, List.append_assoc]

/-- An open outcome is looked for in the receipt of the transaction, and then on the ledger. -/
theorem established_of_open {operation : JournalOperation} {s s' : Running}
    (h : (do
      if ← byReceipt runtime scope journalScope around operation then pure true
      else byObservation runtime ledger scope journalScope around operation) s = .ok true s') :
    ∃ asked, s'.log = asked ++ s.log ∧ Established operation runtime ledger asked := by
  obtain ⟨settled, s₁, hreceipt, h⟩ := Stateful.bind_ok_iff.mp h
  cases settled with
  | true =>
      obtain ⟨-, rfl⟩ := Stateful.pure_ok_iff.mp h
      exact byReceipt_ok hreceipt
  | false =>
      obtain ⟨earlier, hearlier, -⟩ := asked_of_moves byReceipt_moves hreceipt
      obtain ⟨asked, hasked, hest⟩ := byObservation_ok h
      refine ⟨asked ++ earlier, ?_, hest.mono fun i hi => List.mem_append_left _ hi⟩
      rw [hasked, hearlier, List.append_assoc]

/-- **An operation that stops nothing is settled.** -/
theorem reconcileOperation_ok {operation : JournalOperation} {s s' : Running}
    (h : reconcileOperation runtime ledger scope journalScope around operation s = .ok true s') :
    ∃ asked, s'.log = asked ++ s.log ∧ Settled operation runtime ledger asked := by
  unfold reconcileOperation at h
  -- one case for each status, and the two open ones are looked for in one way
  cases hst : operation.status with
  | prepared =>
      rw [hst] at h
      obtain ⟨_, s₁, hcurrent, h⟩ := Stateful.bind_ok_iff.mp h
      obtain ⟨answer, s₂, hlease, h⟩ := Stateful.bind_ok_iff.mp h
      obtain ⟨_, s₃, hcurrent', h⟩ := Stateful.bind_ok_iff.mp h
      obtain ⟨-, rfl⟩ := Stateful.pure_ok_iff.mp h
      obtain ⟨env, held, -, hs₂⟩ := lease_ok hlease
      refine ⟨[.current (.ok ()), .journal env (.abandonPrepared operation.id) (.ok answer),
        .current (.ok ())], ?_, ?_, fun _ => ⟨env, answer, by simp⟩⟩
      · rw [assertCurrent_ok hcurrent', hs₂, assertCurrent_ok hcurrent]
        rfl
      · rw [hst]
        rintro (hno | hno) <;> cases hno
  | submitting | uncertain =>
      rw [hst] at h
      obtain ⟨asked, hasked, hestablished⟩ := established_of_open h
      refine ⟨asked, hasked, fun _ => hestablished, fun hno => ?_⟩
      rw [hst] at hno
      cases hno
  | confirmed | rejected =>
      rw [hst] at h
      obtain ⟨-, rfl⟩ := Stateful.pure_ok_iff.mp h
      refine ⟨[], rfl, ?_, ?_⟩
      · rw [hst]
        rintro (hno | hno) <;> cases hno
      · rw [hst]
        intro hno
        cases hno

theorem reconcileOperations_ok {operations : List JournalOperation} {s s' : Running}
    (h : reconcileOperations runtime ledger scope journalScope around operations s = .ok true s') :
    ∃ asked, s'.log = asked ++ s.log ∧ ∀ op ∈ operations, Settled op runtime ledger asked := by
  induction operations generalizing s with
  | nil =>
      obtain ⟨-, rfl⟩ := Stateful.pure_ok_iff.mp h
      exact ⟨[], rfl, by simp⟩
  | cons operation operations ih =>
      obtain ⟨settled, s₁, hone, h⟩ := Stateful.bind_ok_iff.mp h
      cases settled with
      | false => cases (Stateful.pure_ok_iff.mp h).1
      | true =>
          obtain ⟨later, hlater, hall⟩ := ih h
          obtain ⟨earlier, hearlier, hsettled⟩ := reconcileOperation_ok hone
          refine ⟨later ++ earlier, by rw [hlater, hearlier, List.append_assoc], ?_⟩
          intro op hop
          rcases List.mem_cons.mp hop with rfl | hop
          · exact hsettled.mono fun i hi => List.mem_append_right _ hi
          · exact (hall op hop).mono fun i hi => List.mem_append_left _ hi

omit [Line.Compact Bytes] in
/-- A journal that is read was checked. -/
theorem looked_checked {env : Env} {held held' : Held} {record : OperationJournalRecord}
    (h : perform scope env .read held = .ok (.record record) held') :
    ∀ op ∈ record.operations, ∀ r ∈ op.receipt, (r.get "txHash").Proper := by
  simp only [perform, refresh, readRecord, Stateful.bind_ok_iff, Stateful.pure_ok_iff,
    Stateful.modify_bind, lift_ok_iff] at h
  obtain ⟨_, _, ⟨_, _, ⟨_, _, -, loaded, _, -, _, _, -, hrecord, -⟩, rfl, -⟩, heq, -⟩ := h
  cases heq
  cases loaded with
  | none =>
      cases hrecord
      intro op hop
      cases hop
  | some value => exact validateRecord_receipts hrecord

omit [Line.Compact Bytes] in
theorem latestConfirmed_mem {record : OperationJournalRecord} {latest : JournalOperation}
    (h : latestConfirmedOperation record = some latest) :
    latest ∈ record.operations ∧ latest.status = .confirmed := by
  refine ⟨List.mem_reverse.mp (List.mem_of_find?_eq_some h), ?_⟩
  simpa using List.find?_some h

/-- What the ledger showed: the last observation, or the status if the runtime has no other. -/
def Observed (runtime : Runtime) (ledger : LedgerPublicStatus) (asked : List Interaction)
    (evidence : RuntimeRecoveryEvidence) : Prop :=
  (runtime.observesEvidence = true ∧ ∃ query, .evidence query (.ok evidence) ∈ asked) ∨
    runtime.observesEvidence = false ∧ ledgerObservation runtime ledger = .ok evidence

omit [Line.Compact Bytes] in
theorem observeLatest_ok {latest : JournalOperation} {evidence : RuntimeRecoveryEvidence}
    {s s' : Running} (h : observeLatest runtime ledger around latest s = .ok (some evidence) s') :
    ∃ asked, s'.log = asked ++ s.log ∧ Observed runtime ledger asked evidence := by
  unfold observeLatest at h
  split at h
  · next hyes => exact ⟨_, observe_ok h, .inl ⟨hyes, _, by simp; rfl⟩⟩
  · next hno =>
      obtain ⟨_, s₁, hcurrent, h⟩ := Stateful.bind_ok_iff.mp h
      obtain ⟨heq, rfl⟩ := Stateful.pure_ok_iff.mp h
      refine ⟨[.current (.ok ())], ?_, .inr ⟨by simpa using hno, toOption_eq_some_iff.mp heq⟩⟩
      rw [assertCurrent_ok hcurrent]
      rfl

/-- The state is that of the latest confirmed operation, and its book is the observed one. -/
structure Adopted (runtime : Runtime) (ledger : LedgerPublicStatus) (options : ReconcileOptions)
    (asked : List Interaction) (state : Value) (current : OperationJournalRecord)
    (latest : JournalOperation) (evidence : RuntimeRecoveryEvidence) : Prop where
  confirmed : latest ∈ current.operations ∧ latest.status = .confirmed
  last : latestConfirmedOperation current = some latest
  observed : Observed runtime ledger asked evidence
  instanceOf : SameInstance evidence runtime ledger
  opens : Opens state runtime evidence
  origin : Origin latest options evidence state

/-- What an unblocked result rests on, in what was asked for it, newest first. -/
structure Reconciled (runtime : Runtime) (ledger : LedgerPublicStatus) (options : ReconcileOptions)
    (asked : List Interaction) (r : ConsoleReconciliation) : Prop where
  /-- Every outcome that the journal had open is established, and what it had prepared abandoned. -/
  settled : ∃ env record later,
    asked = later ++ [.journal env .read (.ok (.record record)), .current (.ok ())] ∧
      ∀ op ∈ record.operations, Settled op runtime ledger later
  /-- A state comes from the journal as it was read last, compared with what was observed after. -/
  adopted : ∀ state, r.privateState = some state →
    ∃ env current later earlier latest evidence,
      asked = later ++ .current (.ok ()) :: .journal env .read (.ok (.record current)) :: earlier ∧
        (∀ i ∈ later, Outside i) ∧
        Adopted runtime ledger options later state current latest evidence

omit [Line.Compact Bytes] in
theorem compute_ok {α : Type} {x : Result α} {a : α} {s s' : Running}
    (h : compute x s = .ok a s') : x = .ok a ∧ s' = s := by
  cases x with
  | ok b =>
      obtain ⟨rfl, rfl⟩ := Stateful.pure_ok_iff.mp h
      exact ⟨rfl, rfl⟩
  | error e => cases h

theorem restoreLatest_ok {options : ReconcileOptions} {current : OperationJournalRecord}
    {r : ConsoleReconciliation} {s s' : Running} {asked : List Interaction} {state : Value}
    (hr : ∀ op ∈ current.operations, ∀ r ∈ op.receipt, (r.get "txHash").Proper)
    (h : restoreLatest runtime ledger around options current s = .ok r s')
    (hasked : s'.log = asked ++ s.log) (hs : r.privateState = some state) :
    ∃ latest evidence, Adopted runtime ledger options asked state current latest evidence := by
  unfold restoreLatest at h
  cases hlatest : latestConfirmedOperation current with
  | none =>
      rw [hlatest] at h
      obtain ⟨rfl, -⟩ := Stateful.pure_ok_iff.mp h
      cases hs
  | some latest =>
      rw [hlatest] at h
      obtain ⟨observed, s₁, hobserve, h⟩ := Stateful.bind_ok_iff.mp h
      cases observed with
      | none =>
          obtain ⟨rfl, -⟩ := Stateful.pure_ok_iff.mp h
          cases hs
      | some evidence =>
          obtain ⟨hconclude, rfl⟩ := compute_ok h
          obtain ⟨asked', hasked', hobserved⟩ := observeLatest_ok hobserve
          have heq : asked' = asked := List.append_cancel_right (hasked'.symm.trans hasked)
          have hmem := latestConfirmed_mem hlatest
          obtain ⟨hinstance, hopens, horigin⟩ := conclude_ok (hr latest hmem.1) hconclude hs
          exact ⟨latest, evidence, hmem, hlatest, heq ▸ hobserved, hinstance, hopens, horigin⟩

/-- **What reconciliation adopts.** It only asks; and if it is not blocked, every outcome that was
open is established, and a state that it returns is that of the latest confirmed operation, with a
book that opens what the ledger shows. -/
theorem reconcileConsole_adopts (runtime : Runtime) (ledger : LedgerPublicStatus) (scope : Scope)
    (journalScope : JournalScope) (around : Surroundings) (options : ReconcileOptions)
    (s : Running) : ∃ asked,
      (Stateful.final (reconcileConsole runtime ledger scope journalScope around options s)).log
        = asked ++ s.log ∧ (∀ i ∈ asked, Harmless i) ∧
      ∀ r s', reconcileConsole runtime ledger scope journalScope around options s = .ok r s' →
        r.blocked = false → Reconciled runtime ledger options asked r := by
  have hquiet : Stateful.Moves (Through scope Harmless)
      (reconcileConsole runtime ledger scope journalScope around options) := reconcileConsole_moves
  -- that it only asks holds however it ends
  obtain ⟨asked, hlog, hall⟩ := asked_of_through (hquiet s)
  refine ⟨asked, hlog, hall, fun r s' h hunblocked => ?_⟩
  rw [h] at hlog
  change s'.log = asked ++ s.log at hlog
  unfold reconcileConsole at h
  -- first reading: the journal, between two checks of the session
  obtain ⟨_, s₁, hcurrent₁, h⟩ := Stateful.bind_ok_iff.mp h
  obtain ⟨record, s₂, hread, h⟩ := Stateful.bind_ok_iff.mp h
  obtain ⟨_, s₃, hcurrent₂, h⟩ := Stateful.bind_ok_iff.mp h
  obtain ⟨env, held, -, hs₂⟩ := read_ok hread
  have hs₁ := assertCurrent_ok hcurrent₁
  have hs₃ := assertCurrent_ok hcurrent₂
  split at h
  · obtain ⟨rfl, -⟩ := Stateful.pure_ok_iff.mp h
    cases hunblocked
  · obtain ⟨settled, s₄, hsettle, h⟩ := Stateful.bind_ok_iff.mp h
    -- an operation that is not settled blocks the reconciliation
    cases settled with
    | false =>
        obtain ⟨rfl, -⟩ := Stateful.pure_ok_iff.mp h
        cases hunblocked
    | true =>
        -- second reading: what is restored is of this record
        obtain ⟨current, s₅, hread', h⟩ := Stateful.bind_ok_iff.mp h
        obtain ⟨_, s₆, hcurrent₃, h⟩ := Stateful.bind_ok_iff.mp h
        obtain ⟨env', held', hperform, hs₅⟩ := read_ok hread'
        have hs₆ := assertCurrent_ok hcurrent₃
        obtain ⟨asked₄, hs₄, hsettled⟩ := reconcileOperations_ok hsettle
        have hlog₆ : s₆.log = .current (.ok ()) :: .journal env' .read (.ok (.record current)) ::
            asked₄ ++ [.current (.ok ()), .journal env .read (.ok (.record record)),
              .current (.ok ())] ++ s.log := by
          rw [hs₆, hs₅, hs₄, hs₃, hs₂, hs₁]
          simp
        have hlater : Stateful.Moves (Through scope Outside)
            (restoreLatest runtime ledger around options current) :=
          restoreLatest_moves fun _ h _ => h
        obtain ⟨asked₆, hs', houtside⟩ := asked_of_moves hlater h
        -- the log is the one that was built up on the way
        have hasked : asked = asked₆ ++ (.current (.ok ()) ::
            .journal env' .read (.ok (.record current)) :: asked₄ ++ [.current (.ok ()),
              .journal env .read (.ok (.record record)), .current (.ok ())]) := by
          have hwhole : asked ++ s.log = (asked₆ ++ (.current (.ok ()) ::
              .journal env' .read (.ok (.record current)) :: asked₄ ++ [.current (.ok ()),
                .journal env .read (.ok (.record record)), .current (.ok ())])) ++ s.log := by
            rw [← hlog, hs', hlog₆]
            simp
          exact List.append_cancel_right hwhole
        refine ⟨⟨env, record, asked₆ ++ .current (.ok ()) ::
          .journal env' .read (.ok (.record current)) :: asked₄ ++ [.current (.ok ())], ?_, ?_⟩, ?_⟩
        · rw [hasked]
          simp
        · intro op hop
          refine (hsettled op hop).mono fun i hi => ?_
          simp [hi]
        · intro state hstate
          obtain ⟨latest, evidence, hadopted⟩ :=
            restoreLatest_ok (looked_checked hperform) h hs' hstate
          exact ⟨env', current, asked₆, _, latest, evidence, hasked, houtside, hadopted⟩

/-! ## Going on -/

/-- An operation whose effect is observed is confirmed. -/
theorem byObservation_confirms {operation : JournalOperation} {a : Answer}
    {evidence : RuntimeRecoveryEvidence} {s s₁ s₂ s₃ s₄ : Running}
    (hr : runtime.observesEvidence = true)
    (ho : observe around (recoveryQuery operation) s = .ok (some evidence) s₁)
    (hj : judge runtime ledger operation evidence = .ok .effect)
    (hc : assertCurrent around s₁ = .ok () s₂)
    (hl : lease scope around (.confirm operation.id ⟨journalScope,
      .optional (filled operation.transactionId),
      observedEvidence operation evidence .effect⟩) s₂ = .ok a s₃)
    (hc' : assertCurrent around s₃ = .ok () s₄) :
    byObservation runtime ledger scope journalScope around operation s = .ok true s₄ := by
  unfold byObservation
  rw [hr]
  refine Stateful.bind_ok_iff.mpr ⟨some evidence, s₁, ho, ?_⟩
  simp only [hj]
  exact Stateful.bind_ok_iff.mpr ⟨(), s₂, hc, Stateful.bind_ok_iff.mpr ⟨a, s₃, hl,
    Stateful.bind_ok_iff.mpr ⟨(), s₄, hc', rfl⟩⟩⟩

/-- Without a receipt, an open operation is settled by what is observed. -/
theorem reconcileOperation_observes {operation : JournalOperation} {s s' : Running}
    (hst : operation.status = .uncertain)
    (hr : byReceipt runtime scope journalScope around operation s = .ok false s)
    (ho : byObservation runtime ledger scope journalScope around operation s = .ok true s') :
    reconcileOperation runtime ledger scope journalScope around operation s = .ok true s' := by
  unfold reconcileOperation
  rw [hst]
  exact Stateful.bind_ok_iff.mpr ⟨false, s, hr, ho⟩

end Reconciliation

/-! ## The instance of the runs -/

theorem normalizeCommitment_word {w : String} (h : Word w) :
    normalizeCommitment (.string w) = .ok (some w) := by
  simp only [normalizeCommitment, h ""]

theorem sameCommitment_word {w : String} (h : Word w) :
    sameCommitment (.string w) (.string w) = .ok true := by
  rw [sameCommitment, normalizeCommitment_word h]
  exact congrArg Except.ok (beq_self_eq_true _)

theorem sameScope_word {scope : JournalScope} (ha : Word scope.contractAddress)
    (hf : Word scope.sourceFingerprint) : sameScope scope scope = .ok true := by
  rw [sameScope, sameCommitment_word ha, sameCommitment_word hf, beq_self_eq_true]
  rfl

theorem fingerprint_word : Word LINE_SOURCE_FINGERPRINT :=
  word_of_hex (show hex (.string LINE_SOURCE_FINGERPRINT) "" = .ok LINE_SOURCE_FINGERPRINT by
    decide)

theorem consoleScope_normal : normalizeScope ⟨"preprod", word 'a', LINE_SOURCE_FINGERPRINT⟩
    = .ok ⟨"preprod", word 'a', LINE_SOURCE_FINGERPRINT⟩ := by
  have ha : Word (word 'a') := word_normal (by decide) (by decide)
  have hnet : validNetworkId "preprod" = true := by decide
  simp only [normalizeScope, ha _, fingerprint_word _, hnet]
  rfl

def consoleScope : Scope :=
  ⟨⟨"preprod", word 'a', LINE_SOURCE_FINGERPRINT⟩, consoleScope_normal⟩

def sampleRuntime : Runtime := ⟨.local, "preprod", some "vault", false, true⟩

theorem word_digit {c : Char} (h : (isHexDigit c && c.toLower == c) = true) : Word (word c) := by
  rw [Bool.and_eq_true, beq_iff_eq] at h
  exact word_normal h.1 h.2

theorem sample_word : Word (word 'a') := word_digit (by decide)

/-- The scopes agree, whatever else the ledger and the journal of the instance have. -/
theorem sample_scopes {ledger : LedgerPublicStatus} {record : OperationJournalRecord}
    (hdomain : ledger.contractDomain = word 'a') (hnetwork : ledger.networkId = "preprod")
    (hruntime : ledger.runtime = .local) (hscope : record.scope = consoleScope.val) :
    scopesAgree sampleRuntime ledger consoleScope.val record = true := by
  have hsame : sameScope consoleScope.val consoleScope.val = .ok true :=
    sameScope_word sample_word fingerprint_word
  have hown : consoleJournalScope sampleRuntime ledger = .ok consoleScope.val := by
    have hword : normalizeCommitment (.string ledger.contractDomain) = .ok (some (word 'a')) := by
      rw [hdomain]
      exact normalizeCommitment_word sample_word
    rw [consoleJournalScope]
    exact bind_ok_iff.mpr ⟨_, hword, rfl⟩
  have hagree : (do
      let own ← consoleJournalScope sampleRuntime ledger
      sameScope consoleScope.val own) = .ok true := bind_ok_iff.mpr ⟨_, hown, hsame⟩
  rw [scopesAgree, hscope, hsame, hagree, hnetwork, hruntime]
  rfl

/-! ## A compensation whose outcome was open -/

namespace Sample

/-- Thirty-two equal bytes, which are written with one digit. -/
def block (n : ℕ) : Bytes := List.replicate 32 (Fin.ofNat 256 (17 * n))

def digit (bytes : Bytes) : ℕ := (bytes.headD 0).val % 16

def field : Line.FieldValue Bytes → ℕ
  | .bytes bytes => digit bytes
  | .u64 n => n.val

/-- Digests of one digit, that is the sum of what is digested. -/
@[reducible] def compact : Line.Compact Bytes where
  persistentHash inputs := block ((inputs.map digit).sum % 16)
  persistentCommit fields salt := block (((fields.map field).sum + digit salt) % 16)
  pad text := block (text.length % 16)
  ofU64 n := block (n.val % 16)

/-- The book after the compensation, as the agent and the console keep it. -/
def line : Value :=
  .object [("version", .number (.ofNat 1)), ("networkId", .string "preprod"),
    ("contractAddress", .string "vault"), ("feeFlat", .number (.ofNat 2)),
    ("feeBps", .number (.ofNat 50)), ("contractDomain", .string (word 'a')),
    ("agentSecret", .string (word '1')), ("identityCommitment", .string (word '8')),
    ("lineCommitment", .string (word 'c')), ("limit", .number (.ofNat 100)),
    ("outstanding", .number (.ofNat 0)), ("epoch", .number (.ofNat 2)),
    ("salt", .string (word '4')), ("lineGeneration", .number (.ofNat 1)),
    ("updatedAt", .number (.ofNat 5))]

def record : Value :=
  .object [("agentSecret", .string (word '1')), ("identityCommitment", .string (word '8')),
    ("lineCommitment", .string (word 'c')), ("L", .number (.ofNat 100)),
    ("B", .number (.ofNat 0)), ("epoch", .number (.ofNat 2)), ("salt", .string (word '4'))]

def note : Value :=
  .object [("quoteCommitment", .string (word '5')), ("noteCommitment", .string (word 'd')),
    ("status", .string "expired")]

def repayment : Value :=
  .object [("paymentReference", .string "INV-1"), ("amount", .number (.ofNat 3))]

def key : Value :=
  .object [("identityCommitment", .string (word '9')), ("agentSecret", .string (word '2'))]

def refundEntries (note refund salt : Char) (amount : ℕ) : List (String × Value) :=
  [("version", .number (.ofNat 1)), ("networkId", .string "preprod"),
    ("contractAddress", .string "vault"), ("contractDomain", .string (word 'a')),
    ("lineGeneration", .number (.ofNat 1)), ("identityCommitment", .string (word '8')),
    ("noteCommitment", .string (word note)), ("refundCommitment", .string (word refund)),
    ("amount", .number (.ofNat amount)), ("allocatedCredit", .number (.ofNat 20)),
    ("salt", .string (word salt)), ("status", .string "allocated"),
    ("updatedAt", .number (.ofNat 5))]

/-- The refund of another note. -/
def earlier : Value := .object (refundEntries 'e' 'a' '6' 3)

/-- The refund that the operation allocates. -/
def allocated : Value := .object (refundEntries 'd' 'b' '4' 7)

/-- … with the transaction of the operation … -/
def transacted : Value :=
  .object (refundEntries 'd' 'b' '4' 7 ++ [("transactionId", .string "tx7")])

/-- … and with the issuer's report. -/
def acknowledged : Value :=
  .object (refundEntries 'd' 'b' '4' 7 ++ [("transactionId", .string "tx7"),
    ("issuerReportObserved", .boolean true)])

def state (refund : Value) : Value :=
  .object [("agentLineRecord", line), ("agentRecord", record), ("merchantQuotes", .array []),
    ("drawNotes", .array [note]), ("repayments", .array [repayment]),
    ("refunds", .array [earlier, refund]), ("historicalAgentKeys", .array [key])]

def snapshot : Value :=
  .object [("schema", .string "line:console-recovery/v1"), ("networkId", .string "preprod"),
    ("contractAddress", .string "vault"), ("contractDomain", .string (word 'a')),
    ("privateState", state allocated),
    ("intent", .object [("kind", .string "cancelOrExpireNote"),
      ("arguments", .array [.string (word 'd')])])]

def effect : JournalExpectedEffect :=
  ⟨word 'd', word 'a', "1", .noteCompensationAllocated (word 'b') true (some (word 'c'))⟩

def operation (status : OperationStatus) : JournalOperation :=
  { id := "op1"
    kind := .cancelOrExpireNote
    fingerprint := word '1'
    beforeCommitment := none
    candidateCommitment := some (word 'c')
    beforeSnapshot := .null
    candidateSnapshot := snapshot
    expectedEffect := some effect
    sequence := 1
    status
    createdAt := 5
    updatedAt := 5
    acknowledged := false
    transactionId := some "tx7"
    receipt := none
    snapshotsCompacted := false }

def journal (revision : ℕ) (status : OperationStatus) : OperationJournalRecord :=
  ⟨consoleScope.val, revision, [operation status]⟩

def ledger : LedgerPublicStatus :=
  { runtime := .local
    networkId := "preprod"
    contractDomain := word 'a'
    identityCommitment := some (word '8')
    lineCommitment := some (word 'c')
    lineGeneration := .number (.ofNat 1)
    actionClock := .number (.ofNat 0)
    feeFlat := .number (.ofNat 2)
    feeBps := .number (.ofNat 50) }

/-- The note is expired, its cost allocated, and the issuer reported the refund. -/
def evidence : RuntimeRecoveryEvidence :=
  { runtime := .local
    networkId := "preprod"
    contractAddress := "vault"
    contractDomain := word 'a'
    identityCommitment := some (word '8')
    lineCommitment := some (word 'c')
    lineGeneration := "1"
    actionClock := "0"
    feeFlat := some "2"
    feeBps := some "50"
    quote := none
    note := some
      { commitment := word 'd'
        present := true
        lineGeneration := some "1"
        redeemed := some false
        cancelled := some true
        compensationAllocated := some true
        refundCommitment := some (word 'b')
        cashRefundOwed := some true
        refundAcknowledged := some true
        refundPaymentNullifier := none }
    nullifier := none }

def around : Surroundings :=
  ⟨fun _ => false, fun _ => .ok (), fun _ => sampleEnv, fun _ => .ok none, fun _ => .ok evidence⟩

/-- A lease that knows what is stored. -/
def held (text : Json.Text) (revision : ℕ) (status : OperationStatus) : Held :=
  ⟨some text, some (journal revision status), []⟩

/-! ### Words of one digit -/

theorem digit_word (c : Char) (n : Fin 16) (h : Nat.digitChar n = c) : Word (word c) := by
  subst h
  refine word_digit ?_
  revert n
  decide

theorem hexToBytes_word (c : Char) (n : Fin 16) (h : Nat.digitChar n = c) :
    hexToBytes (.string (word c)) = .ok (block n) := by
  subst h
  have hdigits : ∀ n : Fin 16, (List.replicate 64 (Nat.digitChar n)).all isHexDigit = true := by
    decide
  have hread : ∀ n : Fin 16,
      readBytes ((List.replicate 64 (Nat.digitChar n)).map Char.toLower) = some (block n) := by
    decide
  simp only [hexToBytes, word, String.toList_ofList, strip_digits (hdigits n),
    List.length_replicate, hdigits n, hread n, and_self, ↓reduceIte, Option.getD_some]

theorem toHex_block (n : Fin 16) : toHex (block n) = word (Nat.digitChar n) := by
  have hdigits : ∀ n : Fin 16,
      (block n).flatMap hexPair = List.replicate 64 (Nat.digitChar n) := by
    decide
  exact congrArg String.ofList (hdigits n)

theorem normalize (c : Char) (n : Fin 16) (h : Nat.digitChar n = c) :
    normalizeCommitment (.string (word c)) = .ok (some (word c)) :=
  normalizeCommitment_word (digit_word c n h)

theorem bytes (c : Char) (n : Fin 16) (h : Nat.digitChar n = c) :
    bytes32 (.string (word c)) = .ok (block n) := by
  rw [bytes32, normalize c n h]
  exact hexToBytes_word c n h

theorem same (c : Char) (n : Fin 16) (h : Nat.digitChar n = c) :
    sameCommitment (.string (word c)) (.string (word c)) = .ok true :=
  sameCommitment_word (digit_word c n h)

theorem word_ne {c d : Char} (h : c ≠ d) : word c ≠ word d := by
  intro heq
  have hlist := String.ofList_injective heq
  exact h (List.replicate_right_inj (by decide : (64 : ℕ) ≠ 0) |>.mp hlist)

/-! ### Small numbers -/

theorem amount_safe (n : ℕ) (h : decide (n ≤ 100) = true) :
    (Value.number (.ofNat n)).safeNat = some n :=
  safeNat_ofNat ((of_decide_eq_true h).trans (by decide))

theorem units (n : ℕ) (h : decide (n ≤ 100) = true) : safeUnits (.number (.ofNat n)) = .ok n := by
  rw [safeUnits, safeNatural, amount_safe n h]

theorem number (n : ℕ) (h : decide (n ≤ 100) = true) (hv : validGeneration (toString n) = true) :
    sameNumber (.number (.ofNat n)) (.string (toString n)) = .ok true := by
  have hsafe : safe (.number (.ofNat n)) = .ok n := by
    rw [safe, safeNatural, amount_safe n h]
  have hdecimal : decimal (.string (toString n)) = .ok (toString n) := by
    rw [decimal, if_pos hv]
  rw [sameNumber, hsafe, hdecimal]
  exact congrArg Except.ok (beq_self_eq_true _)

/-! ### The snapshot -/

theorem snapshot_normal : Snapshot snapshot := by
  have hkeys : ∀ keys : List String, keys.Pairwise (fun a b => a ≠ b) ∧
      keys.all (fun k => arrayIndex k = none) = true →
      keys.Pairwise fun a b => a ≠ b ∧ before a b = true := fun _ => ordered_keys
  -- record by record: the keys differ and stand in the order of the language
  have hline : line.Proper :=
    ⟨hkeys _ (by decide), by simp only [properEntries, Value.Proper, and_self]⟩
  have hrecord : record.Proper :=
    ⟨hkeys _ (by decide), by simp only [properEntries, Value.Proper, and_self]⟩
  have hnote : note.Proper :=
    ⟨hkeys _ (by decide), by simp only [properEntries, Value.Proper, and_self]⟩
  have hrepayment : repayment.Proper :=
    ⟨hkeys _ (by decide), by simp only [properEntries, Value.Proper, and_self]⟩
  have hkey : key.Proper :=
    ⟨hkeys _ (by decide), by simp only [properEntries, Value.Proper, and_self]⟩
  have hearlier : earlier.Proper :=
    ⟨hkeys _ (by decide), by simp only [refundEntries, properEntries, Value.Proper, and_self]⟩
  have hallocated : allocated.Proper :=
    ⟨hkeys _ (by decide), by simp only [refundEntries, properEntries, Value.Proper, and_self]⟩
  have hstate : (state allocated).Proper :=
    ⟨hkeys _ (by decide), hline, hrecord, trivial, ⟨hnote, trivial⟩, ⟨hrepayment, trivial⟩,
      ⟨hearlier, hallocated, trivial⟩, ⟨hkey, trivial⟩, trivial⟩
  have hintent : (Value.object [("kind", .string "cancelOrExpireNote"),
      ("arguments", .array [.string (word 'd')])]).Proper :=
    ⟨hkeys _ (by decide), by simp only [properEntries, Value.Proper, properItems, and_self]⟩
  -- all numbers in it are finite
  have hnumber : ∀ n : ℕ, ∃ q, Number.ofNat n = .finite q := fun _ => ⟨_, rfl⟩
  refine ⟨⟨hkeys _ (by decide), ?_⟩, ?_, by decide, by decide⟩
  · exact ⟨trivial, trivial, trivial, trivial, hstate, hintent, trivial⟩
  · simp only [snapshot, state, line, record, note, repayment, earlier, allocated, refundEntries,
      key, Value.Clean, cleanEntries, cleanItems, hnumber, and_self]

theorem snapshot_state :
    snapshotState snapshot sampleRuntime (word 'a') = .ok (state allocated) := by
  have hdomain : (Value.string (word 'a')).strictEq (.string (word 'a')) = true :=
    beq_self_eq_true _
  refine bind_ok_iff.mpr ⟨_, normalize 'a' 10 rfl,
    bind_ok_iff.mpr ⟨(), require_ok_iff.mpr ?_, rfl⟩⟩
  exact (congrArg (Bool.and _) hdomain).trans rfl

theorem effect_normal : effect.Normal := by
  refine ⟨digit_word 'd' 13 rfl, digit_word 'a' 10 rfl, by decide, digit_word 'b' 11 rfl, ?_⟩
  intro w hw
  cases hw
  exact digit_word 'c' 12 rfl

theorem journal_valid : (journal 1 .uncertain).Valid consoleScope := by
  -- the operation is one that normalizing leaves as it is
  have hnormal : (operation .uncertain).toPreparedOperation.Normal :=
    { id := by decide
      fingerprint := digit_word '1' 1 rfl
      before := by
        intro w hw
        cases hw
      candidate := by
        intro w hw
        cases hw
        exact digit_word 'c' 12 rfl
      beforeSnapshot := snapshot_null
      candidateSnapshot := snapshot_normal
      effect := by
        intro e he
        cases he
        exact ⟨effect_normal, rfl⟩
      binds := bind_ok_iff.mpr ⟨(), require_ok_iff.mpr (decide_eq_true rfl), rfl⟩
      distinct := rfl }
  -- and with its status one that the validator accepts
  have hvalid : (operation .uncertain).Valid :=
    { normal := hnormal
      times := Nat.le_refl _
      late := by decide
      transaction := by
        intro t ht
        cases ht
        decide
      receipt := by
        intro r hr
        cases hr
      acknowledged := by
        intro hno
        cases hno
      received := fun hno => absurd rfl hno
      compacted := by
        intro hno
        cases hno }
  exact
    { scope := rfl
      revision := by decide
      size := by decide
      operations := fun op hop => List.mem_singleton.mp hop ▸ hvalid
      ids := List.nodup_singleton _
      sequences := List.pairwise_singleton _ _
      numbered := fun op hop => List.mem_singleton.mp hop ▸ ⟨Nat.one_pos, Nat.le_refl _⟩
      pending := List.countP_le_length
      latest := by
        intro op hop
        cases hop }

/-! ### What the checks say of it -/

attribute [local instance] compact

theorem commitment : toHex (Line.Engine.lineStateCommit (block 10) (Line.Engine.agentId (block 1))
    (toU64 100) (toU64 0) (toU64 2) (block 4)) = word 'c' :=
  toHex_block 12

theorem owner : toHex (Line.Engine.agentId (block 1)) = word '8' := toHex_block 8

theorem line_opens :
    openedCommitment line (.string (word 'a')) "limit" "outstanding" = .ok (word 'c') := by
  rw [← commitment]
  exact bind_ok_iff.mpr ⟨_, hexToBytes_word '1' 1 rfl,
    bind_ok_iff.mpr ⟨_, hexToBytes_word 'a' 10 rfl,
    bind_ok_iff.mpr ⟨_, units 100 rfl, bind_ok_iff.mpr ⟨_, units 0 rfl,
    bind_ok_iff.mpr ⟨_, units 2 rfl, bind_ok_iff.mpr ⟨_, hexToBytes_word '4' 4 rfl, rfl⟩⟩⟩⟩⟩⟩

theorem record_opens :
    openedCommitment record (.string (word 'a')) "L" "B" = .ok (word 'c') := by
  rw [← commitment]
  exact bind_ok_iff.mpr ⟨_, hexToBytes_word '1' 1 rfl,
    bind_ok_iff.mpr ⟨_, hexToBytes_word 'a' 10 rfl,
    bind_ok_iff.mpr ⟨_, units 100 rfl, bind_ok_iff.mpr ⟨_, units 0 rfl,
    bind_ok_iff.mpr ⟨_, units 2 rfl, bind_ok_iff.mpr ⟨_, hexToBytes_word '4' 4 rfl, rfl⟩⟩⟩⟩⟩⟩

theorem line_checked : checkLine line = .ok () := by
  have howner : toHex (Line.Engine.agentId (block ((1 : Fin 16) : ℕ))) = word '8' := owner
  refine bind_ok_iff.mpr ⟨_, line_opens, bind_ok_iff.mpr ⟨_, normalize 'c' 12 rfl,
    bind_ok_iff.mpr ⟨_, hexToBytes_word '1' 1 rfl,
    bind_ok_iff.mpr ⟨_, normalize '8' 8 rfl, ?_⟩⟩⟩⟩
  rw [howner, require_ok_iff, beq_self_eq_true, beq_self_eq_true]
  rfl

theorem key_checked : checkHistoricalKey key = .ok () := by
  have howner : identityOf (.string (word '2')) = .ok (word '9') :=
    bind_ok_iff.mpr ⟨_, bytes '2' 2 rfl, congrArg Except.ok (toHex_block 9)⟩
  refine bind_ok_iff.mpr ⟨_, rfl, bind_ok_iff.mpr ⟨_, howner,
    bind_ok_iff.mpr ⟨_, normalize '9' 9 rfl, ?_⟩⟩⟩
  rw [require_ok_iff, beq_self_eq_true]

/-- A refund whose digits are those of its commitment passes. -/
theorem refund_checked (note refund salt : Char) (n r s : Fin 16) (amount : ℕ)
    (hn : Nat.digitChar n = note) (hr : Nat.digitChar r = refund) (hs : Nat.digitChar s = salt)
    (hamount : decide (amount ≤ 100) = true)
    (hvalid : validateRefundRecord (.object (refundEntries note refund salt amount)) = .ok ())
    (hcommit : toHex (Line.Engine.refundCommit (block 10) (toU64 1) (block 8) (block n)
      (toU64 amount) (block s)) = word refund) :
    checkRefund sampleRuntime (word 'a') (.object (refundEntries note refund salt amount))
      = .ok () := by
  have hinstance : (Value.isText (.string "preprod") "preprod" &&
      Value.strictEq (.string "vault") (.string "vault")) = true := by decide
  refine bind_ok_iff.mpr ⟨(), hvalid, bind_ok_iff.mpr ⟨(), require_ok_iff.mpr hinstance,
    bind_ok_iff.mpr ⟨_, normalize 'a' 10 rfl, bind_ok_iff.mpr ⟨_, normalize 'a' 10 rfl,
    bind_ok_iff.mpr ⟨(), require_ok_iff.mpr (beq_self_eq_true _),
    bind_ok_iff.mpr ⟨_, bytes 'a' 10 rfl, bind_ok_iff.mpr ⟨_, units 1 rfl,
    bind_ok_iff.mpr ⟨_, bytes '8' 8 rfl, bind_ok_iff.mpr ⟨_, bytes note n hn,
    bind_ok_iff.mpr ⟨_, units amount hamount, bind_ok_iff.mpr ⟨_, bytes salt s hs,
    bind_ok_iff.mpr ⟨_, normalize refund r hr, ?_⟩⟩⟩⟩⟩⟩⟩⟩⟩⟩⟩⟩
  rw [require_ok_iff, beq_iff_eq]
  exact congrArg some hcommit

theorem refunds_checked :
    [earlier, allocated].forM (checkRefund sampleRuntime (word 'a')) = .ok () := by
  have hearlier : validateRefundRecord earlier = .ok () := by rfl
  have hallocated : validateRefundRecord allocated = .ok () := by rfl
  have hcommit : toHex (Line.Engine.refundCommit (block 10) (toU64 1) (block 8)
      (block ((14 : Fin 16) : ℕ)) (toU64 3) (block ((6 : Fin 16) : ℕ))) = word 'a' :=
    toHex_block 10
  have hcommit' : toHex (Line.Engine.refundCommit (block 10) (toU64 1) (block 8)
      (block ((13 : Fin 16) : ℕ)) (toU64 7) (block ((4 : Fin 16) : ℕ))) = word 'b' :=
    toHex_block 11
  rw [forM_ok_iff, List.forall_mem_cons, List.forall_mem_singleton]
  exact ⟨refund_checked 'e' 'a' '6' 14 10 6 3 rfl rfl rfl rfl hearlier hcommit,
    refund_checked 'd' 'b' '4' 13 11 4 7 rfl rfl rfl rfl hallocated hcommit'⟩

/-- The transaction is noted in the one refund that is of the note. -/
theorem annotated : annotateTransaction (operation .uncertain) (.array [.string (word 'd')])
    (.string "tx7") (state allocated) = .ok (state transacted) := by
  have hother : (Value.string (word 'e')).strictEq (.string (word 'd')) = false :=
    beq_eq_false_iff_ne.mpr (word_ne (by decide))
  have hthis : (Value.string (word 'd')).strictEq (.string (word 'd')) = true :=
    beq_self_eq_true _
  have hitem : ∀ (item : Value) (note : Char) (b : Bool),
      item.access "noteCommitment" = .ok (.string (word note)) →
      (Value.string (word note)).strictEq (.string (word 'd')) = b →
      (do
        let found ← item.access "noteCommitment"
        pure (if found.strictEq (.string (word 'd')) then
          item.spread "transactionId" (.string "tx7") else item) : Result Value)
        = .ok (if b then item.spread "transactionId" (.string "tx7") else item) := by
    intro item note b hfound hb
    rw [hfound, ← hb]
    rfl
  have hrefunds : ((state allocated).get "refunds").itemsOf = [earlier, allocated] := rfl
  refine bind_ok_iff.mpr ⟨_, rfl, bind_ok_iff.mpr ⟨[earlier, transacted], ?_, rfl⟩⟩
  rw [hrefunds, List.mapM_cons, List.mapM_cons]
  exact bind_ok_iff.mpr ⟨_, hitem _ 'e' false rfl hother, bind_ok_iff.mpr
    ⟨_, bind_ok_iff.mpr ⟨_, hitem _ 'd' true rfl hthis, rfl⟩, rfl⟩⟩

/-- … and the issuer's report is marked in that one. -/
theorem marked : markReported (state transacted) (word 'd') = .ok (state acknowledged) := by
  have hitem : ∀ (item : Value) (note : Char) (n : Fin 16) (b : Bool), Nat.digitChar n = note →
      item.access "noteCommitment" = .ok (.string (word note)) →
      (some (word note) == some (word 'd')) = b →
      (do
        let commitment ← item.access "noteCommitment"
        let commitment ← normalizeCommitment commitment
        pure (if commitment == some (word 'd') then
          item.spread "issuerReportObserved" (.boolean true) else item) : Result Value)
        = .ok (if b then item.spread "issuerReportObserved" (.boolean true) else item) := by
    intro item note n b hn hfound hb
    rw [hfound, ← hb]
    exact bind_ok_iff.mpr ⟨_, rfl, bind_ok_iff.mpr ⟨_, normalize note n hn, rfl⟩⟩
  have hother : (some (word 'e') == some (word 'd')) = false :=
    beq_eq_false_iff_ne.mpr fun heq => word_ne (by decide) (Option.some.inj heq)
  have hrefunds : (((state transacted).get "refunds").orElse (.array [])).itemsOf
      = [earlier, transacted] := rfl
  refine bind_ok_iff.mpr ⟨_, normalize 'd' 13 rfl,
    bind_ok_iff.mpr ⟨[earlier, acknowledged], ?_, rfl⟩⟩
  rw [hrefunds, List.mapM_cons, List.mapM_cons]
  exact bind_ok_iff.mpr ⟨_, hitem _ 'e' 14 false rfl rfl hother, bind_ok_iff.mpr
    ⟨_, bind_ok_iff.mpr ⟨_, hitem _ 'd' 13 true rfl rfl (beq_self_eq_true _), rfl⟩, rfl⟩⟩

theorem recovered (status : OperationStatus) :
    recoveredConsole (operation status) sampleRuntime (word 'a') = .ok (state transacted) := by
  have hkeys : ((state allocated).get "historicalAgentKeys").itemsOf.forM checkHistoricalKey
      = .ok () := bind_ok_iff.mpr ⟨(), key_checked, rfl⟩
  refine bind_ok_iff.mpr ⟨snapshot, snapshot_normal.clone, bind_ok_iff.mpr ⟨_, snapshot_state, ?_⟩⟩
  exact bind_ok_iff.mpr ⟨(), rfl, bind_ok_iff.mpr ⟨(), hkeys,
    bind_ok_iff.mpr ⟨(), refunds_checked, bind_ok_iff.mpr ⟨(), line_checked, annotated⟩⟩⟩⟩

theorem opens (refund : Value) :
    openingMatches (state refund) evidence sampleRuntime false = .ok true := by
  have howner : toHex (Line.Engine.agentId (block ((1 : Fin 16) : ℕ))) = word '8' := owner
  have hmap : ∀ {x : Result (Option String)} {s : String} {f : Option String → Bool},
      x = .ok (some s) → f (some s) = true → x.map f = .ok true := by
    rintro x s f rfl hf
    exact congrArg Except.ok hf
  have hrecord : recordOpens record line evidence = .ok true := by
    refine bind_ok_iff.mpr ⟨_, hexToBytes_word '1' 1 rfl, bind_ok_iff.mpr ⟨_, record_opens,
      bind_ok_iff.mpr ⟨_, normalize 'c' 12 rfl, ?_⟩⟩⟩
    rw [howner]
    exact allOf_cons (congrArg Except.ok (beq_self_eq_true _))
      (allOf_cons (hmap (normalize '8' 8 rfl) (beq_self_eq_true _))
      (allOf_cons (hmap (normalize 'c' 12 rfl) (beq_self_eq_true _))
      (allOf_cons (hmap (normalize '8' 8 rfl) (beq_self_eq_true _)) rfl)))
  have hline : lineInstance line evidence sampleRuntime = .ok true :=
    allOf_cons rfl (allOf_cons rfl (allOf_cons (same 'a' 10 rfl) (allOf_cons (number 1 rfl rfl)
      (allOf_cons (same '8' 8 rfl) (allOf_cons (same 'c' 12 rfl) rfl)))))
  have hfees : feePolicy line evidence = .ok true :=
    allOf_cons (number 2 rfl rfl) (allOf_cons (number 50 rfl rfl) (allOf_cons rfl rfl))
  have hall : allOf [lineInstance line evidence sampleRuntime, feePolicy line evidence,
      recordOpens record line evidence] = .ok true :=
    allOf_cons hline (allOf_cons hfees (allOf_cons hrecord rfl))
  exact bind_ok_iff.mpr ⟨_, normalize 'c' 12 rfl, hall⟩

theorem shown (status : OperationStatus) :
    effectMatches (operation status) evidence = .ok true := by
  have hcompensated : allOf [pure true, pure true, pure true,
      sameCommitment (.string (word 'b')) (.string (word 'b')), pure true] = .ok true :=
    allOf_cons rfl (allOf_cons rfl (allOf_cons rfl (allOf_cons (same 'b' 11 rfl)
      (allOf_cons rfl rfl))))
  have hnote : noteShows effect
      ⟨word 'd', true, some "1", some false, some true, some true, some (word 'b'), some true,
        some true, none⟩ evidence = .ok true :=
    allOf_cons hcompensated (allOf_cons rfl (allOf_cons (same 'c' 12 rfl) rfl))
  exact allOf_cons rfl (allOf_cons (same 'a' 10 rfl) (allOf_cons (allOf_cons rfl
    (allOf_cons (same 'd' 13 rfl) (allOf_cons rfl (allOf_cons hnote rfl)))) rfl))

theorem observed : observationMatches evidence sampleRuntime ledger = .ok true :=
  bind_ok_iff.mpr ⟨true, rfl, allOf_cons rfl (allOf_cons rfl (allOf_cons rfl
    (allOf_cons (same 'a' 10 rfl) (allOf_cons rfl rfl))))⟩

/-! ### The run -/

theorem judged : judge sampleRuntime ledger (operation .uncertain) evidence = .ok .effect := by
  refine bind_ok_iff.mpr ⟨true, observed, ?_⟩
  refine bind_ok_iff.mpr ⟨_, recovered .uncertain, bind_ok_iff.mpr ⟨true, opens transacted, ?_⟩⟩
  exact bind_ok_iff.mpr ⟨false, rfl, bind_ok_iff.mpr ⟨true, shown .uncertain, rfl⟩⟩

theorem concluded : conclude sampleRuntime ledger (operation .confirmed) ⟨false, none⟩ evidence
    = .ok ⟨some (state acknowledged), false, some "op1"⟩ := by
  have hrestored : restore sampleRuntime ledger (operation .confirmed) ⟨false, none⟩ evidence
      = .ok (.opened (state transacted)) := by
    refine bind_ok_iff.mpr ⟨true, observed, ?_⟩
    refine bind_ok_iff.mpr ⟨_, recovered .confirmed, bind_ok_iff.mpr ⟨true, opens transacted, ?_⟩⟩
    exact bind_ok_iff.mpr ⟨true, shown .confirmed, rfl⟩
  rw [conclude, hrestored]
  exact bind_ok_iff.mpr ⟨_, marked, rfl⟩

/-- The effect that was observed, of the transaction that the operation has. -/
def confirmation : JournalConfirmationEvidence :=
  ⟨consoleScope.val, .string "tx7", .observedEffect effect.toValue⟩

theorem confirmed : change consoleScope [] sampleEnv.now (journal 1 .uncertain)
    (.confirm "op1" confirmation) = .ok (some (.next (journal 2 .confirmed) "op1")) := by
  have hfits : effect.toValue.Fits := by
    obtain ⟨-, hc, hn, hh⟩ := effect.shape
    exact ⟨hc, by simp [hh, MAX_DEPTH], hn.trans (by simp [MAX_NODES])⟩
  have hscope : Journal.sameScope consoleScope consoleScope.val = .ok () :=
    bind_ok_iff.mpr ⟨_, consoleScope_normal, require_ok_iff.mpr (decide_eq_true rfl)⟩
  have heffect : observedEffect effect.toValue (operation .uncertain) = .ok () :=
    bind_ok_iff.mpr ⟨_, effect_normal.normalizeEffect,
      bind_ok_iff.mpr ⟨true, sameText_self hfits, rfl⟩⟩
  have hattach : attach (operation .uncertain) (.string "tx7") "Conflicting transaction receipt."
      = .ok (operation .uncertain) :=
    bind_ok_iff.mpr ⟨(), require_ok_iff.mpr (by decide), rfl⟩
  have hconfirm : confirm consoleScope confirmation (operation .uncertain)
      = .ok (operation .confirmed) := by
    refine bind_ok_iff.mpr ⟨(), hscope, bind_ok_iff.mpr ⟨(), rfl, ?_⟩⟩
    exact bind_ok_iff.mpr ⟨_, bind_ok_iff.mpr ⟨(), heffect, rfl⟩,
      bind_ok_iff.mpr ⟨_, hattach, rfl⟩⟩
  have hfind : (journal 1 .uncertain).operations.find? (fun op => op.id = "op1")
      = some (operation .uncertain) := rfl
  have hamend : amend "op1" (confirm consoleScope confirmation) sampleEnv.now (journal 1 .uncertain)
      = .ok (.next (journal 2 .confirmed) "op1") := by
    rw [amend, hfind]
    exact bind_ok_iff.mpr ⟨_, hconfirm, bind_ok_iff.mpr ⟨(), rfl, rfl⟩⟩
  rw [change, hamend]
  rfl

/-- The open operation is judged by what is observed, and confirmed. -/
theorem settled {text text' : Json.Text} {a : Answer} (log : List Interaction)
    (h : perform consoleScope sampleEnv (.confirm "op1" confirmation) (held text 1 .uncertain)
      = .ok a (held text' 2 .confirmed)) :
    ∃ log', reconcileOperations sampleRuntime ledger consoleScope consoleScope.val around
      (journal 1 .uncertain).operations ⟨held text 1 .uncertain, log⟩
        = .ok true ⟨held text' 2 .confirmed, log'⟩ := by
  have hlease : lease consoleScope around (.confirm "op1" confirmation)
      ⟨held text 1 .uncertain, [.current (.ok ()), .current (.ok ()),
        .evidence (recoveryQuery (operation .uncertain)) (.ok evidence)] ++ log⟩
      = .ok a ⟨held text' 2 .confirmed, .journal sampleEnv (.confirm "op1" confirmation) (.ok a) ::
        ([.current (.ok ()), .current (.ok ()),
          .evidence (recoveryQuery (operation .uncertain)) (.ok evidence)] ++ log)⟩ :=
    lease_runs rfl h
  have hobserved : byObservation sampleRuntime ledger consoleScope consoleScope.val around
      (operation .uncertain) ⟨held text 1 .uncertain, log⟩
      = .ok true ⟨held text' 2 .confirmed, .current (.ok ()) ::
        .journal sampleEnv (.confirm "op1" confirmation) (.ok a) ::
          ([.current (.ok ()), .current (.ok ()),
            .evidence (recoveryQuery (operation .uncertain)) (.ok evidence)] ++ log)⟩ :=
    byObservation_confirms rfl rfl judged rfl hlease rfl
  exact ⟨_, Stateful.bind_ok_iff.mpr
    ⟨true, _, reconcileOperation_observes rfl rfl hobserved, rfl⟩⟩

/-- The compensation is found on the ledger and confirmed, and its state restored. -/
theorem reconciled : ∃ text s', reconcileConsole sampleRuntime ledger consoleScope consoleScope.val
    around ⟨false, none⟩ ⟨⟨some text, none, []⟩, []⟩
      = .ok ⟨some (state acknowledged), false, some "op1"⟩ s' := by
  have hfit : (journal 1 .uncertain).toValue.Fits := ⟨journal_valid.clean, by decide, by decide⟩
  have hnext : (journal 2 .confirmed).Valid consoleScope :=
    (change_writes journal_valid.operations confirmed).valid journal_valid
  have hfit' : (journal 2 .confirmed).toValue.Fits := ⟨hnext.clean, by decide, by decide⟩
  obtain ⟨text, ht⟩ := encodeVaultJson_ok_iff.mpr hfit
  -- the store has the journal with the open outcome
  have hholds : Holds (some text) consoleScope (journal 1 .uncertain) :=
    .inr ⟨text, rfl, journal_valid, ht⟩
  have hknows : Knows consoleScope (held text 1 .uncertain) (journal 1 .uncertain) :=
    ⟨hholds, fun r hr => (Option.some.inj hr).symm⟩
  obtain ⟨text', ht', hconfirm⟩ := perform_calm sampleEnv_calm hknows confirmed hfit'
  -- after the confirmation it has the other one
  have hholds' : Holds (some text') consoleScope (journal 2 .confirmed) :=
    .inr ⟨text', rfl, hnext, ht'⟩
  obtain ⟨log, hsettled⟩ := settled [.current (.ok ()),
    .journal sampleEnv .read (.ok (.record (journal 1 .uncertain))), .current (.ok ())] hconfirm
  have hconclude := concluded
  refine ⟨text, ?_, ?_⟩
  pick_goal 2
  -- now the run, question by question
  unfold reconcileConsole
  refine Stateful.bind_ok_iff.mpr ⟨(), _, rfl, ?_⟩
  refine Stateful.bind_ok_iff.mpr ⟨_, _, read_runs rfl sampleEnv_calm hholds, ?_⟩
  refine Stateful.bind_ok_iff.mpr ⟨(), _, rfl, ?_⟩
  rw [sample_scopes rfl rfl rfl rfl, Bool.not_true, if_neg Bool.false_ne_true]
  refine Stateful.bind_ok_iff.mpr ⟨true, _, hsettled, ?_⟩
  rw [Bool.not_true, if_neg Bool.false_ne_true]
  refine Stateful.bind_ok_iff.mpr ⟨_, _, read_runs rfl sampleEnv_calm hholds', ?_⟩
  refine Stateful.bind_ok_iff.mpr ⟨(), _, rfl, ?_⟩
  refine Stateful.bind_ok_iff.mpr ⟨some evidence, _, rfl, ?_⟩
  simp only [hconclude]
  rfl

end Sample

/-- A session that found a compensation without an outcome, settled it and took over its state: a
book, a note, a repayment, two refunds and an earlier key. -/
theorem reconcileConsole_adopts_sample : ∃ (_ : Line.Compact Bytes) (asked : List Interaction)
    (r : ConsoleReconciliation),
    Reconciled sampleRuntime Sample.ledger ⟨false, none⟩ asked r ∧
      r.privateState = some (Sample.state Sample.acknowledged) := by
  let _ : Line.Compact Bytes := Sample.compact
  obtain ⟨text, s', h⟩ := Sample.reconciled
  obtain ⟨asked, -, -, hall⟩ := reconcileConsole_adopts sampleRuntime Sample.ledger consoleScope
    consoleScope.val Sample.around ⟨false, none⟩ ⟨⟨some text, none, []⟩, []⟩
  exact ⟨Sample.compact, asked, _, hall _ s' h rfl, rfl⟩

/-! ## A quote whose effect is not looked for again -/

/-- No line was opened yet. -/
def sampleLedger : LedgerPublicStatus :=
  { runtime := .local
    networkId := "preprod"
    contractDomain := word 'a'
    identityCommitment := none
    lineCommitment := none
    lineGeneration := .number (.ofNat 0)
    actionClock := .number (.ofNat 0)
    feeFlat := .number (.ofNat 0)
    feeBps := .number (.ofNat 0) }

/-- The observation shows no quote. -/
def sampleEvidence : RuntimeRecoveryEvidence :=
  { runtime := .local
    networkId := "preprod"
    contractAddress := "vault"
    contractDomain := word 'a'
    identityCommitment := none
    lineCommitment := none
    lineGeneration := "0"
    actionClock := "0"
    feeFlat := none
    feeBps := none
    quote := none
    note := none
    nullifier := none }

def sampleAround : Surroundings :=
  ⟨fun _ => false, fun _ => .ok (), fun _ => sampleEnv, fun _ => .ok none,
    fun _ => .ok sampleEvidence⟩

def sampleState : Value :=
  .object [("agentLineRecord", .null), ("agentRecord", .null), ("merchantQuotes", .array []),
    ("drawNotes", .array []), ("repayments", .array []), ("refunds", .array []),
    ("historicalAgentKeys", .array [])]

def sampleSnapshot : Value :=
  .object [("schema", .string "line:console-recovery/v1"), ("networkId", .string "preprod"),
    ("contractAddress", .string "vault"), ("contractDomain", .string (word 'a')),
    ("privateState", sampleState)]

/-- A quote that was posted and confirmed. -/
def sampleQuote : JournalOperation :=
  { id := "op1"
    kind := .postQuote
    fingerprint := word '1'
    beforeCommitment := none
    candidateCommitment := none
    beforeSnapshot := .null
    candidateSnapshot := sampleSnapshot
    expectedEffect := some ⟨word 'd', word 'a', "0", .quotePresent⟩
    sequence := 1
    status := .confirmed
    createdAt := 5
    updatedAt := 5
    acknowledged := false
    transactionId := none
    receipt := none
    snapshotsCompacted := false }

def sampleRecord : OperationJournalRecord := ⟨consoleScope.val, 1, [sampleQuote]⟩

theorem sampleSnapshot_normal : Snapshot sampleSnapshot := by
  have hkeys : ∀ keys : List String, keys.Pairwise (fun a b => a ≠ b) ∧
      keys.all (fun k => arrayIndex k = none) = true →
      keys.Pairwise fun a b => a ≠ b ∧ before a b = true := fun _ => ordered_keys
  have hstate : sampleState.Proper := by
    refine ⟨hkeys _ (by decide), ?_⟩
    simp [properEntries, Value.Proper, properItems]
  refine ⟨⟨hkeys _ (by decide), ?_⟩, ?_, ?_, ?_⟩
  · simp [properEntries, Value.Proper, hstate]
  · simp [sampleSnapshot, sampleState, Value.Clean, cleanEntries, cleanItems]
  · simp [sampleSnapshot, sampleState, Value.height, levelsEntries, levels, MAX_DEPTH]
  · simp [sampleSnapshot, sampleState, Value.nodes, nodesEntries, nodesItems, MAX_NODES]

theorem sampleRecord_valid : sampleRecord.Valid consoleScope := by
  -- the operation is one that normalizing leaves as it is
  have hnormal : sampleQuote.toPreparedOperation.Normal :=
    { id := by decide
      fingerprint := word_digit (by decide)
      before := by
        intro w hw
        cases hw
      candidate := by
        intro w hw
        cases hw
      beforeSnapshot := snapshot_null
      candidateSnapshot := sampleSnapshot_normal
      effect := by
        intro e he
        cases he
        exact ⟨⟨word_digit (by decide), word_digit (by decide), by decide,
          trivial⟩, rfl⟩
      binds := rfl
      distinct := rfl }
  -- and with its status one that the validator accepts
  have hvalid : sampleQuote.Valid :=
    { normal := hnormal
      times := Nat.le_refl _
      late := by decide
      transaction := by simp [sampleQuote]
      receipt := by simp [sampleQuote]
      acknowledged := fun _ => rfl
      received := fun _ => rfl
      compacted := by simp [sampleQuote] }
  exact
    { scope := rfl
      revision := by decide
      size := by decide
      operations := by simpa [sampleRecord] using hvalid
      ids := List.nodup_singleton _
      sequences := List.pairwise_singleton _ _
      numbered := by simp [sampleRecord, sampleQuote]
      pending := List.countP_le_length
      latest := by
        intro op hop
        cases hop
        rfl }

/-- The journal with the quote is stored. -/
theorem sample_stored : ∃ text, Holds (some text) consoleScope sampleRecord := by
  have hfit : sampleRecord.toValue.Fits :=
    ⟨sampleRecord_valid.clean, by decide, by decide⟩
  obtain ⟨text, ht⟩ := encodeVaultJson_ok_iff.mpr hfit
  exact ⟨text, .inr ⟨text, rfl, sampleRecord_valid, ht⟩⟩

theorem sample_observed :
    observationMatches sampleEvidence sampleRuntime sampleLedger = .ok true := by
  have hgen : decimal (.string "0") = .ok "0" := by decide
  have hdomain : sameCommitment (.string sampleEvidence.contractDomain)
      (.string sampleLedger.contractDomain) = .ok true := sameCommitment_word sample_word
  refine bind_ok_iff.mpr ⟨true, rfl, ?_⟩
  rw [hdomain, show sampleEvidence.lineGeneration = "0" from rfl, hgen]
  rfl

section Hashes

variable [Line.Compact Bytes]

theorem sample_recovered :
    recoveredConsole sampleQuote sampleRuntime (word 'a') = .ok sampleState := by
  have hclone : clone sampleQuote.candidateSnapshot = .ok sampleSnapshot :=
    sampleSnapshot_normal.clone
  have hstate : snapshotState sampleSnapshot sampleRuntime (word 'a') = .ok sampleState := by
    simp [snapshotState, normalizeCommitment_word sample_word, sampleSnapshot, sampleState,
      sampleRuntime, Value.get, Value.truthy, Value.isText, Value.strictEq, nullable,
      List.lookup_cons, Value.isArray, require, Value.isUndefined, Value.assign, Value.setEntry,
      Value.orElse]
  rw [recoveredConsole, hclone]
  simp [hstate, sampleState, Value.get, List.lookup_cons, Value.isArray, Value.itemsOf, require,
    Value.truthy, transactionOf, sampleQuote, nullable, Value.orElse, bind, Except.bind, pure,
    Except.pure]

theorem sample_open : openingMatches sampleState sampleEvidence sampleRuntime false = .ok true := by
  simp [openingMatches, sampleState, sampleEvidence, Value.get, List.lookup_cons, Value.truthy,
    nullable, normalizeCommitment, active]

theorem sample_restored :
    restore sampleRuntime sampleLedger sampleQuote ⟨false, none⟩ sampleEvidence
      = .ok (.opened sampleState) := by
  have hrecovered : recoveredConsole sampleQuote sampleRuntime sampleEvidence.contractDomain
      = .ok sampleState := sample_recovered
  refine bind_ok_iff.mpr ⟨_, sample_observed, ?_⟩
  rw [Bool.not_true, if_neg Bool.false_ne_true]
  refine bind_ok_iff.mpr ⟨_, hrecovered, ?_⟩
  exact bind_ok_iff.mpr ⟨_, sample_open, rfl⟩

theorem sample_concluded :
    conclude sampleRuntime sampleLedger sampleQuote ⟨false, none⟩ sampleEvidence
      = .ok ⟨some sampleState, false, some "op1"⟩ := by
  rw [conclude, sample_restored]
  rfl

/-- The confirmed quote is restored, though the observation does not show it. -/
theorem sample_reconciled : ∃ text s', Holds (some text) consoleScope sampleRecord ∧
    reconcileConsole sampleRuntime sampleLedger consoleScope consoleScope.val sampleAround
      ⟨false, none⟩ ⟨⟨some text, none, []⟩, []⟩ = .ok ⟨some sampleState, false, some "op1"⟩ s' := by
  obtain ⟨text, hholds⟩ := sample_stored
  have hconclude := sample_concluded
  refine ⟨text, ?_, hholds, ?_⟩
  pick_goal 2
  unfold reconcileConsole
  refine Stateful.bind_ok_iff.mpr ⟨(), _, rfl, ?_⟩
  refine Stateful.bind_ok_iff.mpr ⟨_, _, read_runs rfl sampleEnv_calm hholds, ?_⟩
  refine Stateful.bind_ok_iff.mpr ⟨(), _, rfl, ?_⟩
  rw [sample_scopes rfl rfl rfl rfl, Bool.not_true, if_neg Bool.false_ne_true]
  refine Stateful.bind_ok_iff.mpr ⟨true, _, rfl, ?_⟩
  rw [Bool.not_true, if_neg Bool.false_ne_true]
  refine Stateful.bind_ok_iff.mpr ⟨_, _, read_runs rfl sampleEnv_calm hholds, ?_⟩
  refine Stateful.bind_ok_iff.mpr ⟨(), _, rfl, ?_⟩
  refine Stateful.bind_ok_iff.mpr ⟨some sampleEvidence, _, rfl, ?_⟩
  simp only [hconclude]
  rfl

end Hashes

/-- No book is opened here, so no hash is asked for. -/
@[reducible] def sampleCompact : Line.Compact Bytes :=
  ⟨fun _ => [], fun _ _ => [], fun _ => [], fun _ => []⟩

/-- A state is restored of an operation whose recorded effect nothing that is observed shows. -/
theorem restored_without_effect : ∃ (_ : Line.Compact Bytes) (text : Json.Text) (s' : Running)
    (effect : JournalExpectedEffect),
    Holds (some text) consoleScope sampleRecord ∧ sampleRecord.operations = [sampleQuote] ∧
      sampleQuote.expectedEffect = some effect ∧
      reconcileConsole sampleRuntime sampleLedger consoleScope consoleScope.val sampleAround
        ⟨false, none⟩ ⟨⟨some text, none, []⟩, []⟩ = .ok ⟨some sampleState, false, some "op1"⟩ s' ∧
      ∀ n e, sampleAround.evidence n = .ok e → ¬ Shows effect e := by
  let _ : Line.Compact Bytes := sampleCompact
  obtain ⟨text, s', hholds, h⟩ := sample_reconciled
  refine ⟨sampleCompact, text, s', _, hholds, rfl, rfl, h, fun n e he hshows => ?_⟩
  cases he
  obtain ⟨-, quote, hquote, -⟩ := hshows
  cases hquote

end Line.Console
