import Line.Console.Opening

/-!
# What reconciliation asks

A session is a sequence of questions to its surroundings, and everything that it asked is in
its log. So what a computation never does is said by a predicate on interactions
(`Stateful.Moves` of `Through`), which is proved for the single questions and carried through
`bind`, `catch` and the branches.

Reconciliation only asks: whatever comes of it, and also if it throws or the process ends on
the way, no transaction was submitted, nothing was prepared and nothing was marked as
submitting (`Harmless`). After the journal was read last it does not even turn to the
journal any more (`Outside`).
-/

namespace Line.Console

open Vault Journal Checked Relation

/-! ## Asking, step by step -/

/-- One interaction of a session: the lease may move, and the log grows. -/
inductive Asks (scope : Scope) : Interaction → Running → Running → Prop
  | current {s : Running} {answer : Result Unit} :
      Asks scope (.current answer) s ⟨s.held, .current answer :: s.log⟩
  | journal {s : Running} {env : Env} {c : Journal.Call} {answer : Except Error Answer}
      {held : Held} :
      answered scope env c s.held = (answer, held) →
      Asks scope (.journal env c answer) s ⟨held, .journal env c answer :: s.log⟩
  | receipt {s : Running} {t : String} {answer : Result (Option TransactionResult)} :
      Asks scope (.receipt t answer) s ⟨s.held, .receipt t answer :: s.log⟩
  | evidence {s : Running} {query : RecoveryQuery} {answer : Result RuntimeRecoveryEvidence} :
      Asks scope (.evidence query answer) s ⟨s.held, .evidence query answer :: s.log⟩
  | invoke {s : Running} {kind : OperationKind} {id : String} :
      Asks scope (.invoke kind id s.held.store) s ⟨s.held, .invoke kind id s.held.store :: s.log⟩

theorem Asks.log {scope : Scope} {i : Interaction} {s s' : Running} (h : Asks scope i s s') :
    s'.log = i :: s.log := by
  cases h <;> rfl

/-- An interaction of the allowed kind. -/
def Through (scope : Scope) (allowed : Interaction → Prop) (s s' : Running) : Prop :=
  ∃ i, allowed i ∧ Asks scope i s s'

/-- Everything that was asked on the way is in the log, and was allowed. -/
theorem asked_of_through {scope : Scope} {allowed : Interaction → Prop} {s s' : Running}
    (h : ReflTransGen (Through scope allowed) s s') :
    ∃ asked, s'.log = asked ++ s.log ∧ ∀ i ∈ asked, allowed i := by
  induction h with
  | refl => exact ⟨[], rfl, by simp⟩
  | tail _ hstep ih =>
      obtain ⟨asked, hlog, hall⟩ := ih
      obtain ⟨i, hi, hasks⟩ := hstep
      refine ⟨i :: asked, ?_, List.forall_mem_cons.mpr ⟨hi, hall⟩⟩
      rw [hasks.log, hlog, List.cons_append]

section Asking

variable {scope : Scope} {around : Surroundings} {allowed : Interaction → Prop}

/-- One question goes one step. -/
theorem ask_moves {α : Type} {answer : ℕ → Held → Except Error α × Held}
    {record : ℕ → Held → Interaction}
    (h : ∀ s : Running, allowed (record s.log.length s.held) ∧
      Asks scope (record s.log.length s.held) s
        ⟨(answer s.log.length s.held).2, record s.log.length s.held :: s.log⟩) :
    Stateful.Moves (Through scope allowed) (ask around answer record) := by
  intro s
  unfold ask
  split
  · exact .refl
  · have hstep : ReflTransGen (Through scope allowed) s
        ⟨(answer s.log.length s.held).2, record s.log.length s.held :: s.log⟩ :=
      .single ⟨_, h s⟩
    dsimp only
    split <;> exact hstep

theorem assertCurrent_moves (h : ∀ a, allowed (.current a)) :
    Stateful.Moves (Through scope allowed) (assertCurrent around) :=
  ask_moves fun _ => ⟨h _, .current⟩

theorem lease_moves {c : Journal.Call} (h : ∀ env a, allowed (.journal env c a)) :
    Stateful.Moves (Through scope allowed) (lease scope around c) :=
  ask_moves fun _ => ⟨h _ _, .journal rfl⟩

theorem getTransactionReceipt_moves {t : String} (h : ∀ a, allowed (.receipt t a)) :
    Stateful.Moves (Through scope allowed) (getTransactionReceipt around t) :=
  ask_moves fun _ => ⟨h _, .receipt⟩

theorem getRecoveryEvidence_moves {query : RecoveryQuery}
    (h : ∀ a, allowed (.evidence query a)) :
    Stateful.Moves (Through scope allowed) (getRecoveryEvidence around query) :=
  ask_moves fun _ => ⟨h _, .evidence⟩

theorem compute_moves {α : Type} (x : Result α) :
    Stateful.Moves (Through scope allowed) (compute x) := by
  cases x with
  | ok a => exact .pure a
  | error e => exact .throw _

theorem catching_moves {α : Type} {x : Session α} {handler : Error → Session α}
    (hx : Stateful.Moves (Through scope allowed) x)
    (hh : ∀ e, Stateful.Moves (Through scope allowed) (handler e)) :
    Stateful.Moves (Through scope allowed) (catching x handler) := by
  intro s
  have hs := hx s
  unfold catching
  cases h : x s with
  | ok a t =>
      rw [h] at hs
      exact hs
  | error stop t =>
      rw [h] at hs
      cases stop with
      | crash => exact hs
      | thrown e => exact hs.trans (hh e t)

theorem read_moves (h : ∀ env a, allowed (.journal env .read a)) :
    Stateful.Moves (Through scope allowed) (read scope around) := by
  refine .bind (lease_moves h) fun answer => ?_
  cases answer with
  | record record => exact .pure record
  | operation op => exact .throw _

end Asking

/-! ## Answers -/

section Answers

variable {scope : Scope} {around : Surroundings} {s s' : Running}

/-- A question is answered if the process goes on. -/
theorem ask_ok_iff {α : Type} {answer : ℕ → Held → Except Error α × Held}
    {record : ℕ → Held → Interaction} {a : α} : ask around answer record s = .ok a s' ↔
      around.crash s.log.length = false ∧ (answer s.log.length s.held).1 = .ok a ∧
        s' = ⟨(answer s.log.length s.held).2, record s.log.length s.held :: s.log⟩ := by
  unfold ask
  cases around.crash s.log.length with
  | true => simp
  | false =>
      cases (answer s.log.length s.held).1 with
      | ok b => simp [eq_comm]
      | error e => simp

theorem ask_ok {α : Type} {answer : ℕ → Held → Except Error α × Held}
    {record : ℕ → Held → Interaction} {a : α} (h : ask around answer record s = .ok a s') :
    (answer s.log.length s.held).1 = .ok a ∧
      s' = ⟨(answer s.log.length s.held).2, record s.log.length s.held :: s.log⟩ :=
  (ask_ok_iff.mp h).2

theorem assertCurrent_ok {u : Unit} (h : assertCurrent around s = .ok u s') :
    s' = ⟨s.held, .current (.ok ()) :: s.log⟩ := by
  obtain ⟨hok, rfl⟩ := ask_ok h
  rw [show around.current s.log.length = .ok () from hok]

theorem lease_ok {c : Journal.Call} {a : Answer} (h : lease scope around c s = .ok a s') :
    ∃ env held, perform scope env c s.held = .ok a held ∧
      s' = ⟨held, .journal env c (.ok a) :: s.log⟩ := by
  obtain ⟨hok, rfl⟩ := ask_ok h
  unfold answered at hok ⊢
  refine ⟨around.env s.log.length, ?_⟩
  cases hp : perform scope (around.env s.log.length) c s.held with
  | ok b held =>
      rw [hp] at hok
      cases hok
      exact ⟨held, rfl, rfl⟩
  | error e held =>
      rw [hp] at hok
      cases hok

theorem read_ok {record : OperationJournalRecord} (h : read scope around s = .ok record s') :
    ∃ env held, perform scope env .read s.held = .ok (.record record) held ∧
      s' = ⟨held, .journal env .read (.ok (.record record)) :: s.log⟩ := by
  obtain ⟨answer, t, hlease, hrest⟩ := Stateful.bind_ok_iff.mp h
  cases answer with
  | record r =>
      obtain ⟨rfl, rfl⟩ := Stateful.pure_ok_iff.mp hrest
      exact lease_ok hlease
  | operation op => cases hrest

/-- A call that the lease carries out is answered, in a session that goes on. -/
theorem lease_runs {c : Journal.Call} {held held' : Held} {log : List Interaction} {a : Answer}
    (hcrash : around.crash log.length = false)
    (h : perform scope (around.env log.length) c held = .ok a held') :
    lease scope around c ⟨held, log⟩
      = .ok a ⟨held', .journal (around.env log.length) c (.ok a) :: log⟩ := by
  refine ask_ok_iff.mpr ⟨hcrash, ?_, ?_⟩ <;> simp only [answered, h]

/-- In calm surroundings a read finds the journal that is stored. -/
theorem read_runs {text : Json.Text} {cached : Option OperationJournalRecord}
    {submitted : List String} {log : List Interaction} {record : OperationJournalRecord}
    (hcrash : around.crash log.length = false) (hcalm : (around.env log.length).Calm)
    (h : Holds (some text) scope record) :
    read scope around ⟨⟨some text, cached, submitted⟩, log⟩
      = .ok record ⟨⟨some text, some record, submitted⟩,
        .journal (around.env log.length) .read (.ok (.record record)) :: log⟩ := by
  have hperform : perform scope (around.env log.length) .read ⟨some text, cached, submitted⟩
      = .ok (.record record) ⟨some text, some record, submitted⟩ := read_calm hcalm h
  exact Stateful.bind_ok_iff.mpr ⟨_, _, lease_runs hcrash hperform, rfl⟩

theorem getTransactionReceipt_ok {t : String} {receipt : Option TransactionResult}
    (h : getTransactionReceipt around t s = .ok receipt s') :
    s' = ⟨s.held, .receipt t (.ok receipt) :: s.log⟩ := by
  obtain ⟨hok, rfl⟩ := ask_ok h
  rw [show around.receipt s.log.length = .ok receipt from hok]

end Answers

/-! ## What reconciliation asks -/

/-- Neither a transaction nor anything that leads to one. -/
def Harmless : Interaction → Prop
  | .invoke .. => False
  | .journal _ (.prepare _) _ => False
  | .journal _ (.markSubmitting ..) _ => False
  | _ => True

/-- Not a question to the journal. -/
def Outside : Interaction → Prop
  | .journal .. => False
  | _ => True

section Reconciliation

variable {runtime : Runtime} {ledger : LedgerPublicStatus} {scope : Scope}
  {journalScope : JournalScope} {around : Surroundings} {allowed : Interaction → Prop}

theorem observe_moves {query : RecoveryQuery} (h : ∀ i, Outside i → Harmless i → allowed i) :
    Stateful.Moves (Through scope allowed) (observe around query) := by
  refine .bind (catching_moves ?_ fun e => .pure none) fun observed => ?_
  · exact .bind (getRecoveryEvidence_moves fun a => h _ trivial trivial) fun e => .pure _
  · exact .bind (assertCurrent_moves fun a => h _ trivial trivial) fun _ => .pure _

/-- What was observed was asked for. -/
theorem observe_ok {s s' : Running} {query : RecoveryQuery} {evidence : RuntimeRecoveryEvidence}
    (h : observe around query s = .ok (some evidence) s') :
    s'.log = [.current (.ok ()), .evidence query (.ok evidence)] ++ s.log := by
  obtain ⟨observed, t, hcatch, hrest⟩ := Stateful.bind_ok_iff.mp h
  obtain ⟨_, t', hcurrent, hpure⟩ := Stateful.bind_ok_iff.mp hrest
  obtain ⟨rfl, rfl⟩ := Stateful.pure_ok_iff.mp hpure
  rw [assertCurrent_ok hcurrent]
  unfold catching at hcatch
  split at hcatch
  · next hok =>
      cases hcatch
      obtain ⟨e, t'', hask, hpure⟩ := Stateful.bind_ok_iff.mp hok
      obtain ⟨heq, rfl⟩ := Stateful.pure_ok_iff.mp hpure
      cases heq
      obtain ⟨hev, rfl⟩ := ask_ok hask
      rw [show around.evidence s.log.length = .ok evidence from hev]
      rfl
  · cases hcatch
  · obtain ⟨heq, -⟩ := Stateful.pure_ok_iff.mp hcatch
    cases heq

theorem observeLatest_moves {latest : JournalOperation}
    (h : ∀ i, Outside i → Harmless i → allowed i) :
    Stateful.Moves (Through scope allowed) (observeLatest runtime ledger around latest) := by
  unfold observeLatest
  refine .ite (observe_moves h) ?_
  exact .bind (assertCurrent_moves fun a => h _ trivial trivial) fun _ => .pure _

/-- Writing an outcome, between two checks of the session. -/
theorem record_moves {α : Type} {c : Journal.Call} {x : Session α}
    (hc : ∀ env a, Harmless (.journal env c a)) (hx : Stateful.Moves (Through scope Harmless) x) :
    Stateful.Moves (Through scope Harmless) (do
      let _ ← lease scope around c
      assertCurrent around
      x) :=
  .bind (lease_moves hc) fun _ => .bind (assertCurrent_moves fun _ => trivial) fun _ => hx

theorem byReceipt_moves {operation : JournalOperation} : Stateful.Moves (Through scope Harmless)
    (byReceipt runtime scope journalScope around operation) := by
  unfold byReceipt
  split
  · refine .bind (getTransactionReceipt_moves fun _ => trivial) fun receipt => ?_
    refine .bind (assertCurrent_moves fun _ => trivial) fun _ => ?_
    cases receipt with
    | none => exact .pure false
    | some receipt =>
        refine .ite ?_ (.ite ?_ (.pure false))
        · exact record_moves (fun _ _ => trivial) (.pure true)
        · exact record_moves (fun _ _ => trivial) (.pure true)
  · exact .pure false

variable [Line.Compact Bytes]

theorem byObservation_moves {operation : JournalOperation} :
    Stateful.Moves (Through scope Harmless)
      (byObservation runtime ledger scope journalScope around operation) := by
  unfold byObservation
  refine .ite (.pure false) ?_
  refine .bind (observe_moves fun _ _ h => h) fun observed => ?_
  cases observed with
  | none => exact .pure false
  | some evidence =>
      dsimp only
      split
      · exact .pure false
      · exact .pure false
      · refine .bind (assertCurrent_moves fun _ => trivial) fun _ => ?_
        exact record_moves (fun _ _ => trivial) (.pure true)

theorem reconcileOperation_moves {operation : JournalOperation} :
    Stateful.Moves (Through scope Harmless)
      (reconcileOperation runtime ledger scope journalScope around operation) := by
  unfold reconcileOperation
  split
  · refine .bind (assertCurrent_moves fun _ => trivial) fun _ => ?_
    exact record_moves (fun _ _ => trivial) (.pure true)
  · exact .bind byReceipt_moves fun _ => .ite (.pure true) byObservation_moves
  · exact .bind byReceipt_moves fun _ => .ite (.pure true) byObservation_moves
  · exact .pure true
  · exact .pure true

theorem reconcileOperations_moves {operations : List JournalOperation} :
    Stateful.Moves (Through scope Harmless)
      (reconcileOperations runtime ledger scope journalScope around operations) := by
  induction operations with
  | nil => exact .pure true
  | cons operation operations ih =>
      exact .bind reconcileOperation_moves fun _ => .ite ih (.pure false)

theorem restoreLatest_moves {options : ReconcileOptions} {current : OperationJournalRecord}
    (h : ∀ i, Outside i → Harmless i → allowed i) :
    Stateful.Moves (Through scope allowed)
      (restoreLatest runtime ledger around options current) := by
  unfold restoreLatest
  cases latestConfirmedOperation current with
  | none => exact .pure _
  | some latest =>
      refine .bind (observeLatest_moves h) fun observed => ?_
      cases observed with
      | none => exact .pure blocked
      | some evidence => exact compute_moves _

/-- **Reconciliation never submits**, whatever it is told and however it ends. -/
theorem reconcileConsole_moves {options : ReconcileOptions} :
    Stateful.Moves (Through scope Harmless)
      (reconcileConsole runtime ledger scope journalScope around options) := by
  unfold reconcileConsole
  refine .bind (assertCurrent_moves fun _ => trivial) fun _ => ?_
  refine .bind (read_moves fun _ _ => trivial) fun record => ?_
  refine .bind (assertCurrent_moves fun _ => trivial) fun _ => ?_
  refine .ite (.pure blocked) (.bind reconcileOperations_moves fun settled => ?_)
  refine .ite (.pure blocked) (.bind (read_moves fun _ _ => trivial) fun current => ?_)
  exact .bind (assertCurrent_moves fun _ => trivial) fun _ => restoreLatest_moves fun _ _ h => h

end Reconciliation

end Line.Console
