import Line.Lib.Stateful
import Mathlib.Data.Int.Notation
import Mathlib.Data.Nat.Notation
import Mathlib.Data.Stream.Defs
import Mathlib.Logic.Function.Basic

/-!
# The journal of native operations

`NativeOperationJournal` in `server/native-operation-journal.mjs`: one record of the owner's
application, and a file for each signed transaction. The record is changed in memory
first and stored then, so between the two they differ; a failed store leaves it open
which of them is stored.

What comes from outside is in the `World`: what becomes of each write, what the SDK makes of an
operation, what the node and the receipt reader answer. At every such point the process may end
(`Failure.crash`); nothing is done after it until the state is opened again. The dates and the texts
for a progress line are left out, and so is what an operation hands to its witnesses: nothing here
reads them.

`events` is a record beside the program, which the program never reads.
-/

namespace Line.Native

open Stateful

/-! ## Data -/

abbrev Address := String

/-- The kind of an operation, and of the action that belongs to it. -/
inductive Kind where
  | deploy
  | call
  | keyRegistration
deriving DecidableEq

/-- A contract action of a transaction. -/
structure Action where
  kind : Kind
  entryPoint : String
  address : Address

/-- A signed transaction. The journal does not look at its payload. -/
structure Transaction (P : Type) where
  identifiers : List String
  actions : List Action
  transactionHash : String
  payload : P

/-- How far a recorded transaction got. -/
inductive Disposition where
  | prepared
  | submissionAttempted
  | submitted
  | confirmedSuccess
deriving DecidableEq

/-- `pending.record`. -/
structure Record where
  id : String
  kind : Kind
  name : String
  contractAddress : Address
  txId : String
  txHash : String
  disposition : Disposition
  submissionError : Option (Option ℤ × String)
  extrinsicHash : Option String
deriving DecidableEq

/-- A receipt: the record of a confirmed transaction. -/
structure Receipt where
  record : Record
  blockHeight : ℕ
  finalizedHead : String
deriving DecidableEq

/-- The part of the application state that is the owner's. -/
structure Owned (A : Type) where
  contractAddress : Option Address
  data : A

/-- `state.pending`. The receipts of the state `after` are never read, so only the owner's part of
it is kept. `base`, which the program never reads, is the owner's part at that time. -/
structure Pending (A : Type) where
  id : String
  kind : Kind
  name : String
  after : Owned A
  record : Option Record
  base : Owned A

/-- The application state. -/
structure Application (A : Type) where
  owned : Owned A
  receipts : List Receipt
  pending : Option (Pending A)

/-- What is left of a `.bin` file after a write. -/
inductive File (P : Type) where
  | damaged
  | whole (tx : Transaction P)

/-! ## Surroundings -/

/-- Why a call ends: an error, or the end of the process. -/
inductive Failure where
  | error (message : String)
  | crash
deriving DecidableEq

/-- What becomes of a question to the world. -/
inductive Asked (α : Type) where
  | answer (a : α)
  | failed (message : String)
  | crashed

/-- What becomes of `control.set`. One that fails can have been stored all the same. -/
inductive Saved where
  | saved
  | failed (effective : Bool) (message : String)
  | crashed (effective : Bool)

/-- How much of a file is left by a write that fails. -/
inductive Left where
  | nothing
  | part
  | whole

/-- What becomes of `writeFileSync`. -/
inductive Wrote where
  | written
  | failed (left : Left) (message : String)
  | crashed (left : Left)

/-- What the node answers to a submission. -/
inductive Response where
  | notOk
  | rejected (code : Option ℤ) (message : String)
  | accepted (hash : String)

/-- What the receipt reader found. -/
structure Observation where
  blockHeight : ℕ
  finalizedHead : String

/-- What the SDK makes of an operation: the transaction that it submits, and then whether the
receipt that it waits for says `SucceedEntirely`. -/
structure Execution (P : Type) where
  built : Asked (Transaction P)
  finished : Asked Bool

/-- What the journal takes from outside, in the order in which it will ask. -/
structure World (P : Type) where
  sets : Stream' Saved
  bins : Stream' Wrote
  jsons : Stream' (Asked Unit)
  reads : Stream' (Asked Unit)
  executions : Stream' (Execution P)
  extrinsics : Stream' (Asked Unit)
  posts : Stream' (Asked Response)
  observations : Stream' (Asked Observation)
  wallets : Stream' (Asked Unit)
  sanitizeServiceError : String → String

/-- What happened. -/
inductive Event (A P : Type) where
  /-- The operation became durable, in place of what was pending. -/
  | prepared (pending : Pending A) (before : Option (Pending A))
  /-- The node was called, with what was durable at that time. -/
  | posted (id : String) (tx : Transaction P) (durable : Application A)
  /-- The receipt reader confirmed the recorded transaction. -/
  | observed (row : Record)
  /-- The after-state of the operation became durable, in place of the state. -/
  | adopted (pending : Pending A) (before : Application A)

/-- A process, and what outlives it. -/
structure System (A P : Type) where
  /-- `this.state`. -/
  state : Application A
  persistenceUncertain : Bool
  /-- The process has not ended. -/
  running : Bool
  /-- What `control` holds under `application`. -/
  durable : Application A
  /-- The `.bin` files. -/
  files : String → Option (File P)
  world : World P
  events : List (Event A P)

abbrev M (A P : Type) (α : Type) := EStateM Failure (System A P) α

section Program

variable {A P : Type} {α : Type}

/-! ## Primitives -/

/-- The process ends. -/
def crash : M A P α := do
  modify fun s => { s with running := false }
  throw .crash

/-- A question to the world. -/
def ask (question : World P → Asked α) (rest : World P → World P) : M A P α := do
  let s ← get
  set { s with world := rest s.world }
  match question s.world with
  | .answer a => pure a
  | .failed message => throw (.error message)
  | .crashed => crash

/-- `this.state`. -/
def state : M A P (Application A) := do
  pure (← get).state

/-- An assignment to `this.state`. -/
def assign (f : Application A → Application A) : M A P Unit :=
  modify fun s => { s with state := f s.state }

/-- An assignment to `this.state.pending`, which is there. -/
def assignPending (f : Pending A → Pending A) : M A P Unit :=
  assign fun state => { state with pending := state.pending.map f }

def record (event : Event A P) : M A P Unit :=
  modify fun s => { s with events := event :: s.events }

/-- `this.control.set('application', …)`; `note` is what to record of it, once it is durable. -/
def controlSet (candidate : Application A) (note : Application A → List (Event A P)) :
    M A P Unit := do
  let outcome := (← get).world.sets.head
  modify fun s => { s with world := { s.world with sets := s.world.sets.tail } }
  let stored : M A P Unit := modify fun s =>
    { s with durable := candidate, events := note s.durable ++ s.events }
  match outcome with
  | .saved => stored
  | .failed effective message => do
      if effective then stored
      throw (.error message)
  | .crashed effective => do
      if effective then stored
      crash

/-- `writeFileSync` of the `.bin` file, with the flag `wx`. -/
def writeBin (id : String) (tx : Transaction P) : M A P Unit := do
  if ((← get).files id).isSome then throw (.error "EEXIST: file already exists")
  let outcome := (← get).world.bins.head
  modify fun s => { s with world := { s.world with bins := s.world.bins.tail } }
  let leave (left : Left) : M A P Unit := modify fun s =>
    { s with files := match left with
        | .nothing => s.files
        | .part => Function.update s.files id (some .damaged)
        | .whole => Function.update s.files id (some (.whole tx)) }
  match outcome with
  | .written => leave .whole
  | .failed left message => do
      leave left
      throw (.error message)
  | .crashed left => do
      leave left
      crash

/-- `writeFileSync` of the `.json` file, which nothing reads. -/
def writeJson : M A P Unit :=
  ask (·.jsons.head) fun w => { w with jsons := w.jsons.tail }

/-- `L.Transaction.deserialize(…, readFileSync(path))`. -/
def readBin (id : String) : M A P (Transaction P) := do
  ask (·.reads.head) fun w => { w with reads := w.reads.tail }
  match (← get).files id with
  | none => throw (.error "ENOENT: no such file")
  | some .damaged => throw (.error "Unable to deserialize Transaction")
  | some (.whole tx) => pure tx

/-- `existsSync` of the `.bin` file. -/
def existsBin (id : String) : M A P Bool := do
  pure ((← get).files id).isSome

/-- `this.reader.read(…)`. -/
def read : M A P Observation :=
  ask (·.observations.head) fun w => { w with observations := w.observations.tail }

/-- `this.persistWallet()`. -/
def persistWallet : M A P Unit :=
  ask (·.wallets.head) fun w => { w with wallets := w.wallets.tail }

/-! ## The journal -/

/-- `assertJournalWritable`. -/
def assertJournalWritable : M A P Unit := do
  if (← get).persistenceUncertain then
    throw (.error ("Supplier storage is uncertain. Stop and reopen its retained state before "
      ++ "continuing."))

/-- `save`. -/
def save (candidate : Application A) (note : Application A → List (Event A P)) : M A P Unit := do
  assertJournalWritable
  rescue (controlSet candidate note) fun
    | .error message => some do
        modify fun s => { s with persistenceUncertain := true }
        throw (.error message)
    | .crash => none

/-- `save()`. -/
def saveState : M A P Unit := do
  save (← state) fun _ => []

/-- `pending.after.contractAddress = address`. -/
def Pending.withAddress (pending : Pending A) (address : Address) : Pending A :=
  { pending with after := { pending.after with contractAddress := some address } }

/-- `transactionRecord`. -/
def transactionRecord (pending : Pending A) (tx : Transaction P) : M A P Record := do
  match tx.actions with
  | [action] => do
      if action.kind ≠ pending.kind then throw (.error "Saved transaction action mismatch.")
      if pending.kind = .call ∧ action.entryPoint ≠ pending.name then
        throw (.error "Saved transaction circuit mismatch.")
      if pending.kind = .deploy then assignPending (·.withAddress action.address)
      else if (← state).owned.contractAddress ≠ some action.address then
        throw (.error "Saved transaction targets another contract.")
      match tx.identifiers.getLast? with
      | none => throw (.error "Saved transaction identifier is missing.")
      | some txId => pure {
          id := pending.id, kind := pending.kind, name := pending.name
          contractAddress := action.address, txId, txHash := tx.transactionHash
          disposition := .prepared, submissionError := none, extrinsicHash := none }
  | _ => throw (.error "Saved transaction action mismatch.")

/-- The two records are of one transaction. -/
def Record.same (row actual : Record) : Bool :=
  actual.id == row.id && actual.kind == row.kind && actual.name == row.name
    && actual.contractAddress == row.contractAddress && actual.txId == row.txId
    && actual.txHash == row.txHash

/-- `row.… = …`. -/
def assignRow (f : Record → Record) : M A P Unit :=
  assignPending fun pending => { pending with record := pending.record.map f }

/-- The call of the node. -/
def post (id : String) (tx : Transaction P) : M A P Response := do
  record (.posted id tx (← get).durable)
  ask (·.posts.head) fun w => { w with posts := w.posts.tail }

def reconcileText : String := "Reconcile the saved transaction."

/-- What is done with the answer of the node. -/
def respond : Response → M A P Unit
  | .notOk => throw (.error "Submission result is uncertain. Reconcile the saved transaction.")
  | .rejected code message => do
      let text := (← get).world.sanitizeServiceError message
      let codeText := (code.map toString).getD "unknown"
      assignRow fun row => { row with submissionError := some (code, text) }
      saveState
      writeJson
      throw (.error s!"RPC rejected the submission ({codeText}): {text}. {reconcileText}")
  | .accepted hash => do
      assignRow fun row => { row with extrinsicHash := some hash, disposition := .submitted }
      saveState
      writeJson

/-- `submitPrepared`. -/
def submitPrepared (tx : Transaction P) : M A P Unit := do
  assertJournalWritable
  match (← state).pending with
  | some pending =>
      match pending.record with
      | some row => do
          if row.disposition ≠ .prepared then
            throw (.error "Only a provably unsubmitted transaction can be submitted.")
          let actual ← transactionRecord pending tx
          if !row.same actual then throw (.error "Saved transaction journal mismatch.")
          ask (·.extrinsics.head) fun w => { w with extrinsics := w.extrinsics.tail }
          assignRow fun row => { row with disposition := .submissionAttempted }
          saveState
          writeJson
          respond (← post pending.id tx)
      | none => throw (.error "Only a provably unsubmitted transaction can be submitted.")
  | none => throw (.error "Only a provably unsubmitted transaction can be submitted.")

/-- `journalAndSubmit`. -/
def journalAndSubmit (tx : Transaction P) : M A P String := do
  assertJournalWritable
  match (← state).pending with
  | none => throw (.error "Submission has no durable operation context.")
  | some pending =>
      match tx.identifiers.getLast? with
      | none => throw (.error "Transaction has no identifier.")
      | some identifier =>
          match tx.actions with
          | [action] => do
              if pending.kind = .deploy then assignPending (·.withAddress action.address)
              else if (← state).owned.contractAddress ≠ some action.address then
                throw (.error "Transaction targets another contract.")
              let row ← transactionRecord pending tx
              writeBin pending.id tx
              writeJson
              assignPending fun pending => { pending with record := some row }
              saveState
              submitPrepared tx
              pure identifier
          | _ => throw (.error "Expected one contract action.")

/-- `reconcile`. -/
def reconcile : M A P (Option Receipt) := do
  assertJournalWritable
  match (← state).pending with
  | none => pure none
  | some pending =>
      match pending.record with
      | none => pure none
      | some row => do
          let observed ← read
          record (.observed row)
          let receipt : Receipt :=
            ⟨{ row with disposition := .confirmedSuccess }, observed.blockHeight,
              observed.finalizedHead⟩
          let next : Application A := {
            owned := pending.after
            receipts := (← state).receipts.filter (·.record.id ≠ row.id) ++ [receipt]
            pending := none }
          save next fun before => [.adopted pending before]
          assign fun _ => next
          writeJson
          pure (some receipt)

/-- `this.state.pending = null; await this.save()`. -/
def clear : M A P Unit := do
  assign fun state => { state with pending := none }
  saveState

/-- `recoverPending`. -/
def recoverPending : M A P (Option Receipt) := do
  assertJournalWritable
  match (← state).pending with
  | none => pure none
  | some pending => do
      if pending.record.isNone && !(← existsBin pending.id) then
        clear
        pure none
      else do
        match pending.record with
        | none => do
            let tx ← readBin pending.id
            let row ← transactionRecord pending tx
            assignPending fun pending => { pending with record := some row }
            saveState
            submitPrepared tx
        | some row => do
            if row.disposition = .prepared then
              let tx ← readBin pending.id
              saveState
              submitPrepared tx
        reconcile

/-- `/^[a-z0-9-]{1,100}$/`. -/
def isOperationId (id : String) : Bool :=
  1 ≤ id.length && id.length ≤ 100
    && id.toList.all fun c => ('a' ≤ c && c ≤ 'z') || ('0' ≤ c && c ≤ '9') || c == '-'

/-- `execute()`: the SDK. -/
def execute : M A P Bool := do
  let execution := (← get).world.executions.head
  modify fun s => { s with world := { s.world with executions := s.world.executions.tail } }
  let tx ← ask (fun _ => execution.built) id
  let _ ← journalAndSubmit tx
  ask (fun _ => execution.finished) id

/-- What `operation` does with an exception: a pending operation of which no transaction was written
down is dropped. -/
def abandon (id message : String) : M A P (Option Receipt) := do
  if ((← state).pending.bind (·.record)).isNone && !(← existsBin id) then clear
  throw (.error ((← get).world.sanitizeServiceError message))

/-- `operation`. -/
def operation (id : String) (kind : Kind) (name : String) (after : Owned A) :
    M A P (Option Receipt) := do
  assertJournalWritable
  if !isOperationId id then throw (.error "Invalid operation identifier.")
  if (← state).pending.isSome then
    throw (.error "Reconcile the pending transaction before preparing another operation.")
  match (← state).receipts.find? (·.record.id = id) with
  | some retained => do
      let _ ← read
      pure (some retained)
  | none => do
      let pending : Pending A := {
        id, kind, name, after, record := none, base := (← state).owned }
      assign fun state => { state with pending := some pending }
      save (← state) fun before => [.prepared pending before.pending]
      ensure
        (rescue
          (do
            if !(← execute) then throw (.error "Transaction did not succeed entirely.")
            reconcile)
          fun
            | .error message => some (abandon id message)
            | .crash => none)
        (· ≠ .crash) persistWallet

/-! ## Owners -/

/-- The state is opened again, after the end of the process or without it. -/
def reopen : M A P Unit :=
  modify fun s =>
    { s with state := s.durable, persistenceUncertain := false, running := true }

/-- What an owner can do, one after another. It changes its own part of the state, and computes an
after-state from it. -/
inductive Request (A : Type) where
  | operation (id : String) (kind : Kind) (name : String) (after : Owned A → Owned A)
  | recoverPending
  | reconcile
  /-- `this.state.… = …`, which the next `save` will store. -/
  | change (f : Owned A → Owned A)
  | save
  | reopen

def Request.isReopen : Request A → Bool
  | .reopen => true
  | _ => false

/-- What a request does in a process that runs. -/
def handle : Request A → M A P (Option Receipt)
  | .operation id kind name after => do
      operation id kind name (after (← state).owned)
  | .recoverPending => recoverPending
  | .reconcile => reconcile
  | .change f => do
      assign fun state => { state with owned := f state.owned }
      pure none
  | .save => do
      saveState
      pure none
  | .reopen => do
      reopen
      pure none

/-- One request; a process that has ended can only be opened again. -/
def serve (request : Request A) : M A P (Option Receipt) := do
  if !(← get).running && !request.isReopen then throw .crash
  handle request

/-- Requests one after another. -/
def serveAll : List (Request A) → System A P → System A P
  | [], s => s
  | request :: rest, s => serveAll rest (final (serve request s))

/-- A process that has just stored its first state. -/
def start (owned : Owned A) (world : World P) : System A P :=
  let first : Application A := ⟨owned, [], none⟩
  { state := first, persistenceUncertain := false, running := true, durable := first
    files := fun _ => none, world, events := [] }

end Program

end Line.Native
