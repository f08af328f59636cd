import Line.Journal.Submission
import Line.Console.Recovery

/-!
# What a console talks to

A console action runs under a lease of the journal. Now and then it asks its
surroundings for something: whether the vault session and the contract are still the ones
it started with, what the journal holds, what the public ledger shows, and it has the runtime
execute a transaction. The answers are not its own to choose, so they are given from outside
(`Surroundings`), one for each point in time; they may be anything, and at any point the
process may end.

Everything that was asked is recorded, newest first.
-/

namespace Line.Console

open Vault Journal Checked History

/-! ## What is observed -/

structure QuoteEvidence where
  commitment : String
  present : Bool
  lineGeneration : Option String

structure NoteEvidence where
  commitment : String
  present : Bool
  lineGeneration : Option String
  redeemed : Option Bool
  cancelled : Option Bool
  compensationAllocated : Option Bool
  refundCommitment : Option String
  cashRefundOwed : Option Bool
  refundAcknowledged : Option Bool
  refundPaymentNullifier : Option String

structure NullifierEvidence where
  value : String
  present : Bool

/-- `RuntimeRecoveryEvidence`: one observation of the public ledger. -/
structure RuntimeRecoveryEvidence where
  runtime : RuntimeMode
  networkId : String
  contractAddress : String
  contractDomain : String
  identityCommitment : Option String
  lineCommitment : Option String
  lineGeneration : String
  actionClock : String
  feeFlat : Option String
  feeBps : Option String
  quote : Option QuoteEvidence
  note : Option NoteEvidence
  nullifier : Option NullifierEvidence

/-- `RuntimeRecoveryQuery`. -/
structure RecoveryQuery where
  quoteCommit : Option String
  noteCommit : Option String
  nullifier : Option String
deriving DecidableEq

inductive Disposition where
  | confirmedSuccess | definitiveRejection | unresolved
deriving DecidableEq, Repr

/-- `RuntimeTransactionResult`. -/
structure TransactionResult where
  ok : Bool
  disposition : Option Disposition
  txId : Option String
  txHash : Option String
  blockHeight : Option Number

/-! ## Asking -/

/-- Why an action does not return. -/
inductive Stop where
  /-- The process ended. -/
  | crash
  | thrown (e : Error)

/-- What was asked, and what came back. -/
inductive Interaction where
  | current (answer : Result Unit)
  | journal (env : Env) (c : Journal.Call) (answer : Except Error Answer)
  | receipt (transactionId : String) (answer : Result (Option TransactionResult))
  | evidence (query : RecoveryQuery) (answer : Result RuntimeRecoveryEvidence)
  /-- The runtime was told to execute a circuit for an operation, with this in the store. -/
  | invoke (kind : OperationKind) (id : String) (store : Option Json.Text)

/-- The answers to come, by the number of questions before. -/
structure Surroundings where
  crash : ℕ → Bool
  current : ℕ → Result Unit
  env : ℕ → Env
  receipt : ℕ → Result (Option TransactionResult)
  evidence : ℕ → Result RuntimeRecoveryEvidence

/-- The lease of a console action, and what it asked so far. -/
structure Running where
  held : Held
  log : List Interaction

abbrev Session := EStateM Stop Running

section Asking

variable (scope : Scope) (around : Surroundings)

/-- One interaction: it may be the last. -/
def ask {α : Type} (answer : ℕ → Held → Except Error α × Held)
    (record : ℕ → Held → Interaction) : Session α := fun s =>
  if around.crash s.log.length then .error .crash s
  else
    let running : Running :=
      ⟨(answer s.log.length s.held).2, record s.log.length s.held :: s.log⟩
    match (answer s.log.length s.held).1 with
    | .ok a => .ok a running
    | .error e => .error (.thrown e) running

/-- `assertCurrent()`. -/
def assertCurrent : Session Unit :=
  ask around (fun n held => (around.current n, held)) fun n _ => .current (around.current n)

/-- A method of the lease, as an answer and what the lease then holds. -/
def answered (env : Env) (c : Journal.Call) (held : Held) : Except Error Answer × Held :=
  match perform scope env c held with
  | .ok a held => (.ok a, held)
  | .error e held => (.error e, held)

def lease (c : Journal.Call) : Session Answer :=
  ask around (fun n held => answered scope (around.env n) c held) fun n held =>
    .journal (around.env n) c (answered scope (around.env n) c held).1

/-- `runtime.getTransactionReceipt(transactionId)`. -/
def getTransactionReceipt (transactionId : String) : Session (Option TransactionResult) :=
  ask around (fun n held => (around.receipt n, held)) fun n _ =>
    .receipt transactionId (around.receipt n)

/-- `runtime.getRecoveryEvidence(query)`. -/
def getRecoveryEvidence (query : RecoveryQuery) : Session RuntimeRecoveryEvidence :=
  ask around (fun n held => (around.evidence n, held)) fun n _ =>
    .evidence query (around.evidence n)

/-- What the code computes on its own; a failure is thrown. -/
def compute {α : Type} : Result α → Session α
  | .ok a => pure a
  | .error e => throw (.thrown e)

/-- `lease.read()`. -/
def read : Session OperationJournalRecord := do
  match ← lease scope around .read with
  | .record record => pure record
  | .operation _ => throw (.thrown (.plain "A read answers with a record."))

/-- `try { … } catch (error) { … }`; nothing catches the end of the process. -/
def catching {α : Type} (x : Session α) (handler : Error → Session α) : Session α := fun s =>
  match x s with
  | .ok a s' => .ok a s'
  | .error .crash s' => .error .crash s'
  | .error (.thrown e) s' => handler e s'

end Asking

end Line.Console
