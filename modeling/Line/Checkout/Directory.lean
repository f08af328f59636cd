import Line.Lib.History
import Line.Lib.Table
import Mathlib.Data.List.Basic
import Mathlib.Tactic.Common

/-!
# The directory of an encrypted checkout store

`EncryptedCheckoutStore` keeps one file per checkout session in a directory that one store
at a time owns. Ownership is a lease file: opening creates it exclusively, and where it
already exists a recovery directory is made, the process named in the lease is probed, and
the lease of a dead process is replaced.

Between two `await`s a store does at most one thing to the directory, so the protocol is a
machine: a store is in a `Phase`, and `Phase.next` is the one shared step that phase makes.
A save, a removal and a load are tasks with steps of their own. They go on whatever their
store does in the meantime, closing included, and only a crash of the process ends them.

A lease that is created and not yet written is an empty file, which is no JSON text. What a
file holds is the sealed envelope: it opens with the key (password and binding) it was
sealed with and with no other. A snapshot the codec refuses, or over the size bound, never
reaches the directory, so such a call is no step here.
-/

namespace Line.Checkout.Directory

/-- The number the operating system gives a process. -/
abbrev Pid := ℕ

/-- The random id of a store, which it writes into its lease. -/
abbrev Uuid := ℕ

/-- The lease file. -/
structure Lease where
  pid : Pid
  lease : Uuid
  /-- The text is there; before that the file is empty. -/
  written : Bool
  deriving DecidableEq

/-- What the stores of all processes compete for. -/
structure Lock where
  /-- `.lease` -/
  lease : Option Lease
  /-- `.recovery`, and the store that made it. -/
  recovery : Option Uuid
  deriving DecidableEq

/-- Where a store stands in `acquire` and `close`; each phase is named by its next step. -/
inductive Phase where
  | creating
  | writing
  | guarding
  | checking
  | reading
  | probing (raw : Lease)
  | rereading (raw : Lease)
  | removing
  | republishing
  | rewriting
  /-- The `finally` that takes the recovery directory away. -/
  | leaving (acquired : Bool)
  | owning
  | refused
  | releasing
  | unlinking
  | closed
  deriving DecidableEq

/-- The lease file of a store that writes it; a file made by another store is left alone. -/
def writeLease (u : Uuid) : Option Lease → Option Lease
  | none => none
  | some l => if l.lease = u then some { l with written := true } else some l

/-- The step of store `u` of process `pid`, while the processes `crashed` are dead. -/
def Phase.next (crashed : List Pid) (u : Uuid) (pid : Pid) :
    Phase → Lock → Option (Phase × Lock)
  -- `open(path, "wx")`
  | .creating, k =>
      match k.lease with
      | none => some (.writing, { k with lease := some ⟨pid, u, false⟩ })
      | some _ => some (.guarding, k)
  | .writing, k => some (.owning, { k with lease := writeLease u k.lease })
  -- `mkdir(recovery)`
  | .guarding, k =>
      match k.recovery with
      | none => some (.checking, { k with recovery := some u })
      | some _ => some (.refused, k)
  | .checking, k =>
      match k.lease with
      | none => some (.leaving false, k)
      | some _ => some (.reading, k)
  | .reading, k =>
      match k.lease with
      | none => some (.leaving false, k)
      | some l => if l.written then some (.probing l, k) else some (.leaving false, k)
  -- `process.kill(owner.pid, 0)`
  | .probing raw, k =>
      if raw.pid ∈ crashed then some (.rereading raw, k) else some (.leaving false, k)
  | .rereading raw, k =>
      if k.lease = some raw then some (.removing, k) else some (.leaving false, k)
  | .removing, k =>
      match k.lease with
      | none => some (.leaving false, k)
      | some _ => some (.republishing, { k with lease := none })
  | .republishing, k =>
      match k.lease with
      | none => some (.rewriting, { k with lease := some ⟨pid, u, false⟩ })
      | some _ => some (.leaving false, k)
  | .rewriting, k => some (.leaving true, { k with lease := writeLease u k.lease })
  | .leaving acquired, k =>
      match k.recovery with
      | none => some (.refused, k)
      | some _ => some (if acquired then .owning else .refused, { k with recovery := none })
  -- `close`: the lease is read, and removed when it names this store
  | .releasing, k =>
      match k.lease with
      | none => some (.closed, k)
      | some l => if l.written ∧ l.lease = u then some (.unlinking, k) else some (.closed, k)
  | .unlinking, k => some (.closed, { k with lease := none })
  | .owning, _ => none
  | .refused, _ => none
  | .closed, _ => none

/-- The step writes the lease of its own store. -/
def Phase.acquires : Phase → Bool
  | .writing | .rewriting => true
  | _ => false

variable (ι κ γ : Type)

/-- A checkpoint file: the session, and the snapshot sealed under a key. -/
structure Envelope where
  id : ι
  key : κ
  snapshot : γ

/-- A store object. -/
structure Store where
  pid : Pid
  key : κ
  phase : Phase

/-- What happened to the directory. -/
inductive Entry where
  /-- A store wrote its lease. -/
  | acquired (lease : Uuid)
  | published (lease : Uuid) (file : Envelope ι κ γ)
  | removed (lease : Uuid) (id : ι)

/-- A call that is under way, by its next step; `since` is what had happened when it began. -/
inductive Task where
  /-- `save`: the temporary file is complete and its `rename` comes. -/
  | saving (lease : Uuid) (file : Envelope ι κ γ)
  | removing (lease : Uuid) (id : ι)
  /-- `loadAll`: `readdir` comes. -/
  | listing (lease : Uuid) (since : List (Entry ι κ γ))
  /-- The loop of `loadAll`: the next file is checked. -/
  | loading (lease : Uuid) (since : List (Entry ι κ γ)) (files : List ι)
      (snapshots : List (ι × γ))
  /-- The file was found, and is read. -/
  | fetching (lease : Uuid) (since : List (Entry ι κ γ)) (id : ι) (files : List ι)
      (snapshots : List (ι × γ))

/-- A `loadAll` that returned. The code returns the snapshots alone; here each has its session. -/
structure Load where
  lease : Uuid
  /-- What had happened when it was called. -/
  since : List (Entry ι κ γ)
  /-- What had happened when it returned. -/
  upto : List (Entry ι κ γ)
  snapshots : List (ι × γ)

/-- The directory, the stores of all processes and the calls they have under way. -/
structure World where
  lock : Lock
  files : List (ι × Envelope ι κ γ)
  stores : Uuid → Option (Store κ)
  /-- The processes that crashed. -/
  crashed : List Pid
  tasks : List (Task ι κ γ)
  /-- What happened, newest first. No step reads it. -/
  trace : List (Entry ι κ γ)
  /-- The loads that returned. No step reads it. -/
  loads : List (Load ι κ γ)

variable {ι κ γ}

/-- A directory that was just made. -/
def World.empty : World ι κ γ where
  lock := ⟨none, none⟩
  files := []
  stores := fun _ => none
  crashed := []
  tasks := []
  trace := []
  loads := []

/-- The store the call was made on. -/
def Task.lease : Task ι κ γ → Uuid
  | .saving u _ | .removing u _ | .listing u _ | .loading u _ _ _ | .fetching u _ _ _ _ => u

/-- The call changes checkpoint files. -/
def Task.writes : Task ι κ γ → Bool
  | .saving _ _ | .removing _ _ => true
  | _ => false

section Files

variable [DecidableEq ι]

/-- `rm(file, { force: true })` -/
def unlink (id : ι) (files : List (ι × Envelope ι κ γ)) : List (ι × Envelope ι κ γ) :=
  Table.erase id files

/-- `rename(temporary, destination)` -/
def replace (file : Envelope ι κ γ) (files : List (ι × Envelope ι κ γ)) :
    List (ι × Envelope ι κ γ) :=
  Table.put file.id file files

/-- The file under a session's name. -/
def find (id : ι) (files : List (ι × Envelope ι κ γ)) : Option (Envelope ι κ γ) :=
  Table.get id files

end Files

/-- Store `u` stands in phase `p`. -/
def World.move (w : World ι κ γ) (u : Uuid) (s : Store κ) (p : Phase) : World ι κ γ :=
  { w with stores := Function.update w.stores u (some { s with phase := p }) }

/-- The live store `u`. -/
def World.live (w : World ι κ γ) (u : Uuid) : Option (Store κ) :=
  (w.stores u).filter fun s => s.pid ∉ w.crashed

/-- A step of `acquire` or `close`. -/
def World.advance (w : World ι κ γ) (u : Uuid) (s : Store κ) : Option (World ι κ γ) :=
  (s.phase.next w.crashed u s.pid w.lock).map fun (p, k) =>
    { w.move u s p with
      lock := k
      trace := if s.phase.acquires then .acquired u :: w.trace else w.trace }

/-- A step of a call; without a task in its place the call is over, by return or error. -/
def World.run [DecidableEq ι] [DecidableEq κ] (w : World ι κ γ) (s : Store κ)
    (rest : List (Task ι κ γ)) : Task ι κ γ → World ι κ γ
  | .saving u file =>
      { w with
        tasks := rest
        files := replace file w.files
        trace := .published u file :: w.trace }
  | .removing u id =>
      { w with tasks := rest, files := unlink id w.files, trace := .removed u id :: w.trace }
  | .listing u since =>
      let files := w.files.map Prod.fst
      if 20 < files.length then { w with tasks := rest }
      else { w with tasks := .loading u since files [] :: rest }
  | .loading u since [] snapshots =>
      { w with tasks := rest, loads := ⟨u, since, w.trace, snapshots⟩ :: w.loads }
  | .loading u since (id :: files) snapshots =>
      -- `this.file(id)` refuses a closed store, and `lstat` a file that is gone
      if s.phase = .owning ∧ (find id w.files).isSome then
        { w with tasks := .fetching u since id files snapshots :: rest }
      else { w with tasks := rest }
  | .fetching u since id files snapshots =>
      match find id w.files with
      | none => { w with tasks := rest }
      | some file =>
          if file.id = id ∧ file.key = s.key then
            { w with tasks := .loading u since files (snapshots ++ [(id, file.snapshot)]) :: rest }
          else { w with tasks := rest }

variable (ι κ γ) in
/-- What can happen next. -/
inductive Action where
  /-- A process calls `open`. -/
  | start (lease : Uuid) (pid : Pid) (key : κ)
  /-- `acquire` or `close` of a store goes on. -/
  | step (lease : Uuid)
  | save (lease : Uuid) (id : ι) (snapshot : γ)
  | remove (lease : Uuid) (id : ι)
  | loadAll (lease : Uuid)
  | close (lease : Uuid)
  /-- The call at this place among those under way goes on. -/
  | work (n : ℕ)
  | crash (pid : Pid)

/-- A call on a live store that is open. -/
def World.call (w : World ι κ γ) (u : Uuid) (f : Store κ → World ι κ γ) : Option (World ι κ γ) :=
  match w.live u with
  | some s => if s.phase = .owning then some (f s) else none
  | none => none

/-- One action. A new store has a fresh id, and a process that crashed does not come back. -/
def World.exec [DecidableEq ι] [DecidableEq κ] (w : World ι κ γ) :
    Action ι κ γ → Option (World ι κ γ)
  | .start u pid key =>
      if (w.stores u).isNone ∧ pid ∉ w.crashed then some (w.move u ⟨pid, key, .creating⟩ .creating)
      else none
  | .step u => (w.live u).bind (w.advance u)
  | .save u id snapshot =>
      w.call u fun s => { w with tasks := w.tasks ++ [.saving u ⟨id, s.key, snapshot⟩] }
  | .remove u id => w.call u fun _ => { w with tasks := w.tasks ++ [.removing u id] }
  | .loadAll u => w.call u fun _ => { w with tasks := w.tasks ++ [.listing u w.trace] }
  | .close u => w.call u fun s => w.move u s .releasing
  | .work n =>
      match w.tasks[n]? with
      | none => none
      | some t => (w.stores t.lease).map fun s => w.run s (w.tasks.eraseIdx n) t
  | .crash pid =>
      if pid ∈ w.crashed then none
      else some { w with
        crashed := pid :: w.crashed
        tasks := w.tasks.filter fun t => ((w.stores t.lease).any fun s => s.pid ≠ pid) }

end Line.Checkout.Directory
