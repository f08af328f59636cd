import Line.Vault.Keys
import Line.Vault.Codec
import Line.Lib.History
import Line.Lib.Table

/-!
# The private-state provider

`VaultPrivateStateProvider` keeps private states and signing keys as sealed records in a
durable store, and where that fails and the configuration allows it, in a map of its own.
Its methods wait many times: for the passphrase, for the store, for the cipher. A call that
waits is a `Call` in some phase; `World.land` is the end of what it waits for, and
`World.resume` is what the method then does until it waits again.

In a browser the durable store is IndexedDB, of which any call may fail; a transaction
applies its change when it commits, and a lock of the vault aborts it before. Without
IndexedDB a browser has no durable store, so every call of it throws, and other hosts have a
map that never fails.

The cipher is ideal: a record is opened by its passphrase and by no other. A session that
expires is one that is locked. `setContractAddress` stands in the slot of each call, which it
refuses where the address is blank.
-/

namespace Line.Vault.Provider

open Vault

abbrev Key := List Char

/-- Where the code runs: whether there is a `window`, and whether there is `indexedDB`. -/
structure Host where
  window : Bool
  indexedDB : Bool

/-- The configuration of a provider, apart from its namespace. -/
structure Config where
  passwordProvider : Bool
  allowEphemeralFallback : Bool

inductive Failure where
  | vault (e : Error)
  | passphrase (message : String)
  /-- What the password callback threw. -/
  | password
  /-- `ContractNotConfiguredError` -/
  | contract (message : String)
  deriving DecidableEq

def revoked : Failure := .vault (.locked "Private storage provider was revoked.")

def sessionChanged : Failure := .vault
  (.locked "Vault session changed while private storage was in use. Unlock and retry.")

def lockedVault : Failure := .vault
  (.locked "Private state storage locked: Passphrase or active vault session required.")

/-- `new ContractNotConfiguredError()` -/
def notConfigured : Failure := .contract ("Contract address is not configured. "
  ++ "Set MIDNIGHT_CONTRACT_ADDRESS or deploy/join a contract.")

/-- `new VaultPersistenceError(message)` -/
def persistence (message : String) : Failure :=
  .vault (.persistence ("Encrypted vault persistence failed: " ++ message))

/-- `EncryptedEnvelope`: what it holds, and the passphrase that opens it. -/
structure Envelope where
  id : Key
  plaintext : Json.Text
  passphrase : String

abbrev Store := List (Key × Envelope)

/-- `decryptSecret` -/
def decryptSecret (e : Envelope) (passphrase : String) : Except Failure Json.Text :=
  if e.passphrase = passphrase then .ok e.plaintext
  else .error (.passphrase
    "Ciphertext MAC authentication failed: Incorrect vault passphrase or corrupted ciphertext.")

/-- The session of the vault. -/
structure Session where
  passphrase : Option String
  revision : ℕ

/-- `Authorization` -/
structure Auth where
  passphrase : String
  revision : ℕ
  sessionBound : Bool

/-- A provider. -/
structure Instance where
  ephemeral : Store
  disposed : Bool

/-! ## Operations -/

/-- The methods of a provider; `clear` takes the contract address that is set. -/
inductive Op where
  | get (s : Slot)
  | set (s : Slot) (value : Data)
  | remove (s : Slot)
  | clear (address : String)
  | clearSigningKeys

/-- The contract a method is about, which `setContractAddress` was given. -/
def Op.address : Op → Option String
  | .get (.state address _) | .set (.state address _) _ | .remove (.state address _)
  | .clear address => some address
  | _ => none

/-- The slots a method changes. -/
def Op.covers : Op → Slot → Prop
  | .get _, _ => False
  | .set s _, t => s = t
  | .remove s, t => s = t
  | .clear address, t => ∃ id, t = .state address id
  | .clearSigningKeys, t => ∃ address, t = .signing address

instance (op : Op) (t : Slot) : Decidable (op.covers t) :=
  match op, t with
  | .get _, _ => .isFalse nofun
  | .set s _, t => inferInstanceAs (Decidable (s = t))
  | .remove s, t => inferInstanceAs (Decidable (s = t))
  | .clear a, .state b i =>
      if h : b = a then .isTrue ⟨i, by rw [h]⟩ else .isFalse fun ⟨_, he⟩ => h (Slot.state.inj he).1
  | .clear _, .signing _ => .isFalse nofun
  | .clearSigningKeys, .signing a => .isTrue ⟨a, rfl⟩
  | .clearSigningKeys, .state _ _ => .isFalse nofun

/-- What a method leaves in the slots it changes. -/
def Op.leaves : Op → Option Value
  | .set _ value => some value.1
  | _ => none

/-- The key of a method on one record. -/
def Op.key (n : Namespace) : Op → Key
  | .get s | .set s _ | .remove s => n.key s
  | .clear _ | .clearSigningKeys => []

/-- The prefix of a method that clears. -/
def Op.under (n : Namespace) : Op → Key
  | .clear address => n.statePrefix address
  | .clearSigningKeys => n.signingPrefix
  | .get _ | .set _ _ | .remove _ => []

/-- A change of the durable store. -/
inductive Change where
  | put (e : Envelope)
  | delete (key : Key)
  | deletePrefix (under : Key)

/-- The keys a change is about. -/
def Change.touches : Change → Key → Bool
  | .put e, k => e.id = k
  | .delete key, k => key = k
  | .deletePrefix under, k => under.isPrefixOf k

def Change.apply : Change → Store → Store
  | .put e, d => Table.put e.id e d
  | c, d => Table.eraseIf c.touches d

/-! ## Calls -/

/-- What a call waits for. -/
inductive Phase where
  /-- `passwordProvider()` -/
  | authorizing
  /-- `read`: `loadEncryptedJson`, then `decryptSecret` of the ephemeral record. -/
  | reading
  | unsealing (e : Envelope)
  /-- `write`: the ephemeral record that is there is opened, the durable one is loaded, -/
  | matching (text : Json.Text) (e : Envelope)
  | proving (text : Json.Text)
  /-- the record is sealed, and after a failure sealed again. -/
  | sealing (text : Json.Text)
  | sheltering (text : Json.Text)
  /-- `delete`: the durable record is loaded, the ephemeral one opened. -/
  | checking
  | confirming (e : Envelope)
  /-- `deletePrefix`: the keys are listed, each is loaded, each ephemeral record opened. -/
  | listing
  | probing (key : Key) (keys : List Key)
  | decrypting (e : Envelope) (rest : Store)
  /-- `transact`: the database is opened, the transaction commits. -/
  | opening (change : Change)
  | committing (change : Change)

/-- What came of it. -/
inductive Answer where
  | passphrase (p : String)
  | text (t : Option Json.Text)
  | keys (ks : List Key)
  | done
  | error (e : Failure)

/-- A call of a method that has not returned. -/
structure Call where
  owner : Namespace
  op : Op
  auth : Auth
  phase : Phase
  answer : Option Answer

/-- What happened. -/
inductive Entry where
  /-- A `get` returned. -/
  | got (owner : Namespace) (s : Slot) (value : Option Value)
  /-- A method that changes records resolved. -/
  | resolved (owner : Namespace) (op : Op)

structure World where
  session : Session
  durable : Store
  instances : Namespace → Instance
  calls : List Call
  /-- What happened, newest first. No step reads it. -/
  trace : List Entry

/-- How a call goes on: it waits again, or it is over. -/
inductive Next where
  | wait (c : Call)
  | returned (value : Option Value)
  | resolved
  | rejected (e : Failure)

/-- `assertAuthorized` -/
def World.assertAuthorized (w : World) (n : Namespace) (auth : Auth) : Except Failure Unit :=
  if (w.instances n).disposed then .error revoked
  else if auth.sessionBound ∧
      (w.session.passphrase = none ∨ w.session.revision ≠ auth.revision) then
    .error sessionChanged
  else .ok ()

/-- The provider of a call still has its authorization. -/
def World.authorized (w : World) (c : Call) : Prop := w.assertAuthorized c.owner c.auth = .ok ()

/-- The ephemeral records of a namespace. -/
def World.ephemeral (w : World) (n : Namespace) : Store := (w.instances n).ephemeral

def World.setEphemeral (w : World) (n : Namespace) (s : Store) : World :=
  { w with instances := Function.update w.instances n { w.instances n with ephemeral := s } }

/-- `canFallback` -/
def canFallback (cfg : Config) : Failure → Bool
  | .vault (.persistence _) => cfg.allowEphemeralFallback
  | _ => false

variable (host : Host) (cfg : Namespace → Config)

/-- After `assertAuthorized`, or the call throws. -/
def World.checked (w : World) (c : Call) (f : World × Next) : World × Next :=
  match w.assertAuthorized c.owner c.auth with
  | .error e => (w, .rejected e)
  | .ok _ => f

def Call.wait (c : Call) (p : Phase) : Next := .wait { c with phase := p, answer := none }

/-- A change is sent to the durable store, as far as that goes without waiting. -/
def World.store (w : World) (c : Call) (change : Change) : World × Next :=
  if host.indexedDB then (w, c.wait (.opening change))
  else if host.window then
    (w, .wait { c with
      phase := .committing change
      answer := some (.error (persistence "Browser encrypted storage is unavailable.")) })
  else
    match w.assertAuthorized c.owner c.auth with
    | .error e => (w, .wait { c with phase := .committing change, answer := some (.error e) })
    | .ok _ => ({ w with durable := change.apply w.durable },
        .wait { c with phase := .committing change, answer := some .done })

/-- The loop over the ephemeral records, as they were when it began. -/
def World.walk (w : World) (c : Call) : Store → World × Next
  | [] => w.checked c (w.store host c (.deletePrefix (c.op.under c.owner)))
  | (key, e) :: rest =>
      if (c.op.under c.owner).isPrefixOf key then (w, c.wait (.decrypting e rest))
      else w.checked c (w.walk c rest)

/-- The durable store did not take the change. -/
def World.refused (w : World) (c : Call) (e : Failure) : Change → World × Next
  | .put r => w.checked c
      (if canFallback (cfg c.owner) e then (w, c.wait (.sheltering r.plaintext))
      else (w, .rejected e))
  | .delete _ | .deletePrefix _ => (w, .rejected e)

/-- A method after `authorize`. -/
def World.begin (w : World) (c : Call) : World × Next :=
  match c.op with
  | .get _ => (w, c.wait .reading)
  | .set s value =>
      match encodeVaultJson value.1 with
      | .error e => (w, .rejected (.vault e))
      | .ok text =>
          match Table.get (c.owner.key s) (w.ephemeral c.owner) with
          | some e => (w, c.wait (.matching text e))
          | none => w.checked c (w, c.wait (.proving text))
  | .remove _ => (w, c.wait .checking)
  | .clear _ | .clearSigningKeys => (w, c.wait .listing)

/-- The end of `read`, once the durable store was asked. -/
def World.settle (w : World) (c : Call) (durable : Option Value) : World × Next :=
  match Table.get (c.op.key c.owner) (w.ephemeral c.owner) with
  | none => (w, .returned durable)
  | some e => (w, c.wait (.unsealing e))

/-- What a method does between two waits. -/
def World.resume (w : World) (c : Call) : Phase → Answer → Option (World × Next)
  | .authorizing, .passphrase p =>
      if p = "" then some (w, .rejected lockedVault)
      else
        let c' : Call := { c with auth := { c.auth with passphrase := p } }
        some (w.checked c' (w.begin c'))
  | .reading, .text none => some (w.checked c (w.settle c none))
  | .reading, .text (some t) =>
      some (w.checked c (match decodeVaultJson t with
        | .error e => (w, .rejected (.vault e))
        | .ok v => w.settle c (some v)))
  | .reading, .error e =>
      some (w.checked c (if canFallback (cfg c.owner) e then w.settle c none
        else (w, .rejected e)))
  | .unsealing _, .text (some t) =>
      some (match decodeVaultJson t with
        | .error e => (w, .rejected (.vault e))
        | .ok v => w.checked c (w, .returned (some v)))
  | .matching text _, .text _ => some (w.checked c (w, c.wait (.proving text)))
  | .proving text, .text _ => some (w.checked c (w, c.wait (.sealing text)))
  | .proving text, .error e =>
      some (w.refused cfg c e (.put ⟨c.op.key c.owner, text, c.auth.passphrase⟩))
  | .sealing text, .done =>
      some (w.store host c (.put ⟨c.op.key c.owner, text, c.auth.passphrase⟩))
  | .sheltering text, .done =>
      some (w.checked c
        (w.setEphemeral c.owner (Table.put (c.op.key c.owner)
          ⟨c.op.key c.owner, text, c.auth.passphrase⟩ (w.ephemeral c.owner)), .resolved))
  | .checking, .text _ =>
      some (match Table.get (c.op.key c.owner) (w.ephemeral c.owner) with
        | some e => (w, c.wait (.confirming e))
        | none => w.checked c (w.store host c (.delete (c.op.key c.owner))))
  | .confirming _, .text _ =>
      some (w.checked c (w.store host c (.delete (c.op.key c.owner))))
  | .listing, .keys [] => some (w.walk host c (w.ephemeral c.owner))
  | .listing, .keys (key :: keys) => some (w, c.wait (.probing key keys))
  | .probing _ (key :: keys), .text _ =>
      some (w.checked c (w, c.wait (.probing key keys)))
  | .probing _ [], .text _ => some (w.checked c (w.walk host c (w.ephemeral c.owner)))
  | .decrypting _ rest, .text _ => some (w.checked c (w.walk host c rest))
  -- `beforeWrite`, once the database is open
  | .opening change, .done =>
      some (match w.assertAuthorized c.owner c.auth with
        | .error e => (w, .wait { c with phase := .committing change, answer := some (.error e) })
        | .ok _ => (w, c.wait (.committing change)))
  | .opening change, .error e => some (w.refused cfg c e change)
  | .committing change, .error e => some (w.refused cfg c e change)
  | .committing change, .done =>
      some (w.checked c
        (w.setEphemeral c.owner (Table.eraseIf change.touches (w.ephemeral c.owner)), .resolved))
  | _, .error e => some (w, .rejected e)
  | _, _ => none

/-! ## What is waited for -/

/-- How it ends. -/
inductive Outcome where
  | works
  /-- The durable store fails, with its message. -/
  | fails (message : String)
  /-- The guard of a clearing transaction finds at a record that the provider was revoked. -/
  | aborts
  /-- The password callback answers. -/
  | password (p : String)

/-- `loadEncryptedSecret`, apart from failures of the store. -/
def openRecord (key : Key) (passphrase : String) : Option Envelope → Answer
  | none => .text none
  | some e =>
      if e.id = key then
        match decryptSecret e passphrase with
        | .ok t => .text (some t)
        | .error f => .error f
      else .error (.vault (.tampered "Encrypted record identity does not match its storage key."))

/-- What the durable store answers when it is read. -/
def Host.ask (host : Host) (a : Answer) : Outcome → Option Answer
  | .works =>
      if host.window ∧ host.indexedDB = false then
        some (.error (persistence "Browser encrypted storage is unavailable."))
      else some a
  | .fails message => if host.indexedDB then some (.error (persistence message)) else none
  | _ => none

/-- The answer of the cipher. -/
def opened (e : Envelope) (passphrase : String) : Answer :=
  match decryptSecret e passphrase with
  | .ok t => .text (some t)
  | .error f => .error f

/-- The end of what a call waits for, and the durable store then. -/
def World.land (w : World) (c : Call) (o : Outcome) : Option (Answer × Store) :=
  match c.phase with
  | .authorizing =>
      match o with
      | .password p => some (.passphrase p, w.durable)
      | .fails _ => some (.error .password, w.durable)
      | _ => none
  | .reading | .proving _ | .checking =>
      (host.ask (openRecord (c.op.key c.owner) c.auth.passphrase
        (Table.get (c.op.key c.owner) w.durable)) o).map (·, w.durable)
  | .probing key _ =>
      (host.ask (openRecord key c.auth.passphrase (Table.get key w.durable)) o).map
        (·, w.durable)
  | .listing =>
      (host.ask (.keys ((w.durable.map Prod.fst).filter (c.op.under c.owner).isPrefixOf)) o).map
        (·, w.durable)
  | .unsealing e | .matching _ e | .confirming e | .decrypting e _ =>
      match o with
      | .works => some (opened e c.auth.passphrase, w.durable)
      | _ => none
  | .sealing _ | .sheltering _ =>
      match o with
      | .works => some (.done, w.durable)
      | _ => none
  | .opening _ =>
      match o with
      | .works => some (.done, w.durable)
      | .fails message => some (.error (persistence message), w.durable)
      | _ => none
  | .committing change =>
      match o, change with
      | .works, _ => some (.done, change.apply w.durable)
      | .fails message, _ => some (.error (persistence message), w.durable)
      | .aborts, .deletePrefix _ =>
          match w.assertAuthorized c.owner c.auth with
          | .error e => some (.error e, w.durable)
          | .ok _ => none
      | _, _ => none

/-! ## Steps -/

inductive Action where
  | request (n : Namespace) (op : Op)
  /-- What the call at this place waits for ends. -/
  | land (i : ℕ) (o : Outcome)
  /-- The call at this place goes on. -/
  | resume (i : ℕ)
  | lock
  | unlock (passphrase : String)
  | dispose (n : Namespace)

/-- The call at place `i` went on. -/
def World.next (w : World) (i : ℕ) (c : Call) : Next → World
  | .wait c' => { w with calls := w.calls.set i c' }
  | .returned value =>
      match c.op with
      | .get s => { w with calls := w.calls.eraseIdx i, trace := .got c.owner s value :: w.trace }
      | _ => { w with calls := w.calls.eraseIdx i }
  | .resolved => { w with calls := w.calls.eraseIdx i, trace := .resolved c.owner c.op :: w.trace }
  | .rejected _ => { w with calls := w.calls.eraseIdx i }

/-- A method is called: its key, then `authorize`, as far as it goes without waiting. -/
def World.request (w : World) (n : Namespace) (op : Op) : World × Next :=
  let unlocked := w.session.passphrase.isSome
  let auth : Auth := ⟨"", w.session.revision, unlocked || host.window⟩
  let c : Call := ⟨n, op, auth, .authorizing, none⟩
  if op.address.any blank then (w, .rejected notConfigured)
  else if (w.instances n).disposed then (w, .rejected revoked)
  else if host.window ∧ unlocked = false then (w, .rejected lockedVault)
  else if (cfg n).passwordProvider then (w, .wait c)
  else
    match w.session.passphrase with
    | none => (w, .rejected lockedVault)
    | some p =>
        let c' : Call := { c with auth := { auth with passphrase := p } }
        w.checked c' (w.begin c')

/-- The guard of a transaction, which the vault calls when it is locked. -/
def World.guarded (w : World) (c : Call) : Call :=
  match c.phase, c.answer with
  | .committing _, none =>
      match w.assertAuthorized c.owner c.auth with
      | .error e => { c with answer := some (.error e) }
      | .ok _ => c
  | _, _ => c

/-- `lockVaultSession` -/
def World.lock (w : World) : World :=
  let w' : World := { w with
    session := ⟨none, w.session.revision + 1⟩
    instances := fun n =>
      if (cfg n).allowEphemeralFallback then { w.instances n with ephemeral := [] }
      else w.instances n }
  { w' with calls := w.calls.map w'.guarded }

/-- One action. A call is appended, and goes on at its place until it is over. -/
def World.exec (w : World) : Action → Option World
  | .request n op =>
      match w.request host cfg n op with
      | (w', .wait c) => some { w' with calls := w'.calls ++ [c] }
      | (w', _) => some w'
  | .land i o =>
      match w.calls[i]? with
      | none => none
      | some c =>
          if c.answer.isSome then none
          else (w.land host c o).map fun (a, durable) =>
            { w with durable := durable, calls := w.calls.set i { c with answer := some a } }
  | .resume i =>
      match w.calls[i]? with
      | none => none
      | some c =>
          match c.answer with
          | none => none
          | some a => (w.resume host cfg c c.phase a).map fun (w', x) => w'.next i c x
  | .lock => some (w.lock cfg)
  | .unlock passphrase =>
      if passphrase = "" then none
      else
        let w' := w.lock cfg
        some { w' with session := ⟨some passphrase, w'.session.revision + 1⟩ }
  | .dispose n => some { w with instances := Function.update w.instances n ⟨[], true⟩ }

end Line.Vault.Provider
