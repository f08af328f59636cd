import Line.Contract.Run
import Line.Lib.Records
import Line.Organization.Transfers

/-!
# The organization's account

The record that an organization keeps in its vault (`src/lib/organization/account.ts`): its
secrets, facilities, quotes, notes and receipts, and at most one operation under way with the
snapshot that is to be adopted when its transaction is final.

A text of 64 hexadecimal digits is the word that it spells, and a receiving address is what it
decodes to. Addresses of contracts are texts. A `bigint` is an integer, whatever is kept in it.

Records are kept in lists and looked up by their fields; the first that fits is the one that
the source finds, and an update replaces it in its place. The rest of this directory uses the
lookups through their lemmas only, so that what is said of a record is said of its fields.
-/

namespace Line.Client

open JsonText Checked

abbrev Result (α : Type) := Except String α

/-- The address of a contract. -/
abbrev Address := Utf16

/-- `MerchantBinding`. -/
structure MerchantBinding (B : Type) where
  publicKey : B
  address : UserAddress B
  name : Utf16
  disabled : Option Bool

/-- `OrganizationFacility`. -/
structure Facility (B : Type) where
  id : String
  name : Utf16
  address : Option Address
  instanceNonce : B
  maintenanceKey : String
  assetColor : B
  issuerRecipient : UserAddress B
  merchants : List (MerchantBinding B)
  agentSecret : B
  salt : B
  limit : ℤ
  outstanding : ℤ
  epoch : ℤ
  generation : ℤ

/-- `OrganizationQuote`. -/
structure Quote (B : Type) where
  contractAddress : Address
  domain : B
  merchantPk : B
  invoiceId : B
  quoteNonce : B
  amount : ℤ
  expiry : ℤ
  generation : ℤ
  feeFlat : ℤ
  feeBps : ℤ
  quoteCommitment : B

structure Refund (B : Type) where
  salt : B
  amount : ℤ
  paid : Bool

/-- `OrganizationNote`. -/
structure Note (B : Type) where
  contractAddress : Address
  domain : B
  identity : B
  merchantPk : B
  quoteCommitment : B
  amount : ℤ
  fee : ℤ
  expiry : ℤ
  generation : ℤ
  noteNonce : B
  noteSalt : B
  noteCommitment : B
  redeemed : Bool
  expiryRecorded : Option Bool
  refund : Option (Refund B)

/-- `OrganizationReceipt["kind"]`. -/
inductive Kind where
  | deploy
  | key
  | call
deriving DecidableEq

/-- `OrganizationReceipt`. -/
structure Receipt where
  kind : Kind
  circuit : String
  contractAddress : Address
  txId : String
  txHash : String
  blockHeight : ℕ
  recordedAt : String
deriving DecidableEq

/-- `OrganizationServiceOrder`: what the operations on the chain read of it. -/
structure ServiceOrder (B : Type) where
  id : String
  facilityId : String
  maxFee : Option ℤ
  noteCommitment : Option B
  delivered : Bool
  cancelled : Option Bool
  requestId : Option String
  quoteCommitment : Option B

/-- `OrganizationSnapshot`. -/
structure Snapshot (B : Type) where
  issuerSecret : B
  merchantSecret : B
  facilities : List (Facility B)
  quotes : List (Quote B)
  notes : List (Note B)
  receipts : List Receipt
  serviceOrders : Option (List (ServiceOrder B))
  failures : Option (List Receipt)

/-- `OrganizationPending`; `T` is what the bytes of a signed transaction say. -/
structure Pending (B T : Type) where
  id : String
  kind : Kind
  circuit : String
  facilityId : Option String
  contractAddress : Option Address
  sourceFingerprint : String
  after : Snapshot B
  txId : Option String
  transaction : Option T

/-- `OrganizationRecord`, without the history of expired operations. -/
structure Record (B T : Type) where
  snapshot : Snapshot B
  pending : Option (Pending B T)

variable {B T : Type}

def Note.key (n : Note B) : B × Address := (n.noteCommitment, n.contractAddress)

/-- `facilities.find(f => f.id === id)`. -/
def Snapshot.findFacility (S : Snapshot B) (id : String) : Option (Facility B) :=
  Records.find Facility.id S.facilities id

/-- The facility that was found by its id, changed. -/
def Snapshot.setFacility (S : Snapshot B) (id : String) (f : Facility B → Facility B) :
    Snapshot B :=
  { S with facilities := Records.change Facility.id f id S.facilities }

/-- `facilities.find(f => f.address === address)`. -/
def Snapshot.facilityAt (S : Snapshot B) (address : Address) : Option (Facility B) :=
  Records.find Facility.address S.facilities (some address)

/-- `notes.filter(note => note.contractAddress === address)`. -/
def Snapshot.notesAt (S : Snapshot B) (address : Address) : List (Note B) :=
  S.notes.filter fun n => decide (n.contractAddress = address)

/-! ## The life of an operation -/

/-- A text that is there, and is not empty. -/
def truthy (text : Option String) : Bool := text.any fun s => !s.isEmpty

/-- `prepare`. -/
def prepare (pending : Pending B T) (r : Record B T) : Result (Record B T) :=
  if r.pending.isSome then
    .error "Reconcile the existing signed operation before starting another one."
  else .ok { r with pending := some pending }

/-- The candidate of a deployment learns the address. -/
def Pending.deployedAt (p : Pending B T) (address : Address) : Result (Snapshot B) :=
  match p.kind with
  | .deploy =>
    match p.facilityId.bind p.after.findFacility with
    | none => .error "Deployment has no retained organization facility."
    | some f => .ok (p.after.setFacility f.id fun f => { f with address := some address })
  | _ => .ok p.after

/-- `submitted`. -/
def submitted (txId : String) (transaction : T) (address : Address) (r : Record B T) :
    Result (Record B T) :=
  match r.pending with
  | none => .error "Invalid organization submission state."
  | some p =>
    if truthy p.txId || !Organization.isHex64 address then
      .error "Invalid organization submission state."
    else if p.contractAddress.any fun a => decide (a ≠ address) then
      .error "Transaction targets another facility."
    else do
      let after ← p.deployedAt address
      pure { r with pending := some { p with
        txId := some txId
        transaction := some transaction
        contractAddress := some address
        after } }

/-- The receipt is of the saved operation. -/
def Pending.settledBy (p : Pending B T) (receipt : Receipt) : Bool :=
  truthy p.txId && decide (p.txId = some receipt.txId) &&
    decide (p.contractAddress = some receipt.contractAddress) &&
    decide (p.circuit = receipt.circuit) && !receipt.txHash.isEmpty &&
    decide (receipt.blockHeight < 2 ^ 53) && decide (0 < receipt.blockHeight)

/-- `complete`. -/
def complete (receipt : Receipt) (r : Record B T) : Result (Record B T) :=
  match r.pending.filter (·.settledBy receipt) with
  | none => .error "Finalized receipt differs from the saved organization operation."
  | some p =>
    .ok { snapshot := { p.after with receipts := p.after.receipts ++ [receipt] }, pending := none }

/-- `rejectFinalized`. -/
def rejectFinalized (receipt : Receipt) (r : Record B T) : Result (Record B T) :=
  match r.pending.filter (·.settledBy receipt) with
  | none => .error "Failure receipt differs from the saved organization operation."
  | some _ =>
    .ok { snapshot := { r.snapshot with
            failures := some (r.snapshot.failures.getD [] ++ [receipt]) }
          pending := none }

/-- `discardUnsubmitted`. -/
def discardUnsubmitted (r : Record B T) : Result (Record B T) :=
  if r.pending.any fun p => truthy p.txId then
    .error "A signed submission must be reconciled against its exact transaction."
  else .ok { r with pending := none }

/-- `edit`. -/
def edit (action : Snapshot B → Result (Snapshot B)) (r : Record B T) : Result (Record B T) :=
  if r.pending.isSome then
    .error "Resolve the pending network transaction before updating the organization."
  else do
    let after ← action r.snapshot
    pure { snapshot := after, pending := none }

end Line.Client
