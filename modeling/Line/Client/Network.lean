import Line.Client.Release
import Line.Engine.Encoding

/-!
# The operations of an organization

What `src/lib/organization/network.ts` prepares for each operation: the circuit with its
arguments, the private inputs that the witnesses will answer with, and the snapshot that the
account adopts if the transaction is final. All of it is computed before anything is sent, from
the account and from what the chain shows at that time (`Env`). Random words are arguments.

A request about a contract finds its facility, reads the contract and compares the two before it
computes anything (`inspect`), and the checks stand in the source's order with the texts of their
errors. What the runtime refuses to encode is refused here (`uint64`); `operation` clears such a
request again.
-/

namespace Line.Client

open Checked
open Organization (require isHex64)

variable {B : Type} [DecidableEq B] [Compact B]

/-! ## Fields -/

def found {α : Type} (value : Option α) (message : String) : Result α :=
  match value with
  | some a => .ok a
  | none => .error message

omit [DecidableEq B] [Compact B] in
@[simp] theorem found_ok_iff {α : Type} {value : Option α} {message : String} {a : α} :
    found value message = .ok a ↔ value = some a := by
  cases value with
  | none => exact iff_of_false (fun h => by cases h) (fun h => by cases h)
  | some b => rw [found, Except.ok.injEq, Option.some.injEq]

theorem toNat_lt_u64 {z : ℤ} (h : 0 ≤ z ∧ z < 2 ^ 64) : z.toNat < 2 ^ 64 := by omega

theorem zero_lt_u8 : 0 < 2 ^ 8 := by decide

/-- A `bigint` as a `Uint<64>`. -/
def uint64 (z : ℤ) : Result U64 :=
  if h : 0 ≤ z ∧ z < 2 ^ 64 then .ok ⟨z.toNat, toNat_lt_u64 h⟩ else .error "Uint<64> out of range"

@[simp] theorem uint64_ok_iff {z : ℤ} {u : U64} : uint64 z = .ok u ↔ (u.val : ℤ) = z := by
  unfold uint64
  have hlt := u.isLt
  split
  · next h =>
    rw [Except.ok.injEq, ← Uint.val_inj]
    show z.toNat = u.val ↔ _
    omega
  · next h => exact iff_of_false (fun h => by cases h) (by omega)

/-- `drawNoteCommit`, on the fields of a saved note. -/
def Note.preimage (n : Note B) : Result (DrawNotePreimage B) := do
  let lineGeneration ← uint64 n.generation
  let amount ← uint64 n.amount
  let fee ← uint64 n.fee
  let expiry ← uint64 n.expiry
  pure {
    domain := n.domain, lineGeneration, identity := n.identity, quoteCommit := n.quoteCommitment
    merchantPk := n.merchantPk, amount, fee, noteNonce := n.noteNonce, expiry }

def Note.opening (n : Note B) : Result B := do
  let p ← n.preimage
  pure (drawNoteCommit p n.noteSalt)

/-- `quoteCommit`, on the fields of a saved quote. -/
def Quote.opening (q : Quote B) : Result B := do
  let amount ← uint64 q.amount
  let expiry ← uint64 q.expiry
  let generation ← uint64 q.generation
  let feeFlat ← uint64 q.feeFlat
  let feeBps ← uint64 q.feeBps
  pure (quoteCommit q.merchantPk q.invoiceId amount expiry q.quoteNonce generation q.domain feeFlat
    feeBps)

def requiredDrawFee (amount flat bps : ℤ) : Result ℤ :=
  match Engine.requiredDrawFee amount flat bps with
  | .ok fee => .ok fee
  | .error (.thrown text) => .error text
  | .error (.fail f) => .error f.message

/-! ## Plans -/

/-- `LinePrivateWitnessContext`: the inputs that are set for one call. -/
structure Input (B : Type) where
  callerSecret : Option B := none
  agentSecret : Option B := none
  salt : Option B := none
  newSalt : Option B := none
  invoiceId : Option B := none
  quoteNonce : Option B := none
  receiptNonce : Option B := none
  paymentRef : Option B := none
  noteNonce : Option B := none
  noteSalt : Option B := none
  noteIdentity : Option B := none
  noteQuoteCommit : Option B := none
  quoteMerchantPk : Option B := none
  lineLimit : Option ℤ := none
  lineOutstanding : Option ℤ := none
  lineEpoch : Option ℤ := none
  quoteAmount : Option ℤ := none
  drawAmount : Option ℤ := none
  redeemAmount : Option ℤ := none
  repayAmount : Option ℤ := none

/-- `byteWitness`: each answer is the input. Without one the circuit cannot be run, so nothing is
said of the answers. -/
def Answers (input : Option B) (answers : ℕ → B) : Prop :=
  ∀ b, input = some b → ∀ k, answers k = b

/-- `unitWitness`: an input outside of 64 bits has no answer. -/
def AnswersUnit (input : Option ℤ) (answers : ℕ → U64) : Prop :=
  ∀ z, input = some z → ∀ k, ((answers k).val : ℤ) = z

/-- The witnesses of a call that was proven with these inputs. -/
structure Input.Proves (i : Input B) (w : Witness B) : Prop where
  callerSecret : Answers i.callerSecret w.callerSecret
  agentSecret : Answers i.agentSecret w.agentSecret
  salt : Answers i.salt w.salt
  newSalt : Answers i.newSalt w.newSalt
  invoiceId : Answers i.invoiceId w.invoiceId
  quoteNonce : Answers i.quoteNonce w.quoteNonce
  receiptNonce : Answers i.receiptNonce w.receiptNonce
  paymentRef : Answers i.paymentRef w.paymentRef
  noteNonce : Answers i.noteNonce w.noteNonce
  noteSalt : Answers i.noteSalt w.noteSalt
  noteIdentity : Answers i.noteIdentity w.noteIdentity
  noteQuoteCommit : Answers i.noteQuoteCommit w.noteQuoteCommit
  quoteMerchantPk : Answers i.quoteMerchantPk w.quoteMerchantPk
  lineLimit : AnswersUnit i.lineLimit w.lineLimit
  lineOutstanding : AnswersUnit i.lineOutstanding w.lineOutstanding
  lineEpoch : AnswersUnit i.lineEpoch w.lineEpoch
  quoteAmount : AnswersUnit i.quoteAmount w.quoteAmount
  drawAmount : AnswersUnit i.drawAmount w.drawAmount
  redeemAmount : AnswersUnit i.redeemAmount w.redeemAmount
  repayAmount : AnswersUnit i.repayAmount w.repayAmount

/-- What the SDK is asked to do. -/
inductive Intent (B : Type) where
  | deploy (arguments : Deployment B)
  /-- A maintenance update inserts a verifier key; the ledger of the contract stays. -/
  | key (circuit : Circuit)
  | call (op : Op B) (input : Input B)

/-- A signed transaction: what its bytes say. -/
inductive Transaction (B : Type) where
  | deploy (arguments : Deployment B)
  | key (circuit : Circuit)
  | call (op : Op B) (witness : Witness B)

/-- The transaction does what was asked. -/
inductive Intent.Signs : Intent B → Transaction B → Prop
  | deploy {arguments} : Signs (.deploy arguments) (.deploy arguments)
  | key {circuit} : Signs (.key circuit) (.key circuit)
  | call {op input w} : input.Proves w → Signs (.call op input) (.call op w)

/-- The arguments of `operation`. -/
structure Plan (B : Type) where
  kind : Kind
  circuit : String
  facilityId : Option String
  address : Option Address
  after : Snapshot B
  intent : Intent B

/-- What an operation sees: the contracts on the chain with their operations, the release that was
loaded, the time in seconds and the wallet. -/
structure Env (B : Type) where
  chain : Address → Option (Ledger B)
  operations : Address → Operations
  release : Release
  now : ℤ
  receivingAddress : UserAddress B

/-- A call of a circuit of the facility. -/
def Plan.call (circuit : String) (facilityId : Option String) (address : Address)
    (after : Snapshot B) (op : Op B) (input : Input B) : Plan B where
  kind := .call
  circuit
  facilityId
  address := some address
  after
  intent := .call op input

/-- `facility`: the facility of this id, and its address. -/
def facility (S : Snapshot B) (id : String) : Result (Facility B × Address) := do
  let f ← found (S.findFacility id) "Choose a deployed organization facility."
  let address ← found f.address "Choose a deployed organization facility."
  pure (f, address)

/-- `inspect`: the ledger at an address. -/
def inspect (env : Env B) (S : Snapshot B) (address : Address) (requireAllKeys : Bool := true) :
    Result (Ledger B) := do
  require (isHex64 address) "Expected 32 hexadecimal bytes."
  let book ← found (env.chain address) "Organization facility was not found on Midnight Preprod."
  requireRelease env.release (env.operations address) requireAllKeys
  require (decide (book.issuer = issuerPublicKey S.issuerSecret) ||
      !S.facilities.any fun f => decide (f.address = some address))
    "This wallet does not own the selected organization facility."
  pure book

/-! ## The organization -/

/-- `createFacility`. -/
def createFacility (env : Env B) (S : Snapshot B) (id : String) (name : Utf16)
    (assetColor : B) (initialMerchant : MerchantBinding B) (instanceNonce agentSecret salt : B)
    (maintenanceKey : String) : Result (Plan B) := do
  require (!(Organization.trim name).isEmpty && decide (name.length ≤ 80))
    "Enter an organization or agent name of up to 80 characters."
  require (decide (S.facilities.length < 50))
    "This organization has reached its browser facility limit."
  let facility : Facility B := {
    id, name := Organization.trim name, address := none, instanceNonce, maintenanceKey, assetColor
    issuerRecipient := env.receivingAddress, merchants := [initialMerchant], agentSecret, salt
    limit := 0, outstanding := 0, epoch := 0, generation := 0 }
  pure {
    kind := .deploy, circuit := "deploy", facilityId := some id, address := none
    after := { S with facilities := S.facilities ++ [facility] }
    intent := .deploy {
      issuerPk := issuerPublicKey S.issuerSecret, initialMerchantPk := initialMerchant.publicKey
      instanceNonce, issuerRecipient := facility.issuerRecipient
      initialMerchantRecipient := initialMerchant.address, assetColor } }

/-- `registerVerifierKeys`, one of its keys; there is nothing to do for one that is there. -/
def registerVerifierKey (env : Env B) (S : Snapshot B) (id : String) (circuit : Circuit) :
    Result (Option (Plan B)) := do
  let (_, address) ← facility S id
  let _ ← inspect env S address false
  if ((env.operations address).get circuit.name).isSome then pure none
  else
    pure (some {
      kind := .key, circuit := circuit.name, facilityId := some id, address := some address
      after := S, intent := .key circuit })

/-- The actions of `reserve`. -/
inductive ReserveAction where
  | fundReserve
  | withdrawUnencumberedReserve
  | withdrawFees

def ReserveAction.circuit : ReserveAction → String
  | .fundReserve => "fundReserve"
  | .withdrawUnencumberedReserve => "withdrawUnencumberedReserve"
  | .withdrawFees => "withdrawFees"

def ReserveAction.op (action : ReserveAction) (amount : U64) : Op B :=
  match action with
  | .fundReserve => .fundReserve amount
  | .withdrawUnencumberedReserve => .withdrawUnencumberedReserve amount
  | .withdrawFees => .withdrawFees

/-- `reserve`; fees are withdrawn with no amount given. -/
def reserve (env : Env B) (S : Snapshot B) (id : String) (action : ReserveAction) (amount : ℤ) :
    Result (Plan B) := do
  let (_, address) ← facility S id
  let _ ← inspect env S address
  let amount ← uint64 amount
  pure (.call action.circuit (some id) address S (action.op amount)
    { callerSecret := some S.issuerSecret })

/-- `openAllowance`. -/
def openAllowance (env : Env B) (S : Snapshot B) (id : String)
    (limit expiry flatFee basisPoints : ℤ) (salt : B) : Result (Plan B) := do
  let _ ← requiredDrawFee 0 flatFee basisPoints
  let (f, address) ← facility S id
  let book ← inspect env S address
  require (decide (0 < limit) && decide (env.now < expiry))
    "Use a positive allowance and a future expiry."
  let after := S.setFacility id fun next => { next with
    limit, outstanding := 0, epoch := 0, generation := book.lineGeneration.val + 1, salt }
  let expiry ← uint64 expiry
  let flatFee ← uint64 flatFee
  let basisPoints ← uint64 basisPoints
  pure (.call "openLine" (some id) address after (.openLine expiry flatFee basisPoints) {
    callerSecret := some S.issuerSecret, agentSecret := some f.agentSecret, salt := some salt
    lineLimit := some limit })

/-- `replenish`. -/
def replenish (env : Env B) (S : Snapshot B) (id : String) (amount : ℤ)
    (salt paymentRef receiptNonce : B) : Result (Plan B) := do
  let (f, address) ← facility S id
  let _ ← inspect env S address
  require (decide (0 < amount) && decide (amount ≤ f.outstanding))
    "Replenishment must fit the agent’s current spending balance."
  let after := S.setFacility id fun next => { next with
    outstanding := next.outstanding - amount, epoch := next.epoch + 1, salt }
  let receiptExpiry ← uint64 (env.now + 3600)
  pure (.call "acknowledgeRepayment" (some id) address after (.acknowledgeRepayment receiptExpiry) {
    callerSecret := some S.issuerSecret, salt := some f.salt, newSalt := some salt
    lineLimit := some f.limit, lineOutstanding := some f.outstanding, lineEpoch := some f.epoch
    repayAmount := some amount, paymentRef := some paymentRef
    receiptNonce := some receiptNonce })

/-- `registerMerchant`. -/
def registerMerchant (env : Env B) (S : Snapshot B) (id : String) (merchant : MerchantBinding B) :
    Result (Plan B) := do
  let (_, address) ← facility S id
  let _ ← inspect env S address
  let after := S.setFacility id fun f => { f with merchants := f.merchants ++ [merchant] }
  pure (.call "registerMerchant" (some id) address after
    (.registerMerchant merchant.publicKey merchant.address)
    { callerSecret := some S.issuerSecret })

/-- `disableMerchant`. -/
def disableMerchant (env : Env B) (S : Snapshot B) (id : String) (publicKey : B) :
    Result (Plan B) := do
  let (f, address) ← facility S id
  let _ ← inspect env S address
  let merchant ← found (Records.find MerchantBinding.publicKey f.merchants publicKey)
    "Choose an active registered merchant."
  require (!merchant.disabled.getD false) "Choose an active registered merchant."
  let after := S.setFacility id fun f => { f with
    merchants := Records.change MerchantBinding.publicKey
      (fun m => { m with disabled := some true }) publicKey f.merchants }
  pure (.call "disableMerchant" (some id) address after (.disableMerchant publicKey)
    { callerSecret := some S.issuerSecret })

/-- `status`. -/
def status (env : Env B) (S : Snapshot B) (id : String) (next : Status) : Result (Plan B) := do
  let (f, address) ← facility S id
  let _ ← inspect env S address
  require (decide (next ≠ .CLOSED) || !(S.serviceOrders.getD []).any fun o =>
      decide (o.facilityId = id) && !o.delivered && !o.cancelled.getD false)
    "Complete or cancel the saved API purchases before closing this allowance."
  pure (.call "setStatus" (some id) address S (.setStatus next) {
    callerSecret := some S.issuerSecret, salt := some f.salt, lineLimit := some f.limit
    lineOutstanding := some f.outstanding, lineEpoch := some f.epoch })

/-! ## The agent -/

/-- `supplierRequestId`. -/
def supplierRequestId (order : ServiceOrder B) : String := order.requestId.getD order.id

/-- `activeServiceOrder`. -/
def activeServiceOrder (S : Snapshot B) (id requestId : String) : Result (ServiceOrder B) := do
  let order ← found (Records.find ServiceOrder.id (S.serviceOrders.getD []) id)
    "This purchase changed in another tab. Open its current saved request before continuing."
  require (!order.cancelled.getD false && !order.delivered &&
      decide (supplierRequestId order = requestId))
    "This purchase changed in another tab. Open its current saved request before continuing."
  pure order

/-- The order that a purchase is for is open, and asks for this quote at no more than this fee. -/
def requireBinding (S : Snapshot B) (id : String) (quote : Quote B) (fee : ℤ)
    (binding : Option (String × String)) : Result Unit :=
  match binding with
  | none => pure ()
  | some (orderId, requestId) => do
    let order ← activeServiceOrder S orderId requestId
    require (decide (order.facilityId = id) &&
        decide (order.quoteCommitment = some quote.quoteCommitment) &&
        decide (fee ≤ order.maxFee.getD 0))
      "The saved API purchase changed."

/-- The order learns its note. -/
def Snapshot.bindOrder (S : Snapshot B) (binding : Option (String × String)) (D : B) :
    Snapshot B :=
  match binding with
  | none => S
  | some (orderId, _) => { S with
      serviceOrders := S.serviceOrders.map
        (Records.change ServiceOrder.id (fun o => { o with noteCommitment := some D }) orderId) }

/-- The terms of a quote are those of the chain, and it opens. -/
def requireQuote (book : Ledger B) (address : Address) (quote : Quote B) : Result Unit := do
  require (decide (quote.contractAddress = address) &&
      decide (quote.domain = book.contractDomain) &&
      decide (quote.generation = book.lineGeneration.val) &&
      decide (quote.feeFlat = book.feeFlat.val) && decide (quote.feeBps = book.feeBps.val) &&
      decide (0 < quote.amount))
    "Quote terms differ."
  let opening ← quote.opening
  require (decide (opening = quote.quoteCommitment)) "Quote opening differs."

/-- The note that a purchase draws. -/
def purchasedNote (f : Facility B) (address : Address) (quote : Quote B) (fee : ℤ)
    (noteNonce noteSalt : B) : Result (Note B) := do
  let note : Note B := {
    contractAddress := address, domain := quote.domain, identity := agentId f.agentSecret
    merchantPk := quote.merchantPk, quoteCommitment := quote.quoteCommitment
    amount := quote.amount, fee, expiry := quote.expiry, generation := quote.generation
    noteNonce, noteSalt, noteCommitment := pad "", redeemed := false, expiryRecorded := none
    refund := none }
  let noteCommitment ← note.opening
  pure { note with noteCommitment }

/-- `purchase`, inside its `try`; nothing is sent for a quote whose note is saved. -/
def purchase (env : Env B) (S : Snapshot B) (id : String) (quote : Quote B)
    (binding : Option (String × String)) (salt noteNonce noteSalt : B) :
    Result (Option (Plan B)) := do
  let (f, address) ← facility S id
  let book ← inspect env S address
  requireQuote book address quote
  let fee ← requiredDrawFee quote.amount quote.feeFlat quote.feeBps
  requireBinding S id quote fee binding
  if S.notes.any fun n => decide (n.contractAddress = address) &&
      decide (n.quoteCommitment = quote.quoteCommitment) then pure none
  else do
    require (decide (f.outstanding + (quote.amount + fee) ≤ f.limit)) "Allowance exceeded."
    let note ← purchasedNote f address quote fee noteNonce noteSalt
    let after := (S.setFacility id fun next => { next with
      outstanding := next.outstanding + (quote.amount + fee), epoch := next.epoch + 1, salt })
    let after := { after with notes := after.notes ++ [note] }
    let noteExpiry ← uint64 quote.expiry
    let drawFee ← uint64 fee
    pure (some (.call "draw" (some id) address (after.bindOrder binding note.noteCommitment)
      (.draw quote.quoteCommitment noteExpiry drawFee) {
        callerSecret := some f.agentSecret, agentSecret := some f.agentSecret
        salt := some f.salt, newSalt := some salt, lineLimit := some f.limit
        lineOutstanding := some f.outstanding, lineEpoch := some f.epoch
        quoteMerchantPk := some quote.merchantPk, invoiceId := some quote.invoiceId
        quoteNonce := some quote.quoteNonce, quoteAmount := some quote.amount
        drawAmount := some quote.amount, noteNonce := some noteNonce
        noteSalt := some noteSalt }))

/-! ## Backups -/

/-- `lineStateCommit`, on the fields of a saved facility. -/
def Facility.opening (f : Facility B) (domain : B) : Result B := do
  let limit ← uint64 f.limit
  let outstanding ← uint64 f.outstanding
  let epoch ← uint64 f.epoch
  pure (lineStateCommit ⟨domain, agentId f.agentSecret, limit, outstanding, epoch⟩ f.salt)

/-- The computation ends, with this word. -/
def yields (x : Result B) (b : B) : Bool :=
  match x with
  | .ok a => decide (a = b)
  | .error _ => false

/-- `matchesRestoredFacility`. What it cannot encode it throws out, which refuses the backup as
well. -/
def matchesRestoredFacility (book : Ledger B) (f : Facility B) (issuerSecret : B) : Bool :=
  match f.merchants.head? with
  | none => false
  | some merchant =>
    let issuer := issuerPublicKey issuerSecret
    let domain := contractDomain issuer merchant.publicKey f.instanceNonce
    decide (book.issuerPayoutRecipient = f.issuerRecipient) &&
    decide (book.settlementTokenColor = f.assetColor) &&
    decide ((book.lineGeneration.val : ℤ) = f.generation) && decide (issuer = book.issuer) &&
    decide (domain = book.contractDomain) &&
    if f.generation = 0 then decide (book.status = .NONE)
    else decide (agentId f.agentSecret = book.identityCommit) &&
      yields (f.opening domain) book.lineCommit

/-- `refundCommit`, on the fields of a saved note. -/
def Note.refundOpening (n : Note B) (r : Refund B) : Result B := do
  let lineGeneration ← uint64 n.generation
  let amount ← uint64 r.amount
  pure (refundCommit ⟨n.domain, lineGeneration, n.identity, n.noteCommitment, amount⟩ r.salt)

/-- The end of `matchesRestoredNotes`: the saved refund is the one that was bound. -/
def matchesRefund (observed : NoteMeta B) (n : Note B) : Bool :=
  match n.refund with
  | none => true
  | some r =>
    yields (n.refundOpening r) observed.refundCommitment &&
    decide (observed.cashRefundOwed = decide (0 < r.amount)) &&
    decide (r.paid = (!observed.cashRefundOwed || observed.refundAcknowledged))

/-- `matchesRestoredNotes`, for one note. -/
def matchesRestoredNote (book : Ledger B) (n : Note B) : Bool :=
  decide (n.domain = book.contractDomain) &&
  match book.notes.lookup n.noteCommitment with
  | none => false
  | some observed =>
    !(n.expiryRecorded.getD false && !observed.cancelled) &&
    decide ((observed.amount.val : ℤ) = n.amount) && decide ((observed.fee.val : ℤ) = n.fee) &&
    decide ((observed.expiry.val : ℤ) = n.expiry) &&
    decide ((observed.lineGeneration.val : ℤ) = n.generation) &&
    !(n.redeemed && !observed.redeemed) && yields n.opening n.noteCommitment &&
    decide (observed.compensationAllocated = n.refund.isSome) && matchesRefund observed n

/-- The current snapshot, and the candidate of an operation under way. -/
def Record.snapshots {T : Type} (r : Record B T) : List (Snapshot B) :=
  r.snapshot :: (r.pending.map Pending.after).toList

/-- The contracts that a record names. -/
def Record.addresses {T : Type} (r : Record B T) : List Address :=
  (r.snapshots.flatMap Snapshot.facilities).filterMap Facility.address ++
    (r.snapshots.flatMap Snapshot.notes).map Note.contractAddress

/-- A check passes. -/
def passes (x : Result Unit) : Bool :=
  match x with
  | .ok () => true
  | .error _ => false

/-- `restoreBackup`: what is asked of the saved operation, and of each contract of a backup. One
that is still to be deployed is passed over; no facility is there yet whose issuer `inspect` could
compare. -/
def restorable {T : Type} (release : Release) (chain : Address → Option (Ledger B))
    (operations : Address → Operations) (r : Record B T) : Bool :=
  (r.pending.all fun p => decide (p.sourceFingerprint = release.sourceFingerprint)) &&
  r.addresses.all fun address =>
    match chain address with
    | none => r.pending.any fun p =>
        decide (p.kind = .deploy) && decide (p.contractAddress = some address)
    | some book =>
      let owned := (r.snapshots.flatMap Snapshot.facilities).any fun f =>
        decide (f.address = some address)
      isHex64 address && passes (requireRelease release (operations address) false) &&
      (!owned || decide (book.issuer = issuerPublicKey r.snapshot.issuerSecret)) &&
      r.snapshots.any fun S =>
        (!owned || (S.facilityAt address).any fun f =>
          matchesRestoredFacility book f S.issuerSecret) &&
        (S.notesAt address).all (matchesRestoredNote book)

/-! ## Claims -/

/-- `MerchantClaimReview["status"]`. -/
inductive ClaimStatus where
  | unspent
  | redeemed
  | cancelled
deriving DecidableEq

/-- `MerchantClaimReview`. -/
structure ClaimReview (B : Type) where
  contractAddress : Address
  noteCommitment : B
  assetColor : B
  receivingAddress : UserAddress B
  amount : ℤ
  fee : ℤ
  expiry : ℤ
  generation : ℤ
  status : ClaimStatus

/-- `inspectMerchantClaim`. -/
def inspectMerchantClaim (book : Ledger B) (note : Note B) (merchantPk : B)
    (receivingAddress : UserAddress B) : Result (ClaimReview B) := do
  require (isHex64 note.contractAddress) "Expected 32 hexadecimal bytes."
  require (decide (merchantPk = note.merchantPk) && decide (book.contractDomain = note.domain))
    "This claim belongs to another merchant or facility."
  let commitment ← note.opening
  require (decide (commitment = note.noteCommitment))
    "Claim opening does not match its commitment."
  let entry ← found (book.notes.lookup commitment)
    ("This claim was not found in the observed facility state. " ++
      "Check its original purchase transaction.")
  require (decide ((entry.amount.val : ℤ) = note.amount) &&
      decide ((entry.fee.val : ℤ) = note.fee) && decide ((entry.expiry.val : ℤ) = note.expiry) &&
      decide ((entry.lineGeneration.val : ℤ) = note.generation))
    "Claim terms differ from the observed facility state."
  require (decide (book.merchantPayoutRecipients.lookup merchantPk = some receivingAddress))
    "This facility would pay another receiving address. Redemption is blocked."
  pure {
    contractAddress := note.contractAddress, noteCommitment := note.noteCommitment
    assetColor := book.settlementTokenColor, receivingAddress, amount := entry.amount.val
    fee := entry.fee.val, expiry := entry.expiry.val, generation := entry.lineGeneration.val
    status := if entry.redeemed then .redeemed else if entry.cancelled then .cancelled
      else .unspent }

/-! ## The merchant -/

/-- `postQuote`; the invoice is the word of `canonicalInvoiceIdBytes`. -/
def postQuote (env : Env B) (S : Snapshot B) (address : Address) (invoiceId : B)
    (amount expiry : ℤ) (nonce : B) : Result (Plan B) := do
  let book ← inspect env S address
  let merchantPk := merchantPublicKey S.merchantSecret
  require (decide (book.merchantPayoutRecipients.lookup merchantPk = some env.receivingAddress))
    "The facility’s merchant recipient is not this wallet. Do not quote for it."
  require (decide (0 < amount) && decide (env.now < expiry))
    "Supply an invoice, positive amount and future quote expiry."
  let quoted : Quote B := {
    contractAddress := address, domain := book.contractDomain, merchantPk, invoiceId
    quoteNonce := nonce, amount, expiry, generation := book.lineGeneration.val
    feeFlat := book.feeFlat.val, feeBps := book.feeBps.val, quoteCommitment := pad "" }
  let Q ← quoted.opening
  let expiry ← uint64 expiry
  let after := { S with quotes := S.quotes ++ [{ quoted with quoteCommitment := Q }] }
  pure (.call "postQuote" none address after (.postQuote expiry) {
    callerSecret := some S.merchantSecret, invoiceId := some invoiceId
    quoteNonce := some nonce, quoteAmount := some amount })

/-- The note as redeemed: marked where it is saved, or else saved. -/
def Snapshot.redeemed (S : Snapshot B) (note : Note B) : Snapshot B :=
  match Records.find Note.noteCommitment S.notes note.noteCommitment with
  | some _ => { S with
      notes := Records.change Note.noteCommitment (fun n => { n with redeemed := true })
        note.noteCommitment S.notes }
  | none => { S with notes := S.notes ++ [{ note with redeemed := true }] }

/-- `redeem`. -/
def redeem (env : Env B) (S : Snapshot B) (note : Note B) : Result (Plan B) := do
  let book ← inspect env S note.contractAddress
  let review ← inspectMerchantClaim book note (merchantPublicKey S.merchantSecret)
    env.receivingAddress
  require (decide (review.status ≠ .redeemed))
    "This claim was already redeemed. No new redemption was prepared."
  require (decide (review.status ≠ .cancelled))
    "This claim was cancelled. No redemption was prepared."
  let expiry ← uint64 note.expiry
  pure (.call "redeemDraw" none note.contractAddress (S.redeemed note)
    (.redeemDraw note.noteCommitment expiry) {
      callerSecret := some S.merchantSecret, noteIdentity := some note.identity
      noteQuoteCommit := some note.quoteCommitment, noteNonce := some note.noteNonce
      noteSalt := some note.noteSalt, redeemAmount := some note.amount })

/-! ## Expired claims -/

/-- `notes.find(n => n.noteCommitment === commitment && n.contractAddress === address)`. -/
def Snapshot.findNote (S : Snapshot B) (commitment : B) (address : Address) : Option (Note B) :=
  Records.find Note.key S.notes (commitment, address)

/-- The note that was found, changed. -/
def Snapshot.setNote (S : Snapshot B) (commitment : B) (address : Address)
    (f : Note B → Note B) : Snapshot B :=
  { S with notes := Records.change Note.key f (commitment, address) S.notes }

/-- `recordClaimExpiry`. -/
def recordClaimExpiry (env : Env B) (S : Snapshot B) (id : String) (commitment : B) :
    Result (Plan B) := do
  let (_, address) ← facility S id
  let book ← inspect env S address
  let note ← found (S.findNote commitment address)
    "Select an expired claim without a recorded redemption, expiry or compensation."
  require (!note.redeemed && note.refund.isNone && !note.expiryRecorded.getD false)
    "Select an expired claim without a recorded redemption, expiry or compensation."
  require (matchesRestoredNote book note)
    "The saved claim does not match this facility's current state."
  let observed ← found (book.notes.lookup commitment) "note not found"
  require (!observed.redeemed && !observed.cancelled && !observed.compensationAllocated)
    "This claim was already redeemed or cancelled. No expiry transaction was prepared."
  require (decide (note.expiry ≤ env.now))
    "The claim deadline has not passed. Compact also checks ledger time before recording expiry."
  let after := S.setNote commitment address fun n => { n with expiryRecorded := some true }
  pure (.call "cancelOrExpireNote" (some id) address after
    (.cancelOrExpireNote commitment ⟨0, zero_lt_u8⟩ (.zero 64)) {})

/-- `cancelExpired`. -/
def cancelExpired (env : Env B) (S : Snapshot B) (id : String) (commitment salt : B) :
    Result (Plan B) := do
  let (f, address) ← facility S id
  let book ← inspect env S address
  let note ← found (S.findNote commitment address)
    "Select an expired, unallocated claim belonging to this facility."
  require note.refund.isNone "Select an expired, unallocated claim belonging to this facility."
  let cost := note.amount + note.fee
  let current := decide (note.generation = book.lineGeneration.val)
  let credit := if current then (if f.outstanding < cost then f.outstanding else cost) else 0
  let after := S.setNote commitment address fun n => { n with
    refund := some ⟨salt, cost - credit, decide (cost = credit)⟩ }
  let after := if current then after.setFacility id fun next => { next with
    outstanding := next.outstanding - credit, epoch := next.epoch + 1, salt } else after
  let receiptExpiry ← uint64 (env.now + 3600)
  pure (.call "cancelOrExpireNote" (some id) address after
    (.cancelOrExpireNote commitment ⟨1, one_lt_u8⟩ receiptExpiry) {
      callerSecret := some S.issuerSecret, noteIdentity := some note.identity
      noteQuoteCommit := some note.quoteCommitment, quoteMerchantPk := some note.merchantPk
      noteNonce := some note.noteNonce, noteSalt := some note.noteSalt, newSalt := some salt
      salt := some f.salt, lineLimit := some f.limit, lineOutstanding := some f.outstanding
      lineEpoch := some f.epoch })

/-- `refund`. -/
def refund (env : Env B) (S : Snapshot B) (id : String) (commitment paymentRef : B) :
    Result (Plan B) := do
  let (_, address) ← facility S id
  let _ ← inspect env S address
  let note ← found (S.findNote commitment address) "This claim has no pending asset refund."
  let r ← found note.refund "This claim has no pending asset refund."
  require (!r.paid && decide (0 < r.amount)) "This claim has no pending asset refund."
  let after := S.setNote commitment address fun n => { n with
    refund := n.refund.map fun r => { r with paid := true } }
  let receiptExpiry ← uint64 (env.now + 3600)
  pure (.call "cancelOrExpireNote" (some id) address after
    (.cancelOrExpireNote commitment ⟨2, two_lt_u8⟩ receiptExpiry) {
      callerSecret := some S.issuerSecret, noteIdentity := some note.identity
      salt := some r.salt, repayAmount := some r.amount, paymentRef := some paymentRef })

/-! ## Requests -/

/-- What the user asks for, with the random words that are drawn on the way. -/
inductive Request (B : Type) where
  | createFacility (id : String) (name : Utf16) (assetColor : B)
      (initialMerchant : MerchantBinding B) (instanceNonce agentSecret salt : B)
      (maintenanceKey : String)
  | registerVerifierKey (id : String) (circuit : Circuit)
  | reserve (id : String) (action : ReserveAction) (amount : ℤ)
  | openAllowance (id : String) (limit expiry flatFee basisPoints : ℤ) (salt : B)
  | replenish (id : String) (amount : ℤ) (salt paymentRef receiptNonce : B)
  | registerMerchant (id : String) (merchant : MerchantBinding B)
  | disableMerchant (id : String) (publicKey : B)
  | status (id : String) (next : Status)
  | postQuote (address : Address) (invoiceId : B) (amount expiry : ℤ) (nonce : B)
  | purchase (id : String) (quote : Quote B) (binding : Option (String × String))
      (salt noteNonce noteSalt : B)
  | redeem (note : Note B)
  | recordClaimExpiry (id : String) (commitment : B)
  | cancelExpired (id : String) (commitment salt : B)
  | refund (id : String) (commitment paymentRef : B)

/-- What is prepared for a request. -/
def Request.plan (env : Env B) (S : Snapshot B) : Request B → Result (Option (Plan B))
  | .createFacility id name assetColor initialMerchant instanceNonce agentSecret salt key =>
      some <$> Client.createFacility env S id name assetColor initialMerchant instanceNonce
        agentSecret salt key
  | .registerVerifierKey id circuit => Client.registerVerifierKey env S id circuit
  | .reserve id action amount => some <$> Client.reserve env S id action amount
  | .openAllowance id limit expiry flatFee basisPoints salt =>
      some <$> Client.openAllowance env S id limit expiry flatFee basisPoints salt
  | .replenish id amount salt paymentRef receiptNonce =>
      some <$> Client.replenish env S id amount salt paymentRef receiptNonce
  | .registerMerchant id merchant => some <$> Client.registerMerchant env S id merchant
  | .disableMerchant id publicKey => some <$> Client.disableMerchant env S id publicKey
  | .status id next => some <$> Client.status env S id next
  | .postQuote address invoiceId amount expiry nonce =>
      some <$> Client.postQuote env S address invoiceId amount expiry nonce
  | .purchase id quote binding salt noteNonce noteSalt =>
      Client.purchase env S id quote binding salt noteNonce noteSalt
  | .redeem note => some <$> Client.redeem env S note
  | .recordClaimExpiry id commitment => some <$> Client.recordClaimExpiry env S id commitment
  | .cancelExpired id commitment salt => some <$> Client.cancelExpired env S id commitment salt
  | .refund id commitment paymentRef => some <$> Client.refund env S id commitment paymentRef

end Line.Client
