import Line.Console.Packages
import Line.Native.Once

/-!
# The orders of the suppliers

`OrganizationMerchants` in `server/organization-merchants.mjs`: an owner of the journal, whose part
of the state is a list of orders. An order is created, its quote is posted, the draw of the quote is
redeemed, and the service is delivered. Posting and redeeming are operations of the journal; the
after-state of each is the state with the status of one order changed.

What a request learns from outside (the contract, the clock, random bytes) is part of the request.
The services, the keys and the commitments are parameters. The invoice of a new order is not: the
reference that the suppliers make up is longer than `canonicalInvoiceIdBytes` admits, so a new order
is never created (`newQuote_refused`), and the orders there are were stored before.
-/

namespace Line.Merchants

open Native Stateful

/-- The two merchants. -/
inductive Merchant where
  | A
  | B
deriving DecidableEq

/-- `ORGANIZATION_SERVICES`. -/
structure Service where
  id : String
  merchant : Merchant
  price : ℕ

def services : List Service := [
  ⟨"text-metrics", .A, 25000⟩,
  ⟨"content-integrity", .B, 20000⟩]

structure Quote where
  contractAddress : Address
  domain : String
  merchantPk : String
  invoiceId : String
  quoteNonce : String
  amount : ℕ
  expiry : ℕ
  generation : ℕ
  feeFlat : ℕ
  feeBps : ℕ
  quoteCommitment : String
deriving DecidableEq

/-- A claim, decoded. What goes to the witnesses only is left out. -/
structure Note where
  contractAddress : Address
  domain : String
  merchantPk : String
  quoteCommitment : String
  amount : ℕ
  expiry : ℕ
  generation : ℕ
deriving DecidableEq

inductive Status where
  | created
  | quoted
  | redeemed
  | delivered
deriving DecidableEq

/-- An order. `claim`, which the program never reads, is the claim that its draw was redeemed
for. -/
structure Order (Res : Type) where
  id : String
  address : Address
  service : String
  inputDigest : String
  document : String
  quote : Quote
  status : Status
  result : Option Res
  createdAt : ℕ
  ownerRecipient : String
  claim : Option Note

/-- What is read of the contract. -/
structure Book where
  contractDomain : String
  lineGeneration : ℕ
  feeFlat : ℕ
  feeBps : ℕ
  issuerPayoutRecipient : String
  totalReserve : ℤ
  encumberedReserve : ℤ
  redeemedReserve : ℤ
  feeReserve : ℤ
  pendingFeeReserve : ℤ
  refundReserve : ℤ
  reportedRefundReserve : ℤ
  /-- `registeredMerchants.lookup` of the merchant. -/
  enabled : Bool

/-- The functions that the orders use. -/
structure Supplier (Res : Type) where
  fulfillOrganizationService : String → String → Except String Res
  decodeNote : String → Except String Note
  digest : String → String
  merchantPublicKey : Merchant → String
  quoteCommit : Quote → String

/-- What `quoteOrder` learns from outside. -/
structure QuoteContext where
  inspected : Asked Book
  createdAt : ℕ
  seconds : ℕ
  nonce : String

/-- What `order` shows. -/
structure Shown (Res : Type) where
  id : String
  contractAddress : Address
  service : String
  status : Status
  quotePackage : Option Quote
  result : Option Res
  receipts : List Receipt
  pending : Bool

/-- `error.message`. -/
def messageOf : Vault.Error → String
  | .plain message | .typeError message | .locked message | .tampered message
  | .persistence message | .conflict message => message

/-- `quote-${id}`. -/
def quoteId (id : String) : String := "quote-" ++ id

/-- `redeem-${id}`. -/
def redeemId (id : String) : String := "redeem-" ++ id

/-- The first order of the id, changed. -/
def update {Res : Type} (id : String) (f : Order Res → Order Res) :
    List (Order Res) → List (Order Res)
  | [] => []
  | order :: rest => if order.id = id then f order :: rest else order :: update id f rest

section Program

variable {Res P : Type} {α : Type}

abbrev Orders (Res : Type) := List (Order Res)

def find (orders : Orders Res) (id : String) : Option (Order Res) :=
  orders.find? (·.id = id)

def fail (message : String) : M (Orders Res) P α := throw (.error message)

/-- What came from outside with the request. -/
def answer (asked : Asked α) : M (Orders Res) P α := ask (fun _ => asked) id

def lift (result : Except String α) : M (Orders Res) P α :=
  match result with
  | .ok a => pure a
  | .error message => fail message

/-- What is shown of the order of the id. -/
def Order.shown (order : Order Res) (id : String) (state : Application (Orders Res)) :
    Shown Res where
  id := order.id
  contractAddress := order.address
  service := order.service
  status := order.status
  quotePackage := if order.status = .created then none else some order.quote
  result := if order.status = .delivered then order.result else none
  receipts := state.receipts.filter fun receipt =>
    receipt.record.id = quoteId id || receipt.record.id = redeemId id
  pending := state.pending.any fun pending =>
    pending.id = quoteId id || pending.id = redeemId id

/-- `order`. -/
def order (id : String) : M (Orders Res) P (Option (Shown Res)) := do
  assertJournalWritable
  let state ← state
  match find state.owned.data id with
  | none => pure none
  | some order => pure (some (order.shown id state))

/-- `/^[a-f0-9-]{36}$/`. -/
def isRequestId (id : String) : Bool :=
  id.length = 36
    && id.toList.all fun c => ('a' ≤ c && c ≤ 'f') || ('0' ≤ c && c ≤ '9') || c == '-'

/-- What is free of the reserve. -/
def Book.free (book : Book) : ℤ :=
  book.totalReserve - book.encumberedReserve - book.redeemedReserve - book.feeReserve
    - book.pendingFeeReserve - book.refundReserve - book.reportedRefundReserve

variable (c : Supplier Res)

/-- What the suppliers take for the reference of the invoice. -/
def invoiceReference (service : Service) (id : String) : String :=
  "line-api:" ++ service.id ++ ":" ++ id

/-- The quote of a new order. -/
def newQuote (service : Service) (id : String) (address : Address) (context : QuoteContext)
    (book : Book) : Except String Quote := do
  let invoiceId ←
    (Console.canonicalInvoiceIdBytes (invoiceReference service id)).mapError messageOf
  let quote : Quote := {
    contractAddress := address, domain := book.contractDomain
    merchantPk := c.merchantPublicKey service.merchant, invoiceId := Console.toHex invoiceId
    quoteNonce := context.nonce, amount := service.price, expiry := context.seconds + 3600
    generation := book.lineGeneration, feeFlat := book.feeFlat, feeBps := book.feeBps
    quoteCommitment := "" }
  pure { quote with quoteCommitment := c.quoteCommit quote }

/-- **A new order has no quote**: the reference of its invoice is refused. -/
theorem newQuote_refused {service : Service} {id : String} (hid : isRequestId id = true)
    (address : Native.Address) (context : QuoteContext) (book : Book) :
    newQuote c service id address context book = .error
      "Use a reference of at most 32 UTF-8 bytes, or a 64-digit hexadecimal invoice ID." := by
  have hlength : id.length = 36 := by
    simp only [isRequestId, Bool.and_eq_true, decide_eq_true_eq] at hid
    exact hid.1
  have hlong : 32 < (invoiceReference service id).length := by
    simp only [invoiceReference, String.length_append, hlength]
    omega
  -- it starts with a letter that is not a digit
  have hword : Console.isWordText (invoiceReference service id) = false := by
    have htext : (invoiceReference service id).toList
        = 'l' :: ("ine-api:" ++ service.id ++ ":" ++ id).toList := by
      simp [invoiceReference]
    rw [Console.isWordText, htext]
    simp [Journal.strip, Journal.isHexDigit]
  rw [newQuote, Console.canonicalInvoiceIdBytes_long hword hlong]
  rfl

/-- A new order is made, and stored. -/
def create (service : Service) (id : String) (address : Address) (document : String)
    (context : QuoteContext) (book : Book) : M (Orders Res) P Unit := do
  let orders := (← state).owned.data
  if 1000 ≤ orders.length then
    fail "The merchant order store is full; existing obligations remain recoverable."
  let recent := orders.filter fun row =>
    row.ownerRecipient = book.issuerPayoutRecipient && context.createdAt < row.createdAt + 600000
  if 6 ≤ recent.length then
    fail ("Too many new supplier quotes for this organization. Retry after ten minutes; existing "
      ++ "orders remain recoverable.")
  if book.free < service.price then
    fail "Deposit sufficient assets before requesting a paid API quote."
  let quote ← lift (newQuote c service id address context book)
  let order : Order Res := {
    id, address, service := service.id, inputDigest := c.digest document, document
    quote, status := .created, result := none
    createdAt := context.createdAt, ownerRecipient := book.issuerPayoutRecipient, claim := none }
  assign fun state =>
    { state with owned := { state.owned with data := state.owned.data ++ [order] } }
  saveState

/-- `this.state.contractAddress = address`. -/
def setAddress (address : Address) : M (Orders Res) P Unit :=
  assign fun state => { state with owned := { state.owned with contractAddress := some address } }

/-- The state with the status of one order changed. -/
def withStatus (owned : Owned (Orders Res)) (id : String) (f : Order Res → Order Res) :
    Owned (Orders Res) :=
  { owned with data := update id f owned.data }

/-- `quoteOrder`. -/
def quoteOrder (id : String) (address : Address) (serviceId document : String)
    (context : QuoteContext) : M (Orders Res) P (Option (Shown Res)) := do
  if !isRequestId id then fail "A stable purchase request is required."
  match services.find? (·.id = serviceId) with
  | none => fail "Unknown merchant service."
  | some service => do
      let _ ← lift (c.fulfillOrganizationService serviceId document)
      if (← state).pending.isSome then
        let _ ← recoverPending
      let found := find (← state).owned.data id
      if found.any fun order => order.address != address || order.service != serviceId
          || order.inputDigest != c.digest document then
        fail "The purchase request is already bound to different terms."
      if found.any (·.status ≠ .created) then
        order id
      else do
        let book ← answer context.inspected
        if !book.enabled then
          fail "The organization disabled new quotes from this supplier."
        if found.isNone then
          create c service id address document context book
        setAddress address
        let after := withStatus (← state).owned id fun order => { order with status := .quoted }
        let _ ← operation (quoteId id) .call "postQuote" after
        order id

/-- The claim is for this order. -/
def Note.matches (note : Note) (order : Order Res) : Bool :=
  note.contractAddress == order.address && note.quoteCommitment == order.quote.quoteCommitment
    && note.merchantPk == order.quote.merchantPk && note.amount == order.quote.amount
    && note.expiry == order.quote.expiry && note.generation == order.quote.generation
    && note.domain == order.quote.domain

/-- The service is delivered: stored first, and then put in memory. -/
def deliver (id : String) : M (Orders Res) P Unit := do
  let state ← state
  match find state.owned.data id with
  | none => fail "Cannot set properties of undefined (setting 'result')"
  | some retained => do
      let result ← lift (c.fulfillOrganizationService retained.service retained.document)
      let delivered := { state with owned := withStatus state.owned id fun order =>
        { order with result := some result, status := .delivered } }
      save delivered fun _ => []
      assign fun _ => delivered

/-- `redeemOrder`. -/
def redeemOrder (id claim : String) (inspected : Asked Unit) :
    M (Orders Res) P (Option (Shown Res)) := do
  if (← state).pending.isSome then
    let _ ← recoverPending
  match find (← state).owned.data id with
  | none => fail "Unknown merchant order."
  | some found => do
      if found.status = .delivered then
        order id
      else do
        let note ← lift (c.decodeNote claim)
        if !note.matches found then
          fail "The claim is not for this exact service order."
        let _ ← answer inspected
        if found.status ≠ .redeemed then
          setAddress found.address
          let after := withStatus (← state).owned id fun order =>
            { order with status := .redeemed, claim := some note }
          let _ ← operation (redeemId id) .call "redeemDraw" after
        deliver c id
        order id

/-- A request to the suppliers, with what it learns from outside. -/
inductive Call where
  | quote (id : String) (address : Address) (serviceId document : String) (context : QuoteContext)
  | redeem (id claim : String) (inspected : Asked Unit)
  | recoverPending
  | order (id : String)
  /-- The service is started again. -/
  | reopen

/-- What a call does in a process that runs. -/
def perform : Call → M (Orders Res) P (Option (Shown Res))
  | .quote id address serviceId document context => do
      assertJournalWritable
      quoteOrder c id address serviceId document context
  | .redeem id claim inspected => do
      assertJournalWritable
      redeemOrder c id claim inspected
  | .recoverPending => do
      assertJournalWritable
      let _ ← Native.recoverPending
      pure none
  | .order id => order id
  | .reopen => do
      reopen
      pure none

/-- One call; a process that has ended can only be started again. -/
def serve (call : Call) : M (Orders Res) P (Option (Shown Res)) := do
  if !(← get).running && !(call matches .reopen) then throw .crash
  perform c call

/-- Calls one after another. -/
def serveAll : List Call → System (Orders Res) P → System (Orders Res) P
  | [], s => s
  | call :: rest, s => serveAll rest (final (serve c call s))

end Program

end Line.Merchants
