import Line.Lib.Durable
import Line.Signer.Request

/-!
# The durable approval signer

`DurableApprovalSigner` in `scripts/durable-approval-signer.mjs`: what it keeps, and its two
calls. A call runs to its commit without a pause; the commit is the publication of `Durable`. What
the Compact runtime computes comes from outside (`Runtime`): hashes, commitments and curve
points, on arguments that are there and have their type. Its converters throw on an argument that is
missing, which is why a descriptor that lacks a field is refused where the body of its
approval is computed (`actionBody`).

The policy of the owner, its clock and the random values are given with each call, so the same
descriptor may be allowed now and refused later. What is saved under an operation id is the
fingerprint of the request and the response to it; a call that finds its id saved answers with the
response, if the request is the same and the policy allows it again, and a call that finds it free
reserves the cost first and answers when the reservation is stored.
-/

namespace Line.Signer

open Vault Durable

/-! ## What comes from outside -/

/-- The opening of a borrower's book. -/
structure Book where
  domain : Bytes
  identity : Bytes
  limit : ℤ
  outstanding : ℤ
  epoch : ℤ
  generation : ℤ
  expiry : ℤ
  flatFee : ℤ
  basisPoints : ℤ
  status : ℤ

/-- What a draw note commits to. -/
structure NotePreimage where
  domain : Bytes
  lineGeneration : ℤ
  identity : Bytes
  quoteCommit : Bytes
  merchantPk : Bytes
  amount : ℤ
  fee : ℤ
  noteNonce : Bytes
  expiry : ℤ

/-- The Compact runtime, over the type `π` of curve points, and SHA-256 with digests `δ`. -/
structure Runtime (π δ : Type) where
  /-- `ecMulGenerator`. -/
  generator : ℕ → π
  /-- `pointHash`. -/
  pointHash : π → Bytes
  /-- `hash`: `persistentHash` of a vector of `Bytes<32>`. -/
  hash : List Bytes → Bytes
  /-- `u64`: `convertFieldToBytes(32, n)`. -/
  u64 : ℤ → Bytes
  /-- `tag`: the text, filled up to 32 bytes. -/
  tag : String → Bytes
  /-- `commit`: `persistentCommit` of a book. -/
  commit : Book → Bytes → Bytes
  /-- `persistentCommit` of a draw note. -/
  commitNote : NotePreimage → Bytes → Bytes
  /-- `degradeToTransient`. -/
  degrade : Bytes → ℕ
  /-- The bytes that a contract address spells. -/
  address : Value → Bytes
  /-- `digest`, of a text that the codec wrote, and of the text of a function. -/
  digest : Json.Text → δ
  digestText : String → δ
  /-- A digest as it is stored. -/
  hex : δ → String
  /-- The length of a number that is printed. -/
  numeral : Number → ℕ

def ORDER : ℕ := 6554484396890773809930967563523245729705921265872317281365359162392183254199

/-- `words`. -/
structure Words where
  lo : ℕ
  hi : ℕ
deriving DecidableEq

def words (n : ℕ) : Words := ⟨n % 2 ^ 128, n / 2 ^ 128⟩

/-- What is sent to the coordinator. -/
structure Response (π : Type) where
  rolePublicKey : π
  announcement : π
  response : Words
  authorizationNonce : Bytes
  challengeQuotient : ℕ
  challengeRemainder : Words
  challengeWords : Words
  challengeCarry : ℕ
deriving DecidableEq

/-! ## The body of an approval -/

variable {π δ : Type}

/-- The converter of `Bytes<32>`. -/
def bytesArg : Value → Option Bytes
  | .bytes bs => some bs
  | _ => none

/-- `BigInt(n)`, of a bigint or of a number that is an integer. -/
def intArg : Value → Option ℤ
  | .bigint z => some z
  | .number (.finite q) => if q.isInt then some q.num else none
  | .minusZero => some 0
  | _ => none

/-- The converter of a book. -/
def bookArg (book : Value) : Option Book := do
  let domain ← bytesArg (book.get "domain")
  let identity ← bytesArg (book.get "identity")
  let limit ← intArg (book.get "limit")
  let outstanding ← intArg (book.get "outstanding")
  let epoch ← intArg (book.get "epoch")
  let generation ← intArg (book.get "generation")
  let expiry ← intArg (book.get "expiry")
  let flatFee ← intArg (book.get "flatFee")
  let basisPoints ← intArg (book.get "basisPoints")
  let status ← intArg (book.get "status")
  pure ⟨domain, identity, limit, outstanding, epoch, generation, expiry, flatFee, basisPoints,
    status⟩

/-- `roleHash`, of a merchant and of an agent. -/
def merchantHash (rt : Runtime π δ) (pk : π) : Bytes :=
  rt.hash [rt.tag "line:merchant:pk", rt.pointHash pk]

def agentHash (rt : Runtime π δ) (pk : π) (domain : Bytes) : Bytes :=
  rt.hash [rt.tag "line:id", domain, rt.pointHash pk]

/-- `commit(v.bookOpening, v.salt)`. -/
def old (rt : Runtime π δ) (request : Value) : Option Bytes := do
  let book ← bookArg ((values request).get "bookOpening")
  let salt ← bytesArg ((values request).get "salt")
  pure (rt.commit book salt)

/-- Whose book is opened: the agent's own, or the one that the issuer names. -/
def enrollee (rt : Runtime π δ) (pk : π) (domain : Bytes) (request : Value) : Option Bytes :=
  if isBig (arg request 0) 0 then some (agentHash rt pk domain)
  else bytesArg ((values request).get "enrollmentIdentity")

/-- The generation of the new book, and the commitment of the one it follows. -/
def previousBook (rt : Runtime π δ) (request : Value) : Option (ℤ × Bytes) :=
  if ((values request).get "hasPreviousBook").truthy then do
    let book ← bookArg ((values request).get "bookOpening")
    let commitment ← old rt request
    pure (book.generation + 1, commitment)
  else some (1, rt.tag "")

/-- The body of an enrollment: the terms of the new book, and the book it follows. -/
def enrollBody (rt : Runtime π δ) (pk : π) (domain : Bytes) (request : Value) : Option Bytes := do
  let v := values request
  let mode ← intArg (arg request 0)
  let expiry ← intArg (arg request 1)
  let flatFee ← intArg (arg request 2)
  let basisPoints ← intArg (arg request 3)
  let identity ← enrollee rt pk domain request
  let limit ← intArg (v.get "lineLimit")
  let previous ← previousBook rt request
  let newSalt ← bytesArg (v.get "newSalt")
  let acceptedTerms ← bytesArg (v.get "acceptedTerms")
  let fresh : Book := ⟨domain, identity, limit, 0, 0, previous.1, expiry, flatFee, basisPoints, 1⟩
  pure (rt.hash [rt.hash [rt.tag "line:pool:enroll", domain, rt.commit fresh newSalt, previous.2,
    acceptedTerms], rt.u64 mode])

/-- The body of a merchant's quote, and of its offer. -/
def quoteBody (rt : Runtime π δ) (abi : ApprovalABI) (pk : π) (domain : Bytes) (request : Value) :
    Option Bytes := do
  let v := values request
  let expiry ← intArg (arg request 0)
  let invoice ← bytesArg (v.get "invoiceId")
  let amount ← intArg (v.get "quoteAmount")
  let nonce ← bytesArg (v.get "quoteNonce")
  if abi.isOffer then do
    let binding ← bytesArg (v.get "quoteFacilityBinding")
    pure (rt.hash [rt.tag "line:offer:quote", merchantHash rt pk, binding, invoice, rt.u64 amount,
      rt.u64 expiry, nonce, domain])
  else do
    let buyer ← bytesArg (v.get "quoteBuyer")
    let generation ← intArg (v.get "quoteGeneration")
    let flatFee ← intArg (v.get "quoteFlatFee")
    let basisPoints ← intArg (v.get "quoteBasisPoints")
    pure (rt.hash [rt.tag "line:pool:quote", merchantHash rt pk, buyer, invoice, rt.u64 amount,
      rt.u64 expiry, nonce, rt.u64 generation, domain, rt.u64 flatFee, rt.u64 basisPoints])

/-- The body of a draw. -/
def drawBody (rt : Runtime π δ) (domain : Bytes) (request : Value) : Option Bytes := do
  let v := values request
  let Q ← bytesArg (arg request 0)
  let expiry ← intArg (arg request 1)
  let fee ← intArg (arg request 2)
  let book ← bookArg (v.get "bookOpening")
  let merchantPk ← bytesArg (v.get "quoteMerchantPk")
  let amount ← intArg (v.get "drawAmount")
  let noteNonce ← bytesArg (v.get "noteNonce")
  let noteSalt ← bytesArg (v.get "noteSalt")
  let before ← old rt request
  let newSalt ← bytesArg (v.get "newSalt")
  let D := rt.commitNote ⟨domain, book.generation, book.identity, Q, merchantPk, amount, fee,
    noteNonce, expiry⟩ noteSalt
  pure (rt.hash [Q, before, newSalt, D, rt.u64 amount, rt.u64 fee, rt.u64 expiry])

/-- The body of a cancellation or an expiry. -/
def cancelBody (rt : Runtime π δ) (request : Value) : Option Bytes := do
  let v := values request
  let D ← bytesArg (arg request 0)
  let mode ← intArg (arg request 1)
  let expiry ← intArg (arg request 2)
  if isBig (arg request 1) 0 then pure D
  else if isBig (arg request 1) 1 then do
    let before ← old rt request
    let newSalt ← bytesArg (v.get "newSalt")
    pure (rt.hash [D, rt.u64 mode, before, newSalt, rt.u64 expiry])
  else do
    let amount ← intArg (v.get "repayAmount")
    let paymentRef ← bytesArg (v.get "paymentRef")
    pure (rt.hash [D, rt.u64 mode, rt.u64 expiry, rt.u64 amount, paymentRef])

/-- `actionBody` with `privateFinance`, and the offer of a merchant: the number of the operation
and the body of its approval. -/
def actionBody (rt : Runtime π δ) (abi : ApprovalABI) (pk : π) (domain : Bytes) (op : Operation)
    (request : Value) : Option (ℕ × Bytes) :=
  let v := values request
  match op with
  | .registerMerchant => do
    let M ← bytesArg (arg request 0)
    pure (1, M)
  | .disableMerchant => do
    let M ← bytesArg (arg request 0)
    pure (2, M)
  | .fundReserve => do
    let commitment ← bytesArg (request.get "reserveCommit")
    let amount ← intArg (arg request 0)
    pure (3, rt.hash [commitment, rt.u64 amount])
  | .withdrawUnencumberedReserve => do
    let commitment ← bytesArg (request.get "reserveCommit")
    let amount ← intArg (arg request 0)
    pure (4, rt.hash [commitment, rt.u64 amount])
  | .withdrawFees => do
    let commitment ← bytesArg (request.get "reserveCommit")
    let amount ← intArg (request.get "feeReserve")
    pure (5, rt.hash [commitment, rt.u64 amount])
  | .openLine => do
    let body ← enrollBody rt pk domain request
    pure (6, body)
  | .postQuote => do
    let body ← quoteBody rt abi pk domain request
    pure (7, body)
  | .draw => do
    let body ← drawBody rt domain request
    pure (8, body)
  | .redeemDraw => do
    let D ← bytesArg (arg request 0)
    let expiry ← intArg (arg request 1)
    let amount ← intArg (v.get "redeemAmount")
    pure (9, rt.hash [D, rt.u64 expiry, rt.u64 amount])
  | .cancelOrExpireNote => do
    let body ← cancelBody rt request
    pure (10, body)
  | .acknowledgeRepayment => do
    let before ← old rt request
    let amount ← intArg (v.get "repayAmount")
    let expected ← intArg (arg request 0)
    let paymentRef ← bytesArg (v.get "paymentRef")
    let nonce ← bytesArg (v.get "receiptNonce")
    let newSalt ← bytesArg (v.get "newSalt")
    pure (11, rt.hash [before, rt.u64 amount, rt.u64 expected, paymentRef, nonce, newSalt])
  | .setStatus => do
    let before ← old rt request
    let status ← intArg (arg request 0)
    let newSalt ← bytesArg (v.get "newSalt")
    pure (12, rt.hash [before, rt.u64 status, newSalt])

/-- `approvalMessage`, or `addressedApprovalMessage`. -/
def message (rt : Runtime π δ) (abi : ApprovalABI) (domain : Bytes) (request : Value) (op : ℕ)
    (body nonce : Bytes) : Bytes :=
  if abi = .addressBound then
    rt.hash [rt.tag "line:signed:approval:v2", domain, rt.address (request.get "contractAddress"),
      rt.u64 op, body, nonce]
  else rt.hash [rt.tag "line:signed:approval", domain, rt.u64 op, body, nonce]

/-- The signature over a message, with the nonce scalar `r`. -/
def sign (rt : Runtime π δ) (scalar r : ℕ) (message nonce : Bytes) : Response π :=
  let publicKey := rt.generator scalar
  let announcement := rt.generator r
  let h := rt.degrade (rt.hash [message, rt.pointHash publicKey, rt.pointHash announcement])
  let remainder := h % ORDER
  let quotient := h / ORDER
  ⟨publicKey, announcement, words ((r + remainder * scalar) % ORDER), nonce, quotient,
    words remainder, words h, (quotient * (ORDER % 2 ^ 128) + remainder % 2 ^ 128) / 2 ^ 128⟩

/-! ## State -/

/-- `operations[id]`. -/
structure Saved (π δ : Type) where
  requestSha256 : δ
  response : Response π

/-- `binding`. -/
structure Binding (δ : Type) where
  config : Value
  policyCodeSha256 : δ
  policyModuleSha256 : Option String

/-- What the signer stores. -/
structure State (π δ : Type) where
  version : ℕ
  role : Role
  custodyId : String
  scalar : ℕ
  binding : Option (Binding δ)
  approvedCost : ℤ
  operations : List (String × Saved π δ)

/-- What the owner opens its signer with each time: under another role, custody id, format or key
the store does not authenticate what it holds. -/
structure Owner where
  role : Role
  custodyId : String
  approvalABI : ApprovalABI

/-- The text of the policy that a signer was opened with, and the pin of its module. -/
structure Session where
  policy : String
  policyModuleSha256 : Option String

/-- What the policy is told beside the request. -/
structure PolicyContext (π : Type) where
  publicKey : π
  role : Role
  config : Value
  clockUnixSeconds : Value

/-- What a call of `approve` meets: the owner's policy and clock, and the random values. -/
structure Circumstances (π : Type) where
  authorize : Value → PolicyContext π → Result Value
  clock : Result Value
  nonce : Bytes
  announced : ℕ

inductive Call (π : Type) where
  | create (scalar : ℕ) (session : Session)
  | reopen (session : Session)
  | bindPolicy (config : Data)
  | approve (operationId descriptor : Data) (c : Circumstances π)

inductive Answer (π : Type) where
  | refused (e : Error)
  | bound
  | approval (response : Response π)

/-! ## Calls -/

/-- `reject`. -/
def rejection : Error := .plain "Approval could not be authorized."

def require (ok : Bool) : Result Unit := Journal.require ok rejection

def orReject {α : Type} (x : Option α) : Result α :=
  match x with
  | some a => .ok a
  | none => .error rejection

/-- `fingerprint`. -/
def fingerprint (rt : Runtime π δ) (value : Value) : Result δ := do
  let text ← encodeVaultJson (canonical value)
  pure (rt.digest text)

/-- The binding, as its fingerprint is taken. -/
def Binding.value (rt : Runtime π δ) (b : Binding δ) : Value :=
  .object ([("config", b.config), ("policyCodeSha256", .string (rt.hex b.policyCodeSha256))] ++
    match b.policyModuleSha256 with
    | some m => [("policyModuleSha256", .string m)]
    | none => [])

/-- `/^[a-zA-Z0-9][a-zA-Z0-9:._-]{0,127}$/`. -/
def isId (s : String) : Bool :=
  match s.toList with
  | [] => false
  | c :: cs => c.isAlphanum && decide (cs.length ≤ 127) && cs.all Journal.isIdChar

def MAX_OPERATIONS : ℕ := 256

/-- What `bindPolicy` asks of a configuration. -/
def configOk (abi : ApprovalABI) (config : Value) : Bool :=
  byte32 (config.get "domain") &&
    (abi ≠ .addressBound || isContractAddress (config.get "contractAddress")) &&
    uint64 (config.get "maxAuthorizedCost")

variable [DecidableEq δ]

/-- How a call ends. -/
inductive Ending (π δ : Type) where
  | replies (answer : Answer π)
  | commits (next : State π δ) (answer : Answer π)

def bindPolicy (rt : Runtime π δ) (owner : Owner) (session : Session) (state : State π δ)
    (config : Value) : Result (Ending π δ) := do
  require (configOk owner.approvalABI config)
  let config ← Journal.clone config
  let binding : Binding δ := ⟨config, rt.digestText session.policy, session.policyModuleSha256⟩
  match state.binding with
  | some saved => do
    let a ← fingerprint rt (binding.value rt)
    let b ← fingerprint rt (saved.value rt)
    require (decide (a = b))
    pure (.replies .bound)
  | none => pure (.commits { state with binding := some binding } .bound)

/-- The cost that a decision reserves, if it allows the request. -/
def decided (role : Role) (op : Operation) (request decision : Value) : Option ℤ := do
  guard (decision.get "allowed" matches .boolean true)
  match decision.get "reservationCost" with
  | .bigint cost => do
    guard (0 ≤ cost)
    if role = .agent ∧ op = .draw then
      match (values request).get "drawAmount", arg request 2 with
      | .bigint amount, .bigint fee => do
        guard (0 < amount ∧ 0 ≤ fee ∧ cost = amount + fee)
        pure cost
      | _, _ => none
    else pure cost
  | _ => none

/-- The request of a descriptor: what comes back out of the codec, if it is not too long. -/
def requestOf (rt : Runtime π δ) (descriptor : Value) : Result Value := do
  let text ← encodeVaultJson descriptor
  require (decide (encodedLength rt.numeral descriptor ≤ 128 * 1024))
  decodeVaultJson text

/-- What the policy says to a request, as the cost it reserves. -/
def authorized (rt : Runtime π δ) (state : State π δ) (config request : Value) (op : Operation)
    (c : Circumstances π) : Result ℤ := do
  let clockUnixSeconds ← c.clock
  let context : PolicyContext π := ⟨rt.generator state.scalar, state.role, config, clockUnixSeconds⟩
  match c.authorize request context with
  | .ok decision => orReject (decided state.role op request decision)
  | .error _ => .error rejection

def maxAuthorizedCost (config : Value) : ℤ :=
  match config.get "maxAuthorizedCost" with
  | .bigint z => z
  | _ => 0

def approve (rt : Runtime π δ) (owner : Owner) (state : State π δ)
    (operationId descriptor : Value) (c : Circumstances π) : Result (Ending π δ) := do
  let binding ← orReject state.binding
  let config := binding.config
  let id ← match operationId with
    | .string s => if isId s then .ok s else .error rejection
    | _ => .error rejection
  let request ← requestOf rt descriptor
  let op ← orReject (admits owner.approvalABI state.role config request)
  let requestSha256 ← fingerprint rt request
  let saved := state.operations.lookup id
  require (saved.all fun s => decide (s.requestSha256 = requestSha256))
  let cost ← authorized rt state config request op c
  match saved with
  | some s => pure (.replies (.approval s.response))
  | none => do
    require (decide (state.operations.length < MAX_OPERATIONS) &&
      decide (state.approvedCost + cost ≤ maxAuthorizedCost config))
    let domain ← orReject (bytesArg (request.get "domain"))
    let body ← orReject (actionBody rt owner.approvalABI (rt.generator state.scalar) domain op
      request)
    let response := sign rt state.scalar c.announced
      (message rt owner.approvalABI domain request body.1 body.2 c.nonce) c.nonce
    let next := { state with
      approvedCost := state.approvedCost + cost
      operations := state.operations ++ [(id, ⟨requestSha256, response⟩)] }
    pure (.commits next (.approval response))

/-! ## The program -/

/-- `#live`. -/
def live (status : Durable.Status) : Result Unit :=
  Journal.require (decide (status = .ready))
    (.plain "Signer must be reopened after closure or uncertain persistence.")

def call (rt : Runtime π δ) (owner : Owner) (status : Durable.Status) (c : Call π)
    (state : State π δ) (session : Session) : Result (Ending π δ) := do
  live status
  match c with
  | .bindPolicy config => bindPolicy rt owner session state config.1
  | .approve operationId descriptor circumstances =>
    approve rt owner state operationId.1 descriptor.1 circumstances
  | _ => .error (.plain "")

def react (rt : Runtime π δ) (owner : Owner) (status : Durable.Status) (c : Call π)
    (state : State π δ) (session : Session) : Outcome (State π δ) Session (Answer π) :=
  match call rt owner status c state session with
  | .ok (.replies answer) => .replies answer session
  | .ok (.commits next answer) => .publishes next session session answer
  | .error e => .replies (.refused e) session

/-- What the constructor asks of its options. -/
def optionsOk (owner : Owner) (session : Session) : Bool :=
  isId owner.custodyId && session.policyModuleSha256.all fun m =>
    decide (m.length = 64) && m.toList.all fun c => "0123456789abcdef".toList.contains c

/-- The constructor, with `create`. -/
def createState (owner : Owner) (c : Call π) : Option (State π δ × Session) :=
  match c with
  | .create scalar session =>
    if optionsOk owner session ∧ 0 < scalar ∧ scalar < ORDER then
      some (⟨1, owner.role, owner.custodyId, scalar, none, 0, []⟩, session)
    else none
  | _ => none

/-- The constructor, on what is stored. -/
def openState (rt : Runtime π δ) (owner : Owner) (c : Call π) (state : State π δ) :
    Option Session :=
  match c with
  | .reopen session =>
    if optionsOk owner session ∧ state.role = owner.role ∧ state.version = 1 ∧
      state.custodyId = owner.custodyId ∧ 0 < state.scalar ∧ state.scalar < ORDER ∧
      state.binding.all (fun b => decide (b.policyCodeSha256 = rt.digestText session.policy) &&
        decide (b.policyModuleSha256 = session.policyModuleSha256)) = true then some session
    else none
  | _ => none

theorem react_publishes {rt : Runtime π δ} {owner : Owner} {status : Durable.Status} {c : Call π}
    {state next : State π δ} {session meanwhile session' : Session} {answer : Answer π}
    (h : react rt owner status c state session = .publishes next meanwhile session' answer) :
    call rt owner status c state session = .ok (.commits next answer) := by
  unfold react at h
  split at h
  · cases h
  · next heq =>
      cases h
      exact heq
  · cases h

theorem live_ok {status : Durable.Status} {u : Unit} (h : live status = .ok u) :
    status = .ready := by
  unfold live Journal.require at h
  split at h
  · next hready => exact of_decide_eq_true hready
  · cases h

/-- `DurableApprovalSigner`, on the store of one owner. -/
def signer (rt : Runtime π δ) (owner : Owner) :
    Program (Call π) (State π δ) Session (Answer π) where
  create := createState owner
  opens := openState rt owner
  react := react rt owner
  guarded h := by
    have hcall := react_publishes h
    simp only [call, Checked.bind_ok_iff] at hcall
    obtain ⟨_, hlive, -⟩ := hcall
    exact live_ok hlive

end Line.Signer
