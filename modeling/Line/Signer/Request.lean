import Line.Vault.Canonical

/-!
# What an approval signer is asked to sign

The descriptor checks of `scripts/durable-approval-signer.mjs`: twelve operations, three
formats of an approval, four roles. A descriptor is a value, looked at property by
property as the source does; `admits` is the sequence of its checks.

The tables of the source are functions here: which operations a role has, of which types the
arguments of an operation are, which private values it may come with. A check that fails gives
`none`, and the order of the checks is the source's, although only whether all of them pass is used
later. What a value has to be for its type is asked of the value alone; that an argument which is
missing fails the check of its type is what makes the list of types the list of arguments.
-/

namespace Line.Signer

open Vault

abbrev Bytes := List (Fin 256)

/-- `OPERATIONS`. -/
inductive Operation where
  | registerMerchant
  | disableMerchant
  | fundReserve
  | withdrawUnencumberedReserve
  | withdrawFees
  | openLine
  | postQuote
  | draw
  | redeemDraw
  | cancelOrExpireNote
  | acknowledgeRepayment
  | setStatus
deriving DecidableEq

def Operation.name : Operation → String
  | .registerMerchant => "registerMerchant"
  | .disableMerchant => "disableMerchant"
  | .fundReserve => "fundReserve"
  | .withdrawUnencumberedReserve => "withdrawUnencumberedReserve"
  | .withdrawFees => "withdrawFees"
  | .openLine => "openLine"
  | .postQuote => "postQuote"
  | .draw => "draw"
  | .redeemDraw => "redeemDraw"
  | .cancelOrExpireNote => "cancelOrExpireNote"
  | .acknowledgeRepayment => "acknowledgeRepayment"
  | .setStatus => "setStatus"

def Operation.all : List Operation :=
  [.registerMerchant, .disableMerchant, .fundReserve, .withdrawUnencumberedReserve, .withdrawFees,
    .openLine, .postQuote, .draw, .redeemDraw, .cancelOrExpireNote, .acknowledgeRepayment,
    .setStatus]

/-- The operation of this name, if there is one. -/
def operationOf (name : Value) : Option Operation :=
  Operation.all.find? fun op => name.isText op.name

inductive Role where
  | issuer
  | agent
  | merchant
  | permissionless
deriving DecidableEq

/-- The formats of an approval: `LEGACY_ABI`, `OFFER_ABI`, `ADDRESS_BOUND_APPROVAL_ABI`. -/
inductive ApprovalABI where
  | legacy
  | offer
  | addressBound
deriving DecidableEq

/-- `isOfferABI`. -/
def ApprovalABI.isOffer : ApprovalABI → Bool
  | .legacy => false
  | .offer | .addressBound => true

/-! ## Types of fields -/

def byte32 : Value → Bool
  | .bytes bs => decide (bs.length = 32)
  | _ => false

def uint64 : Value → Bool
  | .bigint z => decide (0 ≤ z ∧ z ≤ 18446744073709551615)
  | _ => false

/-- `Number.isInteger(v) && v >= 0 && v <= 3`. -/
def status : Value → Bool
  | .number (.finite q) => q.isInt && decide (0 ≤ q ∧ q ≤ 3)
  | .minusZero => true
  | _ => false

/-- `v instanceof Uint8Array`. -/
def isBytes : Value → Bool
  | .bytes _ => true
  | _ => false

/-- `isRecord`. -/
def isRecord : Value → Bool
  | .object _ => true
  | _ => false

/-- `isContractAddress`. -/
def isContractAddress : Value → Bool
  | .string s =>
    decide (s.length = 64) && s.toList.all fun c => "0123456789abcdef".toList.contains c
  | _ => false

/-- `ARG_TYPES`. -/
def argTypes : Operation → List (Value → Bool)
  | .registerMerchant | .disableMerchant => [byte32]
  | .fundReserve | .withdrawUnencumberedReserve => [uint64]
  | .withdrawFees => []
  | .openLine => [uint64, uint64, uint64, uint64]
  | .postQuote => [uint64]
  | .draw => [byte32, uint64, uint64]
  | .redeemDraw => [byte32, uint64]
  | .cancelOrExpireNote => [byte32, uint64, uint64]
  | .acknowledgeRepayment => [uint64]
  | .setStatus => [status]

/-- `UINT_VALUES`. -/
def uintValues : List String :=
  ["lineLimit", "quoteAmount", "quoteGeneration", "quoteFlatFee", "quoteBasisPoints", "drawAmount",
    "redeemAmount", "repayAmount"]

def forbidden : List String :=
  ["callerSecret", "agentSecret", "reserveOpening", "reserveSalt", "newReserveSalt",
    "nullifierKey"]

/-- `BOOK_FIELDS`. -/
def bookFields : List String :=
  ["domain", "identity", "limit", "outstanding", "epoch", "generation", "expiry", "flatFee",
    "basisPoints", "status"]

/-- `ROLE_OPERATIONS`. -/
def roleOperations : Role → List Operation
  | .issuer => [.registerMerchant, .disableMerchant, .fundReserve, .withdrawUnencumberedReserve,
      .withdrawFees, .openLine, .cancelOrExpireNote, .acknowledgeRepayment, .setStatus]
  | .agent => [.openLine, .draw, .cancelOrExpireNote]
  | .merchant => [.postQuote, .redeemDraw, .cancelOrExpireNote]
  | .permissionless => [.cancelOrExpireNote]

/-- `VALUE_FIELDS`; the fields of `cancelOrExpireNote` depend on its mode. -/
def valueFields : Operation → List String
  | .openLine => ["enrollmentIdentity", "acceptedTerms", "hasPreviousBook", "lineLimit", "newSalt",
      "bookOpening", "salt"]
  | .postQuote => ["quoteBuyer", "invoiceId", "quoteAmount", "quoteNonce", "quoteGeneration",
      "quoteFlatFee", "quoteBasisPoints"]
  | .draw => ["bookOpening", "salt", "newSalt", "quoteMerchantPk", "drawAmount", "noteNonce",
      "noteSalt"]
  | .redeemDraw => ["redeemAmount"]
  | .acknowledgeRepayment => ["bookOpening", "salt", "newSalt", "repayAmount", "paymentRef",
      "receiptNonce"]
  | .setStatus => ["bookOpening", "salt", "newSalt"]
  | _ => []

/-! ## Reading a descriptor -/

/-- `request.args[i]`. -/
def arg (request : Value) (i : ℕ) : Value := (request.get "args").itemsOf.getD i .undefined

def values (request : Value) : Value := request.get "values"

/-- `a === b`, of two bigints. -/
def isBig (v : Value) (z : ℤ) : Bool :=
  match v with
  | .bigint y => decide (y = z)
  | _ => false

/-- `allowedValues`. -/
def allowedValues (abi : ApprovalABI) (op : Operation) (request : Value) : List String :=
  if op = .postQuote ∧ abi.isOffer = true then
    ["quoteFacilityBinding", "invoiceId", "quoteAmount", "quoteNonce"]
  else if op = .cancelOrExpireNote then
    if isBig (arg request 1) 0 then []
    else if isBig (arg request 1) 1 then ["bookOpening", "salt", "newSalt"]
    else ["repayAmount", "paymentRef"]
  else valueFields op

/-- `topFields`. -/
def topFields (abi : ApprovalABI) (op : Operation) : List String :=
  ["name", "args", "domain", "privateFinance", "values"] ++
    (if abi = .addressBound then ["contractAddress"] else []) ++
    (if op = .fundReserve ∨ op = .withdrawUnencumberedReserve ∨ op = .withdrawFees then
      ["reserveCommit"] else []) ++
    (if op = .withdrawFees then ["feeReserve"] else [])

/-- The type of a field of the book. -/
def bookFieldOk (key : String) (value : Value) : Bool :=
  if key = "domain" ∨ key = "identity" then byte32 value
  else if key = "status" then status value
  else uint64 value

/-- A book opening: these fields and no others. -/
def bookOk (book : Value) : Bool :=
  isRecord book && (book.keys.all fun key => bookFields.contains key) &&
    bookFields.all fun key => bookFieldOk key (book.get key)

/-- The type of a private value. -/
def valueOk (key : String) (value : Value) : Bool :=
  if key = "bookOpening" then bookOk value
  else if key = "hasPreviousBook" then value.isBoolean
  else if uintValues.contains key then uint64 value
  else byte32 value

/-- The arguments are as many as they should be, and of these types. -/
def argsOk : List (Value → Bool) → List Value → Bool
  | [], [] => true
  | t :: ts, v :: vs => t v && argsOk ts vs
  | _, _ => false

/-- A role may sign an operation in this mode. -/
def modeOk (role : Role) (op : Operation) (request : Value) : Bool :=
  match op with
  | .openLine =>
    match role with
    | .issuer => isBig (arg request 0) 1
    | .agent => isBig (arg request 0) 0
    | _ => true
  | .cancelOrExpireNote =>
    isBig (arg request 1) 0 ||
      (decide (role = .issuer) && (isBig (arg request 1) 1 || isBig (arg request 1) 2)) ||
      (decide (role = .agent) && isBig (arg request 1) 1)
  | _ => true

/-- The checks of `approve` up to the fingerprint: the operation that is asked for. -/
def admits (abi : ApprovalABI) (role : Role) (config request : Value) : Option Operation := do
  let op ← operationOf (request.get "name")
  guard (request.get "privateFinance" matches .boolean true)
  guard (isBytes (request.get "domain") && (request.get "domain").deepEqual (config.get "domain"))
  guard ((request.get "args").isArray && isRecord (values request))
  guard ((request.get "authorizationNonce").isUndefined &&
    (request.get "challengeLiftForTest").isUndefined)
  guard (abi ≠ .addressBound ∨ (isContractAddress (request.get "contractAddress") &&
    (request.get "contractAddress").deepEqual (config.get "contractAddress")) = true)
  guard (forbidden.all fun key => !(values request).has key)
  guard (argsOk (argTypes op) (request.get "args").itemsOf)
  guard (!request.has "reserveCommit" || byte32 (request.get "reserveCommit"))
  guard (!request.has "feeReserve" || uint64 (request.get "feeReserve"))
  guard (request.keys.all fun key => (topFields abi op).contains key)
  guard ((values request).keys.all fun key => (allowedValues abi op request).contains key)
  guard ((values request).entriesOf.all fun e => valueOk e.1 e.2)
  guard ((roleOperations role).contains op)
  guard (modeOk role op request)
  pure op

end Line.Signer
