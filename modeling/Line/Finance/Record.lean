import Line.Vault.Equality

/-!
# The record of the private finance journal

`scripts/private-finance-journal.mjs`: the last confirmed checkpoint (the public state of
the contract, and the private openings that belong to it), and at most one thing on its way to
the next: an intent that the owner of the approval is being asked about, or a candidate.

A checkpoint is what the application hands over, kept as a value and looked at property
by property. `δ` is the type of the digests: the texts in `[0-9a-f]{64}` that SHA-256 prints.
-/

namespace Line.Finance

open Vault

abbrev Bytes := List (Fin 256)

/-- `createHash("sha256").update(value).digest("hex")`, of a text and of bytes. -/
structure Sha256 (δ : Type) where
  text : Json.Text → δ
  bytes : Bytes → δ

/-- `assert(ok, message)`; where the source gives no message, neither does the model. -/
def assert (ok : Bool) (message : String := "") : Result Unit :=
  Journal.require ok (.plain message)

def SCHEMA : String := "line-private-finance-journal/v1"

def clone (value : Value) : Result Value := Journal.clone value

/-- The names of the circuits. -/
def names : List String :=
  ["registerMerchant", "disableMerchant", "fundReserve", "withdrawUnencumberedReserve",
    "withdrawFees", "openLine", "postQuote", "draw", "redeemDraw", "cancelOrExpireNote",
    "acknowledgeRepayment", "setStatus"]

def isOperationId (s : String) : Bool := Journal.identifier 128 s

/-- `equal`: both are bytes, and the same. -/
def equal : Value → Value → Bool
  | .bytes a, .bytes b => a == b
  | _, _ => false

def stringOf : Value → Result String
  | .string s => .ok s
  | _ => .error (.plain "")

def arrayOf : Value → Result (List Value)
  | .array items => .ok items
  | _ => .error (.plain "")

/-- `value && typeof value === "object"`, and, where the source says so, no array. -/
def isRecord (value : Value) : Bool := value.isObject && !value.isArray

/-! ## Scope -/

structure Scope where
  networkId : String
  sourceSha256 : String
  executableSha256 : String
  contractAddress : String
  contractDomain : String
deriving DecidableEq

/-- `/^[0-9a-f]{64}$/`. -/
def isDigest (s : String) : Bool :=
  decide (s.length = 64) && s.toList.all fun c => "0123456789abcdef".toList.contains c

def normalize (scope : Scope) : Result Scope := do
  assert (["synthetic-preview", "preprod"].contains scope.networkId)
  assert ([scope.sourceSha256, scope.executableSha256, scope.contractAddress,
    scope.contractDomain].all isDigest)
  pure scope

/-! ## Checkpoints -/

/-- `value instanceof Uint8Array`, neither empty nor too long. -/
def isBounded : Value → Bool
  | .bytes bs => decide (0 < bs.length) && decide (bs.length ≤ 1000000)
  | _ => false

/-- The check of a checkpoint, and a clone of it. -/
def checkpoint (value : Value) : Result Value := do
  assert (isBounded (value.get "publicState"))
  assert (value.get "privateState").isObject
  assert (value.get "financial").isObject
  assert (value.exactKeys ["publicState", "privateState", "financial"])
  clone value

/-! ## Data -/

variable {δ : Type}

/-- What the owner of an approval is asked about. -/
structure Proposal where
  operationId : String
  circuit : String
  circuitArgs : List Value
  witnesses : Value
  descriptor : Value
  semanticRequest : Value
  before : Value

/-- `authorizationIntent`. -/
structure Intent (δ : Type) extends Proposal where
  fingerprint : δ

/-- An operation and the checkpoint that it is to lead to. -/
structure Operation where
  operationId : String
  circuit : String
  circuitArgs : List Value
  witnesses : Value
  before : Value
  candidate : Value

/-- `pending`. -/
structure Pending (δ : Type) extends Operation where
  fingerprint : δ

/-- The transaction that was handed to the network for a candidate. -/
structure Submission (δ : Type) where
  operationId : String
  circuit : String
  transaction : Bytes
  transactionSha256 : δ
  transactionHash : String
  identifiers : List String
  candidateFingerprint : δ
deriving DecidableEq

/-- The receipt of a finalized transaction. -/
structure Receipt (δ : Type) where
  transactionHash : String
  transactionSha256 : δ
  submittedTransactionHash : String
  submittedTransactionSha256 : δ
  identifiers : List String
  blockHeight : ℕ
  blockHash : String
  finalizedHead : String
  stateDataSha256 : δ
  authority : String
  networkFinalityVerified : Bool

/-- What is kept of a confirmed operation. -/
structure Completed (δ : Type) where
  operationId : String
  fingerprint : δ
  stateSha256 : δ
  receipt : Option (Receipt δ)

/-- What the owner has pinned of the network. -/
structure Policy (δ : Type) where
  networkId : String
  sourceSha256 : String
  executableSha256 : String
  indexerService : String
  nodeService : String
  verifierKeySha256 : List (String × δ)
deriving DecidableEq

/-- The journal. What is null or not there is `none`. -/
structure Record (δ : Type) where
  schema : String
  scope : Scope
  revision : ℕ
  confirmed : Option Value
  pending : Option (Pending δ)
  completed : List (Completed δ)
  networkPolicy : Option (Policy δ)
  authorizationIntent : Option (Intent δ)
  submission : Option (Submission δ)
  bootstrap : Option (Receipt δ)

/-! ## Fingerprints -/

/-- `fp`. -/
def fp (sha : Sha256 δ) (value : Value) : Result δ := do
  let text ← encodeVaultJson value
  pure (sha.text text)

def Proposal.value (p : Proposal) : Value :=
  .object [("operationId", .string p.operationId), ("circuit", .string p.circuit),
    ("circuitArgs", .array p.circuitArgs), ("witnesses", p.witnesses),
    ("descriptor", p.descriptor), ("semanticRequest", p.semanticRequest), ("before", p.before)]

def Operation.value (o : Operation) : Value :=
  .object [("operationId", .string o.operationId), ("circuit", .string o.circuit),
    ("circuitArgs", .array o.circuitArgs), ("witnesses", o.witnesses), ("before", o.before),
    ("candidate", o.candidate)]

/-- `confirmed`, null where there is none. -/
def Record.confirmedValue (r : Record δ) : Value := r.confirmed.getD .null

/-! ## What the checks establish -/

@[simp] theorem arrayOf_ok_iff {v : Value} {items : List Value} :
    arrayOf v = .ok items ↔ v = .array items := by
  cases v <;> simp [arrayOf]

theorem assert_ok_iff {ok : Bool} {message : String} {u : Unit} :
    assert ok message = .ok u ↔ ok = true := by
  rw [assert, Journal.require]
  cases ok <;> simp

/-- A clone of a value of the language is that value, and within the limits of the codec. -/
theorem clone_ok {v w : Value} (hv : v.Proper) (h : clone v = .ok w) : w = v := by
  simp only [clone, Journal.clone, Checked.bind_ok_iff] at h
  obtain ⟨text, htext, hdec⟩ := h
  rw [decodeVaultJson_encode hv htext] at hdec
  cases hdec
  rfl

theorem clone_proper {v w : Value} (h : clone v = .ok w) : w.Proper := Journal.clone_proper h

/-- What can be cloned has a fingerprint. -/
theorem fp_of_clone {sha : Sha256 δ} {v w : Value} (h : clone v = .ok w) :
    ∃ d, fp sha v = .ok d := by
  simp only [clone, Journal.clone, Checked.bind_ok_iff] at h
  obtain ⟨text, htext, -⟩ := h
  refine ⟨sha.text text, ?_⟩
  rw [fp, htext]
  rfl

/-- Values with the same fingerprint are the same, as no two texts have the same digest. -/
theorem fp_inj {sha : Sha256 δ} (hsha : Function.Injective sha.text) {a b : Value} {d : δ}
    (ha : a.Proper) (hb : b.Proper) (h : fp sha a = .ok d) (h' : fp sha b = .ok d) : a = b := by
  simp only [fp, Checked.bind_ok_iff, Checked.pure_ok_iff] at h h'
  obtain ⟨text, htext, rfl⟩ := h
  obtain ⟨text', htext', heq⟩ := h'
  rw [hsha heq] at htext'
  exact encodeVaultJson_inj ha hb htext htext'

theorem checkpoint_clone {v w : Value} (h : checkpoint v = .ok w) : clone v = .ok w := by
  simp only [checkpoint, Checked.bind_ok_iff] at h
  obtain ⟨_, -, _, -, _, -, _, -, hclone⟩ := h
  exact hclone

theorem checkpoint_proper {v w : Value} (h : checkpoint v = .ok w) : w.Proper :=
  clone_proper (checkpoint_clone h)

/-- The check of a checkpoint of the language gives it back, so it can be made again. -/
theorem checkpoint_ok {v w : Value} (hv : v.Proper) (h : checkpoint v = .ok w) : w = v :=
  clone_ok hv (checkpoint_clone h)

theorem checkpoint_again {v w : Value} (hv : v.Proper) (h : checkpoint v = .ok w) :
    checkpoint w = .ok w := by
  have heq := checkpoint_ok hv h
  subst heq
  exact h

theorem checkpoint_ne_null {v w : Value} (h : checkpoint v = .ok w) : v ≠ .null := by
  rintro rfl
  simp [checkpoint, isBounded, Value.get, assert, Journal.require, bind, Except.bind] at h

/-! ## Intents -/

variable [DecidableEq δ]

/-- The check of an intent. -/
def authorizationIntent (sha : Sha256 δ) (i : Intent δ) : Result Unit := do
  assert (isOperationId i.operationId)
  assert (names.contains i.circuit)
  assert (isRecord i.witnesses && isRecord i.descriptor && isRecord i.semanticRequest)
  let _ ← checkpoint i.before
  let fingerprint ← fp sha i.value
  assert (decide (fingerprint = i.fingerprint))

end Line.Finance
