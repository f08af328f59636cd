import Line.Finance.Record

/-!
# The network lane of the private finance journal

`scripts/private-finance-network.mjs`: what is read out of a transaction that is handed to the
network, and what an observation is held against before it counts as a receipt. What the ledger
package makes of bytes, and what a URL is, comes from outside (`Platform`), and so
does the answer of the receipt reader, about which nothing is assumed.

An observation is in two parts, as the journal asks a question in between: `observe` reads the
transaction and asks, `observed` judges the answer. What the judgement establishes is `Finalized`:
the reader found the transaction that was submitted, whatever it was merged with, and the public
state it left is the one that the candidate expects.
-/

namespace Line.Finance

open Vault

/-! ## What comes from outside -/

/-- An action of a transaction; `call` is the entry point, if it is a contract call. -/
structure Action where
  address : String
  call : Option String

/-- A bound intent of a transaction. -/
structure BoundIntent where
  bytes : Bytes
  actions : List Action

/-- A transaction, as the ledger package reads it; `bytes` is what it serializes to. -/
structure Transaction where
  bytes : Bytes
  transactionHash : String
  identifiers : List String
  intents : List (ℕ × BoundIntent)

/-- The state of a contract; `operations` are the verifier keys by name. -/
structure ContractState where
  operations : List (String × Bytes)
  data : Value

/-- Where the owner's indexer and node are. -/
structure Endpoints where
  networkId : String
  indexerUri : String
  nodeUri : String

/-- The parts of the platform; `none` stands for an exception. -/
structure Platform where
  /-- `Transaction.deserialize("signature", "proof", "binding", bytes)`. -/
  transaction : Bytes → Option Transaction
  /-- `ContractState.deserialize(bytes)`. -/
  contractState : Bytes → Option ContractState
  /-- `base`: the origin and the path of a URL. -/
  base : String → Option String
  /-- `createFinalizedReceiptReader` does not throw. -/
  readable : Endpoints → Bool

/-- What the receipt reader found. -/
structure Observed where
  raw : Transaction
  state : ContractState
  blockHeight : ℕ
  canonicalHash : String
  finalizedHead : String

/-- The bytes of a `Uint8Array`. -/
def asBytes : Value → Option Bytes
  | .bytes bs => some bs
  | _ => none

def orThrow {α : Type} (x : Option α) : Result α :=
  match x with
  | some a => .ok a
  | none => .error (.plain "")

/-! ## Submissions -/

variable {δ : Type}

/-- `networkSubmission`, with the fingerprint that `stageSubmission` adds. -/
def networkSubmission (platform : Platform) (sha : Sha256 δ) (scope : Scope)
    (operationId circuit : String) (transaction : Value) (candidateFingerprint : δ) :
    Result (Submission δ) := do
  assert (isBounded transaction) "Submitted transaction bytes are required."
  let bytes ← orThrow (asBytes transaction)
  let raw ← orThrow (platform.transaction bytes)
  assert (raw.bytes == bytes) "Submitted transaction encoding differs."
  let actions := (raw.intents.flatMap fun i => i.2.actions).filter fun a =>
    a.address == scope.contractAddress
  assert (decide (actions.length = 1)) "Submission must contain one target contract action."
  assert (actions.all fun a => a.call == some circuit) "Submission differs from prepared circuit."
  pure ⟨operationId, circuit, bytes, sha.bytes bytes, raw.transactionHash, raw.identifiers,
    candidateFingerprint⟩

/-! ## Authority -/

/-- `networkConfirmation`. -/
structure NetworkConfirmation where
  endpoints : Endpoints
  verifierKeys : List (String × Bytes)
  sourceSha256 : String
  executableSha256 : String

/-- What `financialNetworkAuthority` gives: the policy, and the keys it observes with. -/
structure Authority (δ : Type) where
  policy : Policy δ
  keys : List (String × Bytes)

def financialNetworkAuthority (platform : Platform) (sha : Sha256 δ) (scope : Scope)
    (config : Option NetworkConfirmation) : Result (Authority δ) := do
  assert (decide (scope.networkId = "preprod"))
  match config with
  | none => .error (.plain "Owner network authority is required.")
  | some config => do
    assert (decide (config.sourceSha256 = scope.sourceSha256))
    assert (decide (config.executableSha256 = scope.executableSha256))
    assert (decide (config.endpoints.networkId = scope.networkId))
    assert (config.verifierKeys.all fun k =>
      decide (0 < k.2.length) && decide (k.2.length ≤ 100000))
    assert ((config.verifierKeys.map Prod.fst).isPerm names)
    let indexerService ← orThrow (platform.base config.endpoints.indexerUri)
    let nodeService ← orThrow (platform.base config.endpoints.nodeUri)
    assert (platform.readable config.endpoints)
    pure ⟨⟨scope.networkId, scope.sourceSha256, scope.executableSha256, indexerService, nodeService,
      config.verifierKeys.map fun k => (k.1, sha.bytes k.2)⟩, config.verifierKeys⟩

/-! ## Observation -/

/-- What the receipt reader is asked, and what its answer is held against. -/
structure Query where
  transaction : Bytes
  raw : Transaction
  kind : String
  name : Value
  blockHeight : Value
  expectedPublicState : Value

/-- A block height that may be left out. -/
def isHeight (v : Value) : Bool :=
  match v with
  | .undefined => true
  | v => (v.safeNat.map fun n => decide (0 < n)).getD false

/-- `observe`, up to its question to the receipt reader. -/
def observe (platform : Platform) (transaction kind name blockHeight : Value)
    (expectedPublicState : Value) : Result Query := do
  assert (isBounded transaction)
  assert (isHeight blockHeight)
  let kind ← stringOf kind
  assert (["deploy", "call", "key-registration"].contains kind)
  let bytes ← orThrow (asBytes transaction)
  let raw ← orThrow (platform.transaction bytes)
  assert (raw.bytes == bytes)
  assert (!raw.identifiers.isEmpty) "Submitted identifiers are required."
  pure ⟨bytes, raw, kind, name, blockHeight, expectedPublicState⟩

/-- `validateState`. -/
def validateState (platform : Platform) (authority : Authority δ) (state : ContractState)
    (expected : Value) : Result Unit := do
  assert ((state.operations.map Prod.fst).isPerm names) "Observed verifier inventory differs."
  assert (names.all fun name => (state.operations.lookup name).isSome &&
    state.operations.lookup name == authority.keys.lookup name) "Observed verifier key differs."
  let wanted ← orThrow ((asBytes expected).bind platform.contractState)
  assert (state.data.deepEqual wanted.data) "Observed public effect differs; retain candidate."

/-- `observe`, on the answer of the receipt reader. -/
def observed (platform : Platform) (sha : Sha256 δ) (authority : Authority δ) (q : Query)
    (o : Observed) : Result (Receipt δ) := do
  assert (q.raw.identifiers.all o.raw.identifiers.contains) "Receipt differs from saved submission."
  -- a merge may change the enclosing transaction, never the bound intents
  assert (q.raw.intents.all fun i =>
    (o.raw.intents.lookup i.1).map BoundIntent.bytes == some i.2.bytes)
    "Finalized intent differs from saved submission."
  validateState platform authority o.state q.expectedPublicState
  let stateDataSha256 ← fp sha o.state.data
  pure ⟨o.raw.transactionHash, sha.bytes o.raw.bytes, q.raw.transactionHash,
    sha.bytes q.transaction, q.raw.identifiers, o.blockHeight, o.canonicalHash, o.finalizedHead,
    stateDataSha256,
    "configured-tls-indexer-rpc", true⟩

/-! ## What an observation establishes -/

/-- What the reader found is the transaction that was submitted, whatever it was merged with, and it
left the public state that is expected. -/
structure Finalized (platform : Platform) (transaction : Bytes) (expected : Value) (o : Observed) :
    Prop where
  submitted : ∃ raw, platform.transaction transaction = some raw ∧ raw.bytes = transaction ∧
    (∀ id ∈ raw.identifiers, id ∈ o.raw.identifiers) ∧
    ∀ i ∈ raw.intents, ∃ i', o.raw.intents.lookup i.1 = some i' ∧ i'.bytes = i.2.bytes
  effect : ∃ bs wanted, expected = .bytes bs ∧ platform.contractState bs = some wanted ∧
    o.state.data.deepEqual wanted.data = true

@[simp] theorem orThrow_ok_iff {α : Type} {x : Option α} {a : α} :
    orThrow x = .ok a ↔ x = some a := by
  cases x <;> simp [orThrow]

theorem asBytes_iff {v : Value} {bs : Bytes} : asBytes v = some bs ↔ v = .bytes bs := by
  cases v <;> simp [asBytes]

/-- What `observe` asks about is what it was given. -/
theorem observe_ok {platform : Platform} {transaction kind name blockHeight expected : Value}
    {q : Query} (h : observe platform transaction kind name blockHeight expected = .ok q) :
    transaction = .bytes q.transaction ∧ q.expectedPublicState = expected ∧
      platform.transaction q.transaction = some q.raw ∧ q.raw.bytes = q.transaction := by
  simp only [observe, Checked.bind_ok_iff, Checked.pure_ok_iff, assert_ok_iff, orThrow_ok_iff,
    beq_iff_eq, asBytes_iff] at h
  obtain ⟨_, -, _, -, kind', -, _, -, bytes, hbytes, raw, hraw, _, hsame, _, -, rfl⟩ := h
  exact ⟨hbytes, rfl, hraw, hsame⟩

theorem observed_ok {platform : Platform} {sha : Sha256 δ} {authority : Authority δ} {q : Query}
    {o : Observed} {receipt : Receipt δ} (hraw : platform.transaction q.transaction = some q.raw)
    (hsame : q.raw.bytes = q.transaction)
    (h : observed platform sha authority q o = .ok receipt) :
    Finalized platform q.transaction q.expectedPublicState o ∧
      receipt.networkFinalityVerified = true := by
  simp only [observed, validateState, Checked.bind_ok_iff, Checked.pure_ok_iff, assert_ok_iff,
    orThrow_ok_iff, Option.bind_eq_some_iff, asBytes_iff] at h
  obtain ⟨_, hids, _, hintents, _, ⟨_, -, _, -, wanted, ⟨bs, hbs, hwanted⟩, heffect⟩, _, -,
    rfl⟩ := h
  refine ⟨⟨⟨q.raw, hraw, hsame, fun id hid => ?_, fun i hi => ?_⟩, bs, wanted, hbs, hwanted,
    heffect⟩, rfl⟩
  · rw [List.all_eq_true] at hids
    exact List.contains_iff_mem.mp (hids id hid)
  · rw [List.all_eq_true] at hintents
    have hi' := hintents i hi
    rw [beq_iff_eq, Option.map_eq_some_iff] at hi'
    exact hi'

/-- What is kept of a submission names the candidate it is for. -/
theorem networkSubmission_ok {platform : Platform} {sha : Sha256 δ} {scope : Scope}
    {operationId circuit : String} {transaction : Value} {d : δ} {s : Submission δ}
    (h : networkSubmission platform sha scope operationId circuit transaction d = .ok s) :
    s.operationId = operationId ∧ s.candidateFingerprint = d ∧
      transaction = .bytes s.transaction := by
  simp only [networkSubmission, Checked.bind_ok_iff, Checked.pure_ok_iff, assert_ok_iff,
    orThrow_ok_iff, asBytes_iff] at h
  obtain ⟨_, -, bytes, hbytes, raw, -, _, -, _, -, _, -, rfl⟩ := h
  exact ⟨rfl, rfl, hbytes⟩

end Line.Finance
