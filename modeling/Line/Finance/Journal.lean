import Line.Finance.Network
import Line.Lib.Durable

/-!
# The private finance journal

`PrivateFinanceJournal` in `scripts/private-finance-journal.mjs`. Every call runs to its end or to
its publication without a pause, except for the two that ask the receipt reader: they go on when
the answer is there. What a journal remembers besides its record is `#networkBusy`, which every
network action holds from its first check until what it publishes is stored. The publication itself,
`close`, and what a crash leaves behind are in `Durable`: `#publishing` and `#unavailable` are the
status of the process, and `this.#record = clone(next)` gives `next`, which the codec has carried.

A journal that is closed refuses what one with an uncertain publication refuses, and the store
admits the next one only then, so a closed journal is left out.
-/

namespace Line.Finance

open Vault Durable

variable {δ : Type} [DecidableEq δ]

/-! ## Calls -/

/-- What is asked of `stageAuthorization` and `prepare`; what is not there is undefined. -/
structure Request where
  operationId : Data
  circuit : Data
  circuitArgs : Data
  witnesses : Data
  descriptor : Data
  semanticRequest : Data
  before : Data
  candidate : Data

/-- What reaches a journal: the calls, and the answer of the receipt reader. -/
inductive Call where
  | create
  | initializeSynthetic (initial : Data)
  | initializeFinalized (initial anchor : Data)
  | advanceSyntheticTime (start stop : Data)
  | stageAuthorization (request : Request)
  | prepare (request : Request)
  | stageSubmission (operationId transaction : Data)
  | confirm (operationId observedPublicState : Data)
  | confirmFinalized (operationId hint : Data)
  | snapshot
  | answered (answer : Result Observed)

/-- What a call gives back. -/
inductive Answer (δ : Type) where
  | refused (e : Error)
  | done
  | time (unixSeconds : Value)
  | intent (i : Intent δ)
  | prepared (p : Pending δ)
  | confirmed (c : Completed δ)
  | submission (s : Submission δ)
  | receipt (r : Receipt δ)
  | record (r : Record δ)

/-- A network action that is going on: it waits for the receipt reader, with what it has read
before, or for what it publishes. -/
inductive Reconciliation (δ : Type) where
  | initializing (candidate : Value) (revision : ℕ) (query : Query)
  | confirming (operationId : String) (pending : Pending δ) (revision : ℕ) (query : Query)
  | storing

/-- `#networkBusy`, with the action. -/
abbrev Memory (δ : Type) := Option (Reconciliation δ)

/-- How a call ends: with an answer, or with a publication. -/
inductive Ending (δ : Type) where
  | replies (answer : Answer δ)
  | publishes (next : Record δ) (answer : Answer δ)

/-- What a call comes to: its end, or a question to the receipt reader. -/
inductive Reply (δ : Type) where
  | ends (e : Ending δ)
  | asks (action : Reconciliation δ)

/-- A call that does not ask. -/
def ending (x : Result (Ending δ)) : Result (Reply δ) := do
  let e ← x
  pure (.ends e)

/-- `#publish`. -/
def publish (status : Durable.Status) (next : Record δ) (answer : Answer δ) :
    Result (Ending δ) := do
  assert (decide (next.revision ≤ Number.maxSafe))
  assert (decide (status ≠ .publishing)) "Financial publication is in progress."
  pure (.publishes next answer)

/-- `#available`. -/
def available (status : Durable.Status) : Result Unit :=
  assert (decide (status ≠ .uncertain)) "Financial publication is uncertain; reopen and reconcile."

/-- `#mutation`. -/
def mutation (status : Durable.Status) (m : Memory δ) : Result Unit := do
  available status
  assert m.isNone "Network reconciliation is in progress."
  assert (decide (status ≠ .publishing)) "Financial publication is in progress."

/-- `#unchanged`. -/
def unchanged (status : Durable.Status) (r : Record δ) (revision : ℕ) : Result Unit := do
  available status
  assert (decide (r.revision = revision)) "Journal changed during reconciliation."

/-- `completed.find(item => item.operationId === operationId)`. -/
def findCompleted (r : Record δ) (operationId : Value) : Option (Completed δ) :=
  r.completed.find? fun c => operationId.isText c.operationId

/-- `assert.equal(fp(a), fp(b))`. -/
def sameFp (sha : Sha256 δ) (a b : Value) (message : String := "") : Result Unit := do
  let x ← fp sha a
  let y ← fp sha b
  assert (decide (x = y)) message

/-! ## Initialization and the clock -/

/-- `initialize`. -/
def initializeSynthetic (scope : Scope) (status : Durable.Status) (r : Record δ)
    (initial : Value) : Result (Ending δ) := do
  assert (decide (scope.networkId = "synthetic-preview"))
    "Network bootstrap requires a finalized receipt."
  assert r.confirmed.isNone
  assert r.pending.isNone
  let confirmed ← checkpoint initial
  publish status { r with revision := r.revision + 1, confirmed := some confirmed } .done

/-- `history.some(x => x.from === from && x.to === to)`. -/
def recorded (start stop : Value) : List Value → Result Bool
  | [] => .ok false
  | x :: xs => do
    let xFrom ← x.access "from"
    if xFrom.strictEq start && (x.get "to").strictEq stop then pure true
    else recorded start stop xs

/-- The checkpoint after a step of the synthetic clock. -/
def ticked (before start stop : Value) (history : List Value) : Value :=
  let financial := ((before.get "financial").spread "unixSeconds" stop).spread
    "syntheticClockTransitions" (.array (history ++ [.object [("from", start), ("to", stop)]]))
  before.spread "financial" financial

def advanceSyntheticTime (scope : Scope) (status : Durable.Status) (r : Record δ)
    (start stop : Value) : Result (Ending δ) := do
  assert (decide (scope.networkId = "synthetic-preview"))
    "Synthetic time cannot enter the network journal."
  match r.confirmed with
  | none => .error (.plain "Unresolved operations block clock changes.")
  | some before => do
    assert (r.pending.isNone && r.authorizationIntent.isNone)
      "Unresolved operations block clock changes."
    match start.safeNat, stop.safeNat with
    | some a, some b => do
      assert (decide (a < b))
      let financial := before.get "financial"
      let history ← arrayOf ((financial.get "syntheticClockTransitions").orElse (.array []))
      if ← recorded start stop history then pure (.replies (.time (financial.get "unixSeconds")))
      else do
        assert ((financial.get "unixSeconds").deepEqual start)
          "Synthetic clock predecessor changed."
        assert (decide (history.length < 256))
        let confirmed ← checkpoint (ticked before start stop history)
        publish status { r with revision := r.revision + 1, confirmed := some confirmed }
          (.time stop)
    | _, _ => .error (.plain "")

/-! ## Staging -/

def stageAuthorization (sha : Sha256 δ) (status : Durable.Status) (r : Record δ) (q : Request) :
    Result (Ending δ) := do
  assert r.pending.isNone "An unresolved financial candidate blocks authorization."
  let operationId ← stringOf q.operationId.1
  assert (isOperationId operationId)
  let circuit ← stringOf q.circuit.1
  assert (names.contains circuit)
  let _ ← arrayOf q.circuitArgs.1
  assert (q.witnesses.1.isObject && q.descriptor.1.isObject)
  assert (r.completed.all fun c => c.operationId != operationId)
    "Completed operation cannot stage a new authorization."
  let prior ← checkpoint q.before.1
  sameFp sha prior r.confirmedValue "Authorization predecessor differs."
  let circuitArgs ← arrayOf (← clone q.circuitArgs.1)
  let witnesses ← clone q.witnesses.1
  let descriptor ← clone q.descriptor.1
  let semanticRequest ← clone q.semanticRequest.1
  let intent : Proposal :=
    ⟨operationId, circuit, circuitArgs, witnesses, descriptor, semanticRequest, prior⟩
  let fingerprint ← fp sha intent.value
  authorizationIntent sha ⟨intent, fingerprint⟩
  assert (decide (r.completed.length < 256))
    "Financial operation capacity reached; explicit archival is required."
  match r.authorizationIntent with
  | some saved => do
    assert (decide (saved.fingerprint = fingerprint)) "Unresolved authorization blocks new work."
    pure (.replies (.intent saved))
  | none =>
    publish status { r with revision := r.revision + 1
                            authorizationIntent := some ⟨intent, fingerprint⟩ }
      (.intent ⟨intent, fingerprint⟩)

/-- Each witness that was shown to the owner is the one of the candidate. -/
def sameWitnesses (sha : Sha256 δ) (witnesses : Value) : List (String × Value) → Result Unit
  | [] => .ok ()
  | (key, value) :: entries => do
    sameFp sha value ((witnesses.entriesOf.lookup key).getD .undefined)
      "Prepared witness differs from saved authorization intent."
    sameWitnesses sha witnesses entries

/-- The candidate is the one that the intent announced, if there is one. -/
def followsIntent (sha : Sha256 δ) (saved : Option (Intent δ)) (o : Operation) (q : Request) :
    Result Unit :=
  match saved with
  | none => pure ()
  | some intent => do
    assert (intent.operationId == o.operationId)
    assert (intent.circuit == o.circuit)
    assert ((Value.array intent.circuitArgs).deepEqual q.circuitArgs.1)
    sameFp sha intent.before o.before
    sameWitnesses sha q.witnesses.1 intent.witnesses.entriesOf

def prepare (sha : Sha256 δ) (status : Durable.Status) (r : Record δ) (q : Request) :
    Result (Ending δ) := do
  let operationId ← stringOf q.operationId.1
  assert (isOperationId operationId)
  let circuit ← stringOf q.circuit.1
  assert (names.contains circuit)
  let _ ← arrayOf q.circuitArgs.1
  assert q.witnesses.1.isObject
  let prior ← checkpoint q.before.1
  let next ← checkpoint q.candidate.1
  let circuitArgs ← arrayOf (← clone q.circuitArgs.1)
  let witnesses ← clone q.witnesses.1
  let operation : Operation := ⟨operationId, circuit, circuitArgs, witnesses, prior, next⟩
  let fingerprint ← fp sha operation.value
  match findCompleted r (.string operationId) with
  | some completed => do
    assert (decide (completed.fingerprint = fingerprint))
      "Operation ID already binds another financial candidate."
    pure (.replies (.confirmed completed))
  | none => do
    assert (equal (r.confirmedValue.get "publicState") (prior.get "publicState"))
      "Prepared predecessor differs from confirmed state."
    sameFp sha r.confirmedValue prior "Prepared predecessor lost private financial data."
    followsIntent sha r.authorizationIntent operation q
    match r.pending with
    | some pending => do
      assert (decide (pending.fingerprint = fingerprint))
        "An unresolved financial candidate blocks new work."
      pure (.replies (.prepared pending))
    | none => do
      assert (decide (r.completed.length < 256))
        "Financial operation capacity reached; explicit archival is required."
      publish status { r with revision := r.revision + 1
                              pending := some ⟨operation, fingerprint⟩
                              authorizationIntent := none } (.prepared ⟨operation, fingerprint⟩)

/-! ## Confirmation -/

def hashOf (sha : Sha256 δ) : Value → Option δ
  | .bytes bs => some (sha.bytes bs)
  | _ => none

def confirm (sha : Sha256 δ) (scope : Scope) (status : Durable.Status) (r : Record δ)
    (operationId observedPublicState : Value) : Result (Ending δ) := do
  assert (decide (scope.networkId = "synthetic-preview"))
    "Network confirmation requires an internally fetched finalized receipt."
  match r.pending with
  | none =>
    match findCompleted r operationId with
    | none => .error (.plain "Unknown financial operation.")
    | some done => do
      assert (hashOf sha observedPublicState == some done.stateSha256)
        "Confirmation differs from the accepted candidate."
      pure (.replies .done)
  | some pending => do
    assert (operationId.isText pending.operationId)
    assert (equal observedPublicState (pending.candidate.get "publicState"))
      "Candidate is not observed; retain the pending opening and reconcile."
    let stateSha256 ← orThrow (hashOf sha observedPublicState)
    publish status { r with revision := r.revision + 1
                            confirmed := some pending.candidate
                            pending := none
                            completed := r.completed ++
                              [⟨pending.operationId, pending.fingerprint, stateSha256, none⟩] }
      .done

/-- `initializeFinalized`, up to its question. -/
def initializeFinalized (platform : Platform) (r : Record δ) (initial anchor : Value) :
    Result (Reconciliation δ) := do
  assert r.confirmed.isNone
  assert r.pending.isNone
  assert r.authorizationIntent.isNone
  assert (anchor.exactKeys (["transaction", "blockHeight", "kind"] ++
    if (anchor.get "kind").isText "call" then ["name"] else []))
  let candidate ← checkpoint initial
  let query ← observe platform (anchor.get "transaction") (anchor.get "kind") (anchor.get "name")
    (anchor.get "blockHeight") (candidate.get "publicState")
  pure (.initializing candidate r.revision query)

def stageSubmission (platform : Platform) (sha : Sha256 δ) (scope : Scope) (status : Durable.Status)
    (r : Record δ) (operationId transaction : Value) : Result (Ending δ) := do
  match r.pending with
  | none => .error (.plain "A prepared operation is required.")
  | some pending => do
    assert (operationId.isText pending.operationId) "A prepared operation is required."
    let submission ← networkSubmission platform sha scope pending.operationId pending.circuit
      transaction pending.fingerprint
    match r.submission with
    | some saved => do
      assert (decide (saved = submission)) "Unresolved submission cannot be replaced."
      pure (.replies (.submission submission))
    | none =>
      publish status { r with revision := r.revision + 1, submission := some submission }
        (.submission submission)

/-- `confirmFinalized`, up to its question. -/
def confirmFinalized (platform : Platform) (r : Record δ) (operationId hint : Value) :
    Result (Reply δ) := do
  let hint := match hint with
    | .undefined => Value.object []
    | hint => hint
  let keys := hint.entriesOf.map Prod.fst
  assert hint.isObject
  assert (decide (keys.length = 0) || decide (keys = ["blockHeight"]))
  assert (isHeight (hint.get "blockHeight"))
  match r.pending with
  | none =>
    match (findCompleted r operationId).bind Completed.receipt with
    | none => .error (.plain "Unknown finalized operation.")
    | some receipt => do
      assert receipt.networkFinalityVerified "Unknown finalized operation."
      assert ((hint.get "blockHeight").isUndefined ||
        (hint.get "blockHeight").safeNat == some receipt.blockHeight)
        "Finalized receipt hint differs."
      pure (.ends (.replies (.receipt receipt)))
  | some pending =>
    match r.submission with
    | none => .error (.plain "Saved submission is required.")
    | some submission => do
      assert (operationId.isText submission.operationId && operationId.isText pending.operationId)
        "Saved submission is required."
      assert (decide (submission.candidateFingerprint = pending.fingerprint))
      let query ← observe platform (.bytes submission.transaction) (.string "call")
        (.string pending.circuit) (hint.get "blockHeight") (pending.candidate.get "publicState")
      pure (.asks (.confirming pending.operationId pending r.revision query))

/-- A network action, when the receipt reader has answered. -/
def resume (platform : Platform) (sha : Sha256 δ) (authority : Authority δ)
    (status : Durable.Status) (r : Record δ) (action : Reconciliation δ)
    (answer : Result Observed) : Result (Ending δ) := do
  let o ← answer
  match action with
  | .initializing candidate revision query => do
    let receipt ← observed platform sha authority query o
    unchanged status r revision
    publish status { r with revision := revision + 1
                            confirmed := some candidate
                            bootstrap := some receipt } (.receipt receipt)
  | .confirming operationId pending revision query => do
    let receipt ← observed platform sha authority query o
    unchanged status r revision
    let stateSha256 ← orThrow (hashOf sha (pending.candidate.get "publicState"))
    publish status { r with revision := revision + 1
                            confirmed := some pending.candidate
                            pending := none
                            submission := none
                            completed := r.completed ++
                              [⟨operationId, pending.fingerprint, stateSha256, some receipt⟩] }
      (.receipt receipt)
  | .storing => .error (.plain "")

/-- The guard of `#networkAction`. -/
def networkAction (network : Option (Authority δ)) (status : Durable.Status) (m : Memory δ)
    (action : Result (Reply δ)) : Result (Reply δ) := do
  mutation status m
  assert network.isSome "Finalized network authority is unavailable."
  action

/-! ## Opening -/

/-- The stored checkpoint. -/
def validateConfirmed (r : Record δ) : Result Unit :=
  match r.confirmed with
  | some c => do
    let _ ← checkpoint c
    pure ()
  | none => pure ()

/-- The stored intent. -/
def validateIntent (sha : Sha256 δ) (r : Record δ) : Result Unit :=
  match r.authorizationIntent with
  | some intent => do
    authorizationIntent sha intent
    assert r.pending.isNone "Authorization intent and candidate cannot coexist."
    sameFp sha intent.before r.confirmedValue
    assert (r.completed.all fun c => c.operationId != intent.operationId)
  | none => pure ()

/-- The stored candidate. -/
def validatePending (sha : Sha256 δ) (r : Record δ) : Result Unit :=
  match r.pending with
  | some pending => do
    let fingerprint ← fp sha pending.toOperation.value
    assert (decide (fingerprint = pending.fingerprint))
    sameFp sha pending.before r.confirmedValue
    let _ ← checkpoint pending.candidate
    pure ()
  | none => pure ()

/-- The stored submission. -/
def validateSubmission (platform : Platform) (sha : Sha256 δ) (scope : Scope) (r : Record δ) :
    Result Unit :=
  match r.submission, r.pending with
  | none, _ => pure ()
  | some _, none => .error (.plain "")
  | some s, some p => do
    assert (s.operationId == p.operationId && decide (s.candidateFingerprint = p.fingerprint))
    let again ← networkSubmission platform sha scope p.operationId p.circuit
      (.bytes s.transaction) p.fingerprint
    assert (decide (s = again))

/-- What is stored of the network. -/
def validateNetwork (platform : Platform) (sha : Sha256 δ) (scope : Scope)
    (network : Option (Authority δ)) (r : Record δ) : Result Unit :=
  match network with
  | some authority => do
    assert (decide (r.networkPolicy = some authority.policy))
    assert (r.confirmed.isNone || (r.bootstrap.map Receipt.networkFinalityVerified).getD false)
      "Network bootstrap receipt is missing."
    assert (r.completed.all fun c => (c.receipt.map Receipt.networkFinalityVerified).getD false)
      "Network confirmation receipt is missing."
    validateSubmission platform sha scope r
  | none =>
    assert (r.submission.isNone && r.networkPolicy.isNone && r.bootstrap.isNone)
      "Network state cannot enter synthetic scope."

/-- The checks that `open` makes of the stored record. -/
def validate (platform : Platform) (sha : Sha256 δ) (scope : Scope)
    (network : Option (Authority δ)) (r : Record δ) : Result Unit := do
  assert (decide (r.schema = SCHEMA))
  assert (decide (r.scope = scope))
  assert (decide (r.revision ≤ Number.maxSafe))
  assert (decide (r.completed.length ≤ 256))
  assert (decide (r.completed.map Completed.operationId).Nodup)
  validateConfirmed r
  validateIntent sha r
  validatePending sha r
  validateNetwork platform sha scope network r

/-- The record of a new journal. -/
def initialRecord (scope : Scope) (network : Option (Authority δ)) : Record δ :=
  ⟨SCHEMA, scope, 0, none, none, [], network.map Authority.policy, none, none, none⟩

/-- The authority of a scope: the network's, or none for a synthetic one. -/
def authorityOf (platform : Platform) (sha : Sha256 δ) (scope : Scope)
    (networkConfirmation : Option NetworkConfirmation) : Result (Option (Authority δ)) := do
  if scope.networkId = "preprod" then
    let authority ← financialNetworkAuthority platform sha scope networkConfirmation
    pure (some authority)
  else do
    assert networkConfirmation.isNone "Synthetic scope cannot acquire network authority."
    pure none

/-- `open`, on what the store holds: the record that the journal starts with. -/
def openJournal (platform : Platform) (sha : Sha256 δ) (scope : Scope)
    (networkConfirmation : Option NetworkConfirmation) (create : Bool) (entries : List (Record δ)) :
    Result (Record δ) := do
  let selected ← normalize scope
  let network ← authorityOf platform sha selected networkConfirmation
  assert (decide (entries.length ≤ 1)) "Financial journal must have one checkpoint."
  match create, entries with
  | true, [] => do
    validate platform sha selected network (initialRecord selected network)
    pure (initialRecord selected network)
  | false, [r] => do
    validate platform sha selected network r
    pure r
  | true, _ => .error (.plain "Financial checkpoint already exists.")
  | false, _ => .error (.plain "Financial checkpoint is missing.")

/-! ## The program -/

/-- What an owner opens its journal with, the same each time: another scope or policy is another
binding, under which the store does not read what it holds. -/
structure Owner where
  scope : Scope
  networkConfirmation : Option NetworkConfirmation

/-- The authority that an owner's journal has. -/
def Owner.network (owner : Owner) (platform : Platform) (sha : Sha256 δ) : Option (Authority δ) :=
  match authorityOf platform sha owner.scope owner.networkConfirmation with
  | .ok network => network
  | .error _ => none

/-- A call of a journal, or the rest of one. -/
def call (platform : Platform) (sha : Sha256 δ) (owner : Owner) (status : Durable.Status) (c : Call)
    (r : Record δ) (m : Memory δ) : Result (Reply δ) :=
  let network := owner.network platform sha
  match c with
  | .create => .error (.plain "")
  | .initializeSynthetic initial => do
    mutation status m
    ending (initializeSynthetic owner.scope status r initial.1)
  | .initializeFinalized initial anchor =>
    networkAction network status m do
      let action ← initializeFinalized platform r initial.1 anchor.1
      pure (.asks action)
  | .advanceSyntheticTime start stop => do
    mutation status m
    ending (advanceSyntheticTime owner.scope status r start.1 stop.1)
  | .stageAuthorization q => do
    mutation status m
    ending (stageAuthorization sha status r q)
  | .prepare q => do
    mutation status m
    ending (prepare sha status r q)
  | .stageSubmission operationId transaction =>
    networkAction network status m
      (ending (stageSubmission platform sha owner.scope status r operationId.1 transaction.1))
  | .confirm operationId observedPublicState => do
    mutation status m
    ending (confirm sha owner.scope status r operationId.1 observedPublicState.1)
  | .confirmFinalized operationId hint =>
    networkAction network status m (confirmFinalized platform r operationId.1 hint.1)
  | .snapshot => do
    available status
    pure (.ends (.replies (.record r)))
  | .answered answer =>
    match m, network with
    | some action, some authority => ending (resume platform sha authority status r action answer)
    | _, _ => .error (.plain "")

/-- `#networkBusy` after a call that neither publishes nor asks: a call that began a network action
found none going on, and the rest of one ends it. -/
def afterReply (c : Call) (m : Memory δ) : Memory δ :=
  match c, m with
  | .answered _, some .storing => some .storing
  | .answered _, _ => none
  | _, _ => m

/-- `#networkBusy` while what a call publishes is in flight. -/
def whilePublishing (c : Call) (m : Memory δ) : Memory δ :=
  match c with
  | .stageSubmission _ _ | .answered _ => some .storing
  | _ => m

/-- The journal of an owner. -/
def react (platform : Platform) (sha : Sha256 δ) (owner : Owner) (status : Durable.Status)
    (c : Call) (r : Record δ) (m : Memory δ) : Outcome (Record δ) (Memory δ) (Answer δ) :=
  match call platform sha owner status c r m with
  | .ok (.ends (.replies answer)) => .replies answer (afterReply c m)
  | .ok (.ends (.publishes next answer)) => .publishes next (whilePublishing c m) none answer
  | .ok (.asks action) => .waits (some action)
  | .error e => .replies (.refused e) (afterReply c m)

/-! ## What a call came to -/

omit [DecidableEq δ] in
@[simp] theorem ending_ok_iff {x : Result (Ending δ)} {reply : Reply δ} :
    ending x = .ok reply ↔ ∃ e, x = .ok e ∧ .ends e = reply := by
  simp only [ending, Checked.bind_ok_iff, Checked.pure_ok_iff]

omit [DecidableEq δ] in
theorem publish_ok {status : Durable.Status} {next : Record δ} {answer : Answer δ} {e : Ending δ}
    (h : publish status next answer = .ok e) :
    next.revision ≤ Number.maxSafe ∧ status ≠ .publishing ∧ e = .publishes next answer := by
  simp only [publish, Checked.bind_ok_iff, Checked.pure_ok_iff, assert_ok_iff,
    decide_eq_true_eq] at h
  obtain ⟨_, hrevision, _, hstatus, rfl⟩ := h
  exact ⟨hrevision, hstatus, rfl⟩

end Line.Finance
