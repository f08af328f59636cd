import Line.Finance.Steps

/-!
# The chain of checkpoints

The journal as a program of one durable record, whatever is called, whatever the network answers,
and wherever a publication fails or the process ends. What is stored evolves by the moves of
the board, and everything that is published is accepted when the journal is opened again.

`journal` is the program: a call reacts with an answer, with a question to the receipt reader, or
with a publication, and it publishes only while no other publication is in flight or uncertain
(`call_published`), which is what the program rule of one durable record asks for. What a network
action remembers while it waits is what it read (`remembers`). With these two facts the library
gives the chain of what was stored, and `makes_advances`, which puts the lemmas about the single
calls together, says that each link of it is a move. `checkpoints_chained` reads the claims about
runs off the chain; an operation that is bound to a candidate stays bound to it because every move
carries its binding on (`binds_newest`).
-/

namespace Line.Finance

open Vault Durable

variable {δ : Type} [DecidableEq δ]
variable {platform : Platform} {sha : Sha256 δ} {owner : Owner}

/-! ## The program -/

omit [DecidableEq δ] in
theorem mutation_ready {status : Durable.Status} {m : Memory δ} {u : Unit}
    (h : mutation status m = .ok u) : status = .ready := by
  simp only [mutation, available, Checked.bind_ok_iff, assert_ok_iff, decide_eq_true_eq] at h
  obtain ⟨_, huncertain, _, -, hpublishing⟩ := h
  cases status with
  | ready => rfl
  | publishing => exact absurd rfl hpublishing
  | uncertain => exact absurd rfl huncertain

omit [DecidableEq δ] in
theorem mutation_ending {status : Durable.Status} {m : Memory δ} {x : Result (Ending δ)}
    {e : Ending δ}
    (h : (do mutation status m; ending x) = .ok (.ends e)) : status = .ready ∧ x = .ok e := by
  simp only [Checked.bind_ok_iff, ending_ok_iff] at h
  obtain ⟨_, hmutation, e', he, heq⟩ := h
  cases heq
  exact ⟨mutation_ready hmutation, he⟩

omit [DecidableEq δ] in
theorem networkAction_ready {network : Option (Authority δ)} {status : Durable.Status}
    {m : Memory δ} {action : Result (Reply δ)} {reply : Reply δ}
    (h : networkAction network status m action = .ok reply) :
    status = .ready ∧ network.isSome ∧ action = .ok reply := by
  simp only [networkAction, Checked.bind_ok_iff, assert_ok_iff] at h
  obtain ⟨_, hmutation, _, hnetwork, haction⟩ := h
  exact ⟨mutation_ready hmutation, hnetwork, haction⟩

/-- `confirmFinalized` publishes only what comes of an answer. -/
theorem confirmFinalized_ne {r next : Record δ} {operationId hint : Value} {answer : Answer δ} :
    confirmFinalized platform r operationId hint ≠ .ok (.ends (.publishes next answer)) := by
  intro h
  simp only [confirmFinalized, Checked.bind_ok_iff] at h
  obtain ⟨_, -, _, -, _, -, h⟩ := h
  cases hp : r.pending with
  -- what is confirmed already ends in an answer
  | none =>
      simp only [hp] at h
      split at h
      · cases h
      · simp only [Checked.bind_ok_iff, Checked.pure_ok_iff] at h
        obtain ⟨_, -, _, -, h⟩ := h
        cases h
  -- what is not yet confirmed ends in a question
  | some p =>
      simp only [hp] at h
      split at h
      · cases h
      · simp only [Checked.bind_ok_iff, Checked.pure_ok_iff] at h
        obtain ⟨_, -, _, -, q, -, h⟩ := h
        cases h

omit [DecidableEq δ] in
theorem resume_ready {authority : Authority δ} {status : Durable.Status} {r next : Record δ}
    {action : Reconciliation δ} {o : Result Observed} {answer : Answer δ}
    (h : resume platform sha authority status r action o = .ok (.publishes next answer)) :
    status = .ready := by
  simp only [resume, Checked.bind_ok_iff] at h
  obtain ⟨o, -, h⟩ := h
  -- a journal that is uncertain is not available, and one that is publishing does not publish
  have key : ∀ revision, (∃ u, unchanged status r revision = .ok u) → status ≠ .publishing →
      status = .ready := by
    rintro revision ⟨_, hsame⟩ hstatus
    simp only [unchanged, available, Checked.bind_ok_iff, assert_ok_iff, decide_eq_true_eq] at hsame
    obtain ⟨_, huncertain, -⟩ := hsame
    cases status with
    | ready => rfl
    | publishing => exact absurd rfl hstatus
    | uncertain => exact absurd rfl huncertain
  cases action with
  | initializing candidate revision q =>
      simp only [Checked.bind_ok_iff] at h
      obtain ⟨receipt, -, _, hsame, hpublish⟩ := h
      exact key revision ⟨_, hsame⟩ (publish_ok hpublish).2.1
  | confirming operationId p revision q =>
      simp only [Checked.bind_ok_iff] at h
      obtain ⟨receipt, -, _, hsame, d, -, hpublish⟩ := h
      exact key revision ⟨_, hsame⟩ (publish_ok hpublish).2.1
  | storing => cases h

/-- A call that ends in a publication passed the guards, and is what it is without them. -/
inductive Published (platform : Platform) (sha : Sha256 δ) (owner : Owner) (r next : Record δ) :
    Call → Memory δ → Prop
  | initialized {initial : Data} {m : Memory δ} {answer : Answer δ} :
      initializeSynthetic owner.scope .ready r initial.1 = .ok (.publishes next answer) →
      Published platform sha owner r next (.initializeSynthetic initial) m
  | ticked {start stop : Data} {m : Memory δ} {answer : Answer δ} :
      advanceSyntheticTime owner.scope .ready r start.1 stop.1 = .ok (.publishes next answer) →
      Published platform sha owner r next (.advanceSyntheticTime start stop) m
  | intended {q : Request} {m : Memory δ} {answer : Answer δ} :
      stageAuthorization sha .ready r q = .ok (.publishes next answer) →
      Published platform sha owner r next (.stageAuthorization q) m
  | prepared {q : Request} {m : Memory δ} {answer : Answer δ} :
      prepare sha .ready r q = .ok (.publishes next answer) →
      Published platform sha owner r next (.prepare q) m
  | confirmed {operationId shown : Data} {m : Memory δ} {answer : Answer δ} :
      confirm sha owner.scope .ready r operationId.1 shown.1 = .ok (.publishes next answer) →
      Published platform sha owner r next (.confirm operationId shown) m
  | submitted {operationId transaction : Data} {m : Memory δ} {answer : Answer δ} :
      (owner.network platform sha).isSome →
      stageSubmission platform sha owner.scope .ready r operationId.1 transaction.1 =
        .ok (.publishes next answer) →
      Published platform sha owner r next (.stageSubmission operationId transaction) m
  | resumed {authority : Authority δ} {action : Reconciliation δ} {o : Result Observed}
      {answer : Answer δ} :
      owner.network platform sha = some authority →
      resume platform sha authority .ready r action o = .ok (.publishes next answer) →
      Published platform sha owner r next (.answered o) (some action)

/-- A journal publishes only while no publication is in flight or uncertain. -/
theorem call_published {status : Durable.Status} {c : Call} {r next : Record δ} {m : Memory δ}
    {answer : Answer δ}
    (h : call platform sha owner status c r m = .ok (.ends (.publishes next answer))) :
    status = .ready ∧ Published platform sha owner r next c m := by
  cases c with
  | create => cases h
  -- it asks; what it publishes it publishes with the answer
  | initializeFinalized initial anchor =>
      obtain ⟨-, -, haction⟩ := networkAction_ready h
      simp only [Checked.bind_ok_iff, Checked.pure_ok_iff] at haction
      obtain ⟨_, -, h⟩ := haction
      cases h
  | stageSubmission operationId transaction =>
      obtain ⟨rfl, hnetwork, haction⟩ := networkAction_ready h
      obtain ⟨e, he, heq⟩ := ending_ok_iff.mp haction
      cases heq
      exact ⟨rfl, .submitted hnetwork he⟩
  | confirmFinalized operationId hint =>
      obtain ⟨-, -, haction⟩ := networkAction_ready h
      exact absurd haction confirmFinalized_ne
  | snapshot =>
      simp only [call, Checked.bind_ok_iff, Checked.pure_ok_iff] at h
      obtain ⟨_, -, h⟩ := h
      cases h
  -- the answer goes to the action that asked
  | answered o =>
      simp only [call] at h
      split at h
      · next hnetwork =>
          obtain ⟨e, he, heq⟩ := ending_ok_iff.mp h
          cases heq
          have hstatus := resume_ready he
          subst hstatus
          exact ⟨rfl, .resumed hnetwork he⟩
      · cases h
  -- the calls that neither ask nor need the network
  | initializeSynthetic initial =>
      obtain ⟨rfl, he⟩ := mutation_ending h
      exact ⟨rfl, .initialized he⟩
  | advanceSyntheticTime start stop =>
      obtain ⟨rfl, he⟩ := mutation_ending h
      exact ⟨rfl, .ticked he⟩
  | stageAuthorization q =>
      obtain ⟨rfl, he⟩ := mutation_ending h
      exact ⟨rfl, .intended he⟩
  | prepare q =>
      obtain ⟨rfl, he⟩ := mutation_ending h
      exact ⟨rfl, .prepared he⟩
  | confirm operationId shown =>
      obtain ⟨rfl, he⟩ := mutation_ending h
      exact ⟨rfl, .confirmed he⟩

theorem react_publishes {status : Durable.Status} {c : Call} {r next : Record δ} {m n m' : Memory δ}
    {answer : Answer δ} (h : react platform sha owner status c r m = .publishes next n m' answer) :
    call platform sha owner status c r m = .ok (.ends (.publishes next answer)) ∧ m' = none := by
  unfold react at h
  split at h
  · cases h
  · next heq =>
      cases h
      exact ⟨heq, rfl⟩
  · cases h
  · cases h

/-- The record that `open` creates, if that is what is asked. -/
def createRecord (platform : Platform) (sha : Sha256 δ) (owner : Owner) (c : Call) :
    Option (Record δ × Memory δ) :=
  match c with
  | .create =>
    match openJournal platform sha owner.scope owner.networkConfirmation true [] with
    | .ok r => some (r, none)
    | .error _ => none
  | _ => none

/-- `open`, on what is stored. -/
def openRecord (platform : Platform) (sha : Sha256 δ) (owner : Owner) (r : Record δ) :
    Option (Memory δ) :=
  match openJournal platform sha owner.scope owner.networkConfirmation false [r] with
  | .ok _ => some none
  | .error _ => none

/-- `PrivateFinanceJournal`, on the store of one owner. -/
def journal (platform : Platform) (sha : Sha256 δ) (owner : Owner) :
    Program Call (Record δ) (Memory δ) (Answer δ) where
  create := createRecord platform sha owner
  opens _ := openRecord platform sha owner
  react := react platform sha owner
  guarded h := (call_published (react_publishes h).1).1

/-! ## What one step does -/

/-- What asks has read what it asks about. -/
theorem call_asks {c : Call} {r : Record δ} {m : Memory δ} {action : Reconciliation δ}
    (h : call platform sha owner .ready c r m = .ok (.asks action)) :
    Fits platform r (some action) := by
  cases c with
  | create => cases h
  | initializeFinalized initial anchor =>
      obtain ⟨-, -, haction⟩ := networkAction_ready h
      simp only [Checked.bind_ok_iff, Checked.pure_ok_iff] at haction
      obtain ⟨_, hasks, heq⟩ := haction
      cases heq
      exact initializeFinalized_fits hasks
  -- the transaction is read here, and nobody is asked about it
  | stageSubmission operationId transaction =>
      obtain ⟨-, -, haction⟩ := networkAction_ready h
      obtain ⟨e, -, heq⟩ := ending_ok_iff.mp haction
      cases heq
  | confirmFinalized operationId hint => exact confirmFinalized_fits (networkAction_ready h).2.2
  -- an action asks once
  | answered o =>
      simp only [call] at h
      split at h
      · obtain ⟨e, -, heq⟩ := ending_ok_iff.mp h
        cases heq
      · cases h
  | snapshot =>
      simp only [call, Checked.bind_ok_iff, Checked.pure_ok_iff] at h
      obtain ⟨_, -, heq⟩ := h
      cases heq
  | _ =>
      simp only [call, Checked.bind_ok_iff, ending_ok_iff] at h
      obtain ⟨_, -, _, -, heq⟩ := h
      cases heq

theorem remembers : (journal platform sha owner).Remembers (Fits platform) where
  create := by
    intro c r m h
    simp only [journal, createRecord] at h
    split at h
    · split at h
      · cases h
        trivial
      · cases h
    · cases h
  opens := by
    intro c r m h
    simp only [journal, openRecord] at h
    split at h
    · cases h
      trivial
    · cases h
  replies := by
    intro c r m b m' hf h
    have hm : m' = afterReply c m := by
      simp only [journal, react] at h
      split at h <;> cases h <;> rfl
    rw [hm]
    cases c with
    -- the rest of an action ends it; no other call touches one
    | answered o =>
        cases m with
        | none => trivial
        | some action =>
            cases action with
            | storing => exact hf
            | _ => trivial
    | _ => exact hf
  waits := by
    intro c r m m' hf h
    simp only [journal, react] at h
    split at h
    · cases h
    · cases h
    · next action heq =>
        cases h
        exact call_asks heq
    · cases h
  publishes := by
    intro c r m next n m' b _ h
    rw [(react_publishes h).2]
    trivial

/-- **Every publication is a move**, and what is published is consistent. -/
theorem makes_advances (hsha : Function.Injective sha.text) {c : Call} {r next : Record δ}
    {b : Answer δ} (hr : Consistent platform sha owner r)
    (h : (journal platform sha owner).Makes (Fits platform) c r next b) :
    Advances platform sha owner c r next := by
  obtain ⟨m, n, m', hf, hreact⟩ := h
  cases (call_published (react_publishes hreact).1).2 with
  | initialized h => exact initializeSynthetic_advances hr h
  | ticked h => exact advanceSyntheticTime_advances hr h
  | intended h => exact stageAuthorization_advances hsha hr h
  | prepared h => exact prepare_advances hsha hr h
  | confirmed h => exact confirm_advances hr h
  | submitted hnetwork h => exact stageSubmission_advances hr hnetwork h
  | resumed hnetwork h => exact resume_advances hr hf hnetwork h

theorem created_consistent {c : Call} {r : Record δ} {m : Memory δ}
    (h : (journal platform sha owner).create c = some (r, m)) :
    Consistent platform sha owner r ∧
      r = initialRecord owner.scope (owner.network platform sha) := by
  simp only [journal, createRecord] at h
  split at h
  · split at h
    · next heq =>
        cases h
        have hadmitted := admitted_of_open heq
        simp only [openJournal, hadmitted.scope, hadmitted.network, ok_bind, Checked.bind_ok_iff,
          Checked.pure_ok_iff] at heq
        obtain ⟨_, -, _, -, rfl⟩ := heq
        exact ⟨consistent_initial hadmitted, rfl⟩
    · cases h
  · cases h

/-! ## Runs -/

theorem written_consistent (hsha : Function.Injective sha.text)
    {h : List (Call × Record δ)} (hc : Chain (journal platform sha owner) (Fits platform) h) :
    ∀ e ∈ h, Consistent platform sha owner e.2 :=
  hc.forall (fun _ _ _ hcreate => (created_consistent hcreate).1)
    fun _ _ _ _ hr hmakes => (makes_advances hsha hr hmakes).2

/-- An operation that was ever bound to a candidate is still bound to it. -/
theorem binds_newest (hsha : Function.Injective sha.text) {c : Call} {r : Record δ}
    {h : List (Call × Record δ)} {id : String} {d : δ}
    (hc : Chain (journal platform sha owner) (Fits platform) ((c, r) :: h)) :
    ∀ e ∈ (c, r) :: h, e.2.board.Binds id d → r.board.Binds id d := by
  intro e he hb
  have hall := written_consistent hsha hc
  -- consistency is carried along with the binding, as the moves are those of consistent records
  have key := hc.newest (P := fun r => Consistent platform sha owner r ∧ r.board.Binds id d)
    (fun a r next b hr hmakes => ?_) e he ⟨hall e he, hb⟩
  · exact key.2
  · obtain ⟨hmove, hnext⟩ := makes_advances hsha hr.1 hmakes
    exact ⟨hnext, hmove.carries.binds hr.2⟩

/-- **The private finance journal.** Whatever is called, in whatever order and however it
overlaps, and wherever a publication fails or the process ends: what the store was handed begins
with an empty record, and each record is one move of the board away from the one before it, which
says what was called for it and what it keeps; no record has both an intent and a
candidate; every record is accepted when the journal is opened again; and an operation id is bound
to one candidate. -/
theorem checkpoints_chained (hsha : Function.Injective sha.text)
    {w : World Call (Record δ) (Memory δ) (Answer δ)}
    (hw : Reachable (journal platform sha owner) w) :
    (∀ e ∈ w.written.getLast?, e.2 = initialRecord owner.scope (owner.network platform sha)) ∧
    w.written.IsChain (fun new old => Move platform owner new.1 old.2.board new.2.board ∧
      Carries old.2.board new.2.board) ∧
    (∀ e ∈ w.written, e.2.authorizationIntent = none ∨ e.2.pending = none) ∧
    (∀ e ∈ w.written,
      openJournal platform sha owner.scope owner.networkConfirmation false [e.2] = .ok e.2) ∧
    ∀ e ∈ w.written, ∀ e' ∈ w.written, ∀ id d d', e.2.board.Binds id d → e'.2.board.Binds id d' →
      d = d' := by
  have hchain := hw.written_chain remembers
  have hall := written_consistent hsha hchain
  refine ⟨?_, ?_, ?_, ?_, ?_⟩
  · intro e he
    obtain ⟨m, hcreate⟩ := hchain.oldest e he
    exact (created_consistent hcreate).2
  · refine hchain.isChain (R := fun c r next => Move platform owner c r.board next.board ∧
      Carries r.board next.board) hall fun c r next b hr hmakes => ?_
    have hmove := (makes_advances hsha hr hmakes).1
    exact ⟨hmove, hmove.carries⟩
  · intro e he
    cases hi : e.2.authorizationIntent with
    | none => exact .inl rfl
    | some i => exact .inr ((hall e he).intent i hi).2.1
  · intro e he
    exact (hall e he).opens
  · intro e he e' he' id d d' hb hb'
    -- both bindings are still there in the newest record
    generalize hwritten : w.written = history at hchain hall he he'
    cases history with
    | nil => cases he
    | cons newest rest =>
        have hnewest := hall newest List.mem_cons_self
        exact hnewest.binds_unique (binds_newest hsha hchain e he hb)
          (binds_newest hsha hchain e' he' hb')

/-! ## One run -/

/-- A digest that is the text itself, of which no two have the same. -/
def plainSha : Sha256 Json.Text :=
  ⟨id, fun bs => Json.stringify (.array (bs.map fun b => .number (.ofNat b)))⟩

def sampleKeys : List (String × Bytes) := names.map fun name => (name, [7])

def sampleScope : Scope :=
  ⟨"preprod", "0000000000000000000000000000000000000000000000000000000000000001",
    "0000000000000000000000000000000000000000000000000000000000000002",
    "0000000000000000000000000000000000000000000000000000000000000003",
    "0000000000000000000000000000000000000000000000000000000000000004"⟩

def sampleOwner : Owner :=
  ⟨sampleScope, some ⟨⟨"preprod", "https://indexer.example/", "https://node.example/"⟩, sampleKeys,
    sampleScope.sourceSha256, sampleScope.executableSha256⟩⟩

/-- A draw at the contract, in a transaction with these bytes. -/
def sampleTransaction (bs : Bytes) : Transaction :=
  ⟨bs, "tx", ["id"], [(1, ⟨bs, [⟨sampleScope.contractAddress, some "draw"⟩]⟩)]⟩

def sampleState (bs : Bytes) : ContractState := ⟨sampleKeys, .bytes bs⟩

def samplePlatform : Platform where
  transaction bs := some (sampleTransaction bs)
  contractState bs := some (sampleState bs)
  base := some
  readable _ := true

/-- A checkpoint with this public state. -/
def sampleCheckpoint (b : Fin 256) : Data :=
  ⟨.object [("publicState", .bytes [b]), ("privateState", .object []), ("financial", .object [])],
    by
      refine ⟨?_, trivial, ⟨.nil, trivial⟩, ⟨.nil, trivial⟩, trivial⟩
      show ["publicState", "privateState", "financial"].Pairwise
        fun a b => a ≠ b ∧ before a b = true
      decide⟩

def plainText (s : String) : Data := ⟨.string s, trivial⟩

def plainObject : Data := ⟨.object [], .nil, trivial⟩

/-- The deployment that the journal starts from. -/
def sampleAnchor : Data :=
  ⟨.object [("transaction", .bytes [8]), ("blockHeight", .number (.ofNat 5)),
      ("kind", .string "deploy")],
    by
      refine ⟨?_, trivial, trivial, trivial, trivial⟩
      show ["transaction", "blockHeight", "kind"].Pairwise fun a b => a ≠ b ∧ before a b = true
      decide⟩

def sampleRequest : Request where
  operationId := plainText "purchase:1"
  circuit := plainText "draw"
  circuitArgs := ⟨.array [], trivial⟩
  witnesses := plainObject
  descriptor := plainObject
  semanticRequest := plainObject
  before := sampleCheckpoint 1
  candidate := sampleCheckpoint 2

/-- What the receipt reader found: this transaction, which left this public state. -/
def sampleObserved (transaction publicState : Bytes) (blockHeight : ℕ) : Observed :=
  ⟨sampleTransaction transaction, sampleState publicState, blockHeight, "hash", "head"⟩

/-- The journal starts from a deployment; a draw is announced, prepared and submitted. -/
def sampleSubmission : List Call :=
  [.create, .initializeFinalized (sampleCheckpoint 1) sampleAnchor,
    .answered (.ok (sampleObserved [8] [1] 5)), .stageAuthorization sampleRequest,
    .prepare sampleRequest, .stageSubmission (plainText "purchase:1") ⟨.bytes [9], trivial⟩]

/-- The journal is opened again, and the network confirms the draw. -/
def sampleConfirmation : List Call :=
  [.snapshot, .confirmFinalized (plainText "purchase:1") plainObject,
    .answered (.ok (sampleObserved [9] [2] 6))]

def sampleWorld : World Call (Record Json.Text) (Memory Json.Text) (Answer Json.Text) :=
  sampleConfirmation.foldl (World.served (journal samplePlatform plainSha sampleOwner))
    (sampleSubmission.foldl (World.served (journal samplePlatform plainSha sampleOwner))
      .empty).ended

/-- What is on its way in a record, and how much has arrived. -/
def underway (e : Call × Record Json.Text) : Bool × Bool × Bool × ℕ :=
  (e.2.authorizationIntent.isSome, e.2.pending.isSome, e.2.submission.isSome, e.2.completed.length)

/-- The six records of a draw that is finalized after a restart, newest first. -/
theorem checkpoints_chained_sample :
    sampleWorld.written.map underway = [(false, false, false, 1), (false, true, true, 0),
      (false, true, false, 0), (true, false, false, 0), (false, false, false, 0),
      (false, false, false, 0)] ∧
    (∀ e ∈ sampleWorld.written.getLast?, e.2 =
      initialRecord sampleOwner.scope (sampleOwner.network samplePlatform plainSha)) ∧
    sampleWorld.written.IsChain (fun new old =>
      Move samplePlatform sampleOwner new.1 old.2.board new.2.board ∧
        Carries old.2.board new.2.board) ∧
    (∀ e ∈ sampleWorld.written, e.2.authorizationIntent = none ∨ e.2.pending = none) ∧
    (∀ e ∈ sampleWorld.written, openJournal samplePlatform plainSha sampleOwner.scope
      sampleOwner.networkConfirmation false [e.2] = .ok e.2) ∧
    ∀ e ∈ sampleWorld.written, ∀ e' ∈ sampleWorld.written, ∀ id d d', e.2.board.Binds id d →
      e'.2.board.Binds id d' → d = d' :=
  have hsha : Function.Injective plainSha.text := Function.injective_id
  have hw : Reachable (journal samplePlatform plainSha sampleOwner) sampleWorld :=
    (Reachable.empty.served_all sampleSubmission).ended.served_all sampleConfirmation
  ⟨by decide +kernel, checkpoints_chained hsha hw⟩

end Line.Finance
