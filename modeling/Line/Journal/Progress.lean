import Line.Journal.Run

/-!
# A call that passes its checks is carried out

In calm surroundings nothing stands between the checks of a method and the store: what
the method makes of the stored journal is written, and what it refuses is refused for
the reason that its checks give. Calm means that the session is still unlocked at every
check, the store loads and saves, and the clock gives a time; it says nothing about the
record or the intent, so the one condition left on a write is that it fits the codec.

The lemmas follow the methods' own layers. A save that is allowed reaches the store
(`settle_saved`), a lease that knows the record reads it (`getRecord_recovers`), and
`mutate` is the two of them around an update (`mutate_recovers`). The other results of
this directory say what a call does if it succeeds; this one is the reason that calls
succeed at all.
-/

namespace Line.Journal

open Vault Checked History

/-- The vault stays unlocked and the store answers. -/
structure Env.Calm (env : Env) : Prop where
  unlocked : ∀ check, env.unlocked check = true
  loads : env.loads = true
  saves : env.saves = true

/-- The store answers a write, and the journal can be read where the lease does not keep it. -/
structure Env.Recovers (env : Env) (held : Held) : Prop where
  saves : env.saves = true
  reads : held.cached = none → env.loads = true ∧ ∀ check, env.unlocked check = true

theorem Env.Calm.recovers {env : Env} (h : env.Calm) (held : Held) : env.Recovers held :=
  ⟨h.saves, fun _ => ⟨h.loads, h.unlocked⟩⟩

/-- What the lease keeps, if it keeps anything, is this journal, and it is stored. -/
structure Knows (scope : Scope) (held : Held) (record : OperationJournalRecord) : Prop where
  store : Holds held.store scope record
  cached : ∀ r ∈ held.cached, r = record

variable {scope : Scope} {env : Env} {held : Held} {record next : OperationJournalRecord}

theorem assertSession_calm (h : env.Calm) (check : SessionCheck) :
    assertSession env check held = .ok () held := by
  rw [assertSession_ok_iff]
  exact ⟨h.unlocked check, rfl⟩

theorem assertIf_open {b : Bool} (h : b = true → ∀ check, env.unlocked check = true)
    (check : SessionCheck) : assertIf env b check held = .ok () held := by
  unfold assertIf
  split
  · next hb =>
      rw [assertSession_ok_iff]
      exact ⟨h hb check, rfl⟩
  · rfl

theorem lift_ok {α : Type} {x : Result α} {a : α} (h : x = .ok a) : lift x held = .ok a held := by
  rw [lift_ok_iff]
  exact ⟨h, rfl⟩

theorem lift_error {α : Type} {x : Result α} {e : Error} (h : x = .error e) :
    lift x held = .error e held := by
  rw [lift_error_iff]
  exact ⟨h, rfl⟩

/-! ## Reading -/

theorem Holds.opens {store : Option Json.Text} (h : Holds store scope record) :
    ∃ loaded, openStore store = .ok loaded ∧ recordOf scope loaded = .ok record := by
  rcases h with ⟨rfl, rfl⟩ | ⟨text, rfl, hr, ht⟩
  · exact ⟨none, rfl, rfl⟩
  · obtain ⟨hdec, hval⟩ := read_back hr ht
    refine ⟨some record.toValue, ?_, hval⟩
    rw [openStore, hdec]
    rfl

/-- **A read finds the journal that is stored.** -/
theorem refresh_calm (hcalm : env.Calm) (h : Holds held.store scope record) :
    refresh scope env held = .ok record { held with cached := some record } := by
  obtain ⟨loaded, hopen, hrecord⟩ := h.opens
  have hload : loadEncryptedJson env held = .ok loaded held := by
    simp only [loadEncryptedJson, Stateful.bind_ok_iff, Stateful.get_bind]
    exact ⟨(), held, lift_ok (by rw [hcalm.loads]; rfl), lift_ok hopen⟩
  have hread : readRecord scope env held = .ok record held := by
    simp only [readRecord, Stateful.bind_ok_iff]
    exact ⟨(), held, assertSession_calm hcalm _, loaded, held, hload, (), held,
      assertSession_calm hcalm _, lift_ok hrecord⟩
  simp only [refresh, Stateful.bind_ok_iff]
  exact ⟨record, held, hread, (), _, rfl, rfl⟩

theorem read_calm (hcalm : env.Calm) (h : Holds held.store scope record) :
    perform scope env .read held = .ok (.record record) { held with cached := some record } := by
  simp only [perform, Stateful.bind_ok_iff]
  exact ⟨record, _, refresh_calm hcalm h, rfl⟩

theorem getRecord_recovers (hrec : env.Recovers held) (h : Knows scope held record) :
    getRecord scope env held = .ok record { held with cached := some record } := by
  rw [getRecord, Stateful.get_bind]
  cases hc : held.cached with
  | none =>
      obtain ⟨hloads, hunlocked⟩ := hrec.reads hc
      exact refresh_calm ⟨hunlocked, hloads, hrec.saves⟩ h.store
  | some r =>
      obtain rfl := h.cached r hc
      simp only [Stateful.pure_ok_iff, true_and]
      rw [← hc]

/-! ## Writing -/

variable {b : Bool}

theorem write_saved (held : Held) (hsaves : env.saves = true)
    (hb : b = true → ∀ check, env.unlocked check = true) (hv : record.Valid scope)
    (hfit : (compact record).toValue.Fits) :
    ∃ text, encodeVaultJson (compact record).toValue = .ok text ∧
      write scope env record b held = .ok (compact record)
        { held with store := some text, cached := some (compact record) } := by
  obtain ⟨text, ht⟩ := encodeVaultJson_ok_iff.mpr hfit
  refine ⟨text, ht, ?_⟩
  simp only [write, Stateful.bind_ok_iff]
  exact ⟨(), held, assertIf_open hb _, _, held,
    lift_ok (validateRecord_of_valid (valid_compact hv)), text, held, lift_ok ht, (), held,
    assertIf_open hb _, (), held, lift_ok (by rw [hsaves]; rfl), (), _, rfl, rfl⟩

/-- What a method made of the stored journal is written and answered. -/
theorem settle_saved (held : Held) (hsaves : env.saves = true)
    (hb : b = true → ∀ check, env.unlocked check = true) (hv : next.Valid scope)
    (hfit : (compact next).toValue.Fits) (id : String) :
    ∃ text, encodeVaultJson (compact next).toValue = .ok text ∧
      settle scope env b (.next next id) held
        = .ok (.operation ((compact next).operations.find? fun op => op.id = id))
          { held with store := some text, cached := some (compact next) } := by
  obtain ⟨text, ht, hw⟩ := write_saved held hsaves hb hv hfit
  refine ⟨text, ht, ?_⟩
  simp only [settle, Stateful.bind_ok_iff]
  exact ⟨_, _, hw, rfl⟩

theorem mutate_recovers (update : List String → JournalOperation → Result JournalOperation)
    {id id' : String} (hrec : env.Recovers held)
    (hb : b = true → ∀ check, env.unlocked check = true) (h : Knows scope held record)
    (ha : (amend id (update held.submittedInLease) env.now record).map some
      = .ok (some (.next next id')))
    (hv : next.Valid scope) (hfit : (compact next).toValue.Fits) :
    ∃ text, encodeVaultJson (compact next).toValue = .ok text ∧
      mutate scope env id b update held
        = .ok (.operation ((compact next).operations.find? fun op => op.id = id'))
          { held with store := some text, cached := some (compact next) } := by
  obtain ⟨proposal, hamend, heq⟩ := map_ok_iff.mp ha
  cases heq
  obtain ⟨_, hid⟩ := amend_next hamend
  cases hid
  obtain ⟨text, ht, hs⟩ :=
    settle_saved ⟨held.store, some record, held.submittedInLease⟩ hrec.saves hb hv hfit id
  refine ⟨text, ht, ?_⟩
  simp only [mutate, Stateful.bind_ok_iff]
  exact ⟨record, _, getRecord_recovers hrec h, _, _, rfl, _, _, lift_ok hamend, hs⟩

/-- **A call that passes its checks is carried out**, if what it writes fits the codec. -/
theorem perform_calm {c : Call} {id : String} (hcalm : env.Calm) (h : Knows scope held record)
    (hc : change scope held.submittedInLease env.now record c = .ok (some (.next next id)))
    (hfit : (compact next).toValue.Fits) :
    ∃ text, encodeVaultJson (compact next).toValue = .ok text ∧
      perform scope env c held
        = .ok (.operation ((compact next).operations.find? fun op => op.id = id))
          ⟨some text, some (compact next), submittedAfter held.submittedInLease c⟩ := by
  have hv := h.store.valid
  -- what is written is valid, hence accepted on the way to the store
  have hnext : next.Valid scope := (change_writes hv.operations hc).valid hv
  have hrec := hcalm.recovers held
  have hshut : false = true → ∀ check, env.unlocked check = true :=
    fun h => absurd h Bool.false_ne_true
  have hopen : true = true → ∀ check, env.unlocked check = true := fun _ => hcalm.unlocked
  cases c with
  | read => cases hc
  | prepare input =>
      simp only [change, bind_ok_iff, map_ok_iff] at hc
      obtain ⟨p, hp, proposal, hprop, heq⟩ := hc
      cases heq
      obtain ⟨text, ht, hs⟩ :=
        settle_saved (b := true) ⟨held.store, some record, held.submittedInLease⟩ hcalm.saves
          hopen hnext hfit id
      refine ⟨text, ht, ?_⟩
      simp only [perform, Stateful.bind_ok_iff]
      exact ⟨(), held, assertSession_calm hcalm _, p, held, lift_ok hp, record, _,
        getRecord_recovers (hcalm.recovers _) h, _, _, lift_ok hprop, hs⟩
  | markSubmitting i v =>
      obtain ⟨text, ht, hm⟩ :=
        mutate_recovers (fun submitted => markSubmitting submitted v) hrec hopen h hc hnext hfit
      refine ⟨text, ht, ?_⟩
      simp only [perform, Stateful.bind_ok_iff]
      exact ⟨_, _, hm, (), _, rfl, rfl⟩
  -- the rest differ in whether the save asks for an unlocked session
  | markUncertain i => exact mutate_recovers (fun _ => markUncertain) hrec hshut h hc hnext hfit
  | confirm i evidence =>
      exact mutate_recovers (fun _ => confirm scope evidence) hrec hshut h hc hnext hfit
  | reject i evidence =>
      exact mutate_recovers (fun _ => reject scope evidence) hrec hshut h hc hnext hfit
  | abandonPrepared i =>
      exact mutate_recovers (fun _ => abandonPrepared) hrec hopen h hc hnext hfit
  | acknowledgeConfirmed i =>
      exact mutate_recovers (fun _ => acknowledgeConfirmed) hrec hopen h hc hnext hfit

/-- … and the lease goes on from what it wrote. -/
theorem Step.calm {w : World} {lease : OpenLease} {c : Call} {id : String}
    (hl : w.lease = some lease) (hcalm : env.Calm) (h : Knows lease.scope (lease.held w) record)
    (hc : change lease.scope lease.submittedInLease env.now record c = .ok (some (.next next id)))
    (hfit : (compact next).toValue.Fits) :
    ∃ answer text lease', Step (.call env c (.ok answer)) w ⟨some text, some lease'⟩ ∧
      lease'.scope = lease.scope ∧
      lease'.submittedInLease = submittedAfter lease.submittedInLease c ∧
      Knows lease.scope (lease'.held ⟨some text, some lease'⟩) (compact next) := by
  obtain ⟨text, ht, hp⟩ := perform_calm hcalm h hc hfit
  exact ⟨_, text, ⟨lease.scope, some (compact next), _⟩, .answered hl hp, rfl, rfl,
    h.store.change hc ht, fun r hr => (Option.some.inj hr).symm⟩

/-! ## Intents that were used before -/

theorem prepare_existing {input : Data} {op : JournalOperation} (hcalm : env.Calm)
    (h : Knows scope held record)
    (hc : change scope held.submittedInLease env.now record (.prepare input)
      = .ok (some (.existing op))) :
    perform scope env (.prepare input) held
      = .ok (.operation (some op)) { held with cached := some record } := by
  simp only [change, bind_ok_iff, map_ok_iff] at hc
  obtain ⟨p, hp, proposal, hprop, heq⟩ := hc
  cases heq
  simp only [perform, Stateful.bind_ok_iff]
  exact ⟨(), held, assertSession_calm hcalm _, p, held, lift_ok hp, record, _,
    getRecord_recovers (hcalm.recovers _) h, _, _, lift_ok hprop, rfl⟩

theorem prepare_refused {input : Data} {p : PreparedOperation} {e : Error} (hcalm : env.Calm)
    (h : Knows scope held record) (hp : normalizePrepared input.val = .ok p)
    (ha : prepareIn p env.now record = .error e) :
    perform scope env (.prepare input) held = .error e { held with cached := some record } := by
  simp only [perform, Stateful.bind_error_iff]
  exact .inr ⟨(), held, assertSession_calm hcalm _, .inr ⟨p, held, lift_ok hp, .inr ⟨record, _,
    getRecord_recovers (hcalm.recovers _) h, .inl (lift_error ha)⟩⟩⟩

/-! ## A journal to run -/

def word (c : Char) : String := .ofList (List.replicate 64 c)

theorem word_normal {c : Char} (h : isHexDigit c = true) (hl : c.toLower = c) : Word (word c) := by
  intro label
  have hall : (List.replicate 64 c).all isHexDigit = true := by
    rw [List.all_eq_true]
    intro x hx
    rw [List.eq_of_mem_replicate hx]
    exact h
  simp only [hex, word, String.toList_ofList, strip_digits hall, List.length_replicate, hall,
    List.map_replicate, hl, and_self, ↓reduceIte]

def sampleScope : Scope :=
  ⟨⟨"preprod", word 'a', word 'b'⟩, by
    have ha : Word (word 'a') := word_normal (by decide) (by decide)
    have hb : Word (word 'b') := word_normal (by decide) (by decide)
    have hnet : validNetworkId "preprod" = true := by decide
    simp only [normalizeScope, ha _, hb _, hnet]
    rfl⟩

def sampleEnv : Env := ⟨fun _ => true, true, true, ⟨5, by decide⟩⟩

theorem sampleEnv_calm : sampleEnv.Calm := ⟨fun _ => rfl, rfl, rfl⟩

/-- A draw with this candidate snapshot. -/
def sampleDraw (id : String) (snapshot : Value) : PreparedOperation :=
  { id
    kind := .draw
    fingerprint := word '1'
    beforeCommitment := none
    candidateCommitment := some (word 'c')
    beforeSnapshot := .null
    candidateSnapshot := snapshot
    expectedEffect := none }

theorem sampleDraw_normal {id : String} {snapshot : Value} (hid : identifier 160 id = true)
    (hs : Snapshot snapshot) : (sampleDraw id snapshot).Normal where
  id := hid
  fingerprint := word_normal (by decide) (by decide)
  before := by
    intro w hw
    cases hw
  candidate := by
    intro w hw
    cases hw
    exact word_normal (by decide) (by decide)
  beforeSnapshot := snapshot_null
  candidateSnapshot := hs
  effect := by
    intro e he
    cases he
  binds := rfl
  distinct := rfl

def sampleIntent (id : String) (snapshot : Data) : Data :=
  ⟨(sampleDraw id snapshot.val).toValue, PreparedOperation.proper trivial snapshot.property⟩

theorem sampleIntent_normalized {id : String} {snapshot : Data} (hid : identifier 160 id = true)
    (hs : snapshot.val.Fits) :
    normalizePrepared (sampleIntent id snapshot).val = .ok (sampleDraw id snapshot.val) :=
  (sampleDraw_normal hid ⟨snapshot.property, hs⟩).normalizePrepared fun _ _ => rfl

def samplePrepared : OperationJournalRecord :=
  OperationJournalRecord.push ⟨sampleScope.val, 0, []⟩
    ((sampleDraw "op1" .null).operation 1 sampleEnv.now)

/-- A session that prepared a draw. -/
theorem sample_prepared : ∃ (h : Trace) (text : Json.Text) (lease : OpenLease),
    Reaches h ⟨some text, some lease⟩ ∧ InScope sampleScope h ∧ h.length = 2 ∧
      lease.scope = sampleScope ∧ lease.submittedInLease = [] ∧
      Knows sampleScope (lease.held ⟨some text, some lease⟩) samplePrepared := by
  have hid : identifier 160 "op1" = true := by decide
  -- the intent names no snapshot, so both fields are null
  have hprepare : change sampleScope [] sampleEnv.now ⟨sampleScope.val, 0, []⟩
      (.prepare (sampleIntent "op1" ⟨.null, trivial⟩))
        = .ok (some (.next samplePrepared "op1")) := by
    rw [change, sampleIntent_normalized hid snapshot_null.2]
    rfl
  have hempty : Knows sampleScope ⟨none, none, []⟩ ⟨sampleScope.val, 0, []⟩ :=
    ⟨.inl ⟨rfl, rfl⟩, by simp⟩
  have hvalid : samplePrepared.Valid sampleScope :=
    (change_writes (by simp) hprepare).valid (valid_empty _)
  -- counted out on the one record
  have hfit : (compact samplePrepared).toValue.Fits :=
    ⟨(valid_compact hvalid).clean, by decide, by decide⟩
  obtain ⟨answer, text, lease, st, hs, hm, hk⟩ :=
    Step.calm (w := ⟨none, some ⟨sampleScope, none, []⟩⟩) rfl sampleEnv_calm hempty hprepare hfit
  have hstart : Reaches [] ⟨none, none⟩ := .start ⟨rfl, rfl⟩
  -- two steps: the lease, and the draw it prepares
  refine ⟨_, text, lease, .next (hstart.next (.acquire rfl)) st, ?_, rfl, hs, hm, hk⟩
  intro e he s hl
  rcases List.mem_cons.mp he with rfl | he
  · cases hl
  · rw [List.mem_singleton.mp he] at hl
    cases hl
    rfl

end Line.Journal
