import Line.Checkout.Runs
import Line.Engine.Refinement

/-!
# What the process keeps

`Kept` is the invariant of a process from `create` on: its evaluation is sound, and so was
every evaluation that it took a checkpoint of; what the store holds is one of the
checkpoints, and the last one as long as no save was refused.

The store can always be recovered from, and recovery changes nothing for an evaluation that
works (`recovered_indistinguishable`). The first needs soundness of what was stored, at the
time it was stored. The second needs that nothing happens between two checkpoints that a
request could see: an operation that is refused has either changed nothing, or has lost a
save, and then the evaluation has failed and refuses everything until it is started again.
-/

namespace Line.Checkout

open Checked Stateful
open Line.Engine (JsString Words)

variable {B : Type} [StateCodec B] [DecidableEq B] [Compact B] [Words B] [WordBytes B]

/-! ## The invariant -/

/-- The checkpoint is the snapshot of a sound evaluation. -/
structure Checkpoint.Valid (c : Checkpoint B) : Prop where
  sound : Sound c.evaluation c.effects
  snapshot : c.snapshot = c.evaluation.snapshot

/-- **The invariant of the process.** -/
structure Kept (s : State B) : Prop where
  sound : Sound s.evaluation s.effects
  idle : s.evaluation.checkpointing = false
  valid : ∀ c ∈ s.checkpoints, c.Valid
  /-- The store holds one of the checkpoints. -/
  disk : ∀ c, s.disk = some c → c ∈ s.checkpoints
  /-- The store holds the evaluation, unless a save was refused. -/
  current : s.storage = true → s.evaluation.failed = false →
    ∃ c, s.disk = some c ∧ c.snapshot = s.evaluation.snapshot ∧ c.effects = s.effects

omit [StateCodec B] in
/-- The invariant says nothing about whether the evaluation can be used. -/
theorem Sound.flags {e : Evaluation B} {es : List Effect} (hs : Sound e es)
    (failed checkpointing : Bool) : Sound { e with failed, checkpointing } es :=
  ⟨hs.identity, hs.facility, hs.unopened, hs.orders, hs.sizes, hs.repayments, hs.accounts⟩

/-- A checkpoint of a sound evaluation, however the save ends. -/
theorem Kept.checkpoint {t : State B} (hs : Sound t.evaluation t.effects)
    (hidle : t.evaluation.checkpointing = false) (hvalid : ∀ c ∈ t.checkpoints, c.Valid)
    (hdisk : ∀ c, t.disk = some c → c ∈ t.checkpoints) :
    Kept (final ((checkpoint : M B Unit) t)) := by
  cases hst : t.storage with
  -- a process without a store takes no checkpoints
  | false =>
    rw [checkpoint_volatile hst]
    refine ⟨hs, hidle, hvalid, hdisk, fun h => ?_⟩
    rw [final, hst] at h
    cases h
  | true =>
    -- what is taken is a snapshot of the sound evaluation
    have htaken : t.taken.Valid := ⟨hs.flags t.evaluation.failed true, rfl⟩
    have hvalid' : ∀ c ∈ t.taken :: t.checkpoints, c.Valid := by
      intro c hc
      rcases List.mem_cons.mp hc with rfl | hc
      · exact htaken
      · exact hvalid c hc
    -- the store has it, or the evaluation fails
    rcases checkpoint_stored hst with hok | ⟨disk, hd, herr⟩
    · rw [hok]
      refine ⟨hs.flags t.evaluation.failed false, rfl, hvalid', ?_,
        fun _ _ => ⟨t.taken, rfl, rfl, rfl⟩⟩
      intro c hc
      cases hc
      exact List.mem_cons_self
    · rw [herr]
      refine ⟨hs.flags true false, rfl, hvalid', ?_, fun _ h => by cases h⟩
      intro c hc
      rcases hd with rfl | rfl
      · cases hc
        exact List.mem_cons_self
      · exact List.mem_cons_of_mem _ (hdisk c hc)

/-- **Every step of the process keeps it.** -/
theorem Kept.move [Locale] [LawfulStateCodec B] {s t : State B} (hs : Kept s) (m : Move s t) :
    Kept t := by
  cases m with
  | ask => exact ⟨hs.sound, hs.idle, hs.valid, hs.disk, hs.current⟩
  | stage hfailed hidle st =>
    exact .checkpoint (st.sound hs.sound) (st.flags.2.trans hidle) hs.valid hs.disk
  | @restart c recovered hdisk hrec =>
    have hc := hs.valid c (hs.disk c hdisk)
    have hre : recovered = { c.evaluation with failed := false, checkpointing := false } := by
      rw [hc.snapshot, hc.sound.recover_snapshot] at hrec
      exact (Except.ok.inj hrec).symm
    subst hre
    refine ⟨hc.sound.flags false false, rfl, hs.valid, hs.disk, fun _ _ => ⟨c, hdisk, ?_, rfl⟩⟩
    rw [hc.snapshot]
    rfl
  | lost _ =>
    exact ⟨hs.sound.flags true s.evaluation.checkpointing, hs.idle, hs.valid, hs.disk,
      fun _ h => by cases h⟩

/-! ## The first checkpoint -/

/-- What `boot` sets up is sound once the second merchant is registered. -/
theorem begin_sound {storage : Bool} {world : World B} {time : ℕ} {session : Session B}
    (hc : runCircuit time (begin storage world).evaluation.session
      { (blankPrivate : PrivateState B) with
        callerSecret := (begin storage world).evaluation.issuerKey }
      (.registerMerchant (Engine.merchantPublicKey
        (begin storage world).evaluation.merchants.costReport)) = some session) :
    Sound { (begin storage world).evaluation with session } [] := by
  have hr := runCircuit_reaches hc ⟨[], .start ⟨_, rfl⟩⟩
  obtain ⟨op', w, hop, hw, -, st⟩ := runCircuit_some hc
  obtain rfl := Option.some.inj hop
  obtain ⟨l, ps⟩ := session
  simp only at st hr
  cases st with
  | registerMerchant hi hm =>
    refine ⟨⟨world.uuid.head.isSessionId, isToken_toHex _, isToken_toHex _, ?_⟩,
      ⟨hr, rfl, rfl, ⟨rfl, rfl⟩, le_refl _, fun _ => ⟨rfl, rfl, rfl⟩, (fun h => by cases h)⟩,
      fun _ => rfl, .empty _ _, ⟨Nat.zero_le _, Nat.zero_le _⟩,
      (fun _ _ h => by cases h), ?_⟩
    · exact world.date.head.range.trans (by decide)
    · exact ⟨rfl, fun _ _ _ => rfl, fun _ => rfl, rfl, rfl⟩

/-- **`create` establishes the invariant.** -/
theorem create_kept {storage : Bool} {world : World B} {u : Unit} {s : State B}
    (h : create storage world = .ok u s) : Kept s := by
  simp only [create] at h
  rw [evaluation_bind] at h
  obtain ⟨l, t, htrans, hcheck⟩ := bind_ok_iff.mp h
  obtain ⟨time, w, session, hc, rfl⟩ := transition_ok htrans
  have hsound : Sound { (begin storage world).evaluation with session } [] := begin_sound hc
  rw [← show final (checkpoint _) = s from congrArg final hcheck]
  refine .checkpoint hsound rfl ?_ ?_
  · intro c hc
    cases hc
  · intro c hc
    cases hc

/-- Every process is as `Kept` says, after any requests. -/
theorem serveAll_kept [Locale] [LawfulStateCodec B] {storage : Bool} {world : World B} {u : Unit}
    {s : State B} (h : create storage world = .ok u s) (requests : List Request) :
    Kept (serveAll requests s).2 :=
  serveAll_keeps (fun _ _ m hs => hs.move m) requests s (create_kept h)

/-! ## Recovery -/

section Refusals

variable {s : State B} {α β : Type}

/-- The program stops with an exception, and has changed nothing. -/
def Refuses (x : M B α) (s : State B) : Prop := ∃ f, x s = .error f s

omit [DecidableEq B] [Compact B] [Words B] [WordBytes B] in
theorem Refuses.bind {x : M B α} {f : α → M B β} (h : Refuses x s) : Refuses (x >>= f) s := by
  obtain ⟨e, he⟩ := h
  refine ⟨e, ?_⟩
  simp only [Bind.bind, EStateM.bind, he]

omit [DecidableEq B] [Compact B] [Words B] [WordBytes B] in
/-- A check of the arguments, before something that stops. -/
theorem attempt_refuses {y : Except Failure α} {f : α → M B β} (h : ∀ a, Refuses (f a) s) :
    Refuses (attempt y >>= f) s := by
  cases y with
  | error e => exact ⟨e, rfl⟩
  | ok a => exact h a

omit [DecidableEq B] [Compact B] [Words B] [WordBytes B] in
/-- An evaluation after a refused save does nothing any more. -/
theorem unavailable_refuses {f : Unit → M B β} (h : s.evaluation.failed = true) :
    Refuses (ensureAvailable >>= f) s := by
  refine Refuses.bind ⟨.checkout 503 "Checkout session requires server restart and recovery.", ?_⟩
  rw [ensureAvailable, evaluation_bind, h]
  rfl

/-- **After a refused save every request is refused** and changes nothing, but for a restart. -/
theorem serve_refuses [Locale] (h : s.evaluation.failed = true) (r : Request)
    (hr : r ≠ .restart) : Refuses (serve r) s := by
  cases r with
  | configure limit reserve =>
    refine Refuses.bind ?_
    rw [configure]
    exact attempt_refuses fun _ => attempt_refuses fun _ => unavailable_refuses h
  | purchase service document request =>
    refine Refuses.bind ?_
    cases hfound : findService service with
    | none =>
      simp only [purchase, hfound]
      exact ⟨_, rfl⟩
    | some found =>
      simp only [purchase, hfound, pure_bind]
      exact attempt_refuses fun _ => attempt_refuses fun _ => unavailable_refuses h
  | acknowledge amount reference =>
    refine Refuses.bind ?_
    rw [acknowledge]
    exact attempt_refuses fun _ => attempt_refuses fun _ => unavailable_refuses h
  | reportRefund order reference =>
    refine Refuses.bind ?_
    rw [reportRefund]
    exact attempt_refuses fun _ => attempt_refuses fun _ => unavailable_refuses h
  | restart => exact absurd rfl hr

end Refusals

section Recovery

variable [Locale] [LawfulStateCodec B] {s : State B}

omit [Locale] in
/-- An evaluation that works is recovered from its snapshot exactly. -/
theorem Kept.recover_snapshot (hs : Kept s) (hf : s.evaluation.failed = false) :
    recover s.evaluation.snapshot = .ok s.evaluation := by
  rw [hs.sound.recover_snapshot]
  have heq : { s.evaluation with failed := false, checkpointing := false }
      = { s.evaluation with
          failed := s.evaluation.failed, checkpointing := s.evaluation.checkpointing } := by
    rw [hf, hs.idle]
  rw [heq]

omit [Locale] in
/-- **A restart changes nothing** while no save was refused. -/
theorem Kept.restart_eq (hs : Kept s) (hstore : s.storage = true)
    (hf : s.evaluation.failed = false) : restart s = .ok () s := by
  obtain ⟨c, hdisk, hsnap, heff⟩ := hs.current hstore hf
  rw [restart, get_bind, hdisk]
  simp only [hsnap, hs.recover_snapshot hf, heff]
  rfl

/-- **Checkpoints are recoverable, and recovery is not seen.** A process that was started takes
any requests, with any answers of the world. Every snapshot that the store was ever given is
accepted by `recover`, and gives back the evaluation as it was at that checkpoint, in working
order; what the store holds is one of them. As long as no save was refused, it is the evaluation
itself: after a restart any further requests have the same results, and lead to the same ledger and
the same checkpoints. Once a save was refused, the evaluation refuses everything until the process
starts again. -/
theorem recovered_indistinguishable {storage : Bool} {world : World B} {u : Unit} {s₀ : State B}
    (h : create storage world = .ok u s₀) (requests : List Request)
    (hs : (serveAll requests s₀).2 = s) :
    (∀ c ∈ s.checkpoints, c.snapshot = c.evaluation.snapshot
      ∧ recover c.snapshot = .ok { c.evaluation with failed := false, checkpointing := false })
    ∧ (∀ c, s.disk = some c → c ∈ s.checkpoints)
    ∧ (s.evaluation.failed = false →
        recover s.evaluation.snapshot = .ok s.evaluation
        ∧ (s.storage = true → (∃ c, s.disk = some c ∧ c.snapshot = s.evaluation.snapshot)
          ∧ ∀ further, serveAll (.restart :: further) s
            = (.ok .restarted :: (serveAll further s).1, (serveAll further s).2)))
    ∧ (s.evaluation.failed = true → ∀ r, r ≠ .restart → ∃ f, serve r s = .error f s) := by
  have hk : Kept s := hs ▸ serveAll_kept h requests
  refine ⟨fun c hc => ?_, hk.disk,
    fun hf => ⟨hk.recover_snapshot hf, fun hstore => ⟨?_, fun further => ?_⟩⟩,
    fun hf r hr => serve_refuses hf r hr⟩
  -- each checkpoint was taken of a sound evaluation
  · have hv := hk.valid c hc
    rw [hv.snapshot]
    exact ⟨rfl, hv.sound.recover_snapshot⟩
  · obtain ⟨c, hdisk, hsnap, -⟩ := hk.current hstore hf
    exact ⟨c, hdisk, hsnap⟩
  -- recovery gives back the state that is there already
  · have hrestart : serve .restart s = .ok .restarted s := by
      simp only [serve, Bind.bind, EStateM.bind, hk.restart_eq hstore hf]
      rfl
    rw [serveAll, hrestart]
    rfl

end Recovery

/-! ## Over terms -/

instance : WordBytes Term where
  bytes _ := List.replicate 32 0
  length_bytes _ := List.length_replicate

instance : StateCodec Term where
  Serialized := Ledger Term
  serialize s := s
  deserialize s := some s

instance : LawfulStateCodec Term where
  deserialize_serialize _ := rfl

namespace Demo

/-- The locale of plain ASCII. -/
instance locale : Locale where
  toLowerCase s := s.map fun c => if 0x41 ≤ c.toNat ∧ c.toNat ≤ 0x5a then c + 32 else c
  isWordPoint n := (0x30 ≤ n && n ≤ 0x39) || (0x61 ≤ n && n ≤ 0x7a)
  localeCompare a b := compare (a.map UInt16.toNat) (b.map UInt16.toNat)

def uuid : Uuid where
  text := ofAscii "01234567-89ab-4def-8123-456789abcdef"
  length_text := by decide
  units := by decide

/-- A world in which save number `k` is refused, and no word comes twice. -/
def world (k : ℕ) : World Term where
  clock _ := .ofNat 1000
  random n := .atom n
  uuid _ := uuid
  date _ := ⟨1000000, by decide⟩
  saves n := if n = k then .refused false else .saved

def openLine : Request := .configure (.number (.ofNat 100)) (.number (.ofNat 100))

def buy : Request :=
  .purchase (.string (ofAscii "cost-report")) (.string (ofAscii "A plain text."))
    (.string (ofAscii "request-1"))

def refund : Request :=
  .reportRefund (.string (ofAscii "request-1")) (.string (ofAscii "reference-1"))

/-- What was thrown. -/
def thrown {α : Type} : EStateM.Result Failure (State Term) α → Option Failure
  | .ok _ _ => none
  | .error f _ => some f

/-- The process after `create`. -/
def started (k : ℕ) : State Term := final (create true (world k))

/-- The line is opened, and one order is delivered. -/
def sold : State Term := (serveAll [openLine, buy] (started 100)).2

end Demo

/-- The process that has sold, started again: its evaluation has a book, a redeemed note and the
order, and is recovered as it is. -/
theorem restart_sold : Demo.sold.evaluation.deliveries = 1 ∧
    (∃ c, Demo.sold.disk = some c ∧ c.snapshot = Demo.sold.evaluation.snapshot) ∧
    recover Demo.sold.evaluation.snapshot = .ok Demo.sold.evaluation ∧
    serveAll [.restart, Demo.buy, Demo.refund] Demo.sold
      = (.ok .restarted :: (serveAll [Demo.buy, Demo.refund] Demo.sold).1,
        (serveAll [Demo.buy, Demo.refund] Demo.sold).2) := by
  have hstarted : create true (Demo.world 100) = .ok () (Demo.started 100) := rfl
  have hstored : Demo.sold.storage = true ∧ Demo.sold.evaluation.failed = false ∧
      Demo.sold.evaluation.deliveries = 1 := by decide +kernel
  obtain ⟨hstorage, hworks, hdelivered⟩ := hstored
  obtain ⟨-, -, hrecovers, -⟩ :=
    recovered_indistinguishable hstarted [Demo.openLine, Demo.buy] (s := Demo.sold) rfl
  obtain ⟨hsame, hrestarts⟩ := hrecovers hworks
  obtain ⟨hdisk, hfurther⟩ := hrestarts hstorage
  exact ⟨hdelivered, hdisk, hsame, hfurther [Demo.buy, Demo.refund]⟩

/-- The save of the funded reserve is refused: the evaluation answers 503, and the one that is
recovered from its last checkpoint answers 409. -/
theorem refused_save_distinguishable :
    ∃ s₀ s c recovered, create true (Demo.world 1) = .ok () s₀
      ∧ (serveAll [Demo.openLine] s₀).2 = s ∧ s.checkpoints.head? = some c
      ∧ recover c.snapshot = .ok recovered
      ∧ Demo.thrown (serve Demo.refund s)
        = some (.checkout 503 "Checkout session requires server restart and recovery.")
      ∧ Demo.thrown (serve Demo.refund { s with evaluation := recovered, effects := c.effects })
        = some (.checkout 409 "No cash refund obligation exists for that order.") :=
  ⟨_, _, _, _, rfl, rfl, rfl, rfl, by decide +kernel, by decide +kernel⟩

end Line.Checkout
