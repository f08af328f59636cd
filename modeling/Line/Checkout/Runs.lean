import Line.Checkout.Recovered

/-!
# The operations as stages

Whatever is asked of the process, and however the request ends, the state goes along `Move`:
the world answers a question, or the evaluation makes one stage and its checkpoint, or the
process starts again. Each operation is taken apart once, here.

An operation can end anywhere: a question may be answered with an exception, a test fail, a
circuit refuse, a save be lost. So the lemmas have the form "however this ends, it ended
along `Move`" (`Ends`), and are put together in the order of the statements: first the
questions, which change the world only, then the tests, then the stage that the tests allow,
and then its checkpoint. What a stage is allowed by is exactly what was tested on the way to
it, which is how `Stage` comes to its conditions.
-/

namespace Line.Checkout

open Checked Stateful
open Line.Engine (JsString Words)

variable {B : Type} [StateCodec B]

/-- The evaluation can be used. -/
def Available (s : State B) : Prop :=
  s.evaluation.failed = false ∧ s.evaluation.checkpointing = false

/-- The evaluation can be used, and the order is one of its orders. -/
def Ready (requestId : JsString) (order : Order B) (s : State B) : Prop :=
  Available s ∧ s.evaluation.orders.get requestId = some order

/-! ## Questions to the world -/

section Questions

variable {α β : Type} {s : State B} {x : M B α} {f : α → M B β}

/-- The program asks the world at most, and what it returns satisfies `P`. -/
def Asks (x : M B α) (P : α → Prop) : Prop :=
  ∀ s, ∃ w, (∃ a, P a ∧ x s = .ok a { s with world := w })
    ∨ ∃ e, x s = .error e { s with world := w }

theorem asks_random : Asks (randomBytes32 : M B B) fun _ => True :=
  fun _ => ⟨_, .inl ⟨_, trivial, rfl⟩⟩

theorem asks_uuid : Asks (randomUUID : M B JsString) fun _ => True :=
  fun _ => ⟨_, .inl ⟨_, trivial, rfl⟩⟩

theorem asks_date : Asks (dateNow : M B ℤ) fun _ => True :=
  fun _ => ⟨_, .inl ⟨_, trivial, rfl⟩⟩

theorem asks_attempt (x : Except Failure α) : Asks (attempt x : M B α) fun a => x = .ok a := by
  intro s
  cases x with
  | ok a => exact ⟨s.world, .inl ⟨a, rfl, rfl⟩⟩
  | error e => exact ⟨s.world, .inr ⟨e, rfl⟩⟩

theorem asks_refuse (bad : Bool) (status : ℕ) (message : String) :
    Asks (refuseIf bad status message : M B Unit) fun _ => bad = false := by
  intro s
  cases bad with
  | false => exact ⟨s.world, .inl ⟨(), rfl, rfl⟩⟩
  | true => exact ⟨s.world, .inr ⟨_, rfl⟩⟩

theorem asks_pure {P : α → Prop} {a : α} (h : P a) : Asks (pure a : M B α) P :=
  fun s => ⟨s.world, .inl ⟨a, h, rfl⟩⟩

theorem asks_throw {P : α → Prop} {e : Failure} : Asks (throw e : M B α) P :=
  fun s => ⟨s.world, .inr ⟨e, rfl⟩⟩

theorem Asks.bind {P : α → Prop} {P' : β → Prop} (hx : Asks x P)
    (hf : ∀ a, P a → Asks (f a) P') : Asks (x >>= f) P' := by
  intro s
  obtain ⟨w, ⟨a, ha, h⟩ | ⟨e, h⟩⟩ := hx s
  · obtain ⟨w', hw'⟩ := hf a ha { s with world := w }
    refine ⟨w', ?_⟩
    simp only [Bind.bind, EStateM.bind, h]
    exact hw'
  · refine ⟨w, .inr ⟨e, ?_⟩⟩
    simp only [Bind.bind, EStateM.bind, h]

theorem asks_clock : Asks (clock : M B Number) fun _ => True :=
  fun _ => ⟨_, .inl ⟨_, trivial, rfl⟩⟩

theorem asks_now : Asks (now : M B ℕ) fun _ => True :=
  asks_clock.bind fun _ _ => (asks_refuse _ _ _).bind fun _ _ => asks_pure trivial

theorem asks_deadline (seconds : ℕ) : Asks (deadline seconds : M B ℤ) fun _ => True := by
  refine asks_now.bind fun time _ => ?_
  split
  · exact asks_pure trivial
  · exact asks_throw

@[simp] theorem evaluation_bind {f : Evaluation B → M B β} :
    (evaluation >>= f) s = f s.evaluation s := rfl

@[simp] theorem assign_bind {g : Evaluation B → Evaluation B} {f : Unit → M B β} :
    (assign g >>= f) s = f () { s with evaluation := g s.evaluation } := rfl

@[simp] theorem record_bind {effect : Effect} {f : Unit → M B β} :
    (record effect >>= f) s = f () { s with effects := effect :: s.effects } := rfl

/-- A save answers what the world has for it, and takes the checkpoint down. -/
theorem save_bind {snapshot : Snapshot B} {f : Saved → M B β} :
    (save snapshot >>= f) s = f s.world.saves.head { s with
      world := { s.world with saves := s.world.saves.tail }
      checkpoints := ⟨snapshot, s.evaluation, s.effects⟩ :: s.checkpoints
      disk := match s.world.saves.head with
        | .saved | .refused true => some ⟨snapshot, s.evaluation, s.effects⟩
        | .refused false => s.disk } := rfl

theorem attempt_bind {y : Except Failure α} {a : α} {f : α → M B β} (h : y = .ok a) :
    (attempt y >>= f) s = f a s := by
  rw [h]
  rfl

/-- What `call` comes to. -/
theorem call_eq [DecidableEq B] [Compact B] (ps : PrivateState B) (op : CircuitCall B) :
    call ps op s = if isTime s.world.clock.head
      then .ok (runCircuit s.world.clock.head.toNat s.evaluation.session ps op)
        { s with world := { s.world with clock := s.world.clock.tail } }
      else .error (.error "Invalid trusted execution time.")
        { s with world := { s.world with clock := s.world.clock.tail } } := by
  have hcall : call ps op s = (if isTime s.world.clock.head
      then (do pure (runCircuit s.world.clock.head.toNat (← evaluation).session ps op))
      else throw (.error "Invalid trusted execution time.") : M B (Option (Session B)))
        { s with world := { s.world with clock := s.world.clock.tail } } := rfl
  rw [hcall]
  split <;> rfl

/-- The checkpoint that is taken down. -/
def State.taken (t : State B) : Checkpoint B :=
  ⟨t.evaluation.snapshot, { t.evaluation with checkpointing := true }, t.effects⟩

/-- The state after a save, with the evaluation as the program leaves it. -/
def State.after (t : State B) (e : Evaluation B) (disk : Option (Checkpoint B)) : State B :=
  { t with
    evaluation := e
    world := { t.world with saves := t.world.saves.tail }
    checkpoints := t.taken :: t.checkpoints
    disk }

theorem checkpoint_volatile {t : State B} (h : t.storage = false) :
    (checkpoint : M B Unit) t = .ok () t := by
  have hite : (checkpoint : M B Unit) t = (if t.storage then _ else pure () : M B Unit) t := rfl
  rw [hite, h]
  rfl

/-- What becomes of a checkpoint: the store has it, or it was refused and the session fails. -/
theorem checkpoint_stored {t : State B} (h : t.storage = true) :
    (checkpoint : M B Unit) t
        = .ok () (t.after { t.evaluation with checkpointing := false } (some t.taken))
      ∨ ∃ disk, (disk = some t.taken ∨ disk = t.disk) ∧ (checkpoint : M B Unit) t
        = .error checkpointFailed
          (t.after { t.evaluation with failed := true, checkpointing := false } disk) := by
  have hite : (checkpoint : M B Unit) t = (if t.storage then _ else pure () : M B Unit) t := rfl
  rw [hite, h]
  cases ho : t.world.saves.head with
  -- the save returned, so the store has what was taken
  | saved =>
    left
    rw [if_pos rfl, assign_bind, evaluation_bind, save_bind]
    simp only [ho]
    rfl
  -- a save that throws may have replaced the file before
  | refused published =>
    right
    cases published with
    | true =>
      refine ⟨some t.taken, .inl rfl, ?_⟩
      rw [if_pos rfl, assign_bind, evaluation_bind, save_bind]
      simp only [ho]
      rfl
    | false =>
      refine ⟨t.disk, .inr rfl, ?_⟩
      rw [if_pos rfl, assign_bind, evaluation_bind, save_bind]
      simp only [ho]
      rfl

/-- A save that is not refused leaves the evaluation. -/
theorem checkpoint_ok {t t' : State B} {u : Unit} (h : checkpoint t = .ok u t')
    (hc : t.evaluation.checkpointing = false) : t'.evaluation = t.evaluation := by
  cases hst : t.storage with
  | false =>
    rw [checkpoint_volatile hst] at h
    cases h
    rfl
  | true =>
    rcases checkpoint_stored hst with hok | ⟨disk, -, herr⟩
    · rw [hok] at h
      cases h
      simp only [State.after]
      rw [← hc]
    · rw [herr] at h
      cases h

end Questions

/-! ## Circuits and checkpoints -/

variable [DecidableEq B] [Compact B]

omit [StateCodec B] in
/-- The draw was proven, so its amounts are `Uint<64>`s. -/
theorem runCircuit_draw {time : ℕ} {session session' : Session B} {ps : PrivateState B} {Q : B}
    {noteExpiry fee : ℤ} (h : runCircuit time session ps (.draw Q noteExpiry fee) = some session') :
    ∃ price expiry : U64, (price.val : ℤ) = ps.drawAmount ∧ (expiry.val : ℤ) = noteExpiry := by
  obtain ⟨op', w, hop, hw, -, -⟩ := runCircuit_some h
  simp only [CircuitCall.op, Option.bind_eq_bind, Option.bind_eq_some_iff, uint64_eq_some] at hop
  obtain ⟨expiry, hexpiry, -⟩ := hop
  exact ⟨w.drawAmount 0, expiry, hw.drawAmount 0, hexpiry⟩

omit [StateCodec B] in
/-- The compensation was proven, so the ledger has an entry for the note. -/
theorem runCircuit_compensated {time : ℕ} {session session' : Session B} {ps : PrivateState B}
    {D : B} {action : Uint 8} {expiry : ℤ}
    (h : runCircuit time session ps (.cancelOrExpireNote D action expiry) = some session') :
    ∃ note, session'.state.notes.lookup D = some note := by
  obtain ⟨op', w, hop, -, -, st⟩ := runCircuit_some h
  simp only [CircuitCall.op, Option.map_eq_some_iff] at hop
  obtain ⟨x, -, rfl⟩ := hop
  generalize session.state = l at st
  generalize session'.state = l' at st
  cases st <;> exact ⟨_, Finmap.lookup_insert _⟩

theorem transition_ok {ps : PrivateState B} {op : CircuitCall B} {l : Ledger B} {s t : State B}
    (h : transition ps op s = .ok l t) :
    ∃ time w session, runCircuit time s.evaluation.session ps op = some session
      ∧ t = { s with world := w, evaluation := { s.evaluation with session } } := by
  rw [transition] at h
  simp only [Bind.bind, EStateM.bind, call_eq] at h
  by_cases htime : isTime s.world.clock.head
  · simp only [htime, ↓reduceIte] at h
    cases hs : runCircuit s.world.clock.head.toNat s.evaluation.session ps op with
    | none =>
      rw [hs] at h
      cases h
    | some session =>
      rw [hs] at h
      cases h
      exact ⟨_, _, session, hs, rfl⟩
  · simp only [htime, Bool.false_eq_true, ↓reduceIte] at h
    cases h

variable [Words B] [WordBytes B]

omit [StateCodec B] in
theorem encodable_ok_iff {n : ℤ} {u : U64} : encodable n = .ok u ↔ (u.val : ℤ) = n := by
  rw [← uint64_eq_some, encodable]
  cases uint64 n <;> simp

omit [DecidableEq B] [Compact B] [Words B] [WordBytes B] [StateCodec B] in
theorem intent_of_ok {value : Unknown} {text : JsString} (h : intent value = .ok text) :
    isIntent text = true := by
  cases value with
  | string s =>
    simp only [intent] at h
    split at h
    · rename_i hi
      cases h
      exact hi
    · cases h
  | number v => cases h
  | other => cases h

theorem documentOf_ok {value : Unknown} {text : JsString} (h : documentOf value = .ok text) :
    nonblank text = true ∧ text.length ≤ 8000 := by
  cases value with
  | string s =>
    simp only [documentOf] at h
    split at h
    · rename_i hi
      cases h
      simpa using hi
    · cases h
  | number v => cases h
  | other => cases h

omit [DecidableEq B] [Compact B] [Words B] [WordBytes B] [StateCodec B] in
theorem findService_mem {value : Unknown} {service : Service}
    (h : findService value = some service) : service ∈ CATALOG := by
  cases value with
  | string s =>
    rw [findService] at h
    exact List.mem_of_find?_eq_some h
  | number v => cases h
  | other => cases h

theorem units_ok {value : Unknown} {label : String} {n : ℕ} (h : units value label = .ok n) :
    1 ≤ n ∧ n ≤ 1000000 := by
  have hw : wholeUnits value = some n := by
    rw [units] at h
    cases hw : wholeUnits value with
    | none =>
      rw [hw] at h
      cases h
    | some m =>
      rw [hw] at h
      cases h
      rfl
  cases value with
  | string s => cases hw
  | other => cases hw
  | number v =>
    simp only [wholeUnits, Option.ite_none_right_eq_some, Bool.and_eq_true, Bool.not_eq_true',
      Option.some.injEq] at hw
    obtain ⟨⟨⟨hsafe, hone⟩, hmax⟩, rfl⟩ := hw
    obtain ⟨n, rfl⟩ := Number.eq_ofNat_of_safe hsafe hone
    simp only [Number.lt_ofNat, decide_eq_false_iff_not, Nat.not_lt] at hone hmax
    exact ⟨hone, hmax⟩

variable [Locale]

/-- One step of the process. -/
inductive Move : State B → State B → Prop
  | ask {s w} : Move s { s with world := w }
  | stage {s ev e' w} : s.evaluation.failed = false → s.evaluation.checkpointing = false →
      Stage s.evaluation ev e' →
      Move s
        (final (checkpoint { s with evaluation := e', effects := ev ++ s.effects, world := w }))
  | restart {s : State B} {c recovered} : s.disk = some c → recover c.snapshot = .ok recovered →
      Move s { s with evaluation := recovered, effects := c.effects }
  | lost {s : State B} : (s.disk = none ∨ ∃ c f, s.disk = some c ∧ recover c.snapshot = .error f) →
      Move s { s with evaluation := { s.evaluation with failed := true } }

omit [StateCodec B] in
theorem Stage.flags {e e' : Evaluation B} {ev : List Effect} (st : Stage e ev e') :
    e'.failed = e.failed ∧ e'.checkpointing = e.checkpointing := by
  cases st <;> exact ⟨rfl, rfl⟩

section Rules

variable {α β : Type} {s : State B} {x : M B α} {Q : β → State B → Prop}

/-- After a question the program goes on in the same state. -/
theorem Asks.ends {f : α → M B β} {P : α → Prop} (hx : Asks x P)
    (hf : ∀ a w, P a → Ends Move { s with world := w } (f a { s with world := w }) Q) :
    Ends Move s ((x >>= f) s) Q := by
  obtain ⟨w, ⟨a, ha, h⟩ | ⟨e, h⟩⟩ := hx s
  · simp only [Bind.bind, EStateM.bind, h]
    exact .head .ask (hf a w ha)
  · simp only [Bind.bind, EStateM.bind, h]
    exact .head .ask .error

/-- After a circuit call the program goes on with what the circuit made of the session. -/
theorem ends_call {ps : PrivateState B} {op : CircuitCall B} {f : Option (Session B) → M B β}
    (hf : ∀ time w, Ends Move { s with world := w }
      (f (runCircuit time s.evaluation.session ps op) { s with world := w }) Q) :
    Ends Move s ((call ps op >>= f) s) Q := by
  simp only [Bind.bind, EStateM.bind, call_eq]
  by_cases h : isTime s.world.clock.head
  · simp only [h, ↓reduceIte]
    exact .head .ask (hf _ _)
  · simp only [h, Bool.false_eq_true, ↓reduceIte]
    exact .head .ask .error

/-- After a transition the program goes on with the new session. No step of the process has been
made yet. -/
theorem ends_transition {ps : PrivateState B} {op : CircuitCall B} {f : Ledger B → M B β}
    (hf : ∀ time w session, runCircuit time s.evaluation.session ps op = some session →
      Ends Move s (f session.state
        { s with world := w, evaluation := { s.evaluation with session } }) Q) :
    Ends Move s ((transition ps op >>= f) s) Q := by
  rw [transition, bind_assoc]
  simp only [Bind.bind, EStateM.bind, call_eq]
  by_cases h : isTime s.world.clock.head
  · simp only [h, ↓reduceIte]
    cases hs : runCircuit s.world.clock.head.toNat s.evaluation.session ps op with
    | none => exact .head .ask .error
    | some session => exact hf _ _ session hs
  · simp only [h, Bool.false_eq_true, ↓reduceIte]
    exact .head .ask .error

/-- **A stage**: what was assigned since the last step of the process is one stage, and the
checkpoint takes it down. -/
theorem ends_checkpoint {t : State B} {ev : List Effect} {e' : Evaluation B} {w : World B}
    {f : Unit → M B β} (ha : Available s) (st : Stage s.evaluation ev e')
    (ht : t = { s with evaluation := e', effects := ev ++ s.effects, world := w })
    (hf : ∀ t', Available t' → t'.evaluation = e' → Ends Move t' (f () t') Q) :
    Ends Move s ((checkpoint >>= f) t) Q := by
  have hm : Move s (final (checkpoint t)) := ht ▸ .stage ha.1 ha.2 st
  obtain ⟨hfailed, hcheck⟩ := st.flags
  have hfail : e'.failed = false := hfailed.trans ha.1
  have hch : e'.checkpointing = false := hcheck.trans ha.2
  simp only [Bind.bind, EStateM.bind]
  cases h : (checkpoint : M B Unit) t with
  | error e t' =>
    rw [h] at hm
    exact .head hm .error
  | ok u t' =>
    rw [h] at hm
    have he : t'.evaluation = e' := by
      rw [checkpoint_ok h (by rw [ht]; exact hch), ht]
    refine .head hm (hf t' ?_ he)
    rw [Available, he]
    exact ⟨hfail, hch⟩

/-- The order of a stage, stored. -/
theorem ends_keep {t : State B} {requestId : JsString} {order : Order B} {ev : List Effect}
    {e' : Evaluation B} {w : World B} (ha : Available s)
    (st : Stage s.evaluation ev (e'.setOrder requestId order))
    (ht : t = { s with evaluation := e', effects := ev ++ s.effects, world := w }) :
    Ends Move s (keep requestId order t) fun o t' => Ready requestId o t' := by
  have hkeep : keep requestId order t = (checkpoint >>= fun _ => pure order : M B (Order B))
      { s with
        evaluation := e'.setOrder requestId order, effects := ev ++ s.effects, world := w } := by
    rw [ht]
    rfl
  rw [hkeep]
  refine ends_checkpoint ha st rfl fun t' ha' he => .ok ⟨ha', ?_⟩
  rw [he]
  exact OrderedMap.get_set_self

/-- Nothing is done by an evaluation that cannot be used. -/
theorem ends_available {f : Unit → M B β} (hf : Available s → Ends Move s (f () s) Q) :
    Ends Move s ((ensureAvailable >>= f) s) Q := by
  have hens : (ensureAvailable >>= f) s
      = (refuseIf s.evaluation.failed 503 "Checkout session requires server restart and recovery."
          >>= fun _ => refuseIf s.evaluation.checkpointing 503
            "Checkout checkpoint is still committing. Retry this read." >>= f : M B β) s := by
    rw [ensureAvailable, bind_assoc]
    simp only [bind_assoc]
    rfl
  rw [hens]
  cases hfail : s.evaluation.failed with
  | true => exact .error
  | false =>
    cases hch : s.evaluation.checkpointing with
    | true => exact .error
    | false => exact hf ⟨hfail, hch⟩

theorem ends_view : Ends Move s (issuerView s) fun _ _ => True := by
  rw [issuerView]
  exact ends_available fun _ => .ok trivial

end Rules

/-! ## Purchases -/

section Purchase

variable {s : State B} {requestId : JsString} {order : Order B}

theorem expireQuote_ends (h : Ready requestId order s) :
    Ends Move s (expireQuote requestId order s) (Ready requestId) := by
  rw [expireQuote]
  split
  · rename_i hp
    refine asks_now.ends fun time w _ => ?_
    split
    · rename_i hx
      exact ends_keep h.1 (.expireQuote h.2 hp hx) rfl
    · exact .ok h
  · exact .ok h

theorem postQuote_ends (h : Ready requestId order s) :
    Ends Move s (postQuote requestId order s) (Ready requestId) := by
  rw [postQuote]
  split
  · rename_i hp
    refine ends_transition fun time w session hc => ?_
    exact ends_keep h.1 (.postQuote h.2 hp hc) rfl
  · exact .ok h

theorem authorize_ends (h : Ready requestId order s) :
    Ends Move s (authorize requestId order s) (Ready requestId) := by
  rw [authorize]
  split
  · rename_i hp
    rw [evaluation_bind]
    refine asks_random.ends fun newSalt w _ => ends_call fun time w' => ?_
    generalize hdrawn :
      runCircuit time s.evaluation.session _ (.draw order.Q order.expiry 0) = drawn
    cases drawn with
    | none =>
      exact .head .ask (ends_keep h.1 (.decline h.2 hp) rfl)
    | some session =>
      obtain ⟨price, expiry, hprice, hexpiry⟩ := runCircuit_draw hdrawn
      have hstage := Stage.draw h.2 hp hdrawn hprice hexpiry
      simp only
      rw [assign_bind, record_bind, attempt_bind (encodable_ok_iff.mpr hprice),
        attempt_bind (encodable_ok_iff.mpr hexpiry)]
      exact ends_keep h.1 hstage rfl
  · exact .ok h

theorem compensate_ends {D : B} {noteExpiry : ℤ} (h : Ready requestId order s)
    (hp : order.phase = .authorized) (hD : order.D = some D)
    (hx : order.noteExpiry = some noteExpiry) :
    Ends Move s (compensate requestId order D s) (Ready requestId) := by
  rw [compensate]
  refine asks_random.ends fun newSalt w _ => ?_
  rw [evaluation_bind]
  refine ends_transition fun time w' session hc => ?_
  obtain ⟨note, hnote⟩ := runCircuit_compensated hc
  rw [assign_bind, record_bind]
  simp only [hnote, must_some]
  exact ends_keep h.1 (.compensate h.2 hp hD hx hc hnote) rfl

theorem redeem_ends {D : B} {noteExpiry : ℤ} (h : Ready requestId order s)
    (hp : order.phase = .authorized) (hD : order.D = some D)
    (hx : order.noteExpiry = some noteExpiry) :
    Ends Move s (redeem requestId order D noteExpiry s) (Ready requestId) := by
  rw [redeem, evaluation_bind]
  refine ends_transition fun time w session hc => ?_
  exact ends_keep h.1 (.redeem h.2 hp hD hx hc) rfl

theorem settle_ends (h : Ready requestId order s) :
    Ends Move s (settle requestId order s) (Ready requestId) := by
  rw [settle]
  split
  · rename_i hp
    refine asks_now.ends fun time w _ => ?_
    cases hD : order.D with
    | none => exact .error
    | some D =>
      cases hx : order.noteExpiry with
      | none => exact .error
      | some noteExpiry =>
        simp only
        split
        · exact compensate_ends h hp hD hx
        · exact redeem_ends h hp hD hx
  · exact .ok h

theorem fulfil_ends (h : Ready requestId order s) :
    Ends Move s (fulfil requestId order s) (Ready requestId) := by
  rw [fulfil]
  split
  · rename_i hp
    rw [assign_bind, record_bind]
    exact ends_keep h.1 (.deliver h.2 hp) rfl
  · exact .ok h

/-- A retry, from wherever the order stands. -/
theorem resume_ends (h : Ready requestId order s) :
    Ends Move s (resume requestId order s) fun _ _ => True := by
  rw [resume]
  refine (expireQuote_ends h).bind fun order₁ s₁ h₁ => ?_
  refine (postQuote_ends h₁).bind fun order₂ s₂ h₂ => ?_
  refine (authorize_ends h₂).bind fun order₃ s₃ h₃ => ?_
  refine (settle_ends h₃).bind fun order₄ s₄ h₄ => ?_
  exact (fulfil_ends h₄).bind fun order₅ s₅ _ => .ok trivial

/-- A new order. -/
theorem prepare_ends {service : Service} {document : JsString} (ha : Available s)
    (hid : s.evaluation.orders.get requestId = none) (hservice : service ∈ CATALOG)
    (hdocument : nonblank document = true ∧ document.length ≤ 8000)
    (hintent : isIntent requestId = true) :
    Ends Move s (prepare service document requestId s) (Ready requestId) := by
  rw [prepare, evaluation_bind]
  refine (asks_refuse _ _ _).ends fun _ w₀ hopen => ?_
  refine asks_date.ends fun date w₁ _ => ?_
  refine (asks_refuse _ _ _).ends fun _ w₂ _ => ?_
  refine (asks_refuse _ _ _).ends fun _ w₃ hsize => ?_
  refine asks_uuid.ends fun uuid w₄ _ => ?_
  refine (asks_attempt _).ends fun invoiceId w₅ _ => ?_
  refine asks_random.ends fun quoteNonce w₆ _ => ?_
  refine (asks_deadline 600).ends fun expiry w₇ _ => ?_
  refine (asks_attempt _).ends fun price w₈ hprice => ?_
  refine (asks_attempt _).ends fun expiry64 w₉ hexpiry => ?_
  refine asks_random.ends fun noteNonce w₁₀ _ => ?_
  refine asks_random.ends fun noteSalt w₁₁ _ => ?_
  refine ends_keep ha (.prepare (by simpa using hopen) (by simpa using hsize) hid ?_) rfl
  refine ⟨⟨hintent, hdocument, ⟨service, hservice, rfl, rfl⟩, ⟨rfl, rfl⟩, ?_⟩, rfl, rfl, rfl⟩
  refine ⟨price, expiry64, ?_, encodable_ok_iff.mp hexpiry, ?_, rfl⟩
  · exact_mod_cast encodable_ok_iff.mp hprice
  · exact Engine.quoteCommit_eq ..

theorem purchase_ends (service document request : Unknown) :
    Ends Move s (purchase service document request s) fun _ _ => True := by
  cases hfound : findService service with
  | none =>
    simp only [purchase, hfound]
    exact .error
  | some found =>
    have hcatalog := findService_mem hfound
    simp only [purchase, hfound, pure_bind]
    refine (asks_attempt _).ends fun text w₀ htext => ?_
    refine (asks_attempt _).ends fun requestId w₁ hintent => ?_
    refine ends_available fun ha => ?_
    rw [evaluation_bind]
    cases hprior : s.evaluation.orders.get requestId with
    | some prior =>
      refine (asks_refuse _ _ _).ends fun _ w₂ _ => ?_
      exact resume_ends ⟨ha, hprior⟩
    | none =>
      refine (prepare_ends ha hprior hcatalog (documentOf_ok htext) (intent_of_ok hintent)).bind
        fun order t ht => ?_
      exact resume_ends ht

end Purchase

/-! ## The other operations -/

section Operations

variable {s : State B}

/-- The reserve is funded, with the terms that the facility keeps. -/
theorem fundReserve_ends {credit backing : ℕ} (ha : Available s)
    (hopen : s.evaluation.opened = false) (hfund : s.evaluation.fundedReserve = 0)
    (hcredit : 1 ≤ credit) (hbacking : 1 ≤ backing) :
    Ends Move s (fundReserve credit backing s) fun _ t => Available t
      ∧ t.evaluation.opened = false ∧ t.evaluation.limit = credit := by
  rw [fundReserve, evaluation_bind]
  refine ends_transition fun time w session hc => ?_
  rw [assign_bind]
  have hst := Stage.fund hopen hfund hcredit hbacking hc
  rw [← bind_pure (checkpoint : M B Unit)]
  refine ends_checkpoint ha hst rfl fun t ha' he => .ok ⟨ha', ?_⟩
  rw [he]
  exact ⟨hopen, rfl⟩

/-- The line is opened, on the limit that the evaluation has. -/
theorem openLine_ends {credit : ℕ} (ha : Available s) (hopen : s.evaluation.opened = false)
    (hlimit : s.evaluation.limit = credit) :
    Ends Move s ((do
      assign fun e => { e with limit := credit }
      let e ← evaluation
      let expiry ← deadline 10000
      let _ ← transition { e.books with callerSecret := e.issuerKey } (.openLine expiry 0 0)
      assign fun e => { e with opened := true }
      checkpoint
      issuerView : M B (IssuerView B)) s) fun _ _ => True := by
  rw [assign_bind, evaluation_bind, ← hlimit]
  refine (asks_deadline 10000).ends fun expiry w _ => ?_
  refine ends_transition fun time w' session hc => ?_
  rw [assign_bind]
  exact ends_checkpoint ha (.openLine hopen hc) rfl fun t ha' he => ends_view

theorem configure_ends (limit reserve : Unknown) :
    Ends Move s (configure limit reserve s) fun _ _ => True := by
  rw [configure]
  refine (asks_attempt _).ends fun credit w₀ hcredit => ?_
  refine (asks_attempt _).ends fun backing w₁ hbacking => ?_
  refine ends_available fun ha => ?_
  rw [evaluation_bind]
  split
  · split
    · exact ends_view
    · exact .error
  · rename_i hopen
    refine (asks_refuse _ _ _).ends fun _ w₂ hterms => ?_
    have hopen' : s.evaluation.opened = false := by simpa using hopen
    split
    · rename_i hfund
      refine Ends.bind (fundReserve_ends ha hopen' hfund (units_ok hcredit).1
        (units_ok hbacking).1) fun _ t ht => ?_
      exact openLine_ends ht.1 ht.2.1 ht.2.2
    · rename_i hfund
      have hlimit : s.evaluation.fundedReserve = backing ∧ s.evaluation.limit = credit := by
        simpa [hfund] using hterms
      exact openLine_ends ha hopen' hlimit.2

theorem acknowledge_ends (amount reference : Unknown) :
    Ends Move s (acknowledge amount reference s) fun _ _ => True := by
  rw [acknowledge]
  refine (asks_attempt _).ends fun n w₀ hn => ?_
  refine (asks_attempt _).ends fun text w₁ htext => ?_
  refine ends_available fun ha => ?_
  rw [evaluation_bind]
  cases hprior : s.evaluation.repayments.get text with
  | some previous =>
    exact (asks_refuse _ _ _).ends fun _ w _ => ends_view
  | none =>
    refine (asks_refuse _ _ _).ends fun _ w₂ hdebt => ?_
    refine (asks_refuse _ _ _).ends fun _ w₃ hsize => ?_
    refine asks_random.ends fun newSalt w₄ _ => ?_
    refine (asks_refuse _ _ _).ends fun _ w₅ _ => ?_
    refine (asks_attempt _).ends fun paymentRef w₆ _ => ?_
    refine asks_random.ends fun receiptNonce w₇ _ => ?_
    refine (asks_deadline 600).ends fun expiry w₈ _ => ?_
    refine ends_transition fun time w₉ session hc => ?_
    rw [assign_bind, record_bind]
    simp only [Bool.or_eq_false_iff, Bool.not_eq_false', decide_eq_false_iff_not, not_lt,
      not_le] at hdebt hsize
    have hst := Stage.acknowledge hdebt.1 (intent_of_ok htext) (units_ok hn).1 (units_ok hn).2
      hprior hsize hdebt.2 hc
    exact ends_checkpoint ha hst rfl fun t ha' he => ends_view

theorem report_ends {orderId reference : JsString} {order : Order B} {recorded : Compensation B}
    (h : Ready orderId order s) (hc : order.compensation = some recorded)
    (hamount : recorded.amount ≠ 0) (hr : recorded.reported = none)
    (hi : isIntent reference = true) :
    Ends Move s (report orderId reference order recorded s) fun _ _ => True := by
  rw [report, evaluation_bind]
  refine (asks_refuse _ _ _).ends fun _ w₀ _ => ?_
  refine (asks_attempt _).ends fun paymentRef w₁ hpay => ?_
  refine (asks_deadline 600).ends fun expiry w₂ _ => ?_
  cases hD : order.D with
  | none => exact .error
  | some D =>
    refine ends_transition fun time w₃ session hrun => ?_
    refine Ends.bind (ends_keep h.1 (.report h.2 hc hamount hr hD hi hpay hrun) rfl)
      fun o t ht => ?_
    exact ends_view

theorem reportRefund_ends (order reference : Unknown) :
    Ends Move s (reportRefund order reference s) fun _ _ => True := by
  rw [reportRefund]
  -- reading the two arguments may throw
  refine (asks_attempt _).ends fun orderId w₀ _ => ?_
  refine (asks_attempt _).ends fun text w₁ htext => ?_
  refine ends_available fun ha => ?_
  simp only
  rw [evaluation_bind]
  -- an order that is unknown, or was not compensated, is refused
  cases hget : s.evaluation.orders.get orderId with
  | none =>
    exact .error
  | some prior =>
    cases hc : prior.compensation with
    | none =>
      simp only [hc]
      exact .error
    | some recorded =>
      simp only [hc]
      split
      · exact .error
      · rename_i hamount
        -- one that was reported before is answered, or refused, and nothing changes
        cases hr : recorded.reported with
        | some reported =>
          simp only
          exact (asks_refuse _ _ _).ends fun _ w _ => ends_view
        | none => exact report_ends ⟨ha, hget⟩ hc hamount hr (intent_of_ok htext)

omit [Locale] in
theorem restart_ends [Locale] : Ends Move s (restart s) fun _ _ => True := by
  rw [restart, get_bind]
  cases hdisk : s.disk with
  | none => exact .head (.lost (.inl hdisk)) (.ok trivial)
  | some stored =>
    simp only
    cases hr : recover stored.snapshot with
    | ok recovered => exact .head (.restart hdisk hr) (.ok trivial)
    | error f => exact .head (.lost (.inr ⟨stored, f, hdisk, hr⟩)) .error

/-- **Every request, however it ends, takes the process along its steps.** -/
theorem serve_ends (r : Request) : Ends Move s (serve r s) fun _ _ => True := by
  cases r with
  | configure limit reserve => exact (configure_ends limit reserve).bind fun _ _ _ => .ok trivial
  | purchase service document request =>
    exact (purchase_ends service document request).bind fun _ _ _ => .ok trivial
  | acknowledge amount reference =>
    exact (acknowledge_ends amount reference).bind fun _ _ _ => .ok trivial
  | reportRefund order reference =>
    exact (reportRefund_ends order reference).bind fun _ _ _ => .ok trivial
  | restart => exact restart_ends.bind fun _ _ _ => .ok trivial

/-- What every step of the process keeps, every list of requests keeps. -/
theorem serveAll_keeps {P : State B → Prop} (hP : ∀ s t, Move s t → P s → P t)
    (requests : List Request) (s : State B) (hs : P s) : P (serveAll requests s).2 := by
  induction requests generalizing s with
  | nil => exact hs
  | cons r rest ih =>
    refine ih _ ?_
    have hm := (serve_ends (s := s) r).moves
    generalize final (serve r s) = t at hm
    induction hm with
    | refl => exact hs
    | tail _ hstep hlast => exact hP _ _ hstep hlast

end Operations

end Line.Checkout
