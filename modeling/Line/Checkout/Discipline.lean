import Line.Checkout.Process

/-!
# The book and the charges

What `Sound` says, for one who reads a checkpoint: the private book opens the commitment of
an open line, the debt is what was drawn less what was credited and repaid, and every
request is charged, delivered and compensated at most once, in agreement with its note.

That an expired note is compensated at all takes a retry (`Kept.retry_compensates`): the circuit
is never refused to an evaluation that can be used. Each of its checks is answered by a part of the
invariant. The witness exists because the book's numbers fit their types, the book opens the
commitment, the note opens its entry, and the epoch has room for one more because it counts the
effects, of which there are few.
-/

namespace Line.Checkout

open Checked Stateful
open Line.Engine (JsString Words)

variable {B : Type} [DecidableEq B] [Compact B] [Words B] [WordBytes B]

/-! ## What a checkpoint shows -/

/-- The ledger's entry for the note of a request. -/
def Evaluation.noteOf (e : Evaluation B) (requestId : JsString) : Option (NoteMeta B) := do
  let order ← e.orders.get requestId
  let D ← order.D
  e.session.state.notes.lookup D

/-- **The discipline of the book and the charges**, of an evaluation after the effects. -/
structure Disciplined (e : Evaluation B) (es : List Effect) : Prop where
  /-- Once the line is open, the book opens its commitment. -/
  book : e.opened = true → ∃ limit outstanding epoch : U64, (limit.val : ℤ) = e.limit
    ∧ (outstanding.val : ℤ) = e.outstanding ∧ (epoch.val : ℤ) = e.epoch
    ∧ lineStateCommit ⟨e.session.state.contractDomain, agentId e.agentKey, limit, outstanding,
      epoch⟩ e.salt = e.session.state.lineCommit
  unopened : e.opened = false → e.outstanding = 0 ∧ e.orders = .empty
  debt : e.outstanding = drawnTotal es - creditTotal es - repaidTotal es
  /-- Nothing happens twice to one request, or under one reference. -/
  once : ∀ key kind, times es kind key ≤ 1
  delivered : ∀ id, times es .delivered id = 1 → ∃ note, e.noteOf id = some note
    ∧ note.redeemed = true
  compensated : ∀ id, times es .compensated id = 1 → times es .delivered id = 0
    ∧ ∃ note, e.noteOf id = some note ∧ note.cancelled = true ∧ note.redeemed = false

variable {e : Evaluation B} {es : List Effect} {requestId : JsString} {order : Order B}

omit [DecidableEq B] [Compact B] [Words B] [WordBytes B] in
/-- An effect that happened is shown by an order. -/
theorem Accounts.shown {m : OrderedMap JsString (Order B)} {r : OrderedMap JsString ℕ}
    {outstanding epoch : ℤ} {deliveries : ℕ} (ha : Accounts m r outstanding epoch deliveries es)
    {kind : Kind} (hk : kind ≠ .repaid) (h : times es kind requestId = 1) :
    ∃ order, m.get requestId = some order ∧ order.shows kind = 1 := by
  rw [ha.orders requestId kind hk] at h
  cases ho : m.get requestId with
  | none =>
    rw [ho] at h
    cases h
  | some order =>
    rw [ho] at h
    exact ⟨order, rfl, h⟩

omit [Words B] in
theorem Noted.noteOf {D : B} {note : NoteMeta B} (hn : Noted e.session.state e.keys order D note)
    (ho : e.orders.get requestId = some order) : e.noteOf requestId = some note := by
  simp only [Evaluation.noteOf, ho, hn.has, Option.bind_eq_bind, Option.bind_some, hn.found]

theorem Sound.disciplined (hs : Sound e es) : Disciplined e es where
  book := by
    intro h
    obtain ⟨-, -, L, d, n, hb, -⟩ := hs.facility.opened h
    exact ⟨L, d, n, hb.limit, hb.outstanding, hb.epoch, hb.commitment⟩
  unopened := by
    intro h
    exact ⟨(hs.facility.closed h).2.1, hs.unopened h⟩
  debt := hs.accounts.outstanding
  -- a repayment is counted by its reference, every other effect by its order
  once := by
    intro key kind
    by_cases hk : kind = .repaid
    · rw [hk, hs.accounts.repaid]
      split
      · exact Nat.le_refl 1
      · exact Nat.zero_le 1
    · rw [hs.accounts.orders key kind hk]
      cases e.orders.get key with
      | none => exact Nat.zero_le 1
      | some order => exact order.shows_le_one kind
  delivered := by
    intro id h
    obtain ⟨order, ho, hshow⟩ := hs.accounts.shown (by simp) h
    -- only a delivered order shows a delivery, and its note is redeemed
    have hp : order.phase = .delivered := by simpa [Order.shows] using hshow
    cases hs.orders.life _ _ ho with
    | undrawn hu => simp [hp] at hu
    | live hl => simp [hp] at hl
    | redeemed _ _ hn hr _ => exact ⟨_, hn.noteOf ho, hr⟩
    | compensated hc => simp [hp] at hc
  compensated := by
    intro id h
    obtain ⟨order, ho, hshow⟩ := hs.accounts.shown (by simp) h
    -- and only a compensated one a compensation
    have hc : order.compensation.isSome = true := by simpa [Order.shows] using hshow
    cases hs.orders.life _ _ ho with
    | undrawn _ _ hn => simp [hn] at hc
    | live _ hn => simp [hn] at hc
    | redeemed _ hn => simp [hn] at hc
    | compensated hp hn hr hcan _ =>
      refine ⟨?_, _, hn.noteOf ho, hcan, hr⟩
      rw [hs.accounts.orders id .delivered (by simp), ho]
      simp [Order.shows, hp]

/-! ## Retries -/

/-- The epoch stays far below the end of its 64 bits. -/
theorem Sound.epoch_le (hs : Sound e es) : e.epoch ≤ 1200 := by
  have hd := OrderedMap.total_le_size (m := e.orders) (Order.shows · .drawn)
    fun o => o.shows_le_one .drawn
  have hc := OrderedMap.total_le_size (m := e.orders) (Order.shows · .compensated)
    fun o => o.shows_le_one .compensated
  have hsizes := hs.sizes
  rw [hs.accounts.epoch]
  omega

/-- **The circuit of a compensation is not refused**, once the note has expired. -/
theorem Sound.compensates (hs : Sound e es) (ho : e.orders.get requestId = some order)
    (hp : order.phase = .authorized) {D : B} (hD : order.D = some D) {time : ℕ}
    (hlate : order.expiry ≤ (time : ℤ)) (newSalt : B) :
    ∃ session, runCircuit time e.session (order.compensating e newSalt)
      (.cancelOrExpireNote D ⟨1, by decide⟩ 0) = some session := by
  obtain ⟨note, hn, -, hred, -, hall⟩ := hs.authorized ho hp hD
  obtain ⟨price, expiry, -, hexpiry, hamount, hx, hDnote⟩ := hn.opening
  obtain ⟨-, hid, L, d, n, hb, -⟩ := hs.facility.opened (hs.opened ho)
  obtain ⟨h, r⟩ := hs.facility.reaches
  have hzero : ∃ u : U64, (u.val : ℤ) = 0 := ⟨.zero 64, rfl⟩
  -- the numbers of the private state fit their types, so there is a witness
  obtain ⟨w, hw⟩ : ∃ w, (order.compensating e newSalt).witness = some w := by
    refine PrivateState.exists_witness ?_
    simp only [Order.compensating, Evaluation.books, blankPrivate, List.mem_cons, List.not_mem_nil,
      or_false, forall_eq_or_imp, forall_eq]
    exact ⟨⟨L, hb.limit⟩, ⟨d, hb.outstanding⟩, ⟨n, hb.epoch⟩, hzero, hzero, hzero, hzero⟩
  have ha := PrivateState.witness_some hw
  -- which answers with the book that the ledger commits to
  have hlimit : w.lineLimit 0 = L := u64_eq ((ha.lineLimit 0).trans hb.limit.symm)
  have hout : w.lineOutstanding 0 = d := u64_eq ((ha.lineOutstanding 0).trans hb.outstanding.symm)
  have hep : ∀ k, w.lineEpoch k = n := fun k => u64_eq ((ha.lineEpoch k).trans hb.epoch.symm)
  -- the epoch counts repayments and orders
  have hroom : (w.lineEpoch 1).val + 1 < 2 ^ 64 := by
    have hle := hs.epoch_le
    have hn' : (n.val : ℤ) = e.epoch := hb.epoch
    rw [hep]
    omega
  -- the note is opened by what the order has kept
  have hopen : drawNoteCommit (compensationPreimage w note e.session.state) (w.noteSalt 0) = D := by
    rw [hDnote, compensationPreimage, Order.note, hn.generation, hn.fee, hamount, hx,
      ha.noteIdentity, ha.noteQuoteCommit, ha.quoteMerchantPk, ha.noteNonce, ha.noteSalt]
    rfl
  have hguard : AllocateGuard w D e.session.state note := by
    refine ⟨hn.found, hred, hall, hopen, .inr ?_⟩
    rw [ha.callerSecret, ha.noteIdentity]
    rfl
  have hcommit : lineStateCommit (witnessBook w e.session.state) (w.salt 0)
      = e.session.state.lineCommit := by
    rw [witnessBook, hlimit, hout, hep, ha.salt, hid]
    exact hb.commitment
  have hidentity : w.noteIdentity 0 = e.session.state.identityCommit := by
    rw [ha.noteIdentity, hid]
    rfl
  have htime : note.expiry.val ≤ time := by
    rw [hx]
    omega
  obtain ⟨l, st⟩ : ∃ l, Step .canonical
      ⟨.cancelOrExpireNote D ⟨1, by decide⟩ (.zero 64), w, time⟩ e.session.state l :=
    r.allocates_ok hguard hn.generation rfl (fun _ => htime) hidentity hcommit hroom
  exact ⟨_, runCircuit_of_step rfl hw st⟩

section Retry

variable [StateCodec B] {s : State B} {β : Type}

omit [DecidableEq B] [Compact B] [Words B] [WordBytes B] in
theorem now_bind {f : ℕ → M B β} (h : isTime s.world.clock.head = true) :
    (now >>= f) s = f s.world.clock.head.toNat
      { s with world := { s.world with clock := s.world.clock.tail } } := by
  have hnow : (now : M B ℕ) s = .ok s.world.clock.head.toNat
      { s with world := { s.world with clock := s.world.clock.tail } } := by
    have hgo : (now : M B ℕ) s = (refuseIf (!isTime s.world.clock.head) 503
        "Trusted execution time is unavailable." >>= fun _ => pure s.world.clock.head.toNat : M B ℕ)
        { s with world := { s.world with clock := s.world.clock.tail } } := rfl
    rw [hgo, h]
    rfl
  simp only [Bind.bind, EStateM.bind, hnow]

omit [DecidableEq B] [Compact B] [Words B] [WordBytes B] in
theorem ensureAvailable_bind {f : Unit → M B β} (hf : s.evaluation.failed = false)
    (hidle : s.evaluation.checkpointing = false) : (ensureAvailable >>= f) s = f () s := by
  have havail : (ensureAvailable : M B Unit) s = .ok () s := by
    rw [ensureAvailable, evaluation_bind, hf, hidle]
    rfl
  simp only [Bind.bind, EStateM.bind, havail]

omit [DecidableEq B] [Compact B] [Words B] [WordBytes B] in
theorem random_bind {f : B → M B β} : (randomBytes32 >>= f) s = f s.world.random.head
    { s with world := { s.world with random := s.world.random.tail } } := rfl

omit [Words B] [WordBytes B] in
theorem transition_bind {ps : PrivateState B} {op : CircuitCall B} {session : Session B}
    {f : Ledger B → M B β} (h : isTime s.world.clock.head = true)
    (hc : runCircuit s.world.clock.head.toNat s.evaluation.session ps op = some session) :
    (transition ps op >>= f) s = f session.state { s with
      world := { s.world with clock := s.world.clock.tail }
      evaluation := { s.evaluation with session } } := by
  rw [transition, bind_assoc]
  simp only [Bind.bind, EStateM.bind, call_eq, h, ↓reduceIte, hc]
  rfl

omit [Words B] [WordBytes B] in
/-- A compensation that the circuit takes is stored. -/
theorem compensate_eq {D : B} {session : Session B} {note : NoteMeta B}
    (h : isTime s.world.clock.head = true)
    (hc : runCircuit s.world.clock.head.toNat s.evaluation.session
      (order.compensating s.evaluation s.world.random.head)
      (.cancelOrExpireNote D ⟨1, by decide⟩ 0) = some session)
    (hnote : session.state.notes.lookup D = some note) :
    ∃ c t, compensate requestId order D s = keep requestId (order.compensate c) t := by
  have hstep : ∀ f : Ledger B → M B (Order B),
      (transition (order.compensating s.evaluation s.world.random.head)
        (.cancelOrExpireNote D ⟨1, by decide⟩ 0) >>= f)
          { s with world := { s.world with random := s.world.random.tail } } = _ :=
    fun f => transition_bind h hc
  rw [compensate, random_bind, evaluation_bind]
  refine Exists.imp (fun c => Exists.imp fun t => (hstep _).trans) ?_
  rw [assign_bind, record_bind, hnote]
  exact ⟨_, _, rfl⟩

omit [DecidableEq B] [Compact B] [Words B] [WordBytes B] in
/-- What is stored is there, however the save ends. -/
theorem keep_stored (requestId : JsString) (order : Order B) (t : State B) :
    (final (keep requestId order t)).evaluation.orders.get requestId = some order
      ∧ ∀ o u, keep requestId order t = .ok o u → o = order := by
  have hkeep : keep requestId order t = (checkpoint >>= fun _ => pure order : M B (Order B))
      { t with evaluation := t.evaluation.setOrder requestId order } := rfl
  have hget : (t.evaluation.setOrder requestId order).orders.get requestId = some order :=
    OrderedMap.get_set_self
  generalize ht : { t with evaluation := t.evaluation.setOrder requestId order } = t' at hkeep
  have hget' : t'.evaluation.orders.get requestId = some order := by
    rw [← ht]
    exact hget
  rw [hkeep]
  simp only [Bind.bind, EStateM.bind]
  cases hst : t'.storage with
  | false =>
    rw [checkpoint_volatile hst]
    exact ⟨hget', fun o u h => by cases h; rfl⟩
  | true =>
    rcases checkpoint_stored hst with hok | ⟨disk, -, herr⟩
    · rw [hok]
      exact ⟨hget', fun o u h => by cases h; rfl⟩
    · rw [herr]
      exact ⟨hget', fun o u h => by cases h⟩

variable [Locale]

omit [Words B] in
/-- A retry of an order that has its note begins with the note. -/
theorem resume_authorized (hp : order.phase = .authorized) :
    (resume requestId order : M B Receipt) = (do
      let order ← settle requestId order
      let order ← fulfil requestId order
      pure order.receipt) := by
  have hquote : (expireQuote requestId order : M B (Order B)) = pure order :=
    if_neg (by simp [hp])
  have hpost : (postQuote requestId order : M B (Order B)) = pure order := if_neg (by simp [hp])
  have hdraw : (authorize requestId order : M B (Order B)) = pure order := if_neg (by simp [hp])
  rw [resume, hquote, pure_bind, hpost, pure_bind, hdraw, pure_bind]

/-- A purchase of an order that is there is a retry. -/
theorem purchase_prior (hf : s.evaluation.failed = false)
    (hidle : s.evaluation.checkpointing = false)
    (ho : s.evaluation.orders.get requestId = some order)
    {l : Ledger B} {k : Keys B} (ht : Terms l k requestId order) {service : Unknown}
    {found : Service} (hfound : findService service = some found) (hid : found.id = order.service) :
    purchase service (.string order.document) (.string requestId) s = resume requestId order s := by
  have hdocument : documentOf (.string order.document) = .ok order.document := by
    simp [documentOf, ht.document]
  have hsame : (order.service != found.id || order.document != order.document) = false := by
    simp [hid]
  simp only [purchase, hfound, pure_bind]
  rw [attempt_bind hdocument, attempt_bind (intent_ok ht.intent), ensureAvailable_bind hf hidle,
    evaluation_bind, ho]
  simp only [hsame]
  rfl

variable [LawfulStateCodec B]

theorem Kept.served (hs : Kept s) (r : Request) : Kept (final (serve r s)) := by
  have hm := (serve_ends (s := s) r).moves
  generalize final (serve r s) = t at hm
  induction hm with
  | refl => exact hs
  | tail _ hstep ih => exact ih.move hstep

/-- **A retry compensates an expired note.** The evaluation can be used, the note of the order has
not been redeemed, and both times that the retry reads are past its expiry. Then the order is
compensated, even if the save is refused. -/
theorem Kept.retry_compensates (hs : Kept s) (hf : s.evaluation.failed = false)
    (ho : s.evaluation.orders.get requestId = some order) (hp : order.phase = .authorized)
    {expiry : ℤ} (hx : order.noteExpiry = some expiry)
    (htime : ∀ k < 2, isTime (s.world.clock.get k) = true
      ∧ expiry ≤ ((s.world.clock.get k).toNat : ℤ))
    {service : Unknown} {found : Service} (hfound : findService service = some found)
    (hid : found.id = order.service) :
    times (final (serve (.purchase service (.string order.document) (.string requestId)) s)).effects
      .compensated requestId = 1 := by
  have hterms := hs.sound.orders.terms _ _ ho
  -- an authorized order has its note, with the expiry that it keeps
  obtain ⟨D, hD⟩ : ∃ D, order.D = some D := by
    cases hs.sound.orders.life _ _ ho with
    | undrawn hu => simp [hp] at hu
    | live _ _ hn => exact ⟨_, hn.has⟩
    | redeemed hr => simp [hp] at hr
    | compensated hc => simp [hp] at hc
  obtain ⟨note, hn, -⟩ := hs.sound.authorized ho hp hD
  obtain rfl : order.expiry = expiry := Option.some.inj (hn.noteExpiry.symm.trans hx)
  -- the clock is asked twice: by the retry, and by the circuit
  obtain ⟨ht₀, hlate₀⟩ := htime 0 (by decide)
  obtain ⟨ht₁, hlate₁⟩ := htime 1 (by decide)
  -- the circuit is not refused
  obtain ⟨session, hc⟩ := hs.sound.compensates ho hp hD hlate₁ s.world.random.head
  obtain ⟨note', hnote'⟩ := runCircuit_compensated hc
  obtain ⟨c, t, hcomp⟩ : ∃ c t, compensate requestId order D
      { s with world := { s.world with clock := s.world.clock.tail } }
        = keep requestId (order.compensate c) t := compensate_eq ht₁ hc hnote'
  have hsettle : settle requestId order s = keep requestId (order.compensate c) t := by
    rw [settle, if_pos hp, now_bind ht₀, hD, hx]
    simp only
    rw [if_pos hlate₀, hcomp]
  -- the order is kept as compensated, whether it could be saved or not
  obtain ⟨hget, hstored⟩ := keep_stored requestId (order.compensate c) t
  have hfinal : (final (serve (.purchase service (.string order.document) (.string requestId)) s))
      = final (keep requestId (order.compensate c) t) := by
    -- the purchase finds the order and goes on with it
    have hserve : serve (.purchase service (.string order.document) (.string requestId)) s
        = (resume requestId order >>= fun receipt =>
            pure (.receipt receipt) : M B (Answer B)) s := by
      simp only [serve, Bind.bind, EStateM.bind,
        purchase_prior hf hs.idle ho hterms hfound hid]
    rw [hserve, resume_authorized hp]
    simp only [Bind.bind, EStateM.bind, hsettle]
    cases hkeep : keep requestId (order.compensate c) t with
    | error f u => rfl
    | ok o u =>
      obtain rfl := hstored o u hkeep
      rfl
  -- what the final state shows for it is the compensation
  have hk := (hs.served (.purchase service (.string order.document) (.string requestId))).sound
  rw [hfinal] at hk ⊢
  rw [hk.accounts.orders requestId .compensated (by simp), hget]
  rfl

/-- **The book and the charges at every checkpoint.** A process that was started takes any
requests, restarts among them, with any answers of the world. At every checkpoint that the
store was given, and at the end, the evaluation is `Disciplined`. And as long as no save was
refused, an order whose note has expired is compensated by the next retry that reads a time
past the expiry. -/
theorem checkpoints_disciplined {storage : Bool} {world : World B} {u : Unit} {s₀ : State B}
    (h : create storage world = .ok u s₀) (requests : List Request)
    (hs : (serveAll requests s₀).2 = s) :
    (∀ c ∈ s.checkpoints, c.snapshot = c.evaluation.snapshot ∧ Disciplined c.evaluation c.effects)
    ∧ Disciplined s.evaluation s.effects
    ∧ (s.evaluation.failed = false → ∀ requestId order expiry service found,
        s.evaluation.orders.get requestId = some order → order.phase = .authorized →
        order.noteExpiry = some expiry →
        (∀ k < 2, isTime (s.world.clock.get k) = true
          ∧ expiry ≤ ((s.world.clock.get k).toNat : ℤ)) →
        findService service = some found → found.id = order.service →
        times
          (final (serve (.purchase service (.string order.document) (.string requestId)) s)).effects
          .compensated requestId = 1) := by
  have hk : Kept s := hs ▸ serveAll_kept h requests
  refine ⟨fun c hc => ?_, hk.sound.disciplined, ?_⟩
  · have hv := hk.valid c hc
    exact ⟨hv.snapshot, hv.sound.disciplined⟩
  · intro hf requestId order expiry service found ho hp hx htime hfound hid
    exact hk.retry_compensates hf ho hp hx htime hfound hid

end Retry

/-! ## Over terms -/

namespace Demo

/-- The save after the draw is refused, and from the ninth time that is read on it is late. -/
def lateWorld : World Term :=
  { world 6 with clock := fun n => if n < 8 then .ofNat 1000 else .ofNat 2000 }

def orderId : JsString := ofAscii "request-1"

/-- The line is opened and a note drawn; the process starts again when the note has expired. -/
def expired : State Term := (serveAll [openLine, buy, .restart] (final (create true lateWorld))).2

end Demo

/-- An order is delivered, and all its checkpoints are in order. In the other run the order is
authorized when its note has expired, and the retry compensates it. -/
theorem sold_disciplined : (Demo.sold.evaluation.deliveries = 1 ∧ Demo.sold.checkpoints.length = 8
    ∧ ∀ c ∈ Demo.sold.checkpoints, Disciplined c.evaluation c.effects)
    ∧ ∃ order, Demo.expired.evaluation.orders.get Demo.orderId = some order
      ∧ order.phase = .authorized ∧ order.noteExpiry = some 1600
      ∧ times (final (serve (.purchase (.string (ofAscii "cost-report")) (.string order.document)
        (.string Demo.orderId)) Demo.expired)).effects .compensated Demo.orderId = 1 := by
  have hsold : Demo.sold.evaluation.deliveries = 1 ∧ Demo.sold.checkpoints.length = 8 := by
    decide +kernel
  have hstarted : create true (Demo.world 100) = .ok () (Demo.started 100) := rfl
  have hlate : create true Demo.lateWorld = .ok () (final (create true Demo.lateWorld)) := rfl
  refine ⟨⟨hsold.1, hsold.2, fun c hc =>
    ((checkpoints_disciplined hstarted [Demo.openLine, Demo.buy] rfl).1 c hc).2⟩, ?_⟩
  -- the second run, up to an order whose note has expired
  have hexpired : Demo.expired.evaluation.failed = false ∧
      (∀ k < 2, isTime (Demo.expired.world.clock.get k) = true
        ∧ (1600 : ℤ) ≤ ((Demo.expired.world.clock.get k).toNat : ℤ)) ∧
      ((Demo.expired.evaluation.orders.get Demo.orderId).any fun o =>
        o.phase == .authorized && o.noteExpiry == some 1600 &&
          (findService (.string (ofAscii "cost-report"))).any fun found =>
            found.id == o.service) = true := by
    decide +kernel
  obtain ⟨hworks, htime, horder⟩ := hexpired
  -- its only order, with the properties that the retry asks for
  obtain ⟨order, hget, hprops⟩ := (Option.any_eq_true _ _).mp horder
  simp only [Bool.and_eq_true, beq_iff_eq] at hprops
  obtain ⟨⟨hphase, hexpiry⟩, hservice⟩ := hprops
  obtain ⟨found, hfound, hid⟩ := (Option.any_eq_true _ _).mp hservice
  exact ⟨order, hget, hphase, hexpiry,
    (checkpoints_disciplined hlate [Demo.openLine, Demo.buy, .restart] rfl).2.2 hworks _ order 1600
      _ found hget hphase hexpiry htime hfound (beq_iff_eq.mp hid)⟩

/-- At the first checkpoint no line is open, and nothing opens the commitment in its place. -/
theorem first_checkpoint_not_opened :
    ∃ s₀ c, create true (Demo.world 100) = .ok () s₀ ∧ c ∈ s₀.checkpoints
      ∧ ∀ limit outstanding epoch : U64,
        lineStateCommit ⟨c.evaluation.session.state.contractDomain, agentId c.evaluation.agentKey,
          limit, outstanding, epoch⟩ c.evaluation.salt ≠ c.evaluation.session.state.lineCommit :=
  ⟨_, _, rfl, List.mem_cons_self, fun _ _ _ h => nomatch h⟩

end Line.Checkout
