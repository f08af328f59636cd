import Line.Native.Runs

/-!
# Exactly once

The journal over whole runs, from the first stored state: requests one after another, of an owner
that may end with any of them and is opened again (`serveAll`). Everything comes from the
invariants of the steps, as every request goes along the steps.

Not twice: an adopted operation has a receipt, receipts are kept, and an operation with a receipt is
answered from it (`operation_done`), with one look at the chain and nothing else. Not less than
once: a receipt is entered only when the after-state is adopted. And where a store has failed the
journal does nothing at all until it is opened again (`serveAll_uncertain`), since what it has in
memory may not be what was stored.
-/

namespace Line.Native

open Stateful Relation

variable {A P : Type} {R : Rules A}

/-! ## Runs -/

/-- The owner keeps to its rules at every request. -/
def ObeysAll (R : Rules A) : List (Request A) → System A P → Prop
  | [], _ => True
  | request :: rest, s => request.Obeys R s ∧ ObeysAll R rest (final (serve request s))

theorem Along.consistent {s t : System A P} (h : Along R s t)
    (hc : Consistent s.durable s.files) : Consistent t.durable t.files := by
  have hv : ∀ v, ReflTransGen (Step R) s.view v → Consistent v.durable v.files := by
    intro v hv
    induction hv with
    | refl => exact hc
    | tail _ hst ih => exact hst.consistent ih
  exact hv _ h

/-- **A run goes along the steps.** -/
theorem serveAll_along {requests : List (Request A)} {s : System A P}
    (ho : ObeysAll R requests s) (hs : Ready R s) (hc : Consistent s.durable s.files) :
    Along R s (serveAll requests s) ∧ Ready R (serveAll requests s)
      ∧ Consistent (serveAll requests s).durable (serveAll requests s).files := by
  induction requests generalizing s with
  | nil => exact ⟨.refl, hs, hc⟩
  | cons request rest ih =>
    obtain ⟨halong, hready⟩ := serve_runs ho.1 hs hc
    obtain ⟨h, hr, hc'⟩ := ih ho.2 hready (halong.consistent hc)
    exact ⟨halong.trans h, hr, hc'⟩

/-- An owner that may do anything. -/
def free : Rules A := ⟨fun _ _ _ _ _ => True, fun _ _ => True⟩

/-- One that changes its part of the state only while nothing is pending. -/
def quiet : Rules A := ⟨fun _ _ _ _ _ => True, fun d _ => d.pending = none⟩

theorem obeysAll_free (requests : List (Request A)) (s : System A P) :
    ObeysAll free requests s := by
  induction requests generalizing s with
  | nil => trivial
  | cons request rest ih =>
    refine ⟨?_, ih _⟩
    cases request with
    | operation id kind name after => exact fun _ _ => trivial
    | change f => exact fun _ _ => trivial
    | recoverPending => trivial
    | reconcile => trivial
    | save => trivial
    | reopen => trivial

/-- In this run the owner changes its part only while nothing is pending. -/
def Quiet : List (Request A) → System A P → Prop
  | [], _ => True
  | request :: rest, s =>
      (∀ f, request = .change f → s.state.pending = none) ∧ Quiet rest (final (serve request s))

theorem Quiet.obeysAll {requests : List (Request A)} {s : System A P} (h : Quiet requests s) :
    ObeysAll quiet requests s := by
  induction requests generalizing s with
  | nil => trivial
  | cons request rest ih =>
    refine ⟨?_, ih h.2⟩
    cases request with
    | operation id kind name after => exact fun _ _ => trivial
    | change f => exact fun d hd => hd.none_iff.mp (h.1 f rfl)
    | recoverPending => trivial
    | reconcile => trivial
    | save => trivial
    | reopen => trivial

/-! ## What holds in every run -/

/-- **What the journal keeps.** -/
structure Kept (v : View A P) : Prop where
  consistent : Consistent v.durable v.files
  posts : Posts v
  adoptions : Adoptions v

theorem Step.kept {v v' : View A P} (st : Step R v v') (h : Kept v) : Kept v' :=
  ⟨st.consistent h.consistent, st.posts h.consistent h.posts,
    st.adoptions h.consistent h.adoptions⟩

theorem Along.kept {s t : System A P} (h : Along R s t) (hs : Kept s.view) : Kept t.view := by
  have hv : ∀ v, ReflTransGen (Step R) s.view v → Kept v := by
    intro v hv
    induction hv with
    | refl => exact hs
    | tail _ hst ih => exact hst.kept ih
  exact hv _ h

theorem start_consistent (owned : Owned A) (world : World P) :
    Consistent (start owned world).durable (start owned world).files where
  nodup := List.nodup_nil
  fresh := by
    intro p hp
    cases hp
  owner := fun id hid => absurd rfl hid
  row := by
    intro p row hp
    cases hp

theorem start_kept (owned : Owned A) (world : World P) : Kept (start owned world).view where
  consistent := start_consistent owned world
  -- nothing happened yet, and nothing is pending
  posts := {
    once := fun _ => Nat.zero_le 1
    past := by
      intro id hid
      cases hid
    durable := by
      intro id tx d hin
      cases hin }
  adoptions := {
    once := fun _ => Nat.zero_le 1
    done := by
      intro id hid
      cases hid
    confirmed := by
      intro newer older p before heq
      cases List.append_eq_nil_iff.mp heq.symm |>.2
    -- the list of events is empty, so nothing is newer or older than an adoption
    alone := by
      intro p before hin
      cases hin
    receipts := by
      intro receipt hin
      cases hin }

theorem start_ready (owned : Owned A) (world : World P) : Ready R (start owned world) :=
  fun _ _ => .refl _

/-- Receipts are only added. -/
theorem Step.receipts_prefix {v v' : View A P} (st : Step R v v')
    (hc : Consistent v.durable v.files) : v.durable.receipts <+: v'.durable.receipts := by
  cases st with
  | @adopt p row receipt hp hrow _ hr =>
    rw [View.withEvent, (hc.adopt_receipts hp hrow hr).1]
    exact List.prefix_append _ _
  | _ => exact List.prefix_rfl

theorem Along.receipts_prefix {s t : System A P} (h : Along R s t)
    (hc : Consistent s.durable s.files) : s.durable.receipts <+: t.durable.receipts := by
  have hv : ∀ v, ReflTransGen (Step R) s.view v →
      Consistent v.durable v.files ∧ s.durable.receipts <+: v.durable.receipts := by
    intro v hv
    induction hv with
    | refl => exact ⟨hc, List.prefix_rfl⟩
    | tail _ hst ih => exact ⟨hst.consistent ih.1, ih.2.trans (hst.receipts_prefix ih.1)⟩
  exact (hv _ h).2

theorem start_based (owned : Owned A) (world : World P) : Based (start owned world).view where
  pending := by
    intro p hp
    cases hp
  adopted := by
    intro p before hin
    cases hin

theorem Along.based {s t : System A P} (h : Along quiet s t) (hs : Based s.view) :
    Based t.view := by
  have hv : ∀ v, ReflTransGen (Step quiet) s.view v → Based v := by
    intro v hv
    induction hv with
    | refl => exact hs
    | tail _ hst ih => exact hst.based (fun _ _ hd => hd) ih
  exact hv _ h

/-! ## One request -/

/-- The journal takes an operation of the id, and the receipt reader answers. -/
structure Answers (s : System A P) (id : String) : Prop where
  certain : s.persistenceUncertain = false
  operation : isOperationId id = true
  settled : s.state.pending = none
  reader : ∃ observation, s.world.observations.head = .answer observation

/-- What becomes of an operation that was completed before. -/
structure Replays (s : System A P) (id : String)
    (result : EStateM.Result Failure (System A P) (Option Receipt)) : Prop where
  /-- Nothing becomes durable. -/
  view : (final result).view = s.view
  /-- What is returned is its receipt, -/
  receipt : ∀ r t, result = .ok r t →
    ∃ receipt ∈ s.state.receipts, receipt.record.id = id ∧ r = some receipt
  /-- and it is returned, if the reader answers. -/
  returned : Answers s id → ∃ r t, result = .ok r t

/-- **A completed operation is not done again.** -/
theorem operation_done {s : System A P} {id : String} {kind : Kind} {name : String}
    {after : Owned A} (h : id ∈ s.state.done) :
    Replays s id (operation id kind name after s) := by
  -- what is refused changes nothing; it is no answer only where a test fails
  have hrefuse : ∀ e, operation id kind name after s = .error e s → ¬ Answers s id →
      Replays s id (operation id kind name after s) := by
    intro e he hno
    rw [he]
    exact ⟨rfl, fun r t hr => (by cases hr), fun ha => absurd ha hno⟩
  cases hu : s.persistenceUncertain with
  | true =>
    obtain ⟨message, hm⟩ := assertJournalWritable_refused hu
    refine hrefuse _ (bind_of_error hm) fun ha => ?_
    have hcertain := ha.certain
    rw [hu] at hcertain
    cases hcertain
  | false =>
    have hok : (assertJournalWritable : M A P Unit) s = .ok ⟨⟩ s := by
      simp only [assertJournalWritable, get_bind, hu]
      rfl
    -- the tests in the source's order, each of which `Answers` excludes
    by_cases hid : (!isOperationId id) = true
    · refine hrefuse (.error "Invalid operation identifier.") ?_ fun ha => ?_
      · simp only [operation]
        rw [bind_of_ok hok, if_pos hid]
        rfl
      · rw [ha.operation] at hid
        cases hid
    by_cases hp : s.state.pending.isSome = true
    · refine hrefuse (.error
        "Reconcile the pending transaction before preparing another operation.") ?_ fun ha => ?_
      · simp only [operation]
        rw [bind_of_ok hok, if_neg hid, state_bind, if_pos hp]
        rfl
      · rw [ha.settled] at hp
        cases hp
    -- the id is that of a receipt, so the search for it finds one
    obtain ⟨receipt, hmem, hrid⟩ := List.mem_map.mp h
    cases hf : s.state.receipts.find? (·.record.id = id) with
    | none =>
      have hnone := List.find?_eq_none.mp hf receipt hmem
      exact absurd (decide_eq_true hrid) hnone
    | some retained =>
      -- from here on the function only looks at the chain
      have hop : operation id kind name after s
          = ((read : M A P Observation) >>= fun _ => pure (some retained)) s := by
        simp only [operation]
        rw [bind_of_ok hok, if_neg hid, state_bind, if_neg hp, state_bind, hf]
      rw [hop]
      cases hr : (read : M A P Observation) s with
      | error e t =>
        rw [bind_of_error hr]
        refine ⟨(ask_error hr).view, fun r t hr => (by cases hr), fun ha => ?_⟩
        obtain ⟨observation, ho⟩ := ha.reader
        rw [read, ask, get_bind] at hr
        simp only [ho] at hr
        cases hr
      -- and it answers the receipt it found
      | ok observed t =>
        rw [bind_of_ok hr]
        refine ⟨(ask_ok hr).view, ?_, fun _ => ⟨_, _, rfl⟩⟩
        intro r u hru
        cases hru
        have hrid := List.find?_some hf
        exact ⟨retained, List.mem_of_find?_eq_some hf, of_decide_eq_true hrid, rfl⟩

/-- **While the store is uncertain, the journal does nothing.** -/
theorem serve_uncertain {s : System A P} {request : Request A}
    (hu : s.persistenceUncertain = true) (hr : request.isReopen = false)
    (hf : ∀ f, request ≠ .change f) : ∃ e, serve request s = .error e s := by
  obtain ⟨message, hm⟩ := assertJournalWritable_refused hu
  cases hrun : s.running with
  | false => exact ⟨_, serve_ended hrun hr⟩
  | true =>
    rw [serve_handle (.inl hrun)]
    cases request with
    | operation id kind name after =>
      simp only [handle]
      rw [state_bind]
      exact ⟨_, bind_of_error hm⟩
    | recoverPending => exact ⟨_, bind_of_error hm⟩
    | reconcile => exact ⟨_, bind_of_error hm⟩
    | save =>
      obtain ⟨message, hsave⟩ : ∃ message, save s.state (fun _ => []) s
          = .error (.error message) s := save_refused hu
      exact ⟨_, bind_of_error (x := saveState) hsave⟩
    | change f => exact absurd rfl (hf f)
    | reopen => cases hr

/-- And so until it is opened again. -/
theorem serveAll_uncertain {requests : List (Request A)} {s : System A P}
    (hu : s.persistenceUncertain = true) (hr : ∀ request ∈ requests, request.isReopen = false) :
    (serveAll requests s).view = s.view ∧ (serveAll requests s).persistenceUncertain = true := by
  induction requests generalizing s with
  | nil => exact ⟨rfl, hu⟩
  | cons request rest ih =>
    have hrest := fun q hq => hr q (List.mem_cons_of_mem _ hq)
    have hkeep : (final (serve request s)).view = s.view
        ∧ (final (serve request s)).persistenceUncertain = true := by
      -- a change of the owner's part stays in memory, and every other request is refused
      by_cases hf : ∀ f, request ≠ .change f
      · obtain ⟨e, he⟩ := serve_uncertain hu (hr request List.mem_cons_self) hf
        rw [he]
        exact ⟨rfl, hu⟩
      · obtain ⟨f, hf⟩ := not_forall.mp hf
        obtain rfl := not_not.mp hf
        cases hrun : s.running with
        | false =>
          rw [serve_ended hrun rfl]
          exact ⟨rfl, hu⟩
        | true =>
          rw [serve_handle (.inl hrun)]
          exact ⟨rfl, hu⟩
    obtain ⟨hv, hu'⟩ := ih hkeep.2 hrest
    exact ⟨hv.trans hkeep.1, hu'⟩

/-! ## The journal -/

/-- What has happened to the operations of a process. -/
structure ExactlyOnce (s : System A P) : Prop where
  /-- The node is called once for an operation. -/
  posted : ∀ id, (postedIds s.events).count id ≤ 1
  /-- It gets the transaction of the file, and the attempt is durable by then. -/
  attempted : ∀ id tx durable, .posted id tx durable ∈ s.events →
    s.files id = some (.whole tx) ∧ ∃ p row, durable.pending = some p ∧ p.id = id
      ∧ p.record = some row ∧ row.disposition = .submissionAttempted
  adopted : ∀ id, (adoptedIds s.events).count id ≤ 1
  /-- What is adopted was confirmed before. -/
  confirmed : ∀ newer older p before, s.events = newer ++ .adopted p before :: older →
    before.pending = some p ∧ ∃ row, p.record = some row ∧ .observed row ∈ older
  prepared : ∀ p before, .prepared p before ∈ s.events → before = none
  receipts : (s.durable.receipts.map (·.record.id)).Nodup

theorem Kept.exactlyOnce {s : System A P} (h : Kept s.view) : ExactlyOnce s where
  posted := h.posts.once
  attempted := by
    intro id tx durable hin
    obtain ⟨hfile, p, row, hp, hid, hrow, hd, -⟩ := h.posts.durable id tx durable hin
    exact ⟨hfile, p, row, hp, hid, hrow, hd⟩
  adopted := h.adoptions.once
  confirmed := h.adoptions.confirmed
  prepared := h.adoptions.alone
  receipts := h.consistent.nodup

/-- **Every operation is sent and adopted once at most**, whatever ends the process, and
wherever. -/
theorem serveAll_exactlyOnce (requests : List (Request A)) (owned : Owned A) (world : World P) :
    let s := serveAll requests (start owned world)
    ExactlyOnce s
    -- an adoption replaces the state that the after-state was computed from
    ∧ (Quiet requests (start owned world) →
      ∀ p before, .adopted p before ∈ s.events → before.owned = p.base)
    ∧ (∀ more, s.durable.receipts <+: (serveAll more s).durable.receipts)
    ∧ (∀ id kind name after, id ∈ s.state.done →
      Replays s id (operation id kind name after s))
    ∧ (s.persistenceUncertain = true →
      ∀ more, (∀ request ∈ more, request.isReopen = false) →
        (serveAll more s).view = s.view
        ∧ ∀ request : Request A, request.isReopen = false → (∀ f, request ≠ .change f) →
          ∃ e, serve request (serveAll more s) = .error e (serveAll more s)) := by
  intro s
  obtain ⟨halong, hready, hc⟩ := serveAll_along (R := free)
    (obeysAll_free requests (start owned world)) (start_ready owned world)
    (start_consistent owned world)
  refine ⟨(halong.kept (start_kept owned world)).exactlyOnce, ?_, ?_, ?_, ?_⟩
  · intro hq
    obtain ⟨hquiet, -, -⟩ := serveAll_along hq.obeysAll (start_ready owned world)
      (start_consistent owned world)
    exact (hquiet.based (start_based owned world)).adopted
  · intro more
    obtain ⟨hmore, -, -⟩ := serveAll_along (obeysAll_free more s) hready hc
    exact hmore.receipts_prefix hc
  · intro id kind name after hdone
    exact operation_done hdone
  · intro hu more hmore
    obtain ⟨hview, hu'⟩ := serveAll_uncertain hu hmore
    exact ⟨hview, fun request hr hf => serve_uncertain hu' hr hf⟩

/-- Everything succeeds. -/
def calm : World Unit where
  sets := fun _ => .saved
  bins := fun _ => .written
  jsons := fun _ => .answer ()
  reads := fun _ => .answer ()
  executions := fun _ => ⟨.answer ⟨["tx"], [⟨.call, "draw", "line"⟩], "hash", ()⟩, .answer true⟩
  extrinsics := fun _ => .answer ()
  posts := fun _ => .answer (.accepted "extrinsic")
  observations := fun _ => .answer ⟨1, "head"⟩
  wallets := fun _ => .answer ()
  sanitizeServiceError := id

/-- The receipt is late: the reader finds it at the second time only. -/
def late : World Unit := { calm with
  observations := fun n => if n = 0 then .failed "not yet" else .answer ⟨1, "head"⟩ }

/-- The receipt is found once. -/
def once : World Unit := { calm with
  observations := fun n => if n = 0 then .answer ⟨1, "head"⟩ else .failed "not found" }

def draw : Request ℕ := .operation "draw" .call "draw" fun owned => { owned with data := 1 }

/-- The second store of the record fails, and it cannot be known whether it is made. -/
def faulty : World Unit := { calm with
  sets := fun n => if n = 1 then .failed true "unavailable" else .saved }

/-- The draw is completed, and asked for again: its receipt is returned, and nothing else happens.
Where a store fails, nothing happens any more until the state is opened again. -/
theorem serveAll_exactlyOnce_run :
    let s := serveAll [draw] (start ⟨some "line", 0⟩ calm)
    let u := serveAll [draw] (start ⟨some "line", 0⟩ faulty)
    (s.durable.owned.data = 1 ∧ ∃ p before, .adopted p before ∈ s.events ∧ before.owned = p.base)
    ∧ (∃ receipt t, operation "draw" .call "draw" ⟨some "line", 2⟩ s = .ok (some receipt) t
      ∧ receipt ∈ s.state.receipts ∧ receipt.record.id = "draw" ∧ t.view = s.view)
    ∧ u.persistenceUncertain = true ∧ (serveAll [draw, .recoverPending] u).view = u.view := by
  intro s u
  obtain ⟨-, hbased, -, hdone, -⟩ := serveAll_exactlyOnce [draw] ⟨some "line", 0⟩ calm
  obtain ⟨-, -, -, -, huncertain⟩ := serveAll_exactlyOnce [draw] ⟨some "line", 0⟩ faulty
  refine ⟨⟨by decide +kernel, ?_⟩, ?_, by decide +kernel, ?_⟩
  -- the event of the adoption is the one with the id
  · have hadopted : "draw" ∈ adoptedIds s.events := by decide +kernel
    obtain ⟨event, hin, hid⟩ := List.mem_filterMap.mp hadopted
    cases event with
    | adopted p before =>
      refine ⟨p, before, hin, hbased ⟨?_, trivial⟩ p before hin⟩
      intro f hf
      cases hf
    | prepared _ _ => cases hid
    | posted _ _ _ => cases hid
    | observed _ => cases hid
  · have h := hdone "draw" .call "draw" ⟨some "line", 2⟩ (by decide +kernel)
    -- all that a second request of the same id is asked to pass
    have hanswers : Answers s "draw" :=
      ⟨by decide +kernel, by decide +kernel, Option.isNone_iff_eq_none.mp (by decide +kernel),
        ⟨1, "head"⟩, rfl⟩
    obtain ⟨r, t, hrun⟩ := h.returned hanswers
    obtain ⟨receipt, hmem, hid, rfl⟩ := h.receipt r t hrun
    have hview := h.view
    rw [hrun] at hview
    exact ⟨receipt, t, hrun, hmem, hid, hview⟩
  · refine (huncertain (by decide +kernel) [draw, .recoverPending] ?_).1
    decide

/-- An owner that changes its part while an operation is pending loses the change at the adoption,
although it was stored. And the receipt of a completed operation is not returned if the reader
does not find it. -/
theorem pending_change_lost :
    ((serveAll [draw, .change fun owned => { owned with data := 100 }, .save]
        (start ⟨some "line", 0⟩ late)).durable.owned.data = 100
      ∧ (serveAll [draw, .change fun owned => { owned with data := 100 }, .save, .recoverPending]
        (start ⟨some "line", 0⟩ late)).durable.owned.data = 1)
    ∧ (serveAll [draw] (start ⟨some "line", 0⟩ once)).state.done = ["draw"]
    ∧ (match serve draw (serveAll [draw] (start ⟨some "line", 0⟩ once)) with
      | .ok _ _ => none
      | .error e _ => some e) = some (.error "not found") := by
  decide +kernel

end Line.Native
