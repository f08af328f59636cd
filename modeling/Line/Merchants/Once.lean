import Line.Merchants.Runs

/-!
# Every order at most once

The suppliers over whole runs: calls one after another, of a service that may end with any of them
and is started again. What is stored moves along the turns of the board. A run starts on what was
stored before (`Opened`): since no new order gets a quote, all the orders of a run are such.

That an order is quoted before it is redeemed is not tested by the program. It comes from the
contract: it pays out only draws of quotes that were posted, and the quotes of a merchant are posted
by its own service only (`Honest`).
-/

namespace Line.Merchants

open Native Stateful Relation

variable {Res P : Type} {c : Supplier Res} {who : String → Prop} {s t : System (Orders Res) P}

/-! ## What is stored -/

theorem along_orderly (h : Along (rules c who) s t) (hs : Orderly c s.view) :
    Orderly c t.view := by
  have hv : ∀ v, ReflTransGen (Native.Step (rules c who)) s.view v → Orderly c v := by
    intro v hv
    induction hv with
    | refl => exact hs
    | tail _ hst ih => exact Step.orderly hst ih
  exact hv _ h

/-- A redeeming is confirmed only after the quoting of the same order was sent. -/
def Honest (events : List (Event (Orders Res) P)) : Prop :=
  ∀ newer older row x, events = newer ++ .observed row :: older → row.id = redeemId x →
    quoteId x ∈ postedIds older

theorem Honest.of_step {v v' : View (Orders Res) P} (st : Native.Step (rules c who) v v')
    (h : Honest v'.events) : Honest v.events := by
  intro newer older row x heq hid
  rcases st.events with hev | ⟨e, hev⟩
  · exact h newer older row x (hev ▸ heq) hid
  · refine h (e :: newer) older row x ?_ hid
    rw [hev, heq]
    rfl

/-- An order that is being redeemed was quoted. -/
theorem Honest.quoted {v : View (Orders Res) P} (h : Honest v.events) (ho : Orderly c v)
    (hposts : Posts v) {x : String} {order : Order Res} {row : Record}
    {p : Native.Pending (Orders Res)}
    (hp : v.durable.pending = some p) (hid : p.id = redeemId x) (hobs : .observed row ∈ v.events)
    (hrow : row.id = redeemId x) (hfind : find v.durable.owned.data x = some order)
    (hs : unredeemed order.status) : order.status = .quoted := by
  obtain ⟨newer, older, heq⟩ := List.append_of_mem hobs
  have hposted : quoteId x ∈ postedIds v.events := by
    have hin := h newer older row x heq hrow
    rw [heq, postedIds, List.filterMap_append, List.mem_append, List.filterMap_cons]
    exact .inr hin
  rcases hposts.past _ hposted with hdone | ⟨q, row', hq, hqid, -, -⟩
  · rcases hs with hs | hs
    · exact absurd hdone ((ho.valid.orders x order hfind).created hs).1
    · exact hs
  · obtain rfl := Option.some.inj (hp.symm.trans hq)
    exact absurd (hqid.symm.trans hid) (quoteId_ne_redeemId x x)

/-- **What is stored moves along the turns.** -/
theorem along_turns (h : Along (rules c who) s t) (hs : Orderly c s.view) (hp : Posts s.view)
    (hh : Honest t.events) :
    ReflTransGen (Turn c (· = .quoted)) (board s.durable) (board t.durable) := by
  have hv : ∀ v, ReflTransGen (Native.Step (rules c who)) s.view v → Honest v.events →
      Orderly c v ∧ Posts v
        ∧ ReflTransGen (Turn c (· = .quoted)) (board s.durable) (board v.durable) := by
    intro v hv
    induction hv with
    | refl => exact fun _ => ⟨hs, hp, .refl⟩
    | tail _ hst ih =>
      intro hh'
      have hh₁ := Honest.of_step hst hh'
      obtain ⟨ho, hposts, hturns⟩ := ih hh₁
      refine ⟨Step.orderly hst ho, hst.posts ho.consistent hposts,
        hturns.trans (Step.turns hst ho ?_)⟩
      intro x order row p hp hid hobs hrow hfind hstatus
      exact hh₁.quoted ho hposts hp hid hobs hrow hfind hstatus
  exact (hv _ h hh).2.2

/-- Even if the contract is not what it should be, an order stays what it is. -/
theorem along_becomes (h : Along (rules c who) s t) (hs : Orderly c s.view) {x : String}
    {o : Order Res} (ho : find s.durable.owned.data x = some o) :
    ∃ o', find t.durable.owned.data x = some o' ∧ o.Becomes o' := by
  have hv : ∀ v, ReflTransGen (Native.Step (rules c who)) s.view v → Orderly c v
      ∧ ReflTransGen (Turn c unredeemed) (board s.durable) (board v.durable) := by
    intro v hv
    induction hv with
    | refl => exact ⟨hs, .refl⟩
    | tail _ hst ih =>
      refine ⟨Step.orderly hst ih.1, ih.2.trans (Step.turns hst ih.1 ?_)⟩
      exact fun _ _ _ _ _ _ _ _ _ hstatus => hstatus
  exact turns_becomes (fun _ hs => hs) (hv _ h).2 ho

/-- What is sent is the quoting or the redeeming of an order. -/
theorem posted_order (ho : Orderly c s.view) (hposts : Posts s.view) {id : String}
    (h : id ∈ postedIds s.events) :
    ∃ x o, find s.durable.owned.data x = some o ∧ (id = quoteId x ∨ id = redeemId x) := by
  rcases hposts.past id h with hdone | ⟨p, row, hp, hid, -, -⟩
  · obtain ⟨r, hr, hrid⟩ := List.mem_map.mp hdone
    obtain ⟨x, o, hfind, hconf⟩ := ho.valid.receipts r hr
    refine ⟨x, o, hfind, ?_⟩
    rcases hconf with hconf | hconf
    · exact .inl (hrid.symm.trans hconf.id)
    · exact .inr (hrid.symm.trans hconf.id)
  · obtain ⟨x, hx | hx⟩ := ho.prepared p hp
    · obtain ⟨order, hfind, -⟩ := hx.order
      exact ⟨x, order, hfind, .inl (hid.symm.trans hx.id)⟩
    · obtain ⟨order, -, hfind, -⟩ := hx.order
      exact ⟨x, order, hfind, .inr (hid.symm.trans hx.id)⟩

/-! ## Other orders -/

theorem Edit.find_of_ne {done : List String} {x y : String} {orders orders' : Orders Res}
    (e : Edit c (· = x) done orders orders') (hne : y ≠ x) :
    find orders' y = find orders y := by
  cases e with
  | create hx _ _ => exact find_append_of_ne (hx ▸ hne)
  | deliver hx _ _ _ => exact find_update_of_ne (fun _ => rfl) (hx ▸ hne)

/-- The operation is one of the order `y`. -/
def IsOperationOf (y : String) (p : Native.Pending (Orders Res)) : Prop :=
  p.id = quoteId y ∨ p.id = redeemId y

/-- Operations of other orders leave it alone. -/
theorem Prepared.find_of_ne {d : Application (Orders Res)} {x y id : String} {kind : Kind}
    {name : String} {after : Owned (Orders Res)} (h : Prepared d x id kind name after)
    (hne : y ≠ x) : find after.data y = find d.owned.data y := by
  rcases h with h | h
  · rw [h.after]
    exact find_update_of_ne (fun _ => rfl) hne
  · obtain ⟨order, note, -, -, -, hafter⟩ := h.order
    rw [hafter]
    exact find_update_of_ne (fun _ => rfl) hne

theorem Prepared.isOperationOf {d : Application (Orders Res)} {x y : String}
    {p : Native.Pending (Orders Res)} (h : Prepared d x p.id p.kind p.name p.after)
    (hy : IsOperationOf y p) : y = x := by
  rcases h with h | h
  · rcases hy with hy | hy
    · exact quoteId_inj (hy.symm.trans h.id)
    · exact absurd (h.id.symm.trans hy) (quoteId_ne_redeemId x y)
  · rcases hy with hy | hy
    · exact absurd (hy.symm.trans h.id) (quoteId_ne_redeemId y x)
    · exact redeemId_inj (hy.symm.trans h.id)

theorem Prepared.operation {d : Application (Orders Res)} {x : String}
    {p : Native.Pending (Orders Res)}
    (h : Prepared d x p.id p.kind p.name p.after) : IsOperationOf x p := by
  rcases h with h | h
  · exact .inl h.id
  · exact .inr h.id

/-- A step for one order leaves every other one alone, except for one that is pending. -/
theorem Step.find_of_ne {x y : String} {v v' : View (Orders Res) P}
    (st : Native.Step (rules c (· = x)) v v') (ho : Orderly c v) (hne : y ≠ x)
    (hp : ∀ p, v.durable.pending = some p → ¬ IsOperationOf y p) :
    find v'.durable.owned.data y = find v.durable.owned.data y
      ∧ ∀ p, v'.durable.pending = some p → ¬ IsOperationOf y p := by
  -- a pending operation of another order stays that
  have hkeep : ∀ {p q : Native.Pending (Orders Res)}, v.durable.pending = some p → q.id = p.id →
      ∀ q', some q = some q' → ¬ IsOperationOf y q' := by
    intro p q hpend hid q' hq hy
    cases hq
    refine hp p hpend ?_
    rw [IsOperationOf, ← hid]
    exact hy
  cases st with
  | @change owned hc =>
    refine ⟨?_, hp⟩
    -- changes of the list are edits of the order that the step is for
    have hall : ∀ orders, ReflTransGen (Edit c (· = x) v.durable.done) v.durable.owned.data orders →
        find orders y = find v.durable.owned.data y := by
      intro orders he
      induction he with
      | refl => rfl
      | tail _ he ih => exact (he.find_of_ne hne).trans ih
    exact hall _ hc.2
  | prepare _ _ _ _ _ hprep =>
    refine ⟨rfl, ?_⟩
    intro q hq hy
    cases hq
    obtain ⟨x', hx', hprep⟩ := hprep
    obtain rfl : x' = x := hx'
    exact hne (hprep.isOperationOf hy)
  | @adopt p row receipt hpend _ _ _ =>
    refine ⟨?_, fun q hq => nomatch hq⟩
    obtain ⟨x', hprep⟩ := ho.prepared p hpend
    -- an adoption changes the order whose operation was pending
    have hne' : y ≠ x' := by
      intro heq
      exact hp p hpend (heq ▸ hprep.operation)
    exact hprep.find_of_ne hne'
  | file _ _ _ => exact ⟨rfl, hp⟩
  | readdress hpend _ _ => exact ⟨rfl, hkeep hpend rfl⟩
  | mark hpend _ _ _ _ => exact ⟨rfl, hkeep hpend rfl⟩
  | attempt hpend _ _ => exact ⟨rfl, hkeep hpend rfl⟩
  | submit hpend _ _ _ => exact ⟨rfl, hkeep hpend rfl⟩
  | respond hpend _ _ _ _ => exact ⟨rfl, hkeep hpend rfl⟩
  | clear _ _ _ => exact ⟨rfl, fun q hq => nomatch hq⟩
  | observe _ _ => exact ⟨rfl, hp⟩

/-- Between two calls it does not matter which orders they are about. -/
theorem ready_between {who' : String → Prop} (hs : Ready (between c who) s) :
    Ready (between c who') s := by
  intro hr hu
  have ha := hs hr hu
  exact ⟨ha.receipts, ha.owned, ha.pending⟩

/-- A step leaves the pending operation of an order as it is, or drops it, or completes it. -/
theorem Step.find_of_pending {y : String} {v v' : View (Orders Res) P}
    {p : Native.Pending (Orders Res)}
    (st : Native.Step (rules c who) v v') (ho : Orderly c v) (hp : v.durable.pending = some p) :
    (find v'.durable.owned.data y = find v.durable.owned.data y
      ∧ ∀ q, v'.durable.pending = some q → q.id = p.id ∧ q.after = p.after)
    ∨ (v'.durable.pending = none ∧ p.id ∈ v'.durable.done
      ∧ find v'.durable.owned.data y = find p.after.data y) := by
  have hkeep : ∀ {p' q : Native.Pending (Orders Res)}, v.durable.pending = some p' → q.id = p'.id →
      q.after = p'.after → ∀ q', some q = some q' → q'.id = p.id ∧ q'.after = p.after := by
    intro p' q hp' hid hafter q' hq
    obtain rfl := Option.some.inj (hp'.symm.trans hp)
    cases hq
    exact ⟨hid, hafter⟩
  have hsame : ∀ q, v.durable.pending = some q → q.id = p.id ∧ q.after = p.after := by
    intro q hq
    obtain rfl := Option.some.inj (hq.symm.trans hp)
    exact ⟨rfl, rfl⟩
  cases st with
  | change hc =>
    have hnone : v.durable.pending = none := hc.1
    rw [hp] at hnone
    cases hnone
  | prepare hnone _ _ _ _ _ =>
    rw [hp] at hnone
    cases hnone
  | readdress hp' _ hk =>
    -- no operation of a supplier is a deployment
    obtain ⟨x, hx | hx⟩ := ho.prepared _ hp'
    · rw [hx.kind] at hk
      cases hk
    · rw [hx.kind] at hk
      cases hk
  | file _ _ _ => exact .inl ⟨rfl, hsame⟩
  | mark hp' _ _ _ _ => exact .inl ⟨rfl, hkeep hp' rfl rfl⟩
  | attempt hp' _ _ => exact .inl ⟨rfl, hkeep hp' rfl rfl⟩
  | submit hp' _ _ _ => exact .inl ⟨rfl, hkeep hp' rfl rfl⟩
  | respond hp' _ _ _ _ => exact .inl ⟨rfl, hkeep hp' rfl rfl⟩
  | clear _ _ _ => exact .inl ⟨rfl, fun q hq => nomatch hq⟩
  | observe _ _ => exact .inl ⟨rfl, hsame⟩
  | @adopt q row receipt hq hrow _ hr =>
    obtain rfl := Option.some.inj (hq.symm.trans hp)
    refine .inr ⟨rfl, ?_, rfl⟩
    rw [View.withEvent, ho.consistent.adopt_done hp hrow hr]
    exact List.mem_append_right _ (List.mem_singleton_self _)

/-- What is done stays done. -/
theorem Step.done {v v' : View (Orders Res) P} (st : Native.Step (rules c who) v v')
    (ho : Orderly c v) {id : String} (h : id ∈ v.durable.done) : id ∈ v'.durable.done :=
  ((st.receipts_prefix ho.consistent).map (·.record.id)).subset h

/-- **A call about one order leaves the others alone.** Only the operation of another order that was
pending before may be completed, and then that order is what this operation makes of it. -/
theorem along_find_of_ne {x y : String} (h : Along (rules c (· = x)) s t)
    (hs : Orderly c s.view) (hne : y ≠ x) :
    find t.durable.owned.data y = find s.durable.owned.data y
      ∨ ∃ p, s.durable.pending = some p ∧ IsOperationOf y p ∧ p.id ∈ t.durable.done
        ∧ find t.durable.owned.data y = find p.after.data y := by
  by_cases hp : ∃ p, s.durable.pending = some p ∧ IsOperationOf y p
  · obtain ⟨p, hp, hy⟩ := hp
    -- the operation is still the same one, or it is completed
    have hv : ∀ v, ReflTransGen (Native.Step (rules c (· = x))) s.view v → Orderly c v
        ∧ ((find v.durable.owned.data y = find s.durable.owned.data y
            ∧ ∀ q, v.durable.pending = some q → IsOperationOf y q →
              q.id = p.id ∧ q.after = p.after)
          ∨ (find v.durable.owned.data y = find p.after.data y ∧ p.id ∈ v.durable.done
            ∧ ∀ q, v.durable.pending = some q → ¬ IsOperationOf y q)) := by
      intro v hv
      induction hv with
      | refl =>
        refine ⟨hs, .inl ⟨rfl, fun q hq _ => ?_⟩⟩
        obtain rfl := Option.some.inj (hq.symm.trans hp)
        exact ⟨rfl, rfl⟩
      | @tail v₁ v₂ _ hst ih =>
        obtain ⟨ho, ⟨hfind, hsame⟩ | ⟨hfind, hdone, hnone⟩⟩ := ih
        · refine ⟨Step.orderly hst ho, ?_⟩
          by_cases hq : ∃ q, v₁.durable.pending = some q ∧ IsOperationOf y q
          · obtain ⟨q, hq, hqy⟩ := hq
            obtain ⟨hid, hafter⟩ := hsame q hq hqy
            rcases Step.find_of_pending hst ho hq with ⟨hfind', hq'⟩ | ⟨hnone, hdone, hfind'⟩
            · refine .inl ⟨hfind'.trans hfind, fun q' hq'' _ => ?_⟩
              obtain ⟨hid', hafter'⟩ := hq' q' hq''
              exact ⟨hid'.trans hid, hafter'.trans hafter⟩
            · refine .inr ⟨hafter ▸ hfind', hid ▸ hdone, fun q' hq'' => ?_⟩
              rw [hnone] at hq''
              cases hq''
          · have hother : ∀ q, v₁.durable.pending = some q → ¬ IsOperationOf y q :=
              fun q hq₁ hqy => hq ⟨q, hq₁, hqy⟩
            obtain ⟨hfind', hother'⟩ := Step.find_of_ne hst ho hne hother
            exact .inl ⟨hfind'.trans hfind, fun q' hq' hqy => absurd hqy (hother' q' hq')⟩
        · obtain ⟨hfind', hnone'⟩ := Step.find_of_ne hst ho hne hnone
          exact ⟨Step.orderly hst ho, .inr ⟨hfind'.trans hfind, Step.done hst ho hdone, hnone'⟩⟩
    rcases (hv _ h).2 with ⟨hfind, -⟩ | ⟨hfind, hdone, -⟩
    · exact .inl hfind
    · exact .inr ⟨p, hp, hy, hdone, hfind⟩
  · left
    have hv : ∀ v, ReflTransGen (Native.Step (rules c (· = x))) s.view v → Orderly c v
        ∧ find v.durable.owned.data y = find s.durable.owned.data y
        ∧ ∀ p, v.durable.pending = some p → ¬ IsOperationOf y p := by
      intro v hv
      induction hv with
      | refl => exact ⟨hs, rfl, fun p hpend hy => hp ⟨p, hpend, hy⟩⟩
      | tail _ hst ih =>
        obtain ⟨ho, hfind, hpend⟩ := ih
        obtain ⟨hfind', hpend'⟩ := Step.find_of_ne hst ho hne hpend
        exact ⟨Step.orderly hst ho, hfind'.trans hfind, hpend'⟩
    exact (hv _ h).2.1

/-! ## The suppliers -/

/-- What a call shows of the order `x`. -/
structure Exposed (c : Supplier Res) (u : System (Orders Res) P) (x : String) (a : Shown Res) :
    Prop where
  id : a.id = x
  /-- It is the stored order, with the receipts of its own operations. -/
  stored : ∃ o, find u.durable.owned.data x = some o ∧ a = o.shown x u.state
    -- a result is the one of its service, for a claim that is its own
    ∧ ∀ r, a.result = some r → a.status = .delivered
      ∧ c.fulfillOrganizationService o.service o.document = .ok r
      ∧ ∃ note, o.claim = some note ∧ note.matches o = true
  /-- A result comes with the confirmed redeeming. -/
  confirmed : a.result.isSome = true →
    ∃ receipt ∈ a.receipts, receipt ∈ u.durable.receipts
      ∧ Confirms receipt (redeemId x) "redeemDraw"

/-- The receipt of a redeeming says that it is confirmed. -/
theorem Board.Valid.redeeming {b : Board Res} (h : b.Valid c) {x : String}
    (hdone : redeemId x ∈ b.done) :
    ∃ receipt ∈ b.receipts, Confirms receipt (redeemId x) "redeemDraw" := by
  obtain ⟨receipt, hmem, hid⟩ := List.mem_map.mp hdone
  obtain ⟨y, o, -, hconf | hconf⟩ := h.receipts receipt hmem
  · exact absurd (hconf.id.symm.trans hid) (quoteId_ne_redeemId y x)
  · obtain rfl := redeemId_inj (hconf.id.symm.trans hid)
    exact ⟨receipt, hmem, hconf⟩

/-- What a call shows is the order that it asks for. -/
theorem reported_exposed {asked : Option String} {a : Shown Res} (hs : Sound (between c who) s)
    (ho : Orderly c s.view) (hr : Reported s asked (some a)) :
    ∃ x, asked = some x ∧ Exposed c s x a := by
  obtain ⟨hu, x, o, hasked, hfind, rfl⟩ := hr a rfl
  have ha := hs hu
  have hdur : find s.durable.owned.data x = some o := by
    rw [← data_of_agrees ha, hfind]
  have hv := ho.valid.orders x o hdur
  -- a result is shown with the delivered status only
  have hdelivered : ∀ r, (o.shown x s.state).result = some r → o.status = .delivered := by
    intro r hres
    by_contra hne
    simp [Order.shown, hne] at hres
  refine ⟨x, hasked, hv.id, ⟨o, hdur, rfl, ?_⟩, ?_⟩
  · intro r hres
    have hd := hdelivered r hres
    -- what the board says of a delivered order
    obtain ⟨-, hclaim⟩ := hv.redeemed (.inr hd)
    obtain ⟨r', hf, hr'⟩ := hv.delivered hd
    have hres' : o.result = some r := by simpa [Order.shown, hd] using hres
    obtain rfl := Option.some.inj (hres'.symm.trans hr')
    exact ⟨hd, hf, hclaim⟩
  · intro hres
    obtain ⟨r, hres⟩ := Option.isSome_iff_exists.mp hres
    obtain ⟨hdone, -⟩ := hv.redeemed (.inr (hdelivered r hres))
    obtain ⟨receipt, hmem, hconf⟩ := ho.valid.redeeming hdone
    -- the receipt shown is the one of the redeeming
    refine ⟨receipt, ?_, hmem, hconf⟩
    have hstate : receipt ∈ s.state.receipts := by
      rw [ha.receipts]
      exact hmem
    exact List.mem_filter.mpr ⟨hstate, by simp [hconf.id]⟩

/-- The service is opened on what a service has stored, by runs that sent what `events` says. -/
structure Opened (c : Supplier Res) (s : System (Orders Res) P) : Prop where
  loaded : s.state = s.durable
  orderly : Orderly c s.view
  posts : Posts s.view

/-- It can be opened on orders of which nothing was sent yet, and on none. -/
theorem start_opened {owned : Owned (Orders Res)}
    (h : ∀ x o, find owned.data x = some o → o.Fresh) (world : World P) :
    Opened c (start owned world) where
  loaded := rfl
  orderly := {
    consistent := start_consistent owned world
    valid := by
      refine ⟨fun x o ho => ?_, fun r hr => nomatch hr⟩
      have hfresh := h x o ho
      -- without a receipt nothing is quoted, redeemed or delivered
      refine ⟨find_id ho, fun _ => ⟨List.not_mem_nil, List.not_mem_nil⟩, ?_, ?_, ?_,
        fun _ => hfresh.result⟩
      · intro hs
        rw [hfresh.status] at hs
        cases hs
      · intro hs
        rw [hfresh.status] at hs
        rcases hs with hs | hs
        · cases hs
        · cases hs
      · intro hs
        rw [hfresh.status] at hs
        cases hs
    prepared := fun p hp => nomatch hp }
  posts := (start_kept owned world).posts

/-- What outlives a run of a service that was opened: it moved along the steps. -/
theorem Opened.run (h : Opened c s) (calls : List Call) :
    Along (rules c fun _ => True) s (serveAll c calls s)
      ∧ Ready (between c fun _ => True) (serveAll c calls s)
      ∧ Consistent (serveAll c calls s).durable (serveAll c calls s).files := by
  refine serveAll_along (fun _ _ _ _ => trivial) ?_ h.orderly.consistent
  intro _ _
  rw [h.loaded]
  exact .refl _

theorem along_posts (h : Along (rules c who) s t) (hs : Orderly c s.view) (hp : Posts s.view) :
    Posts t.view := by
  have hv : ∀ v, ReflTransGen (Native.Step (rules c who)) s.view v → Orderly c v ∧ Posts v := by
    intro v hv
    induction hv with
    | refl => exact ⟨hs, hp⟩
    | tail _ hst ih => exact ⟨Step.orderly hst ih.1, hst.posts ih.1.consistent ih.2⟩
  exact (hv _ h).2

/-- After any calls, it can be opened again. -/
theorem Opened.again (h : Opened c s) (calls : List Call) :
    Opened c (final (serve c .reopen (serveAll c calls s))) := by
  obtain ⟨halong, -, -⟩ := h.run calls
  rw [serve_reopen]
  exact ⟨rfl, along_orderly halong h.orderly, along_posts halong h.orderly h.posts⟩

/-- **Every order is quoted, redeemed and delivered once at most**, in every run of a service that
was opened on what is stored, between any two moments of it. -/
theorem serveAll_orders (c : Supplier Res) (s₀ : System (Orders Res) P) (h₀ : Opened c s₀)
    (earlier later : List Call) :
    let s := serveAll c earlier s₀
    let t := serveAll c later s
    -- what is sent
    (∀ x, (postedIds t.events).count (quoteId x) ≤ 1 ∧ (postedIds t.events).count (redeemId x) ≤ 1)
    ∧ (∀ id ∈ postedIds t.events, ∃ x o, find t.durable.owned.data x = some o
      ∧ (id = quoteId x ∨ id = redeemId x))
    -- what is stored
    ∧ (board t.durable).Valid c
    ∧ (Honest t.events →
      ReflTransGen (Turn c (· = .quoted)) (board s.durable) (board t.durable))
    ∧ (∀ x o, find s.durable.owned.data x = some o →
      ∃ o', find t.durable.owned.data x = some o' ∧ o.Becomes o')
    -- what is shown
    ∧ (∀ call a u, serve c call t = .ok (some a) u →
      ∃ x, call.asked = some x ∧ Exposed c u x a)
    -- other orders
    ∧ (∀ call x y, call.about = some x → y ≠ x →
      let u := final (serve c call t)
      find u.durable.owned.data y = find t.durable.owned.data y
        ∨ ∃ p, t.durable.pending = some p ∧ IsOperationOf y p ∧ p.id ∈ u.durable.done
          ∧ find u.durable.owned.data y = find p.after.data y) := by
  intro s t
  obtain ⟨hs, hsready, hsc⟩ := h₀.run earlier
  obtain ⟨ht, htready, htc⟩ : Along (rules c fun _ => True) s t ∧ _ :=
    serveAll_along (fun _ _ _ _ => trivial) hsready hsc
  have hso := along_orderly hs h₀.orderly
  have hsp := along_posts hs h₀.orderly h₀.posts
  have hto := along_orderly ht hso
  have htp := along_posts ht hso hsp
  refine ⟨?_, ?_, hto.valid, along_turns ht hso hsp, ?_, ?_, ?_⟩
  · intro x
    exact ⟨htp.once _, htp.once _⟩
  · intro id hid
    exact posted_order hto htp hid
  · intro x o ho
    exact along_becomes ht hso ho
  · intro call a u hcall
    obtain ⟨hu, hsu, hrep⟩ := serve_ok (fun _ _ => trivial) htready htc hcall
    exact reported_exposed hsu (along_orderly hu hto) hrep
  · intro call x y hx hne
    have hwho : ∀ x', call.about = some x' → x' = x := by
      intro x' hx'
      rw [hx] at hx'
      cases hx'
      rfl
    obtain ⟨hu, -⟩ : Along (rules c (· = x)) t (final (serve c call t)) ∧ _ :=
      serve_runs hwho (ready_between htready) htc
    exact along_find_of_ne hu hto hne

/-- Every redeeming that was confirmed is the one of the order `x`, after its quoting. -/
def quotedFirst (x : String) : List (Event (Orders Res) P) → Bool
  | [] => true
  | .observed row :: older =>
      (row.id == quoteId x || row.id == redeemId x && (postedIds older).contains (quoteId x))
        && quotedFirst x older
  | _ :: older => quotedFirst x older

theorem honest_of_quotedFirst {x : String} {events : List (Event (Orders Res) P)}
    (h : quotedFirst x events = true) : Honest events := by
  induction events with
  | nil =>
    intro newer older row y heq
    cases List.append_eq_nil_iff.mp heq.symm |>.2
  | cons e events ih =>
    intro newer older row y heq hid
    rw [List.cons_eq_append_iff] at heq
    rcases heq with ⟨-, heq⟩ | ⟨newer', -, heq⟩
    · cases heq
      rw [quotedFirst, Bool.and_eq_true, Bool.or_eq_true, Bool.and_eq_true, beq_iff_eq, beq_iff_eq,
        hid] at h
      -- the newest event is the redeeming, and the quoting is among the older ones
      rcases h.1 with hq | ⟨hr, hmem⟩
      · exact absurd hq.symm (quoteId_ne_redeemId x y)
      · rw [redeemId_inj hr]
        exact List.contains_iff_mem.mp hmem
    -- or it is older itself
    · refine ih ?_ newer' older row y heq hid
      cases e with
      | observed _ =>
        rw [quotedFirst, Bool.and_eq_true] at h
        exact h.2
      | prepared _ _ => exact h
      | posted _ _ _ => exact h
      | adopted _ _ => exact h

/-- A supplier that counts code points. -/
def sample : Supplier ℕ where
  fulfillOrganizationService _ document := .ok document.length
  decodeNote text := if text = "claim" then .ok ⟨"line", "domain", "B", "Q", 20000, 4600, 1⟩
    else .error "Invalid transfer package."
  digest := id
  merchantPublicKey merchant := if merchant = .A then "A" else "B"
  quoteCommit quote := quote.invoiceId

/-- The contract confirms a quoting, and then the redeeming of its draw. -/
def market : World Unit := { calm with
  executions := fun n => ⟨.answer ⟨["tx"],
    [⟨.call, if n = 0 then "postQuote" else "redeemDraw", "line"⟩], "hash", ()⟩, .answer true⟩ }

def saleId : String := "00000000-0000-0000-0000-000000000000"

def otherId : String := "00000000-0000-0000-0000-000000000001"

/-- An order with an invoice that has a reference of its own. -/
def stockOrder (id invoiceId : String) : Order ℕ where
  id := id
  address := "line"
  service := "content-integrity"
  inputDigest := "text"
  document := "text"
  quote := ⟨"line", "domain", "B", invoiceId, "nonce", 20000, 4600, 1, 0, 0, invoiceId⟩
  status := .created
  result := none
  createdAt := 1000
  ownerRecipient := "issuer"
  claim := none

def stock : Owned (Orders ℕ) := ⟨none, [stockOrder saleId "Q", stockOrder otherId "R"]⟩

theorem stock_opened (world : World Unit) : Opened sample (start stock world) := by
  refine start_opened ?_ world
  intro x o ho
  rcases List.mem_pair.mp (find_mem ho) with rfl | rfl
  · exact ⟨rfl, rfl, rfl⟩
  · exact ⟨rfl, rfl, rfl⟩

def quoteCall (id : String) : Call :=
  .quote id "line" "content-integrity" "text" ⟨.answer ⟨"domain", 1, 0, 0, "issuer", 100000, 0,
    0, 0, 0, 0, 0, true⟩, 1000, 1000, "nonce"⟩

def sale : List Call := [quoteCall saleId, .redeem saleId "claim" (.answer ())]

/-- What is left of the orders in a state. -/
def statuses (s : System (Orders ℕ) Unit) : List (Status × Option ℕ) :=
  s.durable.owned.data.map fun order => (order.status, order.result)

/-- The result that a call shows. -/
def shownResult (call : Call) (s : System (Orders ℕ) Unit) : Option ℕ :=
  match serve sample call s with
  | .ok (some a) _ => a.result
  | _ => none

theorem serveAll_sale :
    let t := serveAll sample sale (start stock market)
    statuses t = [(.delivered, some 4), (.created, none)]
    ∧ ReflTransGen (Turn sample (· = .quoted)) (board (start stock market).durable)
      (board t.durable)
    ∧ ∃ a u, serve sample (.order saleId) t = .ok (some a) u ∧ a.result = some 4
      ∧ Exposed sample u saleId a := by
  intro t
  -- the node redeemed only what had been quoted
  have hh : Honest (serveAll sample sale (serveAll sample [] (start stock market))).events :=
    honest_of_quotedFirst (x := saleId) (by decide +kernel)
  obtain ⟨-, -, -, hturns, -, hshown, -⟩ :=
    serveAll_orders sample _ (stock_opened market) [] sale
  refine ⟨by decide +kernel, hturns hh, ?_⟩
  -- the order is asked for at the end, and answered with its result
  have hresult : shownResult (.order saleId) t = some 4 := by decide +kernel
  rw [shownResult] at hresult
  cases hserve : serve sample (.order saleId) t with
  | error e u =>
    rw [hserve] at hresult
    cases hresult
  | ok a u =>
    rw [hserve] at hresult
    cases a with
    | none => cases hresult
    | some a =>
      obtain ⟨x, hx, hexposed⟩ := hshown (.order saleId) a u hserve
      cases hx
      exact ⟨a, u, rfl, hresult, hexposed⟩

/-- The receipt of the first quoting is late. -/
def lateMarket : World Unit := { market with
  observations := fun n => if n = 0 then .failed "not yet" else .answer ⟨1, "head"⟩ }

/-- A call about one order may complete the operation of another one, which was left pending. -/
theorem serveAll_orders_fails :
    ¬ ∀ (s₀ : System (Orders ℕ) Unit), Opened sample s₀ →
      ∀ (earlier : List Call) (call : Call) (x y : String), call.about = some x → y ≠ x →
        let s := serveAll sample earlier s₀
        Honest (final (serve sample call s)).events →
        find (final (serve sample call s)).durable.owned.data y
          = find s.durable.owned.data y := by
  intro h
  have hh : Honest (final (serve sample (.redeem otherId "claim" (.answer ()))
      (serveAll sample [quoteCall saleId] (start stock lateMarket)))).events :=
    honest_of_quotedFirst (x := saleId) (by decide +kernel)
  have hsame := h _ (stock_opened lateMarket) [quoteCall saleId]
    (.redeem otherId "claim" (.answer ())) otherId saleId rfl (by decide) hh
  have hstatus := congrArg (Option.map Order.status) hsame
  revert hstatus
  decide +kernel

end Line.Merchants
