import Line.Merchants.Board

/-!
# The steps of the journal are turns of the board

Which operations the suppliers prepare, and what they change themselves (`rules`). Under these rules
what becomes durable is a turn of the board, if anything: the adoption of a quoting or a redeeming
is the turn of its order, wherever and whenever it happens, since the after-state differs from the
stored state in this one order only (`Step.turns`).

That difference is fixed when the operation is prepared, with the list as it is stored then, so the
list must not change before the adoption. It does not: while an operation is pending the suppliers
edit no order, and the journal refuses to prepare a second operation. The receipt that comes with
the turn is that of the recorded transaction, hence of the order's own operation.
-/

namespace Line.Merchants

open Native Relation

variable {Res P : Type} {c : Supplier Res} {who : String → Prop} {allowed : Status → Prop}

/-- What the suppliers change themselves: an order is created, or it is delivered. -/
inductive Edit (c : Supplier Res) (who : String → Prop) (done : List String) :
    Orders Res → Orders Res → Prop
  | create {orders : Orders Res} {order : Order Res} : who order.id →
      find orders order.id = none → order.Fresh → Edit c who done orders (orders ++ [order])
  | deliver {orders : Orders Res} {id : String} {order : Order Res} {result : Res} : who id →
      find orders id = some order → order.status = .redeemed ∨ redeemId id ∈ done →
      c.fulfillOrganizationService order.service order.document = .ok result →
      Edit c who done orders (update id
        (fun order => { order with result := some result, status := .delivered }) orders)

/-- The operation posts the quote of an order. -/
structure Quotes (d : Application (Orders Res)) (x id : String) (kind : Kind) (name : String)
    (after : Owned (Orders Res)) : Prop where
  id : id = quoteId x
  kind : kind = .call
  name : name = "postQuote"
  order : ∃ order, find d.owned.data x = some order ∧ order.status = .created
  after : after = withStatus d.owned x fun order => { order with status := .quoted }

/-- The operation redeems the draw of an order. -/
structure Redeems (d : Application (Orders Res)) (x id : String) (kind : Kind) (name : String)
    (after : Owned (Orders Res)) : Prop where
  id : id = redeemId x
  kind : kind = .call
  name : name = "redeemDraw"
  order : ∃ order note, find d.owned.data x = some order
    ∧ (order.status = .created ∨ order.status = .quoted) ∧ Note.matches note order = true
    ∧ after = withStatus d.owned x
      fun order => { order with status := .redeemed, claim := some note }

/-- The operation is one of an order. -/
def Prepared (d : Application (Orders Res)) (x id : String) (kind : Kind) (name : String)
    (after : Owned (Orders Res)) : Prop :=
  Quotes d x id kind name after ∨ Redeems d x id kind name after

/-- What the suppliers do for the orders `who`. -/
def rules (c : Supplier Res) (who : String → Prop) : Rules (Orders Res) where
  prepares d id kind name after := ∃ x, who x ∧ Prepared d x id kind name after
  changes d owned := d.pending = none ∧ ReflTransGen (Edit c who d.done) d.owned.data owned.data

/-- What they do in between: the contract address is changed, which no order depends on. -/
def between (c : Supplier Res) (who : String → Prop) : Rules (Orders Res) where
  prepares := (rules c who).prepares
  changes d owned := d.pending = none ∧ owned.data = d.owned.data

def board (d : Application (Orders Res)) : Board Res := ⟨find d.owned.data, d.receipts⟩

/-- **What is stored by the suppliers.** -/
structure Orderly (c : Supplier Res) (v : View (Orders Res) P) : Prop where
  consistent : Consistent v.durable v.files
  valid : (board v.durable).Valid c
  prepared : ∀ p, v.durable.pending = some p →
    ∃ x, Prepared v.durable x p.id p.kind p.name p.after

/-- The program refuses to redeem what is redeemed. -/
def unredeemed (s : Status) : Prop := s = .created ∨ s = .quoted

/-- An edit is a turn, or none. -/
theorem Edit.turn {orders orders' : Orders Res} {receipts : List Receipt}
    (e : Edit c who (receipts.map (·.record.id)) orders orders')
    (h : (⟨find orders, receipts⟩ : Board Res).Valid c) :
    ReflTransGen (Turn c allowed) ⟨find orders, receipts⟩ ⟨find orders', receipts⟩ := by
  cases e with
  | @create order _ hnone hfresh =>
    rw [find_append hnone]
    exact .single (.create hnone hfresh)
  | @deliver id order result _ ho hs hf =>
    have hv := h.orders id order ho
    rw [find_update (f := fun order => { order with result := some result, status := .delivered })
      (fun _ => rfl) ho]
    by_cases hd : order.status = .delivered
    · -- delivered again: nothing changes
      obtain ⟨r, hf', hr⟩ := hv.delivered hd
      rw [hf] at hf'
      cases hf'
      have hsame : { order with result := some result, status := .delivered } = order := by
        cases order
        cases hd
        cases hr
        rfl
      rw [hsame, ← show find orders id = some order from ho, Function.update_eq_self]
    -- an order that was neither created nor quoted, since its redeeming is done
    · have hred : order.status = .redeemed := by
        rcases hs with hs | hs
        · exact hs
        · cases hst : order.status with
          | created => exact absurd hs (hv.created hst).2
          | quoted => exact absurd hs (hv.quoted hst).2
          | redeemed => rfl
          | delivered => exact absurd hst hd
      exact .single (.deliver (b := ⟨find orders, receipts⟩) ho hred hf)

/-- Edits are turns. -/
theorem edits_turns {orders orders' : Orders Res} {receipts : List Receipt}
    (e : ReflTransGen (Edit c who (receipts.map (·.record.id))) orders orders')
    (h : (⟨find orders, receipts⟩ : Board Res).Valid c) :
    ReflTransGen (Turn c allowed) ⟨find orders, receipts⟩ ⟨find orders', receipts⟩ := by
  have hall : ReflTransGen (Turn c allowed) ⟨find orders, receipts⟩ ⟨find orders', receipts⟩
      ∧ (⟨find orders', receipts⟩ : Board Res).Valid c := by
    induction e with
    | refl => exact ⟨.refl, h⟩
    | tail _ he ih =>
      have hturn : ∀ allowed, ReflTransGen (Turn c allowed) _ _ := fun _ => he.turn ih.2
      exact ⟨ih.1.trans (hturn allowed), turns_valid (fun _ hs => hs) (hturn unredeemed) ih.2⟩
  exact hall.1

variable {v v' : View (Orders Res) P}

/-- The receipt of a pending operation. -/
theorem confirms_of_row {d : Application (Orders Res)}
    {files : String → Option (File P)} (h : Consistent d files) {p : Native.Pending (Orders Res)}
    {row : Record} {receipt : Receipt} (hp : d.pending = some p) (hrow : p.record = some row)
    (hr : receipt.record = { row with disposition := .confirmedSuccess }) :
    Confirms receipt p.id p.name := by
  obtain ⟨tx, -, htx⟩ := h.row p row hp hrow
  refine ⟨?_, ?_, ?_⟩
  · rw [hr]
    exact htx.id
  · rw [hr]
    exact htx.name
  · rw [hr]

/-- **A step is a turn, if anything.** The contract says what a confirmed redeeming shows. -/
theorem Step.turns (st : Native.Step (rules c who) v v') (h : Orderly c v)
    (hallow : ∀ x order row p, v.durable.pending = some p → p.id = redeemId x →
      .observed row ∈ v.events → row.id = redeemId x → find v.durable.owned.data x = some order →
      unredeemed order.status → allowed order.status) :
    ReflTransGen (Turn c allowed) (board v.durable) (board v'.durable) := by
  cases st with
  | @change owned hc => exact edits_turns hc.2 h.valid
  | @adopt p row receipt hp hrow hobs hr =>
    have hreceipts := (h.consistent.adopt_receipts hp hrow hr).1
    -- the receipt is of the operation that was pending
    have hconf := confirms_of_row h.consistent hp hrow hr
    obtain ⟨tx, -, htx⟩ := h.consistent.row p row hp hrow
    obtain ⟨x, hq | hq⟩ := h.prepared p hp
    · obtain ⟨order, ho, hs⟩ := hq.order
      -- a quoting: one order changes, in its status
      have hboard : board (v.durable.adopt p receipt)
          = ((board v.durable).put x { order with status := .quoted }).receive receipt := by
        rw [board, hreceipts, Application.adopt, hq.after, withStatus,
          find_update (f := fun order => { order with status := .quoted }) (fun _ => rfl) ho]
        rfl
      rw [View.withEvent, hboard]
      refine .single (.quote ho hs ?_)
      rw [← hq.id, ← hq.name]
      exact hconf
    -- a redeeming: the claim is entered too
    · obtain ⟨order, note, ho, hs, hm, hafter⟩ := hq.order
      have hboard : board (v.durable.adopt p receipt) = ((board v.durable).put x
          { order with status := .redeemed, claim := some note }).receive receipt := by
        rw [board, hreceipts, Application.adopt, hafter, withStatus,
          find_update (f := fun order => { order with status := .redeemed, claim := some note })
            (fun _ => rfl) ho]
        rfl
      rw [View.withEvent, hboard]
      refine .single (.redeem ho ?_ hm ?_)
      · exact hallow x order row p hp hq.id hobs (htx.id.trans hq.id) ho hs
      · rw [← hq.id, ← hq.name]
        exact hconf
  | _ => exact .refl

/-- **A step keeps the store in order.** -/
theorem Step.orderly (st : Native.Step (rules c who) v v') (h : Orderly c v) : Orderly c v' := by
  have hvalid : (board v'.durable).Valid c :=
    turns_valid (fun _ hs => hs) (Step.turns st h fun _ _ _ _ _ _ _ _ _ hs => hs) h.valid
  refine ⟨st.consistent h.consistent, hvalid, ?_⟩
  -- the pending operation is the same, and the orders are as they were
  have hkeep : ∀ {p q : Native.Pending (Orders Res)}, v.durable.pending = some p →
      q.id = p.id → q.kind = p.kind → q.name = p.name → q.after = p.after →
      ∀ q', some q = some q' → ∃ x, Prepared { v.durable with pending := some q } x q'.id q'.kind
        q'.name q'.after := by
    intro p q hp hid hkind hname hafter q' hq'
    cases hq'
    rw [hid, hkind, hname, hafter]
    obtain ⟨x, hx | hx⟩ := h.prepared p hp
    · exact ⟨x, .inl ⟨hx.id, hx.kind, hx.name, hx.order, hx.after⟩⟩
    · exact ⟨x, .inr ⟨hx.id, hx.kind, hx.name, hx.order⟩⟩
  cases st with
  | change hc =>
    intro p hp
    have hnone : v.durable.pending = none := hc.1
    rw [show v.durable.pending = some p from hp] at hnone
    cases hnone
  | prepare _ _ _ _ _ hprep =>
    intro q hq
    cases hq
    obtain ⟨x, -, hx | hx⟩ := hprep
    · exact ⟨x, .inl ⟨hx.id, hx.kind, hx.name, hx.order, hx.after⟩⟩
    · exact ⟨x, .inr ⟨hx.id, hx.kind, hx.name, hx.order⟩⟩
  | file _ _ _ => exact h.prepared
  | readdress hp _ hk =>
    -- no operation of a supplier is a deployment
    obtain ⟨x, hx | hx⟩ := h.prepared _ hp
    · rw [hx.kind] at hk
      cases hk
    · rw [hx.kind] at hk
      cases hk
  | mark hp _ _ _ _ => exact hkeep hp rfl rfl rfl rfl
  | attempt hp _ _ => exact hkeep hp rfl rfl rfl rfl
  | submit hp _ _ _ => exact hkeep hp rfl rfl rfl rfl
  | respond hp _ _ _ _ => exact hkeep hp rfl rfl rfl rfl
  | clear _ _ _ =>
    intro q hq
    cases hq
  | observe _ _ => exact h.prepared
  | adopt _ _ _ _ =>
    intro q hq
    cases hq

end Line.Merchants
