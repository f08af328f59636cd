import Line.Merchants.Orders

/-!
# The board of orders

What the suppliers are for, without the journal: a list of orders with the receipts of their
operations (`Board`), on which an order is created, quoted, redeemed and delivered, one write for
each (`Turn`). Quoting and redeeming come with the receipt, in the same write.

`Turn` has as a parameter from which statuses an order may be redeemed. The program itself refuses
only an order that is redeemed already; that an order is quoted by then comes from the contract.
-/

namespace Line.Merchants

open Native Relation

variable {Res : Type}

/-! ## One order changed -/

section Update

variable {orders : Orders Res} {id other : String} {f : Order Res → Order Res} {order : Order Res}

theorem find_cons (o : Order Res) (rest : Orders Res) (id : String) :
    find (o :: rest) id = if o.id = id then some o else find rest id := by
  rw [find, List.find?_cons]
  by_cases h : o.id = id
  · simp [h]
  · simp [h, find]

theorem find_id (h : find orders id = some order) : order.id = id := by
  have := List.find?_some h
  exact of_decide_eq_true this

theorem find_mem (h : find orders id = some order) : order ∈ orders := List.mem_of_find?_eq_some h

theorem find_update_self (hf : ∀ o, (f o).id = o.id) (h : find orders id = some order) :
    find (update id f orders) id = some (f order) := by
  induction orders with
  | nil => cases h
  | cons o rest ih =>
    rw [find_cons] at h
    by_cases ho : o.id = id
    · rw [if_pos ho] at h
      cases h
      rw [update, if_pos ho, find_cons, if_pos ((hf _).trans ho)]
    · rw [if_neg ho] at h
      rw [update, if_neg ho, find_cons, if_neg ho]
      exact ih h

theorem find_update_of_ne (hf : ∀ o, (f o).id = o.id) (hne : other ≠ id) :
    find (update id f orders) other = find orders other := by
  induction orders with
  | nil => rfl
  | cons o rest ih =>
    by_cases ho : o.id = id
    · have hne' : ¬ o.id = other := fun h => hne (h.symm.trans ho)
      rw [update, if_pos ho, find_cons, find_cons, if_neg hne', if_neg]
      rw [hf]
      exact hne'
    · rw [update, if_neg ho, find_cons, find_cons, ih]

theorem find_append_new (h : find orders id = none) (hid : order.id = id) :
    find (orders ++ [order]) id = some order := by
  rw [find, List.find?_append, show List.find? _ orders = none from h]
  simp [hid]

theorem find_append_of_ne (hne : other ≠ order.id) :
    find (orders ++ [order]) other = find orders other := by
  rw [find, List.find?_append]
  have hlast : List.find? (fun o : Order Res => decide (o.id = other)) [order] = none := by
    simp [Ne.symm hne]
  rw [hlast, Option.or_none]
  rfl

/-- As a map, only the one order is changed. -/
theorem find_update (hf : ∀ o, (f o).id = o.id) (h : find orders id = some order) :
    find (update id f orders) = Function.update (find orders) id (some (f order)) := by
  funext other
  by_cases hne : other = id
  · rw [hne, Function.update_self, find_update_self hf h]
  · rw [Function.update_of_ne hne, find_update_of_ne hf hne]

theorem find_append (h : find orders order.id = none) :
    find (orders ++ [order]) = Function.update (find orders) order.id (some order) := by
  funext other
  by_cases hne : other = order.id
  · rw [hne, Function.update_self, find_append_new h rfl]
  · rw [Function.update_of_ne hne, find_append_of_ne hne]

end Update

/-! ## The board -/

/-- The orders and the receipts of their operations. -/
structure Board (Res : Type) where
  orders : String → Option (Order Res)
  receipts : List Receipt

namespace Board

def done (b : Board Res) : List String := b.receipts.map (·.record.id)

/-- The board with one order put in place. -/
def put (b : Board Res) (id : String) (order : Order Res) : Board Res :=
  { b with orders := Function.update b.orders id (some order) }

def receive (b : Board Res) (receipt : Receipt) : Board Res :=
  { b with receipts := b.receipts ++ [receipt] }

@[simp] theorem put_self (b : Board Res) (id : String) (order : Order Res) :
    (b.put id order).orders id = some order := Function.update_self ..

@[simp] theorem put_of_ne (b : Board Res) {id other : String} (h : other ≠ id)
    (order : Order Res) : (b.put id order).orders other = b.orders other :=
  Function.update_of_ne h ..

@[simp] theorem receive_orders (b : Board Res) (receipt : Receipt) :
    (b.receive receipt).orders = b.orders := rfl

end Board

/-- An order at its beginning. -/
structure Order.Fresh (order : Order Res) : Prop where
  status : order.status = .created
  result : order.result = none
  claim : order.claim = none

/-- The receipt of the operation of the id and the circuit. -/
structure Confirms (receipt : Receipt) (id name : String) : Prop where
  id : receipt.record.id = id
  name : receipt.record.name = name
  disposition : receipt.record.disposition = .confirmedSuccess

/-- One write. An order is redeemed from a status that is `allowed`. -/
inductive Turn (c : Supplier Res) (allowed : Status → Prop) : Board Res → Board Res → Prop
  | create {b : Board Res} {order : Order Res} : b.orders order.id = none → order.Fresh →
      Turn c allowed b (b.put order.id order)
  | quote {b : Board Res} {id : String} {order : Order Res} {receipt : Receipt} :
      b.orders id = some order → order.status = .created →
      Confirms receipt (quoteId id) "postQuote" →
      Turn c allowed b ((b.put id { order with status := .quoted }).receive receipt)
  | redeem {b : Board Res} {id : String} {order : Order Res} {receipt : Receipt} {note : Note} :
      b.orders id = some order → allowed order.status → note.matches order = true →
      Confirms receipt (redeemId id) "redeemDraw" →
      Turn c allowed b
        ((b.put id { order with status := .redeemed, claim := some note }).receive receipt)
  | deliver {b : Board Res} {id : String} {order : Order Res} {result : Res} :
      b.orders id = some order → order.status = .redeemed →
      c.fulfillOrganizationService order.service order.document = .ok result →
      Turn c allowed b (b.put id { order with result := some result, status := .delivered })

/-- What is true of an order of the id `x`. The status says which receipts there are. -/
structure Order.Valid (c : Supplier Res) (done : List String) (x : String) (o : Order Res) :
    Prop where
  id : o.id = x
  created : o.status = .created → quoteId x ∉ done ∧ redeemId x ∉ done
  quoted : o.status = .quoted → quoteId x ∈ done ∧ redeemId x ∉ done
  redeemed : o.status = .redeemed ∨ o.status = .delivered →
    redeemId x ∈ done ∧ ∃ note, o.claim = some note ∧ note.matches o = true
  delivered : o.status = .delivered →
    ∃ r, c.fulfillOrganizationService o.service o.document = .ok r ∧ o.result = some r
  hidden : o.status ≠ .delivered → o.result = none

/-- **What is true of a board.** -/
structure Board.Valid (c : Supplier Res) (b : Board Res) : Prop where
  orders : ∀ x o, b.orders x = some o → o.Valid c b.done x
  /-- A receipt is one of an order. -/
  receipts : ∀ r ∈ b.receipts, ∃ x o, b.orders x = some o
    ∧ (Confirms r (quoteId x) "postQuote" ∨ Confirms r (redeemId x) "redeemDraw")

theorem quoteId_inj {x y : String} (h : quoteId x = quoteId y) : x = y := by
  simpa [quoteId] using h

theorem redeemId_inj {x y : String} (h : redeemId x = redeemId y) : x = y := by
  simpa [redeemId] using h

theorem quoteId_ne_redeemId (x y : String) : quoteId x ≠ redeemId y := by
  intro h
  have hhead := congrArg (fun s : String => s.toList.head?) h
  simp [quoteId, redeemId] at hhead

section Valid

variable {c : Supplier Res} {allowed : Status → Prop} {b b' : Board Res}

/-- Receipts of other orders do not matter. -/
theorem Order.Valid.congr {done done' : List String} {x : String} {o : Order Res}
    (h : o.Valid c done x) (hq : quoteId x ∈ done' ↔ quoteId x ∈ done)
    (hr : redeemId x ∈ done' ↔ redeemId x ∈ done) : o.Valid c done' x := by
  refine ⟨h.id, ?_, ?_, ?_, h.delivered, h.hidden⟩
  · rw [hq, hr]
    exact h.created
  · rw [hq, hr]
    exact h.quoted
  · rw [hr]
    exact h.redeemed

/-- An id without an order has no receipts. -/
theorem Board.Valid.unknown (h : b.Valid c) {x : String} (hx : b.orders x = none) :
    quoteId x ∉ b.done ∧ redeemId x ∉ b.done := by
  have hnot : ∀ i, (i = quoteId x ∨ i = redeemId x) → i ∉ b.done := by
    intro i hi hin
    obtain ⟨r, hr, hid⟩ := List.mem_map.mp hin
    obtain ⟨y, o, ho, hc⟩ := h.receipts r hr
    have hyx : y = x := by
      rcases hc with hc | hc <;> rcases hi with hi | hi
      · exact quoteId_inj (hc.id.symm.trans (hid.trans hi))
      · exact absurd (hc.id.symm.trans (hid.trans hi)) (quoteId_ne_redeemId y x)
      · exact absurd (hc.id.symm.trans (hid.trans hi)).symm (quoteId_ne_redeemId x y)
      · exact redeemId_inj (hc.id.symm.trans (hid.trans hi))
    rw [hyx, hx] at ho
    cases ho
  exact ⟨hnot _ (.inl rfl), hnot _ (.inr rfl)⟩

/-- One order put in place, without a receipt. -/
theorem Board.Valid.put (h : b.Valid c) {x : String} {o : Order Res} (ho : o.Valid c b.done x) :
    (b.put x o).Valid c where
  orders := by
    intro y o' hy
    by_cases hyx : y = x
    · rw [hyx, Board.put_self] at hy
      cases hy
      rw [hyx]
      exact ho
    · rw [Board.put_of_ne _ hyx] at hy
      exact h.orders y o' hy
  receipts := by
    intro r hr
    obtain ⟨y, o', hy, hc⟩ := h.receipts r hr
    by_cases hyx : y = x
    · refine ⟨y, o, ?_, hc⟩
      rw [hyx, Board.put_self]
    · refine ⟨y, o', ?_, hc⟩
      rw [Board.put_of_ne _ hyx]
      exact hy

theorem Board.done_receive (b : Board Res) (r : Receipt) :
    (b.receive r).done = b.done ++ [r.record.id] := by
  simp [Board.done, Board.receive]

/-- One order put in place, with its receipt. -/
theorem Board.Valid.receive (h : b.Valid c) {x : String} {o : Order Res} {r : Receipt}
    (ho : o.Valid c (b.done ++ [r.record.id]) x)
    (hr : Confirms r (quoteId x) "postQuote" ∨ Confirms r (redeemId x) "redeemDraw") :
    ((b.put x o).receive r).Valid c where
  orders := by
    have hdone : ((b.put x o).receive r).done = b.done ++ [r.record.id] :=
      (b.put x o).done_receive r
    rw [hdone]
    intro y o' hy
    by_cases hyx : y = x
    -- the order itself
    · rw [Board.receive_orders, hyx, Board.put_self] at hy
      cases hy
      rw [hyx]
      exact ho
    · rw [Board.receive_orders, Board.put_of_ne _ hyx] at hy
      -- any other one does not see the receipt, as its operations have other ids
      refine (h.orders y o' hy).congr ?_ ?_
      · rw [List.mem_append, List.mem_singleton]
        refine or_iff_left ?_
        intro heq
        rcases hr with hr | hr
        · exact hyx (quoteId_inj (heq.trans hr.id))
        · exact quoteId_ne_redeemId y x (heq.trans hr.id)
      · rw [List.mem_append, List.mem_singleton]
        refine or_iff_left ?_
        intro heq
        rcases hr with hr | hr
        · exact quoteId_ne_redeemId x y (heq.trans hr.id).symm
        · exact hyx (redeemId_inj (heq.trans hr.id))
  receipts := by
    intro r' hr'
    -- a receipt is of an order that is there, the new one of this order
    rcases List.mem_append.mp hr' with hr' | hr'
    · obtain ⟨y, o', hy, hc⟩ := h.receipts r' hr'
      by_cases hyx : y = x
      · refine ⟨y, o, ?_, hc⟩
        rw [Board.receive_orders, hyx, Board.put_self]
      · refine ⟨y, o', ?_, hc⟩
        rw [Board.receive_orders, Board.put_of_ne _ hyx]
        exact hy
    · rw [List.mem_singleton] at hr'
      subst hr'
      refine ⟨x, o, ?_, hr⟩
      rw [Board.receive_orders, Board.put_self]

/-- **A turn keeps the board valid.** -/
theorem Turn.valid (hallowed : ∀ s, allowed s → s = .created ∨ s = .quoted)
    (t : Turn c allowed b b') (h : b.Valid c) : b'.Valid c := by
  cases t with
  | @create order hnone hfresh =>
    -- an unknown order has no receipts, which is what a created one asks
    obtain ⟨hq, hr⟩ := h.unknown hnone
    refine h.put ⟨rfl, fun _ => ⟨hq, hr⟩, ?_, ?_, ?_, fun _ => hfresh.result⟩
    · intro hs
      rw [hfresh.status] at hs
      cases hs
    · intro hs
      rw [hfresh.status] at hs
      rcases hs with hs | hs
      · cases hs
      · cases hs
    · intro hs
      rw [hfresh.status] at hs
      cases hs
  | @quote id order receipt ho hs hc =>
    have hv := h.orders id order ho
    -- the receipt of the quoting comes with the status
    obtain ⟨hq, hr⟩ := hv.created hs
    refine h.receive ⟨hv.id, ?_, ?_, ?_, ?_, fun _ => hv.hidden (by rw [hs]; decide)⟩ (.inl hc)
    · intro h'
      cases h'
    · intro _
      rw [hc.id]
      refine ⟨List.mem_append_right _ (List.mem_singleton_self _), ?_⟩
      rw [List.mem_append, List.mem_singleton]
      rintro (h' | h')
      · exact hr h'
      · exact quoteId_ne_redeemId id id h'.symm
    · rintro (h' | h')
      · cases h'
      · cases h'
    · intro h'
      cases h'
  | @redeem id order receipt note ho hs hm hc =>
    have hv := h.orders id order ho
    -- an order that was delivered is redeemed by no turn
    have hne : order.status ≠ .delivered := by
      intro heq
      rcases hallowed _ hs with hs | hs
      · rw [heq] at hs
        cases hs
      · rw [heq] at hs
        cases hs
    refine h.receive ⟨hv.id, ?_, ?_, ?_, ?_, fun _ => hv.hidden hne⟩ (.inr hc)
    · intro h'
      cases h'
    · intro h'
      cases h'
    · intro _
      rw [hc.id]
      exact ⟨List.mem_append_right _ (List.mem_singleton_self _), note, rfl, hm⟩
    · intro h'
      cases h'
  | @deliver id order result ho hs hf =>
    have hv := h.orders id order ho
    -- a delivery needs no receipt: the redeeming left one
    refine h.put ⟨hv.id, ?_, ?_, ?_, ?_, ?_⟩
    · intro h'
      cases h'
    · intro h'
      cases h'
    · intro _
      exact hv.redeemed (.inl hs)
    · intro _
      exact ⟨result, hf, rfl⟩
    · intro h'
      exact absurd rfl h'

/-! ## What becomes of an order -/

def Status.rank : Status → ℕ
  | .created => 0
  | .quoted => 1
  | .redeemed => 2
  | .delivered => 3

/-- An order later on: it is bound to the same terms and the same quote, and its status never goes
back. -/
structure Order.Becomes (o o' : Order Res) : Prop where
  id : o'.id = o.id
  address : o'.address = o.address
  service : o'.service = o.service
  inputDigest : o'.inputDigest = o.inputDigest
  document : o'.document = o.document
  quote : o'.quote = o.quote
  status : o.status.rank ≤ o'.status.rank
  delivered : o.status = .delivered → o' = o

theorem Order.Becomes.refl (o : Order Res) : o.Becomes o :=
  ⟨rfl, rfl, rfl, rfl, rfl, rfl, Nat.le_refl _, fun _ => rfl⟩

theorem Order.Becomes.trans {o₁ o₂ o₃ : Order Res} (h : o₁.Becomes o₂) (h' : o₂.Becomes o₃) :
    o₁.Becomes o₃ := by
  refine ⟨h'.id.trans h.id, h'.address.trans h.address, h'.service.trans h.service,
    h'.inputDigest.trans h.inputDigest, h'.document.trans h.document, h'.quote.trans h.quote,
    Nat.le_trans h.status h'.status, ?_⟩
  intro hd
  have heq := h.delivered hd
  exact (h'.delivered (heq ▸ hd)).trans heq

/-- **A turn keeps what an order is bound to.** -/
theorem Turn.becomes (hallowed : ∀ s, allowed s → s = .created ∨ s = .quoted)
    (t : Turn c allowed b b') {x : String} {o : Order Res} (ho : b.orders x = some o) :
    ∃ o', b'.orders x = some o' ∧ o.Becomes o' := by
  -- the order that is put in place
  have hput : ∀ {id : String} {order order' : Order Res}, b.orders id = some order →
      order.Becomes order' → ∃ o', (b.put id order').orders x = some o' ∧ o.Becomes o' := by
    intro id order order' hid hbec
    by_cases hx : x = id
    · rw [hx] at ho
      obtain rfl := Option.some.inj (ho.symm.trans hid)
      exact ⟨order', by rw [hx, Board.put_self], hbec⟩
    · exact ⟨o, by rw [Board.put_of_ne _ hx, ho], .refl o⟩
  cases t with
  | @create order hnone _ =>
    have hx : x ≠ order.id := by
      intro hx
      rw [hx, hnone] at ho
      cases ho
    exact ⟨o, by rw [Board.put_of_ne _ hx, ho], .refl o⟩
  | quote hid hs _ =>
    refine hput hid ⟨rfl, rfl, rfl, rfl, rfl, rfl, ?_, ?_⟩
    · simp [hs, Status.rank]
    · intro hd
      rw [hs] at hd
      cases hd
  | redeem hid hs _ _ =>
    have hs' := hallowed _ hs
    refine hput hid ⟨rfl, rfl, rfl, rfl, rfl, rfl, ?_, ?_⟩
    · rcases hs' with hs' | hs'
      · simp [hs', Status.rank]
      · simp [hs', Status.rank]
    · intro hd
      rw [hd] at hs'
      rcases hs' with hs' | hs'
      · cases hs'
      · cases hs'
  | deliver hid hs _ =>
    refine hput hid ⟨rfl, rfl, rfl, rfl, rfl, rfl, ?_, ?_⟩
    · simp [hs, Status.rank]
    · intro hd
      rw [hs] at hd
      cases hd

/-- And so do turns one after another. -/
theorem turns_becomes (hallowed : ∀ s, allowed s → s = .created ∨ s = .quoted)
    (t : ReflTransGen (Turn c allowed) b b') {x : String} {o : Order Res}
    (ho : b.orders x = some o) : ∃ o', b'.orders x = some o' ∧ o.Becomes o' := by
  induction t with
  | refl => exact ⟨o, ho, .refl o⟩
  | tail _ ht ih =>
    obtain ⟨o₁, ho₁, h₁⟩ := ih
    obtain ⟨o₂, ho₂, h₂⟩ := ht.becomes hallowed ho₁
    exact ⟨o₂, ho₂, h₁.trans h₂⟩

theorem turns_valid (hallowed : ∀ s, allowed s → s = .created ∨ s = .quoted)
    (t : ReflTransGen (Turn c allowed) b b') (h : b.Valid c) : b'.Valid c := by
  induction t with
  | refl => exact h
  | tail _ ht ih => exact ht.valid hallowed ih

end Valid

end Line.Merchants
