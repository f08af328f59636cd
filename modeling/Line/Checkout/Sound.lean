import Line.Checkout.Stage

/-!
# What every stage keeps

`Sound` is the invariant of an evaluation: its ledger is one that the contract reaches, its
private book opens the ledger's commitment, every order agrees with the quote and the note
that the ledger holds for it, and the recorded effects are those that the orders show.

The parts are stated of the fields they speak of, so that a stage that leaves these fields
alone keeps the part as it is. The orders are related to the ledger one by one: a circuit
that moves one note keeps what is said of the orders of all the others (`Keeps`).
-/

namespace Line.Checkout

open Checked
open Line.Engine (JsString Words)

variable {B : Type}

/-! ## The private book -/

/-- The fields of the private book. -/
structure Books (B : Type) where
  limit : ℤ
  outstanding : ℤ
  epoch : ℤ
  salt : B
  opened : Bool
  fundedReserve : ℤ

def Evaluation.book (e : Evaluation B) : Books B :=
  ⟨e.limit, e.outstanding, e.epoch, e.salt, e.opened, e.fundedReserve⟩

/-- The book opens the commitment of the line. -/
structure Opens [Compact B] (l : Ledger B) (agentKey : B) (b : Books B) (L d n : U64) : Prop where
  limit : (L.val : ℤ) = b.limit
  outstanding : (d.val : ℤ) = b.outstanding
  epoch : (n.val : ℤ) = b.epoch
  commitment :
    lineStateCommit ⟨l.contractDomain, agentId agentKey, L, d, n⟩ b.salt = l.lineCommit

/-- The ledger and the private book agree. -/
structure Facility [DecidableEq B] [Compact B] (l : Ledger B) (k : Keys B) (b : Books B) :
    Prop where
  reaches : ∃ h, Reaches .canonical h l
  issuer : l.issuer = issuerPublicKey k.issuerKey
  funded : (l.totalReserve.val : ℤ) = b.fundedReserve
  fees : l.feeFlat = .zero 64 ∧ l.feeBps = .zero 64
  limit : 0 ≤ b.limit
  closed : b.opened = false → l.status = .NONE ∧ b.outstanding = 0 ∧ b.epoch = 0
  opened : b.opened = true → l.status = .OPEN ∧ l.identityCommit = agentId k.agentKey
    ∧ ∃ L d n, Opens l k.agentKey b L d n ∧ d.val ≤ L.val

/-! ## Orders -/

section Orders

variable [DecidableEq B] [Compact B] [WordBytes B]

/-- The note `D` of an order, and its entry in the ledger. -/
structure Noted (l : Ledger B) (k : Keys B) (order : Order B) (D : B) (note : NoteMeta B) :
    Prop where
  has : order.D = some D
  receipt : order.receipt.note = some (toHex D)
  noteExpiry : order.noteExpiry = some order.expiry
  opening : ∃ price expiry : U64, price.val = order.receipt.amount
    ∧ (expiry.val : ℤ) = order.expiry ∧ note.amount = price ∧ note.expiry = expiry
    ∧ D = order.note l k price expiry
  fee : note.fee = .zero 64
  found : l.notes.lookup D = some note
  generation : note.lineGeneration = l.lineGeneration

variable [Words B]

/-- What the ledger says about the report of a refund. -/
inductive Reported (l : Ledger B) (k : Keys B) (note : NoteMeta B) : Option JsString → Prop
  | unreported : note.refundAcknowledged = false → note.refundPaymentNullifier = pad "" →
      Reported l k note none
  | reported {reference paymentRef} : isIntent reference = true →
      paymentReference reference = .ok paymentRef → note.refundAcknowledged = true →
      note.refundPaymentNullifier = paymentNullifier k.issuerKey paymentRef l.contractDomain →
      paymentNullifier k.issuerKey paymentRef l.contractDomain ∈ l.nullifiers →
      Reported l k note (some reference)

/-- The compensation of an order, and the note's entry. -/
structure Settled (l : Ledger B) (k : Keys B) (order : Order B) (D : B) (note : NoteMeta B)
    (recorded : Compensation B) : Prop where
  has : order.compensation = some recorded
  amount : 0 ≤ recorded.amount
  credit : 0 ≤ recorded.credit
  whole : recorded.amount + recorded.credit = order.receipt.amount
  allocated : note.compensationAllocated = true
  owed : note.cashRefundOwed = decide (0 < recorded.amount)
  commitment : recorded.commitment = note.refundCommitment
  opening : ∃ amount : U64, (amount.val : ℤ) = recorded.amount
    ∧ note.refundCommitment = refundCommit
      ⟨l.contractDomain, note.lineGeneration, agentId k.agentKey, D, amount⟩ recorded.salt
  reported : Reported l k note recorded.reportedReference

/-- Where an order stands, and what the ledger says about its note there. -/
inductive Life (l : Ledger B) (k : Keys B) (order : Order B) : Prop
  | undrawn : order.phase ∈ [Phase.prepared, .quoted, .declined, .expired] → order.D = none →
      order.compensation = none → Life l k order
  | live {D note} : order.phase = .authorized → order.compensation = none →
      Noted l k order D note → note.redeemed = false → note.cancelled = false →
      note.compensationAllocated = false → Life l k order
  | redeemed {D note} : order.phase = .redeemed ∨ order.phase = .delivered →
      order.compensation = none → Noted l k order D note → note.redeemed = true →
      note.cancelled = false → Life l k order
  | compensated {D note recorded} : order.phase = .compensated → Noted l k order D note →
      note.redeemed = false → note.cancelled = true → Settled l k order D note recorded →
      Life l k order

/-- The orders and the ledger agree, and no two orders have one note. -/
structure Orders (l : Ledger B) (k : Keys B) (m : OrderedMap JsString (Order B)) : Prop where
  terms : ∀ id order, m.get id = some order → Terms l k id order
  life : ∀ id order, m.get id = some order → Life l k order
  apart : ∀ id id' order order' D, m.get id = some order → m.get id' = some order' →
    order.D = some D → order'.D = some D → id = id'

/-- What never changes in an order. -/
structure SamePurchase (order order' : Order B) : Prop where
  document : order'.document = order.document
  service : order'.service = order.service
  invoiceId : order'.invoiceId = order.invoiceId
  quoteNonce : order'.quoteNonce = order.quoteNonce
  Q : order'.Q = order.Q
  expiry : order'.expiry = order.expiry
  orderId : order'.receipt.orderId = order.receipt.orderId
  sold : order'.receipt.service = order.receipt.service
  amount : order'.receipt.amount = order.receipt.amount
  quote : order'.receipt.quote = order.receipt.quote
  noteNonce : order'.noteNonce = order.noteNonce
  noteSalt : order'.noteSalt = order.noteSalt

omit [DecidableEq B] [Compact B] [WordBytes B] [Words B] in
theorem SamePurchase.refl (order : Order B) : SamePurchase order order :=
  ⟨rfl, rfl, rfl, rfl, rfl, rfl, rfl, rfl, rfl, rfl, rfl, rfl⟩

/-- What a circuit keeps of an order: the instance and the line, the order's note, and every
nullifier. -/
structure Keeps (l l' : Ledger B) (order : Order B) : Prop where
  domain : l'.contractDomain = l.contractDomain
  generation : l'.lineGeneration = l.lineGeneration
  fees : l'.feeFlat = l.feeFlat ∧ l'.feeBps = l.feeBps
  note : ∀ D, order.D = some D → l'.notes.lookup D = l.notes.lookup D
  nullifiers : l.nullifiers ⊆ l'.nullifiers

section Keep

variable {l l' : Ledger B} {k : Keys B} {order order' : Order B} {requestId : JsString}
  {D : B} {note : NoteMeta B} {recorded : Compensation B}

omit [DecidableEq B] [Words B] in
/-- The terms are kept by a change of the order's state, too. -/
theorem Terms.keep (h : Terms l k requestId order) (hs : SamePurchase order order')
    (hl : l'.contractDomain = l.contractDomain) (hg : l'.lineGeneration = l.lineGeneration)
    (hf : l'.feeFlat = l.feeFlat ∧ l'.feeBps = l.feeBps) : Terms l' k requestId order' where
  intent := h.intent
  document := by
    rw [hs.document]
    exact h.document
  service := by
    rw [hs.service, hs.amount]
    exact h.service
  receipt := by
    rw [hs.orderId, hs.sold, hs.service]
    exact h.receipt
  quote := by
    rw [hs.amount, hs.expiry, hs.Q, hs.service, hs.invoiceId, hs.quoteNonce, hs.quote, hg, hl, hf.1,
      hf.2]
    exact h.quote

omit [Words B] in
theorem Noted.keep (h : Noted l k order D note) (hk : Keeps l l' order) :
    Noted l' k order D note where
  has := h.has
  receipt := h.receipt
  noteExpiry := h.noteExpiry
  opening := by
    obtain ⟨price, expiry, hp, he, ha, hx, hD⟩ := h.opening
    refine ⟨price, expiry, hp, he, ha, hx, ?_⟩
    rw [hD, Order.note, Order.note, hk.domain, hk.generation]
  fee := h.fee
  found := (hk.note D h.has).trans h.found
  generation := h.generation.trans hk.generation.symm

omit [Words B] in
/-- A note that moved, with the same terms, and its order in the new state. -/
theorem Noted.moved {note' : NoteMeta B} (h : Noted l k order D note)
    (hs : SamePurchase order order') (hD : order'.D = order.D)
    (hr : order'.receipt.note = order.receipt.note) (hx : order'.noteExpiry = order.noteExpiry)
    (hd : l'.contractDomain = l.contractDomain) (hg : l'.lineGeneration = l.lineGeneration)
    (hn : note.SameTerms note') (hf : l'.notes.lookup D = some note') :
    Noted l' k order' D note' where
  has := hD.trans h.has
  receipt := hr.trans h.receipt
  noteExpiry := by rw [hx, h.noteExpiry, hs.expiry]
  opening := by
    obtain ⟨price, expiry, hp, he, ha, hx, hD⟩ := h.opening
    refine ⟨price, expiry, ?_, ?_, hn.amount.trans ha, hn.expiry.trans hx, ?_⟩
    · rw [hp, hs.amount]
    · rw [he, hs.expiry]
    · rw [hD, Order.note, Order.note, hd, hg, hs.Q, hs.service, hs.noteNonce, hs.noteSalt]
  fee := hn.fee.trans h.fee
  found := hf
  generation := by rw [hn.lineGeneration, h.generation, hg]

omit [WordBytes B] in
theorem Reported.keep {reported : Option JsString} (h : Reported l k note reported)
    (hk : Keeps l l' order) : Reported l' k note reported := by
  cases h with
  | unreported ha hp => exact .unreported ha hp
  | reported hi hp ha hn hm =>
    refine .reported hi hp ha ?_ ?_
    · rw [hk.domain, hn]
    · rw [hk.domain]
      exact hk.nullifiers hm

omit [WordBytes B] in
theorem Settled.keep (h : Settled l k order D note recorded) (hk : Keeps l l' order) :
    Settled l' k order D note recorded where
  has := h.has
  amount := h.amount
  credit := h.credit
  whole := h.whole
  allocated := h.allocated
  owed := h.owed
  commitment := h.commitment
  opening := by
    rw [hk.domain]
    exact h.opening
  reported := h.reported.keep hk

theorem Life.keep (h : Life l k order) (hk : Keeps l l' order) : Life l' k order := by
  cases h with
  | undrawn hp hD hc => exact .undrawn hp hD hc
  | live hp hc hn hr hcan ha => exact .live hp hc (hn.keep hk) hr hcan ha
  | redeemed hp hc hn hr hcan => exact .redeemed hp hc (hn.keep hk) hr hcan
  | compensated hp hn hr hcan hs => exact .compensated hp (hn.keep hk) hr hcan (hs.keep hk)

/-- The note of an order is in the ledger. -/
theorem Life.mem_notes (h : Life l k order) (hD : order.D = some D) : D ∈ l.notes := by
  have hmem : ∀ {D' note}, Noted l k order D' note → D ∈ l.notes := by
    intro D' note hn
    rw [hn.has, Option.some.injEq] at hD
    rw [← hD]
    exact Finmap.mem_iff.mpr ⟨note, hn.found⟩
  cases h with
  | undrawn _ hn _ =>
    rw [hn] at hD
    cases hD
  | live _ _ hn _ _ _ => exact hmem hn
  | redeemed _ _ hn _ _ => exact hmem hn
  | compensated _ hn _ _ _ => exact hmem hn

end Keep

namespace Orders

variable {l l' : Ledger B} {k : Keys B} {m : OrderedMap JsString (Order B)} {id : JsString}
  {order : Order B}

/-- **One order in a new state**: of the others the circuit keeps everything. -/
theorem set (h : Orders l k m) (ht : Terms l' k id order) (hl : Life l' k order)
    (hkeep : ∀ id' o, id' ≠ id → m.get id' = some o → Keeps l l' o)
    (hD : ∀ D id' o, order.D = some D → id' ≠ id → m.get id' = some o → o.D ≠ some D) :
    Orders l' k (m.set id order) where
  terms := by
    intro id' o ho
    by_cases hid : id = id'
    · subst hid
      rw [OrderedMap.get_set_self, Option.some.injEq] at ho
      exact ho ▸ ht
    · rw [OrderedMap.get_set_ne hid] at ho
      have hk := hkeep id' o (Ne.symm hid) ho
      exact (h.terms id' o ho).keep (.refl o) hk.domain hk.generation hk.fees
  life := by
    intro id' o ho
    by_cases hid : id = id'
    · subst hid
      rw [OrderedMap.get_set_self, Option.some.injEq] at ho
      exact ho ▸ hl
    · rw [OrderedMap.get_set_ne hid] at ho
      exact (h.life id' o ho).keep (hkeep id' o (Ne.symm hid) ho)
  apart := by
    intro id₁ id₂ o₁ o₂ D h₁ h₂ hD₁ hD₂
    by_cases hid₁ : id = id₁
    · by_cases hid₂ : id = id₂
      · exact hid₁.symm.trans hid₂
      · -- the changed order and another one
        subst hid₁
        rw [OrderedMap.get_set_self, Option.some.injEq] at h₁
        rw [OrderedMap.get_set_ne hid₂] at h₂
        exact absurd hD₂ (hD D id₂ o₂ (h₁ ▸ hD₁) (Ne.symm hid₂) h₂)
    · rw [OrderedMap.get_set_ne hid₁] at h₁
      by_cases hid₂ : id = id₂
      · subst hid₂
        rw [OrderedMap.get_set_self, Option.some.injEq] at h₂
        exact absurd hD₁ (hD D id₁ o₁ (h₂ ▸ hD₂) (Ne.symm hid₁) h₁)
      · rw [OrderedMap.get_set_ne hid₂] at h₂
        exact h.apart id₁ id₂ o₁ o₂ D h₁ h₂ hD₁ hD₂

/-- An order that keeps its note, or has none, stays apart from the others. -/
theorem still_apart {o : Order B} (h : Orders l k m) (ho : m.get id = some o)
    (hD : order.D = o.D ∨ order.D = none) :
    ∀ D id' o', order.D = some D → id' ≠ id → m.get id' = some o' → o'.D ≠ some D := by
  intro D id' o' hsome hne ho' hD'
  rcases hD with hD | hD
  · exact hne (h.apart id' id o' o D ho' ho hD' (hD ▸ hsome))
  · rw [hD] at hsome
    cases hsome

/-- A circuit that keeps every order. -/
theorem frame (h : Orders l k m) (hkeep : ∀ id o, m.get id = some o → Keeps l l' o) :
    Orders l' k m where
  terms := by
    intro id o ho
    have hk := hkeep id o ho
    exact (h.terms id o ho).keep (.refl o) hk.domain hk.generation hk.fees
  life := fun id o ho => (h.life id o ho).keep (hkeep id o ho)
  apart := h.apart

end Orders

end Orders

/-! ## Effects -/

/-- The kinds of effects. -/
inductive Kind where
  | drawn
  | delivered
  | compensated
  | repaid
deriving DecidableEq

/-- The kind of an effect, and the request id or the reference it is about. -/
def Effect.tag : Effect → Kind × JsString
  | .drawn id _ => (.drawn, id)
  | .delivered id => (.delivered, id)
  | .compensated id _ => (.compensated, id)
  | .repaid reference _ => (.repaid, reference)

/-- How often an effect of the kind happened to the key. -/
def times (effects : List Effect) (kind : Kind) (key : JsString) : ℕ :=
  (effects.map Effect.tag).count (kind, key)

/-- The costs of all draws. -/
def drawnTotal (effects : List Effect) : ℤ :=
  (effects.map fun effect => match effect with
    | .drawn _ cost => cost
    | _ => 0).sum

/-- The credits of all compensations. -/
def creditTotal (effects : List Effect) : ℤ :=
  (effects.map fun effect => match effect with
    | .compensated _ credit => credit
    | _ => 0).sum

/-- The amounts of all repayments. -/
def repaidTotal (effects : List Effect) : ℤ :=
  (effects.map fun effect => match effect with
    | .repaid _ amount => (amount : ℤ)
    | _ => 0).sum

/-- What the effects add to the debt. -/
def debt (effects : List Effect) : ℤ :=
  drawnTotal effects - creditTotal effects - repaidTotal effects

theorem times_append (es es' : List Effect) (kind : Kind) (key : JsString) :
    times (es ++ es') kind key = times es kind key + times es' kind key := by
  simp [times]

theorem debt_append (es es' : List Effect) : debt (es ++ es') = debt es + debt es' := by
  simp only [debt, drawnTotal, creditTotal, repaidTotal, List.map_append, List.sum_append]
  omega

theorem times_singleton (x : Effect) (kind : Kind) (key : JsString) :
    times [x] kind key = if x.tag = (kind, key) then 1 else 0 := by
  simp [times, List.count_singleton, beq_iff_eq]

/-- Effects about one key only are not about another one. -/
theorem times_eq_zero {es : List Effect} {kind : Kind} {key : JsString}
    (h : ∀ x ∈ es, x.tag ≠ (kind, key)) : times es kind key = 0 := by
  refine List.count_eq_zero.mpr fun hmem => ?_
  obtain ⟨x, hx, htag⟩ := List.mem_map.mp hmem
  exact h x hx htag

/-- How often an order shows the effect of a kind. -/
def Order.shows (order : Order B) : Kind → ℕ
  | .drawn => order.D.isSome.toNat
  | .delivered => (decide (order.phase = .delivered)).toNat
  | .compensated => order.compensation.isSome.toNat
  | .repaid => 0

theorem Order.shows_le_one (order : Order B) (kind : Kind) : order.shows kind ≤ 1 := by
  cases kind with
  | repaid => exact Nat.zero_le 1
  | _ => exact Bool.toNat_le _

/-- The effects are those that the orders and the repayments show. -/
structure Accounts (m : OrderedMap JsString (Order B)) (r : OrderedMap JsString ℕ)
    (outstanding epoch : ℤ) (deliveries : ℕ) (es : List Effect) : Prop where
  outstanding : outstanding = debt es
  orders : ∀ id kind, kind ≠ .repaid →
    times es kind id = (m.get id).elim 0 fun order => order.shows kind
  repaid : ∀ reference, times es .repaid reference = if (r.get reference).isSome then 1 else 0
  epoch : epoch = m.total (Order.shows · .drawn) + m.total (Order.shows · .compensated) + r.size
  deliveries : deliveries = m.total (Order.shows · .delivered)

namespace Accounts

variable {m : OrderedMap JsString (Order B)} {r : OrderedMap JsString ℕ} {outstanding epoch : ℤ}
  {deliveries : ℕ} {es : List Effect} {id : JsString} {order order' : Order B}

/-- A new order shows nothing. -/
theorem add (h : Accounts m r outstanding epoch deliveries es) (hid : m.get id = none)
    (hs : ∀ kind, order.shows kind = 0) :
    Accounts (m.set id order) r outstanding epoch deliveries es where
  outstanding := h.outstanding
  orders := by
    intro id' kind hkind
    rw [h.orders id' kind hkind, OrderedMap.get_set]
    by_cases heq : id = id'
    · subst heq
      rw [if_pos rfl, hid]
      exact (hs kind).symm
    · rw [if_neg heq]
  repaid := h.repaid
  epoch := by
    rw [h.epoch, OrderedMap.total_set_new _ hid, OrderedMap.total_set_new _ hid, hs, hs]
    simp
  deliveries := by
    rw [h.deliveries, OrderedMap.total_set_new _ hid, hs]
    rfl

/-- **An order in a new state**: it shows what it showed, and the new effects. -/
theorem set (ev : List Effect) (h : Accounts m r outstanding epoch deliveries es)
    (hid : m.get id = some order)
    (hs : ∀ kind, kind ≠ .repaid → order'.shows kind = order.shows kind + times ev kind id)
    (hev : ∀ x ∈ ev, x.tag.1 ≠ .repaid ∧ x.tag.2 = id) {outstanding' epoch' : ℤ}
    {deliveries' : ℕ} (hout : outstanding' = outstanding + debt ev)
    (hep : epoch' = epoch + times ev .drawn id + times ev .compensated id)
    (hdel : deliveries' = deliveries + times ev .delivered id) :
    Accounts (m.set id order') r outstanding' epoch' deliveries' (ev ++ es) where
  outstanding := by
    rw [hout, debt_append, h.outstanding]
    omega
  orders := by
    intro id' kind hkind
    rw [times_append, h.orders id' kind hkind, OrderedMap.get_set]
    by_cases heq : id = id'
    · subst heq
      rw [if_pos rfl, hid]
      simp only [Option.elim_some]
      rw [hs kind hkind]
      omega
    · have hzero : times ev kind id' = 0 := by
        refine times_eq_zero fun x hx htag => heq ?_
        rw [← (hev x hx).2, htag]
      rw [if_neg heq, hzero, Nat.zero_add]
  repaid := by
    intro reference
    have hzero : times ev .repaid reference = 0 := by
      refine times_eq_zero fun x hx htag => (hev x hx).1 ?_
      rw [htag]
    rw [times_append, hzero, Nat.zero_add]
    exact h.repaid reference
  epoch := by
    have hd := OrderedMap.total_set_old (a := order') (Order.shows · .drawn) hid
    have hc := OrderedMap.total_set_old (a := order') (Order.shows · .compensated) hid
    simp only [hs .drawn (by simp), hs .compensated (by simp)] at hd hc
    rw [hep, h.epoch]
    omega
  deliveries := by
    have hd := OrderedMap.total_set_old (a := order') (Order.shows · .delivered) hid
    simp only [hs .delivered (by simp)] at hd
    rw [hdel, h.deliveries]
    omega

/-- An order in a new state that shows the same. -/
theorem same (h : Accounts m r outstanding epoch deliveries es) (hid : m.get id = some order)
    (hs : ∀ kind, order'.shows kind = order.shows kind) :
    Accounts (m.set id order') r outstanding epoch deliveries es := by
  have hdebt : outstanding = outstanding + debt [] := by
    simp [debt, drawnTotal, creditTotal, repaidTotal]
  exact h.set [] hid (fun kind _ => hs kind) (by simp) hdebt (by simp [times]) (by simp [times])

/-- A repayment under a new reference. -/
theorem repay {reference : JsString} {amount : ℕ} (h : Accounts m r outstanding epoch deliveries es)
    (hr : r.get reference = none) :
    Accounts m (r.set reference amount) (outstanding - amount) (epoch + 1) deliveries
      (.repaid reference amount :: es) where
  -- a repayment is no effect of an order
  outstanding := by
    rw [h.outstanding]
    simp only [debt, drawnTotal, creditTotal, repaidTotal, List.map_cons, List.sum_cons]
    omega
  orders := by
    intro id kind hkind
    rw [← h.orders id kind hkind]
    simp only [times, List.map_cons, Effect.tag]
    exact List.count_cons_of_ne (by simpa using fun heq _ => hkind heq.symm)
  repaid := by
    intro reference'
    have hold := h.repaid reference'
    rw [OrderedMap.get_set]
    simp only [times, List.map_cons, Effect.tag] at hold ⊢
    -- the reference is new, so it is counted once
    by_cases heq : reference = reference'
    · subst heq
      rw [hr] at hold
      rw [List.count_cons_self, hold, if_pos rfl]
      rfl
    · rw [if_neg heq, List.count_cons_of_ne (by simpa using heq), hold]
  epoch := by
    rw [h.epoch, OrderedMap.size_set_new hr]
    omega
  deliveries := h.deliveries

end Accounts

/-! ## The invariant -/

/-- What recovery tests of the identity of a session. -/
structure Identity (id issuerToken agentToken : JsString) (createdAt : ℤ) : Prop where
  id : isSessionId id = true
  issuerToken : isToken issuerToken = true
  agentToken : isToken agentToken = true
  createdAt : |createdAt| ≤ Number.maxSafe

/-- **The invariant of an evaluation** after the effects. -/
structure Sound [DecidableEq B] [Compact B] [Words B] [WordBytes B] (e : Evaluation B)
    (es : List Effect) : Prop where
  identity : Identity e.id e.issuerToken e.agentToken e.createdAt
  facility : Facility e.session.state e.keys e.book
  unopened : e.opened = false → e.orders = .empty
  orders : Orders e.session.state e.keys e.orders
  sizes : e.orders.size ≤ 100 ∧ e.repayments.size ≤ 1000
  repayments : ∀ reference amount, e.repayments.get reference = some amount →
    isIntent reference = true ∧ 1 ≤ amount ∧ amount ≤ 1000000
  accounts : Accounts e.orders e.repayments e.outstanding e.epoch e.deliveries es

end Line.Checkout
