import Line.Checkout.Sound

/-!
# Every stage keeps the invariant

One lemma for each stage. The stages that make a circuit call first read off what the
circuit checked and changed (`runCircuit_some`): which operation was called, with which
witness, and the step that the ledger took. Then the parts of `Sound` are gone through one
by one: the facility, whose book a compensation or a repayment replaces; the orders, of
which one moves; and the account, whose new effects are those that the moved order shows
in addition.

Only two things have to be looked at closely. A witness answers with the numbers of the
private book, so the contract's commitment is opened by what the evaluation thinks its
book is. And a circuit call that touches one note is told apart from the notes of the
other orders by its key, since no two orders have the same note.
-/

namespace Line.Checkout

open Checked
open Line.Engine (JsString Words)

variable {B : Type} [DecidableEq B] [Compact B]

/-! ## What every circuit keeps -/

section Circuits

variable {time : ℕ} {session session' : Session B} {ps : PrivateState B} {op : CircuitCall B}

theorem runCircuit_reaches (h : runCircuit time session ps op = some session')
    (hr : ∃ h, Reaches .canonical h session.state) : ∃ h, Reaches .canonical h session'.state := by
  obtain ⟨op', w, -, -, -, st⟩ := runCircuit_some h
  obtain ⟨h, r⟩ := hr
  exact ⟨_, .next r (calls_iff.mpr st)⟩

theorem runCircuit_same (h : runCircuit time session ps op = some session') :
    SameInstance session.state session'.state := by
  obtain ⟨op', w, -, -, -, st⟩ := runCircuit_some h
  exact st.sameInstance

end Circuits

theorem u64_eq {a b : U64} (h : (a.val : ℤ) = b.val) : a = b :=
  Uint.val_inj.mp (by exact_mod_cast h)

omit [DecidableEq B] in
theorem Opens.congr {l l' : Ledger B} {k : B} {b b' : Books B} {L d n : U64}
    (h : Opens l k b L d n) (hd : l'.contractDomain = l.contractDomain)
    (hc : l'.lineCommit = l.lineCommit) (hlim : b'.limit = b.limit)
    (hout : b'.outstanding = b.outstanding) (hep : b'.epoch = b.epoch) (hs : b'.salt = b.salt) :
    Opens l' k b' L d n where
  limit := h.limit.trans hlim.symm
  outstanding := h.outstanding.trans hout.symm
  epoch := h.epoch.trans hep.symm
  commitment := by rw [hd, hc, hs, h.commitment]

/-- A circuit that leaves the line and the reserve alone keeps the facility. -/
theorem Facility.quiet {l l' : Ledger B} {k : Keys B} {b : Books B} (h : Facility l k b)
    (hr : ∃ h, Reaches .canonical h l') (hsame : SameInstance l l')
    (ht : l'.totalReserve = l.totalReserve) (hf : l'.feeFlat = l.feeFlat ∧ l'.feeBps = l.feeBps)
    (hs : l'.status = l.status) (hi : l'.identityCommit = l.identityCommit)
    (hc : l'.lineCommit = l.lineCommit) : Facility l' k b where
  reaches := hr
  issuer := hsame.issuer.trans h.issuer
  funded := by rw [ht, h.funded]
  fees := ⟨hf.1.trans h.fees.1, hf.2.trans h.fees.2⟩
  limit := h.limit
  closed := by
    intro ho
    rw [hs]
    exact h.closed ho
  opened := by
    intro ho
    obtain ⟨hopen, hid, L, d, n, hb, hle⟩ := h.opened ho
    exact ⟨hs.trans hopen, hi.trans hid, L, d, n, hb.congr hsame.contractDomain hc rfl rfl rfl rfl,
      hle⟩

/-- A circuit that rotates the private book. -/
theorem Facility.rotated {l l' : Ledger B} {k : Keys B} {b b' : Books B} {L d n : U64}
    (h : Facility l k b) (ho : b.opened = true) (hr : ∃ h, Reaches .canonical h l')
    (hsame : SameInstance l l') (ht : l'.totalReserve = l.totalReserve)
    (hf : l'.feeFlat = l.feeFlat ∧ l'.feeBps = l.feeBps) (hs : l'.status = l.status)
    (hi : l'.identityCommit = l.identityCommit) (ho' : b'.opened = b.opened)
    (hlim : b'.limit = b.limit) (hfun : b'.fundedReserve = b.fundedReserve)
    (hb : Opens l' k.agentKey b' L d n) (hle : d.val ≤ L.val) : Facility l' k b' where
  reaches := hr
  issuer := hsame.issuer.trans h.issuer
  funded := by rw [ht, h.funded, hfun]
  fees := ⟨hf.1.trans h.fees.1, hf.2.trans h.fees.2⟩
  limit := by
    rw [hlim]
    exact h.limit
  closed := by
    intro hclosed
    rw [ho', ho] at hclosed
    cases hclosed
  opened := by
    intro _
    obtain ⟨hopen, hid, -⟩ := h.opened ho
    exact ⟨hs.trans hopen, hi.trans hid, L, d, n, hb, hle⟩

variable [Words B] [WordBytes B] {e e' : Evaluation B} {es : List Effect}

/-! ## The facility -/

/-- Without orders there is nothing to agree on. -/
theorem Orders.empty (l : Ledger B) (k : Keys B) : Orders l k .empty where
  terms := by
    intro id order h
    cases h
  life := by
    intro id order h
    cases h
  apart := by
    intro id id' order order' D h
    cases h

theorem Sound.fund {time : ℕ} {session : Session B} {credit backing : ℕ} (hs : Sound e es)
    (ho : e.opened = false) (hf : e.fundedReserve = 0)
    (hc : runCircuit time e.session
      { (blankPrivate : PrivateState B) with callerSecret := e.issuerKey } (.fundReserve backing)
        = some session) :
    Sound { e with session, fundedReserve := backing, limit := credit } es := by
  have hr := runCircuit_reaches hc hs.facility.reaches
  have hsame := runCircuit_same hc
  obtain ⟨op', w, hop, hw, -, st⟩ := runCircuit_some hc
  -- the argument of the circuit is the backing, which fits 64 bits
  obtain ⟨amount, hamount, rfl⟩ : ∃ amount : U64, (amount.val : ℤ) = backing
      ∧ Op.fundReserve amount = op' := by
    simpa [CircuitCall.op, Option.map_eq_some_iff, uint64_eq_some] using hop
  obtain ⟨l, ps⟩ := session
  simp only at st hr hsame
  obtain ⟨hclosed, hout, hep⟩ := hs.facility.closed ho
  generalize hl₀ : e.session.state = l₀ at st
  -- the reserve is funded once, before there is a book
  cases st with
  | @fundReserve _ _ _ _ T hi hpos hT =>
    subst hl₀
    refine ⟨hs.identity, ⟨hr, hs.facility.issuer, ?_, hs.facility.fees, ?_, ?_, ?_⟩,
      hs.unopened, ?_, hs.sizes, hs.repayments, hs.accounts⟩
    · have := hs.facility.funded
      simp only [Evaluation.book, hf] at this ⊢
      omega
    · simp only [Evaluation.book]
      omega
    · exact fun _ => ⟨hclosed, hout, hep⟩
    · intro h
      simp only [Evaluation.book, ho, Bool.false_eq_true] at h
    -- and there are no orders yet
    · rw [hs.unopened ho]
      exact .empty _ _

theorem Sound.openLine {time : ℕ} {session : Session B} {expiry : ℤ} (hs : Sound e es)
    (ho : e.opened = false)
    (hc : runCircuit time e.session { e.books with callerSecret := e.issuerKey }
      (.openLine expiry 0 0) = some session) :
    Sound { e with session, opened := true } es := by
  have hr := runCircuit_reaches hc hs.facility.reaches
  have hsame := runCircuit_same hc
  obtain ⟨op', w, hop, hw, -, st⟩ := runCircuit_some hc
  -- no fee is charged
  obtain ⟨x, hx, rfl⟩ : ∃ x : U64, (x.val : ℤ) = expiry
      ∧ Op.openLine x (.zero 64) (.zero 64) = op' := by
    simpa [CircuitCall.op, Option.bind_eq_some_iff, uint64_eq_some] using hop
  obtain ⟨l, ps⟩ := session
  simp only at st hr hsame
  obtain ⟨-, hout, hep⟩ := hs.facility.closed ho
  generalize hl₀ : e.session.state = l₀ at st
  cases st with
  | openLine g hg =>
    subst hl₀
    refine ⟨hs.identity, ⟨hr, hs.facility.issuer, hs.facility.funded, ⟨rfl, rfl⟩, hs.facility.limit,
      ?_, ?_⟩, ?_, ?_, hs.sizes, hs.repayments, hs.accounts⟩
    · intro h
      cases h
    -- the book is committed with the numbers that the evaluation has
    · intro _
      refine ⟨rfl, ?_, w.lineLimit 0, .zero 64, .zero 64, ⟨hw.lineLimit 0, ?_, ?_, ?_⟩, ?_⟩
      · simp only [hw.agentSecret, Evaluation.books, Evaluation.keys]
      · exact hout.symm
      · exact hep.symm
      · simp only [hw.agentSecret, hw.salt, Evaluation.books, Evaluation.keys, Evaluation.book]
      · exact Nat.zero_le _
    · intro h
      cases h
    · rw [hs.unopened ho]
      exact .empty _ _

/-! ## Orders without a circuit -/

section Orders

variable {requestId : JsString} {order : Order B}

omit [Compact B] [Words B] [WordBytes B] in
theorem Keeps.refl (l : Ledger B) (order : Order B) : Keeps l l order :=
  ⟨rfl, rfl, ⟨rfl, rfl⟩, fun _ _ => rfl, fun _ h => h⟩

/-- An order is there only once the line is open. -/
theorem Sound.opened (hs : Sound e es) (ho : e.orders.get requestId = some order) :
    e.opened = true := by
  cases h : e.opened with
  | true => rfl
  | false =>
    rw [hs.unopened h] at ho
    cases ho

/-- **A change of one order alone.** -/
theorem Sound.setOrder {order' : Order B} (ev : List Effect) (hs : Sound e es)
    (ho : e.orders.get requestId = some order) (hsame : SamePurchase order order')
    (hl : Life e.session.state e.keys order') (hD : order'.D = order.D ∨ order'.D = none)
    (ha : Accounts (e.orders.set requestId order') e.repayments e.outstanding e.epoch
      e'.deliveries (ev ++ es)) (he : { e with deliveries := e'.deliveries } = e') :
    Sound (e'.setOrder requestId order') (ev ++ es) := by
  have hterms := (hs.orders.terms _ _ ho).keep hsame rfl rfl ⟨rfl, rfl⟩
  have hopened := hs.opened ho
  rw [← he]
  refine ⟨hs.identity, hs.facility, ?_, ?_, ?_, hs.repayments, ha⟩
  · intro h
    exact absurd (hopened.symm.trans h) (by simp)
  · exact hs.orders.set hterms hl (fun _ o _ _ => .refl _ o) (hs.orders.still_apart ho hD)
  · refine ⟨?_, hs.sizes.2⟩
    simp only [Evaluation.setOrder]
    rw [OrderedMap.size_set_old ho]
    exact hs.sizes.1

omit [DecidableEq B] [Compact B] [Words B] [WordBytes B] in
/-- An order without a note shows nothing. -/
theorem Order.shows_undrawn (hp : order.phase ∈ [Phase.prepared, .quoted, .declined, .expired])
    (hD : order.D = none) (hc : order.compensation = none) (kind : Kind) :
    order.shows kind = 0 := by
  cases kind with
  | drawn => simp [Order.shows, hD]
  | delivered =>
    have : order.phase ≠ .delivered := by
      intro h
      rw [h] at hp
      simp at hp
    simp [Order.shows, this]
  | compensated => simp [Order.shows, hc]
  | repaid => rfl

theorem Sound.prepare (hs : Sound e es) (hopen : e.opened = true) (hsize : e.orders.size < 100)
    (hid : e.orders.get requestId = none) (hn : NewOrder e requestId order) :
    Sound (e.setOrder requestId order) es := by
  have hp : order.phase ∈ [Phase.prepared, .quoted, .declined, .expired] := by
    rw [hn.phase]
    exact List.mem_cons_self
  refine ⟨hs.identity, hs.facility, ?_, ?_, ?_, hs.repayments, ?_⟩
  · intro h
    exact absurd (hopen.symm.trans h) (by simp)
  · refine hs.orders.set hn.terms (.undrawn hp hn.D hn.compensation) (fun _ o _ _ => .refl _ o) ?_
    intro D id' o hD
    rw [hn.D] at hD
    cases hD
  · refine ⟨?_, hs.sizes.2⟩
    simp only [Evaluation.setOrder]
    rw [OrderedMap.size_set_new hid]
    exact hsize
  · exact hs.accounts.add hid (Order.shows_undrawn hp hn.D hn.compensation)

/-- An order that was not drawn on takes another state in which it is not. -/
theorem Sound.undrawn {order' : Order B} (hs : Sound e es)
    (ho : e.orders.get requestId = some order)
    (hp : order.phase = .prepared ∨ order.phase = .quoted) (hsame : SamePurchase order order')
    (hp' : order'.phase ∈ [Phase.prepared, .quoted, .declined, .expired])
    (hD : order'.D = order.D) (hc : order'.compensation = order.compensation) :
    Sound (e.setOrder requestId order') es := by
  have hp₀ : order.phase ∈ [Phase.prepared, .quoted, .declined, .expired] := by
    rcases hp with h | h <;> simp [h]
  obtain ⟨hD₀, hc₀⟩ : order.D = none ∧ order.compensation = none := by
    cases hs.orders.life _ _ ho with
    | undrawn _ hD hc => exact ⟨hD, hc⟩
    | live h => rcases hp with h' | h' <;> simp [h] at h'
    | redeemed h => rcases hp with h' | h' <;> simp [h'] at h
    | compensated h => rcases hp with h' | h' <;> simp [h] at h'
  have hD' := hD.trans hD₀
  have hc' := hc.trans hc₀
  refine hs.setOrder [] ho hsame (.undrawn hp' hD' hc') (.inl hD) ?_ rfl
  refine hs.accounts.same ho fun kind => ?_
  rw [Order.shows_undrawn hp' hD' hc', Order.shows_undrawn hp₀ hD₀ hc₀]

theorem Sound.expireQuote (hs : Sound e es) (ho : e.orders.get requestId = some order)
    (hp : order.phase = .prepared ∨ order.phase = .quoted) :
    Sound (e.setOrder requestId order.expire) es :=
  hs.undrawn ho hp ⟨rfl, rfl, rfl, rfl, rfl, rfl, rfl, rfl, rfl, rfl, rfl, rfl⟩
    (by simp [Order.expire]) rfl rfl

theorem Sound.decline (hs : Sound e es) (ho : e.orders.get requestId = some order)
    (hp : order.phase = .quoted) : Sound (e.setOrder requestId order.decline) es :=
  hs.undrawn ho (.inr hp) ⟨rfl, rfl, rfl, rfl, rfl, rfl, rfl, rfl, rfl, rfl, rfl, rfl⟩
    (by simp [Order.decline]) rfl rfl

theorem Sound.deliver [Locale] (hs : Sound e es) (ho : e.orders.get requestId = some order)
    (hp : order.phase = .redeemed) :
    Sound ({ e with deliveries := e.deliveries + 1 }.setOrder requestId order.deliver)
      (.delivered requestId :: es) := by
  -- a delivery is no circuit call: the note stays redeemed
  have hlife : Life e.session.state e.keys order.deliver := by
    cases hs.orders.life _ _ ho with
    | undrawn h => simp [hp] at h
    | live h => simp [hp] at h
    | redeemed _ hc hn hr hcan =>
      exact .redeemed (.inr rfl) hc
        ⟨hn.has, hn.receipt, hn.noteExpiry, hn.opening, hn.fee, hn.found, hn.generation⟩ hr hcan
    | compensated h => simp [hp] at h
  have hsp : SamePurchase order order.deliver :=
    ⟨rfl, rfl, rfl, rfl, rfl, rfl, rfl, rfl, rfl, rfl, rfl, rfl⟩
  refine hs.setOrder [.delivered requestId] ho hsp hlife (.inl rfl) ?_ rfl
  refine hs.accounts.set [.delivered requestId] ho ?_ ?_ ?_ ?_ ?_
  -- the order shows one delivery more, and nothing else
  · intro kind hkind
    cases kind with
    | drawn => simp [Order.shows, Order.deliver, times_singleton, Effect.tag]
    | delivered => simp [Order.shows, Order.deliver, times_singleton, Effect.tag, hp]
    | compensated => simp [Order.shows, Order.deliver, times_singleton, Effect.tag]
    | repaid => exact absurd rfl hkind
  · simp [Effect.tag]
  · simp [debt, drawnTotal, creditTotal, repaidTotal]
  · simp [times_singleton, Effect.tag]
  · simp [times_singleton, Effect.tag]

/-! ## Orders with a circuit -/

/-- **A circuit that moves one order**, with the private book after it. -/
theorem Sound.moved {order' : Order B} (ev : List Effect) {l : Ledger B} {ps : PrivateState B}
    {outstanding epoch : ℤ} {salt : B} (hs : Sound e es) (ho : e.orders.get requestId = some order)
    (hsame : SamePurchase order order')
    (hfac : Facility l e.keys
      ⟨e.limit, outstanding, epoch, salt, e.opened, e.fundedReserve⟩)
    (hi : SameInstance e.session.state l)
    (hg : l.lineGeneration = e.session.state.lineGeneration)
    (hf : l.feeFlat = e.session.state.feeFlat ∧ l.feeBps = e.session.state.feeBps)
    (hn : e.session.state.nullifiers ⊆ l.nullifiers)
    (hnotes : ∀ D id' o, id' ≠ requestId → e.orders.get id' = some o → o.D = some D →
      l.notes.lookup D = e.session.state.notes.lookup D)
    (hl : Life l e.keys order')
    (hD : ∀ D id' o, order'.D = some D → id' ≠ requestId → e.orders.get id' = some o →
      o.D ≠ some D)
    (ha : Accounts (e.orders.set requestId order') e.repayments outstanding epoch e.deliveries
      (ev ++ es)) :
    Sound ({ e with session := ⟨l, ps⟩, outstanding, epoch, salt }.setOrder requestId order')
      (ev ++ es) := by
  -- the terms of a purchase are fixed, so they are those of the quote still
  have hterms := (hs.orders.terms _ _ ho).keep hsame hi.contractDomain hg hf
  have hopened := hs.opened ho
  refine ⟨hs.identity, hfac, ?_, ?_, ?_, hs.repayments, ha⟩
  · intro h
    exact absurd (hopened.symm.trans h) (by simp)
  -- the ledger moved only at this order's note
  · refine hs.orders.set hterms hl ?_ hD
    intro id' o hne ho'
    exact ⟨hi.contractDomain, hg, hf, fun D hD' => hnotes D id' o hne ho' hD', hn⟩
  · refine ⟨?_, hs.sizes.2⟩
    simp only [Evaluation.setOrder]
    -- an order that is there already does not count twice
    rw [OrderedMap.size_set_old ho]
    exact hs.sizes.1

theorem Sound.postQuote {time : ℕ} {session : Session B} (hs : Sound e es)
    (ho : e.orders.get requestId = some order) (hp : order.phase = .prepared)
    (hc : runCircuit time e.session { (blankPrivate : PrivateState B) with
        callerSecret := e.merchants.key order.service
        invoiceId := order.invoiceId
        quoteNonce := order.quoteNonce
        quoteAmount := order.receipt.amount } (.postQuote order.expiry) = some session) :
    Sound ({ e with session }.setOrder requestId order.quote) es := by
  have hr := runCircuit_reaches hc hs.facility.reaches
  have hsame := runCircuit_same hc
  obtain ⟨op', w, hop, hw, -, st⟩ := runCircuit_some hc
  obtain ⟨x, hx, rfl⟩ : ∃ x : U64, (x.val : ℤ) = order.expiry ∧ Op.postQuote x = op' := by
    simpa [CircuitCall.op, Option.map_eq_some_iff, uint64_eq_some] using hop
  obtain ⟨l, ps⟩ := session
  simp only at st hr hsame
  -- an order that is not quoted yet has no note
  obtain ⟨hD, hcomp⟩ : order.D = none ∧ order.compensation = none := by
    cases hs.orders.life _ _ ho with
    | undrawn _ hD hc => exact ⟨hD, hc⟩
    | live h => simp [hp] at h
    | redeemed h => simp [hp] at h
    | compensated h => simp [hp] at h
  have hp₀ : order.phase ∈ [Phase.prepared, .quoted, .declined, .expired] := by simp [hp]
  have hp' : order.quote.phase ∈ [Phase.prepared, .quoted, .declined, .expired] := by
    simp [Order.quote]
  -- so it shows no effects, before or after
  have hacc : Accounts (e.orders.set requestId order.quote) e.repayments e.outstanding e.epoch
      e.deliveries ([] ++ es) := by
    refine hs.accounts.same ho fun kind => ?_
    rw [Order.shows_undrawn hp' hD hcomp, Order.shows_undrawn hp₀ hD hcomp]
  generalize hl₀ : e.session.state = l₀ at st
  cases st with
  | postQuote g =>
    subst hl₀
    have hsp : SamePurchase order order.quote :=
      ⟨rfl, rfl, rfl, rfl, rfl, rfl, rfl, rfl, rfl, rfl, rfl, rfl⟩
    -- a quote is no note, and the book is not touched
    exact hs.moved [] ho hsp (hs.facility.quiet hr hsame rfl ⟨rfl, rfl⟩ rfl rfl rfl) hsame rfl
      ⟨rfl, rfl⟩ (fun _ h => h) (fun _ _ _ _ _ _ => rfl) (.undrawn hp' hD hcomp)
      (hs.orders.still_apart ho (.inl rfl)) hacc

theorem Sound.draw {time : ℕ} {session : Session B} {newSalt : B} {price expiry : U64}
    (hs : Sound e es) (ho : e.orders.get requestId = some order) (hp : order.phase = .quoted)
    (hc : runCircuit time e.session (order.drawing e newSalt) (.draw order.Q order.expiry 0)
      = some session)
    (hprice : (price.val : ℤ) = order.receipt.amount) (hexpiry : (expiry.val : ℤ) = order.expiry) :
    Sound ((e.rotate session (e.outstanding + order.receipt.amount) newSalt).setOrder requestId
      (order.authorize (order.note session.state e.keys price expiry)))
      (.drawn requestId order.receipt.amount :: es) := by
  have hr := runCircuit_reaches hc hs.facility.reaches
  have hsame := runCircuit_same hc
  obtain ⟨op', w, hop, hw, -, st⟩ := runCircuit_some hc
  obtain ⟨x, hx, rfl⟩ : ∃ x : U64, (x.val : ℤ) = order.expiry
      ∧ Op.draw order.Q x (.zero 64) = op' := by
    simpa [CircuitCall.op, Option.bind_eq_some_iff, uint64_eq_some] using hop
  obtain rfl := u64_eq (hx.trans hexpiry.symm)
  obtain ⟨l, ps⟩ := session
  simp only at st hr hsame
  obtain ⟨hD, hcomp⟩ : order.D = none ∧ order.compensation = none := by
    cases hs.orders.life _ _ ho with
    | undrawn _ hD hc => exact ⟨hD, hc⟩
    | live h => simp [hp] at h
    | redeemed h => simp [hp] at h
    | compensated h => simp [hp] at h
  have hopened := hs.opened ho
  obtain ⟨hopen, hid, L, d, n, hb, hle⟩ := hs.facility.opened hopened
  have hlim : ((w.lineLimit 0).val : ℤ) = e.limit := hw.lineLimit 0
  have hout : ((w.lineOutstanding 0).val : ℤ) = e.outstanding := hw.lineOutstanding 0
  have hep : ((w.lineEpoch 0).val : ℤ) = e.epoch := hw.lineEpoch 0
  have hamount : w.drawAmount 0 = price := u64_eq ((hw.drawAmount 0).trans hprice.symm)
  generalize hl₀ : e.session.state = l₀ at st
  cases st with
  | @draw _ _ _ _ _ _ quote E P b n' g hE hP hbv hn' =>
    subst hl₀
    -- the note that the circuit made is the note of the order
    have hnote : drawnNote w order.Q x (.zero 64) e.session.state
        = order.note e.session.state e.keys price x := by
      simp only [drawnNote, drawnPreimage, Order.note, hid, hamount, hw.quoteMerchantPk,
        hw.noteNonce, hw.noteSalt, Order.drawing, Evaluation.keys]
    have hsp : SamePurchase order
        (order.authorize (order.note e.session.state e.keys price x)) :=
      ⟨rfl, rfl, rfl, rfl, rfl, rfl, rfl, rfl, rfl, rfl, rfl, rfl⟩
    refine hs.moved [.drawn requestId order.receipt.amount] ho hsp ?_ hsame rfl ⟨rfl, rfl⟩ ?_ ?_ ?_
      ?_ ?_
    · have hcap := g.capacity
      simp only [Uint.val_zero, Nat.add_zero] at hbv hcap
      refine hs.facility.rotated hopened hr hsame rfl ⟨rfl, rfl⟩ rfl rfl rfl rfl rfl
        (L := w.lineLimit 0) (d := b) (n := n') ⟨hlim, ?_, ?_, ?_⟩ ?_
      · rw [hbv, hamount]
        push_cast
        rw [hout, hprice]
      · rw [hn']
        push_cast
        rw [hep]
      · simp only [hid, hw.newSalt, Order.drawing]
      · rw [hbv]
        exact hcap
    · exact Finset.subset_insert _ _
    · intro D id' o hne ho' hD'
      have hmem := (hs.orders.life id' o ho').mem_notes hD'
      have hfree : D ≠ drawnNote w order.Q x (.zero 64) e.session.state := by
        intro h
        exact g.free (h ▸ hmem)
      exact Finmap.lookup_insert_of_ne _ hfree
    · have hfound : (e.session.state.notes.insert (drawnNote w order.Q x (.zero 64) e.session.state)
          (NoteMeta.drawn (w.drawAmount 0) (.zero 64) x e.session.state.lineGeneration)).lookup
          (order.note e.session.state e.keys price x)
          = some (NoteMeta.drawn (w.drawAmount 0) (.zero 64) x e.session.state.lineGeneration) := by
        rw [hnote]
        exact Finmap.lookup_insert _
      exact .live rfl hcomp ⟨rfl, rfl, rfl, ⟨price, x, by exact_mod_cast hprice, hexpiry, hamount,
        rfl, rfl⟩, rfl, hfound, rfl⟩ rfl rfl rfl
    · -- the new note was not there before
      intro D id' o hD' hne ho' hD''
      have hmem := (hs.orders.life id' o ho').mem_notes hD''
      obtain rfl := Option.some.inj hD'
      exact g.free (hnote ▸ hmem)
    · refine hs.accounts.set [.drawn requestId order.receipt.amount] ho ?_ ?_ ?_ ?_ ?_
      · intro kind hkind
        cases kind with
        | drawn => simp [Order.shows, Order.authorize, times_singleton, Effect.tag, hD]
        | delivered => simp [Order.shows, Order.authorize, times_singleton, Effect.tag, hp]
        | compensated => simp [Order.shows, Order.authorize, times_singleton, Effect.tag]
        | repaid => exact absurd rfl hkind
      · simp [Effect.tag]
      · simp [debt, drawnTotal, creditTotal, repaidTotal]
      · simp [times_singleton, Effect.tag]
      · simp [times_singleton, Effect.tag]

/-- An order in its first phases has no note; with one in the phase `authorized` it is live. -/
theorem Sound.authorized {D : B} (hs : Sound e es) (ho : e.orders.get requestId = some order)
    (hp : order.phase = .authorized) (hD : order.D = some D) :
    ∃ note, Noted e.session.state e.keys order D note ∧ order.compensation = none
      ∧ note.redeemed = false ∧ note.cancelled = false ∧ note.compensationAllocated = false := by
  cases hs.orders.life _ _ ho with
  | undrawn h => simp [hp] at h
  | @live D' note _ hc hn hr hcan ha =>
    have hDD : D' = D := Option.some.inj (hn.has.symm.trans hD)
    exact ⟨note, hDD ▸ hn, hc, hr, hcan, ha⟩
  | redeemed h => simp [hp] at h
  | compensated h => simp [hp] at h

omit [DecidableEq B] [Compact B] [Words B] [WordBytes B] in
/-- The credit of a compensation, in the numbers of the circuit. -/
theorem Evaluation.credit_eq (e : Evaluation B) {outstanding cost : U64} {amount : ℤ}
    (ho : (outstanding.val : ℤ) = e.outstanding) (hc : (cost.val : ℤ) = amount) :
    e.outstanding - e.credit amount = (debtAfterCredit outstanding cost).val
      ∧ amount - e.credit amount = (cashRefundAmount outstanding cost).val
      ∧ 0 ≤ e.credit amount := by
  rw [debtAfterCredit_val, cashRefundAmount_val, Evaluation.credit]
  split <;> omega

theorem Sound.compensate {time : ℕ} {session : Session B} {newSalt D : B} {note : NoteMeta B}
    (hs : Sound e es) (ho : e.orders.get requestId = some order) (hp : order.phase = .authorized)
    (hD : order.D = some D)
    (hc : runCircuit time e.session (order.compensating e newSalt)
      (.cancelOrExpireNote D ⟨1, by decide⟩ 0) = some session)
    (hnote : session.state.notes.lookup D = some note) :
    Sound ((e.rotate session (e.outstanding - e.credit order.receipt.amount) newSalt).setOrder
      requestId (order.compensate {
        amount := order.receipt.amount - e.credit order.receipt.amount
        credit := e.credit order.receipt.amount
        salt := newSalt, commitment := note.refundCommitment }))
      (.compensated requestId (e.credit order.receipt.amount) :: es) := by
  have hr := runCircuit_reaches hc hs.facility.reaches
  have hsame := runCircuit_same hc
  obtain ⟨op', w, hop, hw, -, st⟩ := runCircuit_some hc
  obtain rfl : Op.cancelOrExpireNote D ⟨1, by decide⟩ (.zero 64) = op' := by
    simpa [CircuitCall.op] using hop
  obtain ⟨l, ps⟩ := session
  simp only at st hr hsame hnote
  -- the note of an authorized order, neither redeemed nor cancelled
  obtain ⟨n, hn, hcomp, hred, hcan, hall⟩ := hs.authorized ho hp hD
  obtain ⟨price, expiry, hprice, hexpiry, hamount, hx, hDnote⟩ := hn.opening
  have hopened := hs.opened ho
  obtain ⟨hopen, hid, L, d, k, hb, hle⟩ := hs.facility.opened hopened
  -- what the witness answers of the book is what the evaluation has
  have hlim : ∀ i, ((w.lineLimit i).val : ℤ) = e.limit := hw.lineLimit
  have hout : ((w.lineOutstanding 0).val : ℤ) = e.outstanding := hw.lineOutstanding 0
  have hep : ∀ i, ((w.lineEpoch i).val : ℤ) = e.epoch := hw.lineEpoch
  generalize hl₀ : e.session.state = l₀ at st
  cases st with
  | expire h0 => simp at h0
  | acknowledgeRefund h2 => simp at h2
  -- a note of an older line: every order is of the current one
  | allocateOlder h1 g hcost hR hold =>
    subst hl₀
    have hnn := Option.some.inj (g.found.symm.trans hn.found)
    rw [hnn, hn.generation] at hold
    exact absurd hold (Nat.lt_irrefl _)
  | @allocateCurrent _ _ _ _ _ _ n' cost E P U U' epoch h1 g hcost hR hgen hidn hst hU hU' hepoch =>
    subst hl₀
    obtain rfl : n' = n := Option.some.inj (g.found.symm.trans hn.found)
    have hcostv : (cost.val : ℤ) = order.receipt.amount := by
      rw [hcost, hn.fee, hamount, ← hprice]
      simp
    -- the circuit and the evaluation split the price in the same way
    obtain ⟨hdebt, hcash, hcredit⟩ := e.credit_eq hout hcostv
    -- the entry of the note, with the refund
    have hfound := Finmap.lookup_insert e.session.state.notes (a := D) (b := n'.allocate
      (refundCommit (refundPreimage D n' (w.noteIdentity 0)
        (cashRefundAmount (w.lineOutstanding 0) cost) e.session.state) (w.newSalt 1))
      (decide ((w.lineOutstanding 0).val < cost.val)))
    obtain rfl := Option.some.inj (hnote.symm.trans hfound)
    have hsp : SamePurchase order (order.compensate {
        amount := order.receipt.amount - e.credit order.receipt.amount
        credit := e.credit order.receipt.amount
        salt := newSalt
        commitment := refundCommit (refundPreimage D n' (w.noteIdentity 0)
          (cashRefundAmount (w.lineOutstanding 0) cost) e.session.state) (w.newSalt 1) }) :=
      ⟨rfl, rfl, rfl, rfl, rfl, rfl, rfl, rfl, rfl, rfl, rfl, rfl⟩
    refine hs.moved [.compensated requestId (e.credit order.receipt.amount)] ho hsp ?_ hsame rfl
      ⟨rfl, rfl⟩ (fun _ h => h) ?_ ?_ ?_ ?_
    -- the book is replaced, with the debt less the credit
    · refine hs.facility.rotated hopened hr hsame rfl ⟨rfl, rfl⟩ rfl rfl rfl rfl rfl
        (L := w.lineLimit 1) (d := debtAfterCredit (w.lineOutstanding 0) cost) (n := epoch)
        ⟨hlim 1, hdebt.symm, ?_, ?_⟩ ?_
      · rw [hepoch]
        push_cast
        rw [hep]
      · simp only [hid, hw.newSalt, Order.compensating]
      · have hL := hlim 1
        have hd := hb.outstanding
        have hLL := hb.limit
        simp only [Evaluation.book] at hd hLL
        rw [debtAfterCredit_val]
        omega
    -- another order has another note
    · intro D' id' o hne ho' hD'
      have hneD : D' ≠ D := by
        rintro rfl
        exact hne (hs.orders.apart id' requestId o order D' ho' ho hD' hD)
      exact Finmap.lookup_insert_of_ne _ hneD
    · have hterms : n'.SameTerms (n'.allocate (refundCommit (refundPreimage D n' (w.noteIdentity 0)
          (cashRefundAmount (w.lineOutstanding 0) cost) e.session.state) (w.newSalt 1))
          (decide ((w.lineOutstanding 0).val < cost.val))) := ⟨rfl, rfl, rfl, rfl⟩
      -- what is not credited is owed in cash, and committed to
      refine .compensated rfl (hn.moved hsp rfl rfl rfl rfl rfl hterms hfound) rfl rfl
        ⟨rfl, ?_, hcredit, ?_, rfl, ?_, rfl, ?_, .unreported rfl rfl⟩
      · simp only [hcash]
        exact Int.natCast_nonneg _
      · simp only [Order.compensate, Receipt.push]
        omega
      · rw [cashRefundAmount_val] at hcash
        simp only [NoteMeta.allocate, decide_eq_decide]
        omega
      · refine ⟨cashRefundAmount (w.lineOutstanding 0) cost, hcash.symm, ?_⟩
        simp only [NoteMeta.allocate, refundPreimage, hidn, hid, hw.newSalt, Order.compensating,
          Evaluation.keys]
    · exact hs.orders.still_apart ho (.inl rfl)
    -- the order shows a compensation, and the debt is smaller by the credit
    · refine hs.accounts.set [.compensated requestId (e.credit order.receipt.amount)] ho ?_ ?_ ?_ ?_
        ?_
      · intro kind hkind
        cases kind with
        | drawn => simp [Order.shows, Order.compensate, times_singleton, Effect.tag]
        | delivered => simp [Order.shows, Order.compensate, times_singleton, Effect.tag, hp]
        | compensated => simp [Order.shows, Order.compensate, times_singleton, Effect.tag, hcomp]
        | repaid => exact absurd rfl hkind
      · simp [Effect.tag]
      · simp [debt, drawnTotal, creditTotal, repaidTotal]
        omega
      · simp [times_singleton, Effect.tag]
      · simp [times_singleton, Effect.tag]

theorem Sound.redeem {time : ℕ} {session : Session B} {D : B} {noteExpiry : ℤ} (hs : Sound e es)
    (ho : e.orders.get requestId = some order) (hp : order.phase = .authorized)
    (hD : order.D = some D)
    (hc : runCircuit time e.session { (blankPrivate : PrivateState B) with
        callerSecret := e.merchants.key order.service
        noteIdentity := agentId e.agentKey
        noteQuoteCommit := order.Q
        noteNonce := order.noteNonce
        noteSalt := order.noteSalt
        redeemAmount := order.receipt.amount } (.redeemDraw D noteExpiry) = some session) :
    Sound ({ e with session }.setOrder requestId order.redeem) es := by
  have hr := runCircuit_reaches hc hs.facility.reaches
  have hsame := runCircuit_same hc
  obtain ⟨op', w, hop, hw, -, st⟩ := runCircuit_some hc
  obtain ⟨x, hx, rfl⟩ : ∃ x : U64, (x.val : ℤ) = noteExpiry ∧ Op.redeemDraw D x = op' := by
    simpa [CircuitCall.op, Option.map_eq_some_iff, uint64_eq_some] using hop
  obtain ⟨l, ps⟩ := session
  simp only at st hr hsame
  obtain ⟨n, hn, hcomp, hred, hcan, hall⟩ := hs.authorized ho hp hD
  have hsp : SamePurchase order order.redeem :=
    ⟨rfl, rfl, rfl, rfl, rfl, rfl, rfl, rfl, rfl, rfl, rfl, rfl⟩
  -- a redemption shows no effect of its own
  have hacc : Accounts (e.orders.set requestId order.redeem) e.repayments e.outstanding e.epoch
      e.deliveries ([] ++ es) := by
    refine hs.accounts.same ho fun kind => ?_
    cases kind with
    | drawn => rfl
    | delivered => simp [Order.shows, Order.redeem, hp]
    | compensated => rfl
    | repaid => rfl
  generalize hl₀ : e.session.state = l₀ at st
  cases st with
  | @redeemDraw _ _ _ _ _ n' custody E R P F g hpay hE hR hP hF =>
    subst hl₀
    obtain rfl : n' = n := Option.some.inj (g.found.symm.trans hn.found)
    have hfound := Finmap.lookup_insert e.session.state.notes (a := D) (b := n'.redeem)
    refine hs.moved [] ho hsp
      (hs.facility.quiet hr hsame rfl ⟨rfl, rfl⟩ rfl rfl rfl) hsame rfl ⟨rfl, rfl⟩
      (Finset.subset_insert _ _) ?_ ?_ (hs.orders.still_apart ho (.inl rfl)) hacc
    -- another order has another note
    · intro D' id' o hne ho' hD'
      have hneD : D' ≠ D := by
        rintro rfl
        exact hne (hs.orders.apart id' requestId o order D' ho' ho hD' hD)
      exact Finmap.lookup_insert_of_ne _ hneD
    · have hterms : n'.SameTerms n'.redeem := ⟨rfl, rfl, rfl, rfl⟩
      exact .redeemed (.inl rfl) hcomp (hn.moved hsp rfl rfl rfl rfl rfl hterms hfound) rfl rfl

theorem Sound.report {time : ℕ} {session : Session B} {recorded : Compensation B} {D paymentRef : B}
    {reference : JsString} {expiry : ℤ} (hs : Sound e es)
    (ho : e.orders.get requestId = some order) (hcomp : order.compensation = some recorded)
    (hD : order.D = some D) (hi : isIntent reference = true)
    (href : paymentReference reference = .ok paymentRef)
    (hc : runCircuit time e.session { (blankPrivate : PrivateState B) with
        callerSecret := e.issuerKey
        noteIdentity := agentId e.agentKey
        repayAmount := recorded.amount
        salt := recorded.salt
        paymentRef } (.cancelOrExpireNote D ⟨2, by decide⟩ expiry) = some session) :
    Sound ({ e with session }.setOrder requestId (order.report recorded reference)) es := by
  have hr := runCircuit_reaches hc hs.facility.reaches
  have hsame := runCircuit_same hc
  obtain ⟨op', w, hop, hw, -, st⟩ := runCircuit_some hc
  obtain ⟨x, hx, rfl⟩ : ∃ x : U64, (x.val : ℤ) = expiry
      ∧ Op.cancelOrExpireNote D ⟨2, by decide⟩ x = op' := by
    simpa [CircuitCall.op, Option.map_eq_some_iff, uint64_eq_some] using hop
  obtain ⟨l, ps⟩ := session
  simp only at st hr hsame
  -- a recorded compensation is that of a compensated order
  obtain ⟨n, hn, hp, hset⟩ : ∃ n, Noted e.session.state e.keys order D n
      ∧ order.phase = .compensated ∧ Settled e.session.state e.keys order D n recorded := by
    cases hs.orders.life _ _ ho with
    | undrawn _ h => simp [h] at hD
    | live _ h => simp [h] at hcomp
    | redeemed _ h => simp [h] at hcomp
    | @compensated D' n recorded' hp hn _ _ hset =>
      obtain rfl := Option.some.inj (hn.has.symm.trans hD)
      obtain rfl := Option.some.inj (hset.has.symm.trans hcomp)
      exact ⟨n, hn, hp, hset⟩
  have hsp : SamePurchase order (order.report recorded reference) :=
    ⟨rfl, rfl, rfl, rfl, rfl, rfl, rfl, rfl, rfl, rfl, rfl, rfl⟩
  -- a report changes what is known of the payment, and no effect
  have hacc : Accounts (e.orders.set requestId (order.report recorded reference)) e.repayments
      e.outstanding e.epoch e.deliveries ([] ++ es) := by
    refine hs.accounts.same ho fun kind => ?_
    cases kind with
    | drawn => rfl
    | delivered => rfl
    | compensated => simp [Order.shows, Order.report, hcomp]
    | repaid => rfl
  generalize hl₀ : e.session.state = l₀ at st
  cases st with
  | expire h0 => simp at h0
  | allocateCurrent h1 => simp at h1
  | allocateOlder h1 => simp at h1
  | @acknowledgeRefund _ _ _ _ _ _ n' custody U T X h2 g hpay hcost hU hT hT' =>
    subst hl₀
    obtain rfl : n' = n := Option.some.inj (g.found.symm.trans hn.found)
    obtain ⟨rfl, hX⟩ := hT rfl
    -- the nullifier is that of the reference, with the issuer's key
    have hP : witnessPayment w e.session.state
        = paymentNullifier e.issuerKey paymentRef e.session.state.contractDomain := by
      simp only [witnessPayment, hw.callerSecret, hw.paymentRef]
    have hfound := Finmap.lookup_insert e.session.state.notes (a := D)
      (b := n'.acknowledge (witnessPayment w e.session.state))
    refine hs.moved [] ho hsp
      (hs.facility.quiet hr hsame rfl ⟨rfl, rfl⟩ rfl rfl rfl) hsame rfl ⟨rfl, rfl⟩
      (Finset.subset_insert _ _) ?_ ?_ (hs.orders.still_apart ho (.inl rfl)) hacc
    · intro D' id' o hne ho' hD'
      have hneD : D' ≠ D := by
        rintro rfl
        exact hne (hs.orders.apart id' requestId o order D' ho' ho hD' hD)
      exact Finmap.lookup_insert_of_ne _ hneD
    · have hterms : n'.SameTerms (n'.acknowledge (witnessPayment w e.session.state)) :=
        ⟨rfl, rfl, rfl, rfl⟩
      -- the refund is settled: it is no longer owed, and its nullifier is there
      refine .compensated hp (hn.moved hsp rfl rfl rfl rfl rfl hterms hfound) rfl rfl
        ⟨rfl, hset.amount, hset.credit, hset.whole, rfl, ?_, hset.commitment, hset.opening,
          .reported hi href rfl ?_ ?_⟩
      · exact g.owed.symm.trans hset.owed
      · exact hP
      · exact hP ▸ Finset.mem_insert_self _ _

end Orders

theorem Sound.acknowledge {time : ℕ} {session : Session B} {reference : JsString} {expiry : ℤ}
    {newSalt receiptNonce paymentRef : B} {amount : ℕ} (hs : Sound e es) (hopened : e.opened = true)
    (hi : isIntent reference = true) (hamount : 1 ≤ amount ∧ amount ≤ 1000000)
    (hnone : e.repayments.get reference = none) (hsize : e.repayments.size < 1000)
    (hc : runCircuit time e.session { e.books with
        callerSecret := e.issuerKey
        newSalt
        repayAmount := amount
        paymentRef
        receiptNonce } (.acknowledgeRepayment expiry) = some session) :
    Sound { e.rotate session (e.outstanding - amount) newSalt with
      repayments := e.repayments.set reference amount } (.repaid reference amount :: es) := by
  have hr := runCircuit_reaches hc hs.facility.reaches
  have hsame := runCircuit_same hc
  obtain ⟨op', w, hop, hw, -, st⟩ := runCircuit_some hc
  obtain ⟨x, hx, rfl⟩ : ∃ x : U64, (x.val : ℤ) = expiry ∧ Op.acknowledgeRepayment x = op' := by
    simpa [CircuitCall.op, Option.map_eq_some_iff, uint64_eq_some] using hop
  obtain ⟨l, ps⟩ := session
  simp only at st hr hsame
  obtain ⟨hopen, hid, L, d, k, hb, hle⟩ := hs.facility.opened hopened
  -- the witness answers with the numbers of the book
  have hlim : ((w.lineLimit 0).val : ℤ) = e.limit := hw.lineLimit 0
  have hout : ((w.lineOutstanding 0).val : ℤ) = e.outstanding := hw.lineOutstanding 0
  have hep : ((w.lineEpoch 0).val : ℤ) = e.epoch := hw.lineEpoch 0
  have hrepay : ((w.repayAmount 0).val : ℤ) = amount := hw.repayAmount 0
  generalize hl₀ : e.session.state = l₀ at st
  cases st with
  | @acknowledgeRepayment _ _ _ _ T b n g hT hT' hb' hn' =>
    subst hl₀
    obtain rfl := hT rfl
    refine ⟨hs.identity, ?_, ?_, ?_, ?_, ?_, hs.accounts.repay hnone⟩
    -- the debt is smaller by the repayment, and the epoch one higher
    · refine hs.facility.rotated hopened hr hsame rfl ⟨rfl, rfl⟩ rfl rfl rfl rfl rfl
        (L := w.lineLimit 0) (d := b) (n := n) ⟨hlim, ?_, ?_, ?_⟩ ?_
      · simp only [Evaluation.book, Evaluation.rotate]
        omega
      · rw [hn']
        push_cast
        simp only [hep, Evaluation.book, Evaluation.rotate]
      · simp only [hid, hw.newSalt, Evaluation.book, Evaluation.rotate, Evaluation.keys]
      · have hd := hb.outstanding
        have hL := hb.limit
        simp only [Evaluation.book] at hd hL
        omega
    · intro h
      exact absurd (hopened.symm.trans h) (by simp)
    -- no note is touched, and a nullifier only added
    · refine hs.orders.frame fun id o _ => ⟨rfl, rfl, ⟨rfl, rfl⟩, fun _ _ => rfl, ?_⟩
      exact (Finset.subset_insert _ _).trans (Finset.subset_insert _ _)
    · refine ⟨hs.sizes.1, ?_⟩
      -- the reference is new
      rw [OrderedMap.size_set_new hnone]
      exact hsize
    · exact OrderedMap.forall_set
        (P := fun reference amount => isIntent reference = true ∧ 1 ≤ amount ∧ amount ≤ 1000000)
        hs.repayments ⟨hi, hamount⟩

/-- **Every stage keeps the invariant**, with the effects that it records. -/
theorem Stage.sound [Locale] {ev : List Effect} (st : Stage e ev e') (hs : Sound e es) :
    Sound e' (ev ++ es) := by
  cases st with
  | fund ho hf _ _ hc => exact hs.fund ho hf hc
  | openLine ho hc => exact hs.openLine ho hc
  | prepare hopen hsize hid hn => exact hs.prepare hopen hsize hid hn
  | expireQuote ho hp _ => exact hs.expireQuote ho hp
  | postQuote ho hp hc => exact hs.postQuote ho hp hc
  | decline ho hp => exact hs.decline ho hp
  | draw ho hp hc hprice hexpiry => exact hs.draw ho hp hc hprice hexpiry
  | compensate ho hp hD _ hc hnote => exact hs.compensate ho hp hD hc hnote
  | redeem ho hp hD _ hc => exact hs.redeem ho hp hD hc
  | deliver ho hp => exact hs.deliver ho hp
  | acknowledge hopen hi h1 h2 hnone hsize _ hc =>
    exact hs.acknowledge hopen hi ⟨h1, h2⟩ hnone hsize hc
  | report ho hcomp _ _ hD hi href hc => exact hs.report ho hcomp hD hi href hc

end Line.Checkout
