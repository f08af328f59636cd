import Line.Checkout.Preserved

/-!
# A sound evaluation is recovered from its snapshot

`recover` tests a snapshot against conditions of its own. Each of them follows from the
invariant, so that it accepts the snapshot of a sound evaluation and gives the evaluation
back (`recover_snapshot`).

The tests are those of the header, of the book and the counters, of every repayment, of the
ledger, of the book against the ledger, and of every order with its note. Each has a lemma
that names the part of `Sound` behind it. The bounds that a test has and the invariant does
not state, such as that counts are safe integers, come from the number of orders and
repayments, which is limited.
-/

namespace Line.Checkout

open Checked
open Line.Engine (JsString Words)

variable {B : Type} [DecidableEq B] [Compact B] [Words B] [WordBytes B]

/-! ## The single tests -/

@[simp] theorem throwIf_ok_iff {bad : Bool} {text : String} {u : Unit} :
    throwIf bad text = .ok u ↔ bad = false := by
  cases bad <;> simp [throwIf]

@[simp] theorem must_some {α : Type} (a : α) (text : String) : must (some a) text = .ok a := rfl

@[simp] theorem encodable_val (u : U64) : encodable (u.val : ℤ) = .ok u := by
  rw [encodable, uint64_val]

theorem intent_ok {s : JsString} (h : isIntent s = true) : intent (.string s) = .ok s := by
  simp [intent, h]

/-- A part that passes is passed over. -/
theorem ok_bind {α β : Type} {x : Except Failure α} {a : α} (h : x = .ok a)
    (f : α → Except Failure β) : (x >>= f) = f a := by
  rw [h]
  rfl

theorem throwIf_ok {bad : Bool} {text : String} (h : bad = false) : throwIf bad text = .ok () :=
  throwIf_ok_iff.mpr h

omit [DecidableEq B] [Compact B] [Words B] in
/-- The digits of a word are a token. -/
theorem isToken_toHex (b : B) : isToken (toHex b) = true := by
  have hunit : ∀ n : ℕ, n < 16 → isHexUnit (hexDigit n) = true := by decide
  have hlen : ∀ l : List UInt8, (l.flatMap fun byte =>
      [hexDigit (byte.toNat / 16), hexDigit (byte.toNat % 16)]).length = 2 * l.length := by
    intro l
    induction l with
    | nil => rfl
    | cons x l ih =>
      rw [List.flatMap_cons, List.length_append, ih, List.length_cons]
      simp only [List.length_cons, List.length_nil]
      omega
  rw [isToken, toHex, Bool.and_eq_true, beq_iff_eq, hlen, WordBytes.length_bytes, List.all_eq_true]
  refine ⟨rfl, fun c hc => ?_⟩
  obtain ⟨byte, -, hc⟩ := List.mem_flatMap.mp hc
  have hbyte := byte.toNat_lt
  simp only [List.mem_cons, List.not_mem_nil, or_false] at hc
  rcases hc with rfl | rfl
  · exact hunit _ (by omega)
  · exact hunit _ (by omega)

/-- An identifier passes the test of recovery. -/
theorem Uuid.isSessionId (u : Uuid) : isSessionId u.text = true := by
  rw [Checkout.isSessionId, Bool.and_eq_true, beq_iff_eq, List.all_eq_true]
  refine ⟨u.length_text, fun c hc => ?_⟩
  obtain ⟨i, hi, rfl⟩ := List.getElem_of_mem hc
  have hu := u.units i hi
  split at hu
  · simp [hu]
  · simp [hu]

/-! ## The tests of a snapshot -/

section Tests

variable [StateCodec B] {e : Evaluation B} {es : List Effect}

omit [DecidableEq B] [Compact B] [Words B] [WordBytes B] [StateCodec B] in
theorem recoverRepayment_ok {entry : JsString × ℕ} (hi : isIntent entry.1 = true)
    (h1 : 1 ≤ entry.2) (h2 : entry.2 ≤ 1000000) : recoverRepayment entry = .ok () := by
  have hmax : entry.2 ≤ Number.maxSafe := h2.trans (by decide)
  rw [recoverRepayment, ok_bind (intent_ok hi)]
  refine throwIf_ok ?_
  simp only [bne_self_eq_false, Bool.false_or, Bool.or_eq_false_iff, decide_eq_false_iff_not]
  exact ⟨Nat.not_lt.mpr hmax, Nat.not_lt.mpr h1⟩

theorem Sound.recoverLedger (hs : Sound e es) :
    recoverLedger e.snapshot e.session.state = .ok () := by
  obtain ⟨h, r⟩ := hs.facility.reaches
  have hfunded : (e.session.state.totalReserve.val : ℤ) = e.snapshot.fundedReserve :=
    hs.facility.funded
  have hsolvent := r.balanced.solvent
  simp only [Checkout.recoverLedger, throwIf_ok_iff, hfunded, hs.facility.fees.1,
    hs.facility.fees.2, Uint.val_zero, bne_self_eq_false, Bool.false_or, Bool.or_false,
    decide_eq_false_iff_not]
  omega

theorem Sound.recoverBook (hs : Sound e es) :
    recoverBook e.snapshot e.session.state = .ok () := by
  cases ho : e.opened with
  | false => simp [Checkout.recoverBook, Evaluation.snapshot, ho]
  | true =>
    obtain ⟨-, -, L, d, n, hb, -⟩ := hs.facility.opened ho
    have hL : e.limit = (L.val : ℤ) := hb.limit.symm
    have hd : e.outstanding = (d.val : ℤ) := hb.outstanding.symm
    have hn : e.epoch = (n.val : ℤ) := hb.epoch.symm
    have hc := hb.commitment
    simp only [Evaluation.keys, Evaluation.book] at hc
    simp only [Checkout.recoverBook, Evaluation.snapshot, ho, hL, hd, hn, ↓reduceIte,
      encodable_val, bind_ok_iff, Except.ok.injEq, exists_eq_left', throwIf_ok_iff,
      Engine.lineStateCommit_eq, Engine.agentId_eq, hc, bne_self_eq_false]

variable {requestId : JsString} {order : Order B} {D : B} {note : NoteMeta B}

omit [Words B] in
theorem Noted.recoverNote (hn : Noted e.session.state e.keys order D note) {price expiry : U64}
    (hprice : price.val = order.receipt.amount) (hexpiry : (expiry.val : ℤ) = order.expiry)
    (hr : note.redeemed = (order.phase == .redeemed || order.phase == .delivered))
    (hc : note.cancelled = (order.phase == .compensated)) :
    recoverNote e.snapshot e.session.state order price
      (merchantPublicKey (e.merchants.key order.service)) order.Q expiry = .ok () := by
  obtain ⟨price', expiry', hprice', hexpiry', -, -, hD⟩ := hn.opening
  obtain rfl : price' = price := Uint.val_inj.mp (hprice'.trans hprice.symm)
  obtain rfl : expiry' = expiry := u64_eq (hexpiry'.trans hexpiry.symm)
  have hD' : Engine.drawNoteCommit e.session.state.contractDomain e.session.state.lineGeneration
      (Engine.agentId e.agentKey) order.Q (merchantPublicKey (e.merchants.key order.service)) price'
      (.zero 64) order.noteNonce expiry' order.noteSalt = D := by
    rw [hD]
    rfl
  have hmem : D ∈ e.session.state.notes := Finmap.mem_iff.mpr ⟨note, hn.found⟩
  have hsnap : e.snapshot.agentKey = e.agentKey := rfl
  rw [Checkout.recoverNote, hsnap, hD',
    ok_bind (throwIf_ok (by simp [hn.has, hn.receipt, hn.noteExpiry, hmem])), hn.found, must_some]
  exact throwIf_ok (by simp [hr, hc])

omit [DecidableEq B] [WordBytes B] in
theorem Reported.recoverReceipt {recorded : Compensation B}
    (hr : Reported e.session.state e.keys note recorded.reportedReference) :
    recoverReceipt e.snapshot e.session.state recorded = .ok note.refundPaymentNullifier
      ∧ note.refundAcknowledged = recorded.reported.isSome
      ∧ (recorded.reported.isSome = true →
        note.refundPaymentNullifier ∈ e.session.state.nullifiers) := by
  obtain ⟨amount, credit, salt, commitment, reference⟩ := recorded
  simp only at hr
  cases hr with
  | unreported ha hp => exact ⟨by rw [hp]; rfl, ha, fun h => by simp [Compensation.reported] at h⟩
  | @reported reference paymentRef hi href ha hp hm =>
    have hne : reference.isEmpty = false := by
      cases reference with
      | nil => simp [isIntent] at hi
      | cons c l => rfl
    have hrep : Compensation.reported ⟨amount, credit, salt, commitment, some reference⟩
        = some reference := by
      simp [Compensation.reported, hne]
    refine ⟨?_, by rw [hrep, ha]; rfl, fun _ => hp ▸ hm⟩
    simp only [Checkout.recoverReceipt, hrep, intent_ok hi, href, hp, bind_ok_iff, Except.ok.injEq,
      exists_eq_left', pure_ok_iff]
    rfl

theorem Settled.recoverCompensation {recorded : Compensation B}
    (hn : Noted e.session.state e.keys order D note) (hc : note.cancelled = true)
    (hs : Settled e.session.state e.keys order D note recorded) :
    recoverCompensation e.snapshot e.session.state order = .ok () := by
  obtain ⟨amount, hamount, hopen⟩ := hs.opening
  obtain ⟨hreceipt, hack, hmem⟩ := hs.reported.recoverReceipt
  -- the refund that is opened is the one that the ledger committed to
  have hcommit : Engine.refundCommit e.session.state.contractDomain note.lineGeneration
      (Engine.agentId e.agentKey) D amount recorded.salt = note.refundCommitment := by
    rw [hopen]
    rfl
  -- both shares are there, and they add up to the price
  have hrange : (decide (recorded.amount < 0) || decide (recorded.credit < 0)
      || recorded.amount + recorded.credit != (order.receipt.amount : ℤ)) = false := by
    have h1 := hs.amount
    have h2 := hs.credit
    simp [hs.whole, h1, h2]
  -- a reported payment has its nullifier in the ledger
  have hnull : (recorded.reported.isSome
      && decide (note.refundPaymentNullifier ∉ e.session.state.nullifiers)) = false := by
    cases h : recorded.reported.isSome with
    | false => rfl
    | true => simp [hmem h]
  simp only [Checkout.recoverCompensation, hs.has, hn.has, hn.found, must_some, bind_ok_iff,
    Except.ok.injEq, exists_eq_left', throwIf_ok_iff, exists_const, hrange, true_and]
  refine ⟨amount, by rw [← hamount, encodable_val], ?_, _, hreceipt, ?_⟩
  · simp only [Evaluation.snapshot, hcommit, hs.commitment, hc, hs.allocated, hs.owed, hack,
      bne_self_eq_false, Bool.not_true, Bool.or_self]
  · simp only [bne_self_eq_false, Bool.false_or, hnull]

theorem Sound.recoverOrder (hs : Sound e es) (ho : e.orders.get requestId = some order) :
    recoverOrder e.snapshot e.session.state (requestId, order) = .ok () := by
  have ht := hs.orders.terms _ _ ho
  obtain ⟨service, hmem, hid, hprice₀⟩ := ht.service
  obtain ⟨price, expiry, hprice, hexpiry, hQ, hquote⟩ := ht.quote
  have hcatalog : catalog order.service = some service := by
    rw [← hid]
    simp only [CATALOG, List.mem_cons, List.not_mem_nil, or_false] at hmem
    rcases hmem with rfl | rfl <;> rfl
  have hQ' : Engine.quoteCommit (Engine.merchantPublicKey (e.merchants.key order.service))
      order.invoiceId price expiry order.quoteNonce e.session.state.lineGeneration
      e.session.state.contractDomain e.session.state.feeFlat e.session.state.feeBps = order.Q := by
    rw [hQ]
    rfl
  have hservice : encodable (service.price : ℤ) = .ok price := by
    rw [← hprice₀, ← hprice, encodable_val]
  have hexp : encodable order.expiry = .ok expiry := by rw [← hexpiry, encodable_val]
  have hpos : ¬ order.expiry < 0 := by omega
  have hlen : ¬ 8000 < order.document.length := Nat.not_lt.mpr ht.document.2
  simp only [Checkout.recoverOrder, intent_ok ht.intent, hcatalog, must_some, bind_ok_iff,
    Except.ok.injEq, exists_eq_left', throwIf_ok_iff, ht.receipt.1, ht.receipt.2, hprice₀,
    ht.document.1, hpos, hlen, bne_self_eq_false, Bool.not_true, decide_false, Bool.or_self,
    exists_const, true_and, Evaluation.snapshot, hservice, hexp, hQ', hquote]
  -- the note, where there is one, and the compensation
  cases hs.orders.life _ _ ho with
  | undrawn hp hD hc =>
    have hp₁ : order.phase ∉ [Phase.authorized, .redeemed, .delivered, .compensated] := by
      intro h
      simp only [List.mem_cons, List.not_mem_nil, or_false] at hp h
      rcases hp with hp | hp | hp | hp <;> simp [hp] at h
    have hp₂ : order.phase ≠ .compensated := by
      intro h
      exact hp₁ (by simp [h])
    simp [hp₁, hp₂]
  | live hp hc hn hr hcan =>
    have := hn.recoverNote hprice hexpiry (by simp [hr, hp]) (by simp [hcan, hp])
    simp only [Evaluation.snapshot] at this
    simp [hp, this]
  | redeemed hp hc hn hr hcan =>
    have := hn.recoverNote hprice hexpiry (by rcases hp with hp | hp <;> simp [hr, hp])
      (by rcases hp with hp | hp <;> simp [hcan, hp])
    simp only [Evaluation.snapshot] at this
    rcases hp with hp | hp <;> simp [hp, this]
  | compensated hp hn hr hcan hset =>
    have := hn.recoverNote hprice hexpiry (by simp [hr, hp]) (by simp [hcan, hp])
    have hcomp := hset.recoverCompensation hn hcan
    simp only [Evaluation.snapshot] at this hcomp
    simp [hp, this, hcomp]

omit [StateCodec B] in
/-- The debt never exceeds the limit, and neither is negative. -/
theorem Sound.ranges (hs : Sound e es) :
    0 ≤ e.limit ∧ 0 ≤ e.outstanding ∧ 0 ≤ e.epoch ∧ 0 ≤ e.fundedReserve
      ∧ e.outstanding ≤ e.limit := by
  have hlimit : 0 ≤ e.limit := hs.facility.limit
  have hfunded : (e.session.state.totalReserve.val : ℤ) = e.fundedReserve := hs.facility.funded
  have hpos : 0 ≤ e.fundedReserve := by omega
  cases ho : e.opened with
  | false =>
    obtain ⟨-, hout, hep⟩ := hs.facility.closed ho
    simp only [Evaluation.book] at hout hep
    omega
  | true =>
    obtain ⟨-, -, L, d, n, hb, hle⟩ := hs.facility.opened ho
    have hL : (L.val : ℤ) = e.limit := hb.limit
    have hd : (d.val : ℤ) = e.outstanding := hb.outstanding
    have hn : (n.val : ℤ) = e.epoch := hb.epoch
    omega

/-- **A sound evaluation is recovered from its snapshot**, as it was. -/
theorem Sound.recover_snapshot [LawfulStateCodec B] (hs : Sound e es) :
    recover e.snapshot = .ok { e with failed := false, checkpointing := false } := by
  obtain ⟨hlimit, hout, hep, hfunded, hle⟩ := hs.ranges
  -- there are at most as many deliveries as orders
  have hcount : e.deliveries ≤ 100 := by
    rw [hs.accounts.deliveries]
    exact (OrderedMap.total_le_size _ fun o => o.shows_le_one .delivered).trans hs.sizes.1
  have hmax : ¬ Number.maxSafe < e.deliveries :=
    Nat.not_lt.mpr (hcount.trans (by decide))
  -- the tests in the order of the source
  have hheader : (e.snapshot.version != 4 || e.snapshot.deadlineUnits != "unix-seconds"
      || e.snapshot.settlement != "private-compensation-v1" || !isSessionId e.snapshot.id
      || !isToken e.snapshot.issuerToken || !isToken e.snapshot.agentToken
      || decide ((Number.maxSafe : ℤ) < |e.snapshot.createdAt|)
      || decide (100 < e.snapshot.orders.length)) = false := by
    have hc := not_lt.mpr hs.identity.createdAt
    have hsize : ¬ 100 < e.orders.entries.length := Nat.not_lt.mpr hs.sizes.1
    simp [Evaluation.snapshot, hs.identity.id, hs.identity.issuerToken, hs.identity.agentToken, hc,
      hsize]
  have hbook : ([e.snapshot.limit, e.snapshot.outstanding, e.snapshot.epoch,
      e.snapshot.fundedReserve].any fun book => decide (book < 0)) = false := by
    simp [Evaluation.snapshot, hlimit, hout, hep, hfunded]
  have haccount : (decide (e.snapshot.limit < e.snapshot.outstanding)
      || decide (Number.maxSafe < e.snapshot.deliveries)) = false := by
    simp [Evaluation.snapshot, hmax, not_lt.mpr hle]
  -- the lists of the snapshot are the entries of the maps, each key once
  have horders : OrderedMap.ofEntries e.snapshot.orders = e.orders := e.orders.ofEntries_entries
  have hrepayments : OrderedMap.ofEntries e.snapshot.repayments = e.repayments :=
    e.repayments.ofEntries_entries
  have hdup : (e.orders.size != e.snapshot.orders.length
      || e.repayments.size != e.snapshot.repayments.length
      || decide (1000 < e.snapshot.repayments.length)) = false := by
    have hsize : ¬ 1000 < e.repayments.entries.length := Nat.not_lt.mpr hs.sizes.2
    simp [Evaluation.snapshot, OrderedMap.size, hsize]
  have hstate : StateCodec.deserialize e.snapshot.state = some e.session.state :=
    LawfulStateCodec.deserialize_serialize _
  rw [recover, ok_bind (throwIf_ok hheader), ok_bind (throwIf_ok hbook),
    ok_bind (throwIf_ok haccount)]
  simp only [horders, hrepayments, hstate, must_some]
  -- entry by entry
  have hrepaid : e.repayments.entries.forM recoverRepayment = .ok () := by
    refine forM_ok_iff.mpr fun entry hentry => ?_
    obtain ⟨hi, h1, h2⟩ := hs.repayments _ _ (OrderedMap.get_eq_some.mpr hentry)
    exact recoverRepayment_ok hi h1 h2
  have hordered : e.orders.entries.forM (Checkout.recoverOrder e.snapshot e.session.state)
      = .ok () :=
    forM_ok_iff.mpr fun entry hentry => hs.recoverOrder (OrderedMap.get_eq_some.mpr hentry)
  rw [ok_bind (throwIf_ok hdup), ok_bind hrepaid, ok_bind rfl, ok_bind hs.recoverLedger,
    ok_bind hs.recoverBook, ok_bind hordered]
  rfl

end Tests

end Line.Checkout
