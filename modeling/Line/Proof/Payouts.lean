import Line.Proof.NoteCycle

/-!
# Who the organization contract pays

Tokens leave the organization contract through four circuits, one transfer at a time.
`Sends` says, for each of them, to whom and how much; everything else is read off it.

A redemption pays the recipient registered for the merchant key. That key is computed
from the caller's secret, and it is the key in the note: the opening the caller shows
holds it, and the commitment has no other opening. A refund pays the amount in the
note's refund commitment for the same reason. The two withdrawals only reach what no
note has a claim on.
-/

namespace Line

open Checked MapTotal

variable {B : Type}

/-! ## Transfers -/

/-- The transfers of one call: what it put in front of those recorded before. -/
def transfers (e : Tx B) : List (UserAddress B × ℕ) :=
  e.post.custody.sent.take (e.post.custody.sent.length - e.pre.custody.sent.length)

/-- What a list of transfers amounts to. -/
def amountOf (l : List (UserAddress B × ℕ)) : ℕ := (l.map Prod.snd).sum

/-- The call is a redemption. -/
def Op.isRedeem : Op B → Bool
  | .redeemDraw _ _ => true
  | _ => false

/-- What the calls selected by `K` have sent. -/
def sentBy (K : Op B → Bool) (h : Trace B) : ℕ :=
  amountOf ((h.filter fun e => K e.label.op).flatMap transfers)

/-- Everything redemptions have sent. -/
def sentToMerchants (h : Trace B) : ℕ := sentBy Op.isRedeem h

/-- Everything the other calls have sent. -/
def sentToIssuer (h : Trace B) : ℕ := sentBy (fun op => !op.isRedeem) h

/-- The budgets of the notes that are still to be redeemed, credited or refunded. -/
def owedToNotes (s : Ledger B) : ℕ :=
  noteSum NoteMeta.Live NoteMeta.cost s + noteSum NoteMeta.Refundable NoteMeta.cost s

theorem transfers_eq {c : Call B} {s s' : Ledger B} {l : List (UserAddress B × ℕ)}
    (hl : s'.custody.sent = l ++ s.custody.sent) : transfers ⟨c, s, s'⟩ = l := by
  rw [transfers, hl, List.length_append, Nat.add_sub_cancel, List.take_left]

@[simp] theorem amountOf_append (l l' : List (UserAddress B × ℕ)) :
    amountOf (l ++ l') = amountOf l + amountOf l' := by
  rw [amountOf, List.map_append, List.sum_append]
  rfl

theorem sentBy_cons (K : Op B → Bool) (e : Tx B) (h : Trace B) :
    sentBy K (e :: h)
      = (if K e.label.op = true then amountOf (transfers e) else 0) + sentBy K h := by
  by_cases hK : K e.label.op = true
  · rw [if_pos hK, sentBy, List.filter_cons, if_pos hK, List.flatMap_cons,
      amountOf_append]
    rfl
  · rw [if_neg hK, sentBy, List.filter_cons, if_neg hK, Nat.zero_add]
    rfl

/-- Every transfer is one of the two kinds. -/
theorem sentToMerchants_add_sentToIssuer (h : Trace B) :
    sentToMerchants h + sentToIssuer h = amountOf (h.flatMap transfers) := by
  induction h with
  | nil => rfl
  | cons e h ih =>
    rw [sentToMerchants, sentToIssuer, sentBy_cons, sentBy_cons, List.flatMap_cons,
      amountOf_append, ← ih, sentToMerchants, sentToIssuer]
    cases e.label.op.isRedeem <;> simp <;> omega

/-- A payout is of an amount that is held. -/
theorem payIssuer_ok {s : Ledger B} {a : ℕ} {custody : Custody B}
    (hp : payIssuer .organization a s = .ok custody) :
    a ≤ s.custody.balance ∧ custody = sendUnshielded a s.issuerPayoutRecipient s.custody := by
  simp only [payIssuer, bind_ok_iff, assert_ok_iff, exists_const, pure_ok_iff] at hp
  obtain ⟨_, hle, rfl⟩ := hp
  exact ⟨hle, rfl⟩

theorem payMerchant_ok [DecidableEq B] {M : B} {s : Ledger B} {a : ℕ} {custody : Custody B}
    (hp : payMerchant .organization M a s = .ok custody) :
    ∃ recipient, s.merchantPayoutRecipients.lookup M = some recipient ∧ a ≤ s.custody.balance
      ∧ custody = sendUnshielded a recipient s.custody := by
  simp only [payMerchant, bind_ok_iff, lookup_ok_iff, assert_ok_iff, exists_const,
    pure_ok_iff] at hp
  obtain ⟨r, hr, _, hle, rfl⟩ := hp
  exact ⟨r, hr, hle, rfl⟩

theorem payRefund_ok {s : Ledger B} {a : ℕ} {custody : Custody B}
    (hp : payRefund .organization a s = .ok custody) :
    a ≤ s.custody.balance ∧ custody = sendUnshielded a s.issuerPayoutRecipient s.custody := by
  simp only [payRefund, bind_ok_iff, assert_ok_iff, exists_const, pure_ok_iff] at hp
  obtain ⟨hle, rfl⟩ := hp
  exact ⟨hle, rfl⟩

variable [DecidableEq B] [Compact B] {c : Call B} {s s' : Ledger B} {h h' : Trace B} {D : B}

/-! ## What a call sends -/

/-- To whom a call sends how much. -/
inductive Sends (c : Call B) (s : Ledger B) : List (UserAddress B × ℕ) → Prop
  | redeem {D noteExpiry n recipient} :
      c.op = .redeemDraw D noteExpiry → RedeemGuard c.witness c.now D noteExpiry s n →
      s.merchantPayoutRecipients.lookup (merchantPublicKey (c.witness.callerSecret 0))
        = some recipient →
      Sends c s [(recipient, n.amount.val)]
  | refund {D action receiptExpiry n} :
      c.op = .cancelOrExpireNote D action receiptExpiry → action.val = 2 →
      RefundGuard c.witness c.now D receiptExpiry s n →
      Sends c s [(s.issuerPayoutRecipient, (c.witness.repayAmount 0).val)]
  | withdraw {amount} :
      c.op = .withdrawUnencumberedReserve amount →
      lockedReserve s + amount.val ≤ s.totalReserve.val →
      Sends c s [(s.issuerPayoutRecipient, amount.val)]
  | fees :
      c.op = .withdrawFees → lockedReserve s ≤ s.totalReserve.val →
      Sends c s [(s.issuerPayoutRecipient, s.feeReserve.val)]
  | nothing :
      c.op.isRedeem = false → (∀ D, c.op.cancels D 2 = false) → Sends c s []

/-- What a call makes of custody. -/
structure Moves (c : Call B) (s s' : Ledger B) (l : List (UserAddress B × ℕ)) : Prop where
  sends : Sends c s l
  sent : s'.custody.sent = l ++ s.custody.sent
  /-- What came in is held or was sent. -/
  held : s'.custody.received + s.custody.balance
    = s.custody.received + s'.custody.balance + amountOf l
  /-- Redeemed principal is what redemptions send. -/
  redeemed : s'.redeemedReserve.val
    = s.redeemedReserve.val + if c.op.isRedeem = true then amountOf l else 0

/-- A call that makes no transfer and takes nothing in. -/
theorem Moves.idle (hr : c.op.isRedeem = false) (hc : ∀ D, c.op.cancels D 2 = false)
    (hs : s'.custody = s.custody) (hR : s'.redeemedReserve = s.redeemedReserve) :
    Moves c s s' [] where
  sends := .nothing hr hc
  sent := by rw [hs, List.nil_append]
  held := by
    rw [hs]
    rfl
  redeemed := by
    rw [hR, hr]
    rfl

/-- One transfer of what was held, by a call that is not a redemption. -/
theorem Moves.pay {a : ℕ} {r : UserAddress B} (hp : Sends c s [(r, a)])
    (hle : a ≤ s.custody.balance)
    (hs : s'.custody = sendUnshielded a r s.custody) (hr : c.op.isRedeem = false)
    (hR : s'.redeemedReserve = s.redeemedReserve) : Moves c s s' [(r, a)] where
  sends := hp
  sent := by
    rw [hs]
    rfl
  held := by
    simp only [hs, sendUnshielded, amountOf, List.map_cons, List.map_nil, List.sum_cons,
      List.sum_nil]
    omega
  redeemed := by
    rw [hR, hr]
    rfl

/-- Taking a deposit in. -/
theorem Moves.receive {a : ℕ} (hr : c.op.isRedeem = false) (hc : ∀ D, c.op.cancels D 2 = false)
    (hs : s'.custody = receiveUnshielded .organization a s.custody)
    (hR : s'.redeemedReserve = s.redeemedReserve) : Moves c s s' [] where
  sends := .nothing hr hc
  sent := by
    rw [hs]
    rfl
  held := by
    simp only [hs, receiveUnshielded, amountOf, List.map_nil, List.sum_nil]
    omega
  redeemed := by
    rw [hR, hr]
    rfl

/-- **Every call sends what `Sends` says**, and custody accounts for it. -/
theorem Step.moves (st : Step .organization c s s') : ∃ l, Moves c s s' l := by
  cases st with
  | fundReserve => exact ⟨[], .receive rfl (fun _ => rfl) rfl rfl⟩
  | acknowledgeRepayment => exact ⟨[], .receive rfl (fun _ => rfl) rfl rfl⟩
  | withdrawUnencumberedReserve hi ha hl hc hT =>
    obtain ⟨hle, rfl⟩ := payIssuer_ok hc
    exact ⟨_, .pay (.withdraw rfl hl) hle rfl rfl rfl⟩
  | withdrawFees hi hf hl hc hT =>
    obtain ⟨hle, rfl⟩ := payIssuer_ok hc
    exact ⟨_, .pay (.fees rfl hl) hle rfl rfl rfl⟩
  | redeemDraw g hc hE hR hP hF =>
    obtain ⟨r, hr, hle, rfl⟩ := payMerchant_ok hc
    refine ⟨_, .redeem rfl g hr, rfl, ?_, ?_⟩
    · simp only [sendUnshielded, amountOf, List.map_cons, List.map_nil, List.sum_cons,
        List.sum_nil]
      omega
    · simp only [Op.isRedeem, ↓reduceIte, hR, amountOf, List.map_cons, List.map_nil,
        List.sum_cons, List.sum_nil, Nat.add_zero]
  | acknowledgeRefund h2 g hpay hlt hU hcan horg =>
    obtain ⟨hle, rfl⟩ := payRefund_ok hpay
    exact ⟨_, .pay (.refund rfl h2 g) hle rfl rfl rfl⟩
  | expire h0 => exact ⟨[], .idle rfl (fun _ => by simp [Op.cancels, h0]) rfl rfl⟩
  | allocateCurrent h1 => exact ⟨[], .idle rfl (fun _ => by simp [Op.cancels, h1]) rfl rfl⟩
  | allocateOlder h1 => exact ⟨[], .idle rfl (fun _ => by simp [Op.cancels, h1]) rfl rfl⟩
  | _ => exact ⟨[], .idle rfl (fun _ => rfl) rfl rfl⟩

/-! ## Recipients -/

/-- The registry and the payout recipients have the same keys. -/
def SameKeys (s : Ledger B) : Prop :=
  ∀ M, M ∈ s.registeredMerchants ↔ M ∈ s.merchantPayoutRecipients

theorem SameKeys.step (hk : SameKeys s) (st : Step .organization c s s') : SameKeys s' := by
  cases st with
  | registerMerchant =>
    intro M
    rw [Finmap.mem_insert, Finmap.mem_insert, hk M]
  | disableMerchant hi hm =>
    -- disabling writes over a key that is there
    intro M
    rw [Finmap.mem_insert, ← hk M]
    refine ⟨?_, .inr⟩
    intro hM
    rcases hM with rfl | hM
    · exact hm
    · exact hM
  | _ => exact hk

theorem Reaches.sameKeys (r : Reaches .organization h s) : SameKeys s := by
  refine r.stateInvariant ?_ fun s c s' hk st => hk.step st
  intro d M
  simp only [constructor, Finmap.mem_insert, Finmap.notMem_empty]

/-- A recipient is written once: a key that has one is registered, and is not registered again. -/
theorem Step.recipient (st : Step .organization c s s') (hk : SameKeys s) {M : B}
    {r : UserAddress B} (hM : s.merchantPayoutRecipients.lookup M = some r) :
    s'.merchantPayoutRecipients.lookup M = some r := by
  cases st with
  | registerMerchant hi hnew =>
    have hreg : M ∈ s.registeredMerchants := (hk M).mpr (Finmap.mem_iff.mpr ⟨r, hM⟩)
    rw [Finmap.lookup_insert_of_ne _ (fun e => hnew (by rw [← e]; exact hreg))]
    exact hM
  | _ => exact hM

theorem Continues.recipient (r' : Continues .organization s h' s') (hk : SameKeys s) {M : B}
    {r : UserAddress B} (hM : s.merchantPayoutRecipients.lookup M = some r) :
    s'.merchantPayoutRecipients.lookup M = some r := by
  refine (r'.preserves
    (I := fun s => SameKeys s ∧ s.merchantPayoutRecipients.lookup M = some r) ?_ ⟨hk, hM⟩).2
  intro s c s' hI st
  exact ⟨hI.1.step st, st.recipient hI.1 hI.2⟩

/-! ## What is not owed to notes -/

omit [Compact B] in
/-- A sum of costs is the sum of the amounts and the sum of the fees. -/
theorem noteSum_cost (P : NoteMeta B → Prop) [DecidablePred P] (s : Ledger B) :
    noteSum P NoteMeta.cost s
      = noteSum P (fun n => n.amount.val) s + noteSum P (fun n => n.fee.val) s := by
  rw [noteSum, noteSum, noteSum, ← total_add]
  refine total_congr fun _ n _ => ?_
  by_cases hP : P n
  · rw [if_pos hP, if_pos hP, if_pos hP]
    rfl
  · rw [if_neg hP, if_neg hP, if_neg hP]

theorem Reaches.owedToNotes (r : Reaches .organization h s) :
    owedToNotes s
      = s.encumberedReserve.val + s.pendingFeeReserve.val + s.refundReserve.val := by
  obtain ⟨_, hE, hP, _, _, hU, _⟩ := organization_reserve r
  rw [Line.owedToNotes, noteSum_cost, ← hE, ← hP, ← hU]

/-- **The withdrawals leave what the notes are owed.** -/
theorem Sends.unowed {l : List (UserAddress B × ℕ)} (hl : Sends c s l)
    (r : Reaches .organization h s) (hr : c.op.isRedeem = false)
    (hc : ∀ D, c.op.cancels D 2 = false) :
    ∀ t ∈ l, t.1 = s.issuerPayoutRecipient
      ∧ t.2 + Line.owedToNotes s ≤ s.custody.balance := by
  have hheld := r.custody
  rw [r.owedToNotes]
  cases hl with
  | redeem hop => simp [hop, Op.isRedeem] at hr
  | @refund D action _ _ hop h2 =>
    have hD := hc D
    simp [hop, Op.cancels, h2] at hD
  | withdraw hop hle =>
    intro t ht
    rw [List.mem_singleton.mp ht]
    simp only [lockedReserve] at hle
    exact ⟨rfl, by simp only; omega⟩
  | fees hop hle =>
    intro t ht
    rw [List.mem_singleton.mp ht]
    simp only [lockedReserve] at hle
    exact ⟨rfl, by simp only; omega⟩
  | nothing =>
    intro t ht
    cases ht

/-! ## Over a run -/

/-- A recorded call made its transfers, from a reached ledger with the same fixed recipient. -/
theorem Reaches.moves_of_mem (r : Reaches .organization h s) {e : Tx B} (he : e ∈ h) :
    ∃ h₁ l, Reaches .organization h₁ e.pre ∧ transfers e = l ∧ Moves e.label e.pre e.post l
      ∧ e.pre.issuerPayoutRecipient = s.issuerPayoutRecipient := by
  obtain ⟨h₁, _, -, r₁, st, r₂⟩ := r.of_mem he
  obtain ⟨l, hl⟩ := st.moves
  have hfix := (st.sameInstance.trans r₂.sameInstance).issuerPayoutRecipient
  exact ⟨h₁, l, r₁, transfers_eq hl.sent, hl, hfix.symm⟩

/-- Nothing is sent but by recorded calls. -/
theorem Reaches.sent (r : Reaches .organization h s) :
    s.custody.sent = h.flatMap transfers := by
  refine r.invariant (I := fun h s => s.custody.sent = h.flatMap transfers) (fun _ => rfl) ?_
  intro h s c s' _ hI st
  obtain ⟨l, hl⟩ := st.moves
  rw [List.flatMap_cons, transfers_eq hl.sent, hl.sent, hI]

/-- What was received is held or was sent. -/
theorem Reaches.received (r : Reaches .organization h s) :
    s.custody.received = s.custody.balance + amountOf (h.flatMap transfers) := by
  refine r.invariant
    (I := fun h s => s.custody.received = s.custody.balance + amountOf (h.flatMap transfers))
    (fun _ => rfl) ?_
  intro h s c s' _ hI st
  obtain ⟨l, hl⟩ := st.moves
  have hheld := hl.held
  rw [List.flatMap_cons, amountOf_append, transfers_eq hl.sent]
  omega

/-- What merchants were sent is the redeemed principal. -/
theorem Reaches.sentToMerchants (r : Reaches .organization h s) :
    sentToMerchants h = s.redeemedReserve.val := by
  refine r.invariant (I := fun h s => Line.sentToMerchants h = s.redeemedReserve.val)
    (fun _ => rfl) ?_
  intro h s c s' _ hI st
  obtain ⟨l, hl⟩ := st.moves
  have hR := hl.redeemed
  rw [Line.sentToMerchants, sentBy_cons, transfers_eq hl.sent]
  rw [Line.sentToMerchants] at hI
  simp only
  omega

/-- Who was paid in a run `h` of the organization contract to `s`, and what stays in any
continuation of it to `s'`. -/
structure Paid (h : Trace B) (s s' : Ledger B) : Prop where
  keys : ∀ M, M ∈ s.registeredMerchants ↔ M ∈ s.merchantPayoutRecipients
  recipientFixed : ∀ M r, s.merchantPayoutRecipients.lookup M = some r →
    s'.merchantPayoutRecipients.lookup M = some r
  issuerFixed : s'.issuerPayoutRecipient = s.issuerPayoutRecipient
  /-- The transfers of the recorded calls are all there are. -/
  recorded : s.custody.sent = h.flatMap transfers
  /-- A redemption sends the amount of the note to the recipient registered for the merchant key
  that the note commits to. -/
  redemption : ∀ e ∈ h, ∀ D, e.label.op.redeems D = true → ∃ n recipient,
    e.pre.notes.lookup D = some n ∧ transfers e = [(recipient, n.amount.val)]
    ∧ (∃ opening salt, drawNoteCommit opening salt = D)
    ∧ ∀ opening salt, drawNoteCommit opening salt = D →
        e.pre.merchantPayoutRecipients.lookup opening.merchantPk = some recipient
  redeemedOnce : ∀ D, h.countP (fun e => e.label.op.redeems D) ≤ 1
  /-- A refund sends the issuer's recipient the amount that the note's refund commits to. -/
  refund : ∀ e ∈ h, ∀ D, e.label.op.cancels D 2 = true → ∃ n amount,
    e.pre.notes.lookup D = some n ∧ transfers e = [(s.issuerPayoutRecipient, amount)]
    ∧ (∃ opening salt, refundCommit opening salt = n.refundCommitment)
    ∧ ∀ opening salt, refundCommit opening salt = n.refundCommitment →
        opening.amount.val = amount
  refundedOnce : ∀ D, h.countP (fun e => e.label.op.cancels D 2) ≤ 1
  /-- Any other transfer goes to the issuer's recipient, out of what no note is owed. -/
  others : ∀ e ∈ h, e.label.op.isRedeem = false → (∀ D, e.label.op.cancels D 2 = false) →
    ∀ t ∈ transfers e, t.1 = s.issuerPayoutRecipient
      ∧ t.2 + owedToNotes e.pre ≤ e.pre.custody.balance
  principal : sentToMerchants h = s.redeemedReserve.val
  conserved : s.custody.received = sentToMerchants h + sentToIssuer h + s.custody.balance

/-- A note is redeemed at most once: redemption is one of the two ways to settle it. -/
theorem Reaches.redeems_once (r : Reaches .organization h s) (D : B) :
    h.countP (fun e => e.label.op.redeems D) ≤ 1 := by
  refine (List.countP_mono_left ?_).trans (r.settles_once D)
  intro e _ he
  rw [Op.settles, he, Bool.true_or]

/-- **The payouts of the organization contract, over every run.** -/
theorem organization_payouts [LawfulCompact B] (r : Reaches .organization h s)
    (r' : Continues .organization s h' s') : Paid h s s' where
  keys := r.sameKeys
  recipientFixed := fun _ _ hM => r'.recipient r.sameKeys hM
  issuerFixed := r'.sameInstance.issuerPayoutRecipient
  recorded := r.sent
  redemption := by
    intro e he D hD
    obtain ⟨_, l, -, hl, hm, -⟩ := r.moves_of_mem he
    rw [hl]
    cases hm.sends with
    | @redeem D' noteExpiry n recipient hop g hr =>
      rw [hop] at hD
      obtain rfl := of_decide_eq_true hD
      refine ⟨n, recipient, g.found, rfl, ⟨_, _, g.opening⟩, ?_⟩
      intro opening salt hO
      -- the commitment has one opening, and its key is the caller's
      rw [← g.opening] at hO
      rw [(drawNoteCommit_inj hO).1]
      exact hr
    | refund hop => simp [hop, Op.redeems] at hD
    | withdraw hop => simp [hop, Op.redeems] at hD
    | fees hop => simp [hop, Op.redeems] at hD
    | nothing hn =>
      cases hop : e.label.op <;> simp [hop, Op.redeems, Op.isRedeem] at hD hn
  redeemedOnce := r.redeems_once
  refund := by
    intro e he D hD
    obtain ⟨_, l, -, hl, hm, hfix⟩ := r.moves_of_mem he
    rw [hl, ← hfix]
    cases hm.sends with
    | redeem hop => simp [hop, Op.cancels] at hD
    | @refund D' action receiptExpiry n hop h2 g =>
      rw [hop] at hD
      obtain ⟨rfl, -⟩ := of_decide_eq_true hD
      refine ⟨n, _, g.found, rfl, ⟨_, _, g.opening⟩, ?_⟩
      intro opening salt hO
      rw [← g.opening] at hO
      rw [(refundCommit_inj hO).1]
      rfl
    | withdraw hop => simp [hop, Op.cancels] at hD
    | fees hop => simp [hop, Op.cancels] at hD
    | nothing _ hn =>
      rw [hn D] at hD
      cases hD
  refundedOnce := r.refunds_once
  others := by
    intro e he hr hc t ht
    obtain ⟨_, l, r₁, hl, hm, hfix⟩ := r.moves_of_mem he
    rw [hl] at ht
    rw [← hfix]
    exact hm.sends.unowed r₁ hr hc t ht
  principal := r.sentToMerchants
  conserved := by
    have hin := r.received
    have hsplit := sentToMerchants_add_sentToIssuer h
    omega

/-- A run that pays a merchant, withdraws, pays fees and refunds. -/
theorem organization_payouts_run : ∃ (h : Trace Term) (s : Ledger Term),
    Reaches .organization h s ∧ Paid h s s
      ∧ s.custody.sent = [(⟨.atom 5⟩, 48), (⟨.atom 5⟩, 2), (⟨.atom 6⟩, 100)]
      ∧ s.custody.received = 1150 := by
  obtain ⟨h, s, r, ht⟩ := Demo.reaches_of_check .organization
    [Demo.fund 1000, Demo.openLine, Demo.post 1 1, Demo.draw 1 1 0 0, Demo.redeem 1 1,
      Demo.withdrawFees, Demo.post 2 1, Demo.draw 2 1 102 1, Demo.repay 7 204 2 150,
      Demo.allocate 2 1 54 3, Demo.refund 2 1 48]
    (fun _ s => decide (s.custody.sent = [(⟨.atom 5⟩, 48), (⟨.atom 5⟩, 2), (⟨.atom 6⟩, 100)])
      && decide (s.custody.received = 1150)) (by decide +kernel)
  simp only [Bool.and_eq_true, decide_eq_true_eq] at ht
  exact ⟨h, s, r, organization_payouts r (.start rfl), ht.1, ht.2⟩

end Line
