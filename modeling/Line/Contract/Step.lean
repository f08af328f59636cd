import Line.Contract.Circuits
import Line.Lib.History

/-!
# What a successful circuit can do

`Step p c s s'` lists, for every circuit, everything that was checked and the
ledger it left; `exec_ok_iff` says that the list is complete in both directions.
Every later invariant is proved by cases on `Step`, so no other module looks
inside a circuit.

The checks of the longer circuits are structures with a field for each
assertion. Casts and subtractions appear as equations between numbers.

What a circuit asks its caller for is a value of the witness each time it asks, so two answers to
one question are two values here and may differ. What a check binds is stated of the answer that
the check was made of: an invariant that needs the two to agree has to say so, and cannot take it
from a name.
-/

namespace Line

open Checked

variable {B : Type} [DecidableEq B] [Compact B]

/-! ## The checks of the circuits -/

/-- The issuer's secret was answered to the first `callerSecret()`. -/
def IsIssuer (w : Witness B) (s : Ledger B) : Prop :=
  s.issuer = issuerPublicKey (w.callerSecret 0)

/-- The book the first answers of the witnesses describe. -/
def witnessBook (w : Witness B) (s : Ledger B) : LinePreimage B :=
  ⟨s.contractDomain, s.identityCommit, w.lineLimit 0, w.lineOutstanding 0, w.lineEpoch 0⟩

/-- The fee the policy asks for: the flat part plus the variable part rounded up. -/
def requiredFee (feeFlat feeBps amount : U64) : Nat :=
  feeFlat.val + (amount.val * feeBps.val + 9999) / 10000

/-- The opening of the note a draw creates. -/
def drawnPreimage (w : Witness B) (Q : B) (noteExpiry fee : U64) (s : Ledger B) :
    DrawNotePreimage B where
  domain := s.contractDomain
  lineGeneration := s.lineGeneration
  identity := s.identityCommit
  quoteCommit := Q
  merchantPk := w.quoteMerchantPk 0
  amount := w.drawAmount 0
  fee := fee
  noteNonce := w.noteNonce 0
  expiry := noteExpiry

/-- The note a draw creates. -/
def drawnNote (w : Witness B) (Q : B) (noteExpiry fee : U64) (s : Ledger B) : B :=
  drawNoteCommit (drawnPreimage w Q noteExpiry fee s) (w.noteSalt 0)

/-- The assertions of `draw`. -/
structure DrawGuard (p : Profile) (w : Witness B) (now : Nat) (Q : B) (noteExpiry fee : U64)
    (s : Ledger B) (quote : QuoteMeta) : Prop where
  status : s.status = .OPEN
  lineLive : now < s.lineExpiry.val
  agent : agentId (w.agentSecret 0) = s.identityCommit
  stale : lineStateCommit (witnessBook w s) (w.salt 0) = s.lineCommit
  found : s.quotes.lookup Q = some quote
  unused : quote.used = false
  quoteLive : now < quote.expiry.val
  generation : quote.lineGeneration = s.lineGeneration
  recon : quoteCommit (w.quoteMerchantPk 0) (w.invoiceId 0) (w.drawAmount 0) quote.expiry
    (w.quoteNonce 0) s.lineGeneration s.contractDomain s.feeFlat s.feeBps = Q
  merchant : w.quoteMerchantPk 0 ∈ s.registeredMerchants
  positive : 0 < (w.drawAmount 0).val
  priced : fee.val = requiredFee s.feeFlat s.feeBps (w.drawAmount 0)
  capacity : (w.lineOutstanding 0).val + ((w.drawAmount 0).val + fee.val) ≤ (w.lineLimit 0).val
  reserve : lockedReserve s + ((w.drawAmount 0).val + fee.val) ≤ s.totalReserve.val
  backed : requireBacking p (lockedReserve s) ((w.drawAmount 0).val + fee.val) s = .ok ()
  terms : noteExpiry = quote.expiry
  fresh : drawNullifier (w.agentSecret 0) Q s.contractDomain ∉ s.nullifiers
  free : drawnNote w Q noteExpiry fee s ∉ s.notes

/-- The opening a redemption shows. -/
def redeemPreimage (w : Witness B) (noteExpiry : U64) (note : NoteMeta B) (s : Ledger B) :
    DrawNotePreimage B where
  domain := s.contractDomain
  lineGeneration := note.lineGeneration
  identity := w.noteIdentity 0
  quoteCommit := w.noteQuoteCommit 0
  merchantPk := merchantPublicKey (w.callerSecret 0)
  amount := w.redeemAmount 0
  fee := note.fee
  noteNonce := w.noteNonce 0
  expiry := noteExpiry

/-- The assertions of `redeemDraw`. -/
structure RedeemGuard (w : Witness B) (now : Nat) (D : B) (noteExpiry : U64) (s : Ledger B)
    (note : NoteMeta B) : Prop where
  found : s.notes.lookup D = some note
  unredeemed : note.redeemed = false
  uncancelled : note.cancelled = false
  live : now < note.expiry.val
  amount : note.amount = w.redeemAmount 0
  opening : drawNoteCommit (redeemPreimage w noteExpiry note s) (w.noteSalt 0) = D
  fresh : redeemNullifier (w.callerSecret 1) D s.contractDomain ∉ s.nullifiers

/-- The counter moves of an expiry: made when the note is still live, skipped when it was
expired before. -/
structure Releases (now : Nat) (note : NoteMeta B) (cost : U64) (s : Ledger B) (E P U : U64) :
    Prop where
  skipped : note.cancelled = true →
    E = s.encumberedReserve ∧ P = s.pendingFeeReserve ∧ U = s.refundReserve
  expired : note.cancelled = false → note.expiry.val ≤ now
  encumbered : note.cancelled = false → E.val + note.amount.val = s.encumberedReserve.val
  pending : note.cancelled = false → P.val + note.fee.val = s.pendingFeeReserve.val
  refund : note.cancelled = false → U.val = s.refundReserve.val + cost.val

/-- The opening a compensation shows. -/
def compensationPreimage (w : Witness B) (note : NoteMeta B) (s : Ledger B) :
    DrawNotePreimage B where
  domain := s.contractDomain
  lineGeneration := note.lineGeneration
  identity := w.noteIdentity 0
  quoteCommit := w.noteQuoteCommit 0
  merchantPk := w.quoteMerchantPk 0
  amount := note.amount
  fee := note.fee
  noteNonce := w.noteNonce 0
  expiry := note.expiry

/-- The assertions of a compensation allocation, in both generations. -/
structure AllocateGuard (w : Witness B) (D : B) (s : Ledger B) (note : NoteMeta B) : Prop where
  found : s.notes.lookup D = some note
  unredeemed : note.redeemed = false
  unallocated : note.compensationAllocated = false
  opening : drawNoteCommit (compensationPreimage w note s) (w.noteSalt 0) = D
  authority : issuerPublicKey (w.callerSecret 0) = s.issuer
    ∨ agentId (w.callerSecret 0) = w.noteIdentity 0

/-- The refund a compensation binds. -/
def refundPreimage (D : B) (note : NoteMeta B) (owner : B) (amount : U64) (s : Ledger B) :
    RefundPreimage B where
  domain := s.contractDomain
  lineGeneration := note.lineGeneration
  identity := owner
  noteCommit := D
  amount := amount

/-- The entry of an expired note. -/
def NoteMeta.expire (note : NoteMeta B) : NoteMeta B where
  amount := note.amount
  fee := note.fee
  redeemed := false
  cancelled := true
  expiry := note.expiry
  lineGeneration := note.lineGeneration
  compensationAllocated := false
  refundCommitment := pad ""
  cashRefundOwed := false
  refundAcknowledged := false
  refundPaymentNullifier := pad ""

/-- The entry of a redeemed note. -/
def NoteMeta.redeem (note : NoteMeta B) : NoteMeta B where
  amount := note.amount
  fee := note.fee
  redeemed := true
  cancelled := false
  expiry := note.expiry
  lineGeneration := note.lineGeneration
  compensationAllocated := false
  refundCommitment := pad ""
  cashRefundOwed := false
  refundAcknowledged := false
  refundPaymentNullifier := pad ""

/-- The entry of an allocated note. -/
def NoteMeta.allocate (note : NoteMeta B) (refund : B) (owed : Bool) : NoteMeta B where
  amount := note.amount
  fee := note.fee
  redeemed := false
  cancelled := true
  expiry := note.expiry
  lineGeneration := note.lineGeneration
  compensationAllocated := true
  refundCommitment := refund
  cashRefundOwed := owed
  refundAcknowledged := false
  refundPaymentNullifier := pad ""

/-- The entry of a note whose refund was acknowledged. -/
def NoteMeta.acknowledge (note : NoteMeta B) (P : B) : NoteMeta B where
  amount := note.amount
  fee := note.fee
  redeemed := false
  cancelled := true
  expiry := note.expiry
  lineGeneration := note.lineGeneration
  compensationAllocated := true
  refundCommitment := note.refundCommitment
  cashRefundOwed := true
  refundAcknowledged := true
  refundPaymentNullifier := P

/-- The entry of a note just drawn. -/
def NoteMeta.drawn (amount fee expiry lineGeneration : U64) : NoteMeta B where
  amount := amount
  fee := fee
  redeemed := false
  cancelled := false
  expiry := expiry
  lineGeneration := lineGeneration
  compensationAllocated := false
  refundCommitment := pad ""
  cashRefundOwed := false
  refundAcknowledged := false
  refundPaymentNullifier := pad ""

/-- The payment nullifier, built from the second `callerSecret()`. -/
def witnessPayment (w : Witness B) (s : Ledger B) : B :=
  paymentNullifier (w.callerSecret 1) (w.paymentRef 0) s.contractDomain

/-- The receipt nullifier of a repayment. -/
def witnessReceipt (w : Witness B) (s : Ledger B) : B :=
  repayNullifier (w.receiptNonce 0) s.identityCommit s.lineCommit (w.repayAmount 0)
    (w.paymentRef 0) s.contractDomain

/-- The assertions of a refund acknowledgement. -/
structure RefundGuard (w : Witness B) (now : Nat) (D : B) (receiptExpiry : U64)
    (s : Ledger B) (note : NoteMeta B) : Prop where
  found : s.notes.lookup D = some note
  unredeemed : note.redeemed = false
  issuer : IsIssuer w s
  cancelled : note.cancelled = true
  allocated : note.compensationAllocated = true
  owed : note.cashRefundOwed = true
  unacknowledged : note.refundAcknowledged = false
  live : now < receiptExpiry.val
  positive : 0 < (w.repayAmount 0).val
  bounded : (w.repayAmount 0).val ≤ note.amount.val + note.fee.val
  opening : refundCommit (refundPreimage D note (w.noteIdentity 0) (w.repayAmount 0) s)
    (w.salt 0) = note.refundCommitment
  reference : w.paymentRef 0 ≠ pad ""
  fresh : witnessPayment w s ∉ s.nullifiers

/-- The assertions of `acknowledgeRepayment`. -/
structure RepayGuard (w : Witness B) (now : Nat) (receiptExpiry : U64) (s : Ledger B) :
    Prop where
  issuer : IsIssuer w s
  status : s.status = .OPEN ∨ s.status = .DEFAULTED
  stale : lineStateCommit (witnessBook w s) (w.salt 0) = s.lineCommit
  positive : 0 < (w.repayAmount 0).val
  range : (w.repayAmount 0).val ≤ (w.lineOutstanding 0).val
  live : now < receiptExpiry.val
  reference : w.paymentRef 0 ≠ pad ""
  freshPayment : witnessPayment w s ∉ s.nullifiers
  freshReceipt : witnessReceipt w s ∉ s.nullifiers

/-- The assertions of `setStatus`. -/
structure StatusGuard (w : Witness B) (next : Status) (s : Ledger B) : Prop where
  issuer : IsIssuer w s
  line : s.status ≠ .NONE
  notNone : next ≠ .NONE
  notClosed : s.status ≠ .CLOSED
  closing : next = .CLOSED → lineStateCommit (witnessBook w s) (w.salt 0) = s.lineCommit
    ∧ (w.lineOutstanding 0).val = 0

/-- The assertions of `openLine`. -/
structure OpenGuard (w : Witness B) (now : Nat) (expiry basisPoints : U64) (s : Ledger B) :
    Prop where
  issuer : IsIssuer w s
  status : s.status = .NONE ∨ s.status = .CLOSED
  limit : 0 < (w.lineLimit 0).val
  deadline : now < expiry.val
  rate : basisPoints.val ≤ 10000

/-- The quote a merchant posts. -/
def witnessQuote (w : Witness B) (expiry : U64) (s : Ledger B) : B :=
  quoteCommit (merchantPublicKey (w.callerSecret 0)) (w.invoiceId 0) (w.quoteAmount 0) expiry
    (w.quoteNonce 0) s.lineGeneration s.contractDomain s.feeFlat s.feeBps

/-- The assertions of `postQuote`. -/
structure QuoteGuard (w : Witness B) (now : Nat) (expiry : U64) (s : Ledger B) : Prop where
  enabled : s.registeredMerchants.lookup (merchantPublicKey (w.callerSecret 0)) = some true
  status : s.status = .OPEN
  positive : 0 < (w.quoteAmount 0).val
  deadline : now < expiry.val
  fresh : witnessQuote w expiry s ∉ s.quotes

/-! ## The fee assertions -/

/-- **The bracketing assertions accept exactly the required fee.** -/
theorem feePolicy_ok_iff {feeFlat feeBps amount f : U64} (ha : 0 < amount.val) {u : Unit} :
    feePolicy feeFlat feeBps amount f = .ok u ↔ f.val = requiredFee feeFlat feeBps amount := by
  unfold requiredFee
  by_cases hb : feeBps.val = 0
  · simp only [feePolicy, bind_ok_iff, assert_ok_iff, sub_ok_iff, hb, ↓reduceIte, exists_const,
      Nat.mul_zero]
    constructor
    · rintro ⟨_, v, ⟨_, rfl⟩, hv⟩
      omega
    · intro h
      exact ⟨by omega, _, ⟨by omega, rfl⟩, by omega⟩
  · have hn : 0 < amount.val * feeBps.val := Nat.mul_pos ha (Nat.pos_of_ne_zero hb)
    simp only [feePolicy, bind_ok_iff, assert_ok_iff, sub_ok_iff, hb, ↓reduceIte, exists_const]
    generalize amount.val * feeBps.val = n at hn ⊢
    constructor
    · rintro ⟨_, v, ⟨_, rfl⟩, _, b, ⟨_, rfl⟩, _, _⟩
      omega
    · intro h
      exact ⟨by omega, _, ⟨by omega, rfl⟩, by omega, _, ⟨by omega, rfl⟩, by omega, by omega⟩

/-! ## The steps -/

/-- The lawful steps: what was checked, and the ledger that results. -/
inductive Step (p : Profile) : Call B → Ledger B → Ledger B → Prop
  | registerMerchant {w now s merchantPk recipient} :
      IsIssuer w s → merchantPk ∉ s.registeredMerchants →
      Step p ⟨.registerMerchant merchantPk recipient, w, now⟩ s { s with
        registeredMerchants := s.registeredMerchants.insert merchantPk true
        merchantPayoutRecipients :=
          match p with
          | .canonical => s.merchantPayoutRecipients
          | .organization => s.merchantPayoutRecipients.insert merchantPk recipient
        actionClock := s.actionClock + 1 }
  | disableMerchant {w now s merchantPk} :
      IsIssuer w s → merchantPk ∈ s.registeredMerchants →
      Step p ⟨.disableMerchant merchantPk, w, now⟩ s { s with
        registeredMerchants := s.registeredMerchants.insert merchantPk false
        actionClock := s.actionClock + 1 }
  | fundReserve {w now s amount} {T : U64} :
      IsIssuer w s → 0 < amount.val → T.val = s.totalReserve.val + amount.val →
      Step p ⟨.fundReserve amount, w, now⟩ s { s with
        totalReserve := T
        custody := receiveUnshielded p amount.val s.custody
        actionClock := s.actionClock + 1 }
  | withdrawUnencumberedReserve {w now s amount} {T : U64} {custody} :
      IsIssuer w s → 0 < amount.val → lockedReserve s + amount.val ≤ s.totalReserve.val →
      payIssuer p amount.val s = .ok custody → T.val + amount.val = s.totalReserve.val →
      Step p ⟨.withdrawUnencumberedReserve amount, w, now⟩ s { s with
        totalReserve := T
        custody
        actionClock := s.actionClock + 1 }
  | withdrawFees {w now s} {T : U64} {custody} :
      IsIssuer w s → 0 < s.feeReserve.val → lockedReserve s ≤ s.totalReserve.val →
      payIssuer p s.feeReserve.val s = .ok custody →
      T.val + s.feeReserve.val = s.totalReserve.val →
      Step p ⟨.withdrawFees, w, now⟩ s { s with
        totalReserve := T
        feeReserve := .zero 64
        custody
        actionClock := s.actionClock + 1 }
  | openLine {w now s expiry flatFee basisPoints} {g : U64} :
      OpenGuard w now expiry basisPoints s → g.val = s.lineGeneration.val + 1 →
      Step p ⟨.openLine expiry flatFee basisPoints, w, now⟩ s { s with
        identityCommit := agentId (w.agentSecret 0)
        lineCommit := lineStateCommit
          ⟨s.contractDomain, agentId (w.agentSecret 0), w.lineLimit 0, .zero 64, .zero 64⟩
          (w.salt 0)
        lineExpiry := expiry
        feeFlat := flatFee
        feeBps := basisPoints
        status := .OPEN
        lineGeneration := g
        actionClock := s.actionClock + 1 }
  | postQuote {w now s expiry} :
      QuoteGuard w now expiry s →
      Step p ⟨.postQuote expiry, w, now⟩ s { s with
        quotes := s.quotes.insert (witnessQuote w expiry s) ⟨expiry, s.lineGeneration, false⟩
        actionClock := s.actionClock + 1 }
  | draw {w now s Q noteExpiry fee quote} {E P b e : U64} :
      DrawGuard p w now Q noteExpiry fee s quote →
      E.val = s.encumberedReserve.val + (w.drawAmount 0).val →
      P.val = s.pendingFeeReserve.val + fee.val →
      b.val = (w.lineOutstanding 0).val + ((w.drawAmount 0).val + fee.val) →
      e.val = (w.lineEpoch 0).val + 1 →
      Step p ⟨.draw Q noteExpiry fee, w, now⟩ s { s with
        quotes := s.quotes.insert Q ⟨quote.expiry, quote.lineGeneration, true⟩
        notes := s.notes.insert (drawnNote w Q noteExpiry fee s)
          (.drawn (w.drawAmount 0) fee noteExpiry s.lineGeneration)
        nullifiers := insert (drawNullifier (w.agentSecret 0) Q s.contractDomain) s.nullifiers
        encumberedReserve := E
        pendingFeeReserve := P
        lineCommit := lineStateCommit
          ⟨s.contractDomain, s.identityCommit, w.lineLimit 0, b, e⟩ (w.newSalt 0)
        actionClock := s.actionClock + 1 }
  | redeemDraw {w now s D noteExpiry note custody} {E R P F : U64} :
      RedeemGuard w now D noteExpiry s note →
      payMerchant p (merchantPublicKey (w.callerSecret 0)) note.amount.val s = .ok custody →
      E.val + note.amount.val = s.encumberedReserve.val →
      R.val = s.redeemedReserve.val + note.amount.val →
      P.val + note.fee.val = s.pendingFeeReserve.val →
      F.val = s.feeReserve.val + note.fee.val →
      Step p ⟨.redeemDraw D noteExpiry, w, now⟩ s { s with
        nullifiers := insert (redeemNullifier (w.callerSecret 1) D s.contractDomain) s.nullifiers
        notes := s.notes.insert D note.redeem
        encumberedReserve := E
        redeemedReserve := R
        pendingFeeReserve := P
        feeReserve := F
        custody
        actionClock := s.actionClock + 1 }
  | expire {w now s D action receiptExpiry note} {cost E P U : U64} :
      action.val = 0 → s.notes.lookup D = some note → note.redeemed = false →
      note.cancelled = false → cost.val = note.amount.val + note.fee.val →
      Releases now note cost s E P U →
      Step p ⟨.cancelOrExpireNote D action receiptExpiry, w, now⟩ s { s with
        notes := s.notes.insert D note.expire
        encumberedReserve := E
        pendingFeeReserve := P
        refundReserve := U
        actionClock := s.actionClock + 1 }
  | allocateCurrent {w now s D action receiptExpiry note} {cost E P U U' e : U64} :
      action.val = 1 → AllocateGuard w D s note → cost.val = note.amount.val + note.fee.val →
      Releases now note cost s E P U → note.lineGeneration = s.lineGeneration →
      w.noteIdentity 0 = s.identityCommit →
      lineStateCommit (witnessBook w s) (w.salt 0) = s.lineCommit →
      (cost.val ≤ (w.lineOutstanding 0).val → U'.val + cost.val = U.val) →
      ((w.lineOutstanding 0).val < cost.val → U' = U) →
      e.val = (w.lineEpoch 1).val + 1 →
      Step p ⟨.cancelOrExpireNote D action receiptExpiry, w, now⟩ s { s with
        notes := s.notes.insert D (note.allocate
          (refundCommit (refundPreimage D note (w.noteIdentity 0)
            (cashRefundAmount (w.lineOutstanding 0) cost) s) (w.newSalt 1))
          (decide ((w.lineOutstanding 0).val < cost.val)))
        encumberedReserve := E
        pendingFeeReserve := P
        refundReserve := U'
        lineCommit := lineStateCommit ⟨s.contractDomain, s.identityCommit, w.lineLimit 1,
          debtAfterCredit (w.lineOutstanding 0) cost, e⟩ (w.newSalt 0)
        actionClock := s.actionClock + 1 }
  | allocateOlder {w now s D action receiptExpiry note} {cost E P U : U64} :
      action.val = 1 → AllocateGuard w D s note → cost.val = note.amount.val + note.fee.val →
      Releases now note cost s E P U → note.lineGeneration.val < s.lineGeneration.val →
      Step p ⟨.cancelOrExpireNote D action receiptExpiry, w, now⟩ s { s with
        notes := s.notes.insert D (note.allocate
          (refundCommit (refundPreimage D note (w.noteIdentity 0) cost s) (w.newSalt 0)) true)
        encumberedReserve := E
        pendingFeeReserve := P
        refundReserve := U
        actionClock := s.actionClock + 1 }
  | acknowledgeRefund {w now s D action receiptExpiry note custody} {U T X : U64} :
      action.val = 2 → RefundGuard w now D receiptExpiry s note →
      payRefund p (w.repayAmount 0).val s = .ok custody →
      note.amount.val + note.fee.val < 2 ^ 64 →
      U.val + (note.amount.val + note.fee.val) = s.refundReserve.val →
      (p = .canonical → T = s.totalReserve
        ∧ X.val = s.reportedRefundReserve.val + (note.amount.val + note.fee.val)) →
      (p = .organization → T.val + (w.repayAmount 0).val = s.totalReserve.val
        ∧ X = s.reportedRefundReserve) →
      Step p ⟨.cancelOrExpireNote D action receiptExpiry, w, now⟩ s { s with
        nullifiers := insert (witnessPayment w s) s.nullifiers
        notes := s.notes.insert D (note.acknowledge (witnessPayment w s))
        refundReserve := U
        totalReserve := T
        reportedRefundReserve := X
        custody
        actionClock := s.actionClock + 1 }
  | acknowledgeRepayment {w now s receiptExpiry} {T b e : U64} :
      RepayGuard w now receiptExpiry s →
      (p = .canonical → T = s.totalReserve) →
      (p = .organization → T.val = s.totalReserve.val + (w.repayAmount 0).val) →
      b.val + (w.repayAmount 0).val = (w.lineOutstanding 0).val →
      e.val = (w.lineEpoch 0).val + 1 →
      Step p ⟨.acknowledgeRepayment receiptExpiry, w, now⟩ s { s with
        totalReserve := T
        custody := receiveUnshielded p (w.repayAmount 0).val s.custody
        nullifiers := insert (witnessReceipt w s) (insert (witnessPayment w s) s.nullifiers)
        lineCommit := lineStateCommit
          ⟨s.contractDomain, s.identityCommit, w.lineLimit 0, b, e⟩ (w.newSalt 0)
        actionClock := s.actionClock + 1 }
  | setStatus {w now s next} :
      StatusGuard w next s →
      Step p ⟨.setStatus next, w, now⟩ s { s with
        status := next
        actionClock := s.actionClock + 1 }

/-! ## The list is complete -/

section Complete

variable {p : Profile} {w : Witness B} {now : Nat} {s s' : Ledger B}

theorem requireIssuer_ok_iff {u : Unit} : requireIssuer w s = .ok u ↔ IsIssuer w s := by
  simp [requireIssuer, IsIssuer]

theorem registerMerchant_ok_iff {M : B} {r : UserAddress B} :
    registerMerchant p w M r s = .ok s' ↔ Step p ⟨.registerMerchant M r, w, now⟩ s s' := by
  simp only [registerMerchant, bind_ok_iff, requireIssuer_ok_iff, assert_ok_iff, pure_ok_iff,
    exists_const]
  constructor
  · rintro ⟨hi, hm, rfl⟩
    exact .registerMerchant hi hm
  · intro h
    cases h with
    | registerMerchant hi hm => exact ⟨hi, hm, rfl⟩

theorem disableMerchant_ok_iff {M : B} :
    disableMerchant w M s = .ok s' ↔ Step p ⟨.disableMerchant M, w, now⟩ s s' := by
  simp only [disableMerchant, bind_ok_iff, requireIssuer_ok_iff, assert_ok_iff, pure_ok_iff,
    exists_const]
  constructor
  · rintro ⟨hi, hm, rfl⟩
    exact .disableMerchant hi hm
  · intro h
    cases h with
    | disableMerchant hi hm => exact ⟨hi, hm, rfl⟩

theorem fundReserve_ok_iff {amount : U64} :
    fundReserve p w amount s = .ok s' ↔ Step p ⟨.fundReserve amount, w, now⟩ s s' := by
  simp only [fundReserve, bind_ok_iff, requireIssuer_ok_iff, assert_ok_iff, asUint_ok_iff,
    pure_ok_iff, exists_const]
  constructor
  · rintro ⟨hi, ha, _, T, hT, rfl⟩
    exact .fundReserve hi ha hT
  · intro h
    cases h with
    | fundReserve hi ha hT => exact ⟨hi, ha, Nat.le_add_right _ _, _, hT, rfl⟩

theorem withdrawUnencumberedReserve_ok_iff {amount : U64} :
    withdrawUnencumberedReserve p w amount s = .ok s' ↔
      Step p ⟨.withdrawUnencumberedReserve amount, w, now⟩ s s' := by
  simp only [withdrawUnencumberedReserve, bind_ok_iff, requireIssuer_ok_iff, assert_ok_iff,
    asUint_ok_iff, sub_ok_iff, pure_ok_iff, exists_const]
  constructor
  · rintro ⟨hi, ha, hl, _, ⟨_, rfl⟩, hw, c, hc, _, ⟨_, rfl⟩, T, hT, rfl⟩
    exact .withdrawUnencumberedReserve hi ha (by omega) hc (by omega)
  · intro h
    cases h with
    | withdrawUnencumberedReserve hi ha hl hc hT =>
      exact ⟨hi, ha, by omega, _, ⟨by omega, rfl⟩, by omega, _, hc, _, ⟨by omega, rfl⟩, _,
        by omega, rfl⟩

theorem withdrawFees_ok_iff :
    withdrawFees p w s = .ok s' ↔ Step p ⟨.withdrawFees, w, now⟩ s s' := by
  simp only [withdrawFees, bind_ok_iff, requireIssuer_ok_iff, assert_ok_iff, asUint_ok_iff,
    sub_ok_iff, pure_ok_iff, exists_const]
  constructor
  · rintro ⟨hi, hf, hl, c, hc, _, ⟨_, rfl⟩, T, hT, rfl⟩
    exact .withdrawFees hi hf hl hc (by omega)
  · intro h
    cases h with
    | withdrawFees hi hf hl hc hT =>
      exact ⟨hi, hf, hl, _, hc, _, ⟨by omega, rfl⟩, _, by omega, rfl⟩

theorem openLine_ok_iff {expiry flatFee basisPoints : U64} :
    openLine w now expiry flatFee basisPoints s = .ok s' ↔
      Step p ⟨.openLine expiry flatFee basisPoints, w, now⟩ s s' := by
  simp only [openLine, bind_ok_iff, requireIssuer_ok_iff, assert_ok_iff, asUint_ok_iff,
    pure_ok_iff, exists_const]
  constructor
  · rintro ⟨hi, hs, hl, he, hr, g, hg, rfl⟩
    exact .openLine ⟨hi, hs, hl, he, hr⟩ hg
  · intro h
    cases h with
    | openLine g hg => exact ⟨g.issuer, g.status, g.limit, g.deadline, g.rate, _, hg, rfl⟩

theorem postQuote_ok_iff {expiry : U64} :
    postQuote w now expiry s = .ok s' ↔ Step p ⟨.postQuote expiry, w, now⟩ s s' := by
  simp only [postQuote, bind_ok_iff, assert_ok_iff, lookup_ok_iff, pure_ok_iff, exists_const]
  constructor
  · rintro ⟨_, hm, rfl, hs, ha, he, hq, rfl⟩
    exact .postQuote ⟨hm, hs, ha, he, hq⟩
  · intro h
    cases h with
    | postQuote g =>
      exact ⟨true, g.enabled, rfl, g.status, g.positive, g.deadline, g.fresh, rfl⟩

theorem draw_ok_iff {Q : B} {noteExpiry fee : U64} :
    draw p w now Q noteExpiry fee s = .ok s' ↔ Step p ⟨.draw Q noteExpiry fee, w, now⟩ s s' := by
  simp only [draw, bind_ok_iff, assert_ok_iff, asUint_ok_iff, sub_ok_iff, lookup_ok_iff,
    pure_ok_iff, exists_const]
  constructor
  · rintro ⟨h1, h2, h3, h4, q, h5, h6, h7, h8, h9, h10, h11, _, h12, _, _, h13, h14, _, ⟨_, rfl⟩,
      h15, _, h16, h17, _, h19, h20, E, hE, P, hP, b, hb, e, he, rfl⟩
    have hI := h3
    rw [h8] at h9
    rw [h3] at h4 h20 ⊢
    exact .draw ⟨h1, h2, hI, h4, h5, h6, h7, h8, h9, h10, h11,
      (feePolicy_ok_iff h11).mp h12, h13, by omega, h16, h17, h19, h20⟩ hE hP hb he
  · intro h
    cases h with
    | draw g hE hP hb he =>
      have hr := g.reserve
      have hrecon := g.recon
      rw [← g.generation] at hrecon
      rw [g.agent]
      exact ⟨g.status, g.lineLive, rfl, g.stale, _, g.found, g.unused, g.quoteLive,
        g.generation, hrecon, g.merchant, g.positive, (),
        (feePolicy_ok_iff g.positive).mpr g.priced,
        by omega, by omega, g.capacity, by omega, _, ⟨by omega, rfl⟩, by omega, (), g.backed,
        g.terms, by rw [g.terms]; exact g.quoteLive, g.fresh, g.free, _, hE, _, hP, _, hb, _, he,
        rfl⟩

theorem redeemDraw_ok_iff {D : B} {noteExpiry : U64} :
    redeemDraw p w now D noteExpiry s = .ok s' ↔
      Step p ⟨.redeemDraw D noteExpiry, w, now⟩ s s' := by
  simp only [redeemDraw, bind_ok_iff, assert_ok_iff, asUint_ok_iff, sub_ok_iff, lookup_ok_iff,
    pure_ok_iff, exists_const]
  constructor
  · rintro ⟨n, h1, h2, h3, h4, h5, h6, c, h7, h8, _, ⟨_, rfl⟩, E, hE, R, hR, _, ⟨_, rfl⟩, P, hP, F,
      hF, rfl⟩
    have g : RedeemGuard w now D noteExpiry s n := ⟨h1, h2, h3, h4, h5, h6, h8⟩
    rw [← h5] at h7 hE hR
    exact .redeemDraw g h7 (by rw [← h5] at *; omega) hR (by omega) hF
  · intro h
    cases h with
    | @redeemDraw _ _ _ _ _ n _ _ _ _ _ g hc hE hR hP hF =>
      rw [g.amount] at hc hE hR
      exact ⟨n, g.found, g.unredeemed, g.uncancelled, g.live, g.amount, g.opening, _, hc, g.fresh,
        _, ⟨by omega, rfl⟩, _, by omega, _, hR, _, ⟨by omega, rfl⟩, _, by omega, _, hF, rfl⟩

omit [DecidableEq B] [Compact B] in
theorem releaseBudget_ok_iff {note : NoteMeta B} {cost : U64} :
    releaseBudget note cost s = .ok s' ↔ ∃ E P U : U64,
      E.val + note.amount.val = s.encumberedReserve.val
      ∧ P.val + note.fee.val = s.pendingFeeReserve.val
      ∧ U.val = s.refundReserve.val + cost.val
      ∧ s' = { s with encumberedReserve := E, pendingFeeReserve := P, refundReserve := U } := by
  simp only [releaseBudget, bind_ok_iff, asUint_ok_iff, sub_ok_iff, pure_ok_iff]
  constructor
  · rintro ⟨_, ⟨_, rfl⟩, E, hE, _, ⟨_, rfl⟩, P, hP, U, hU, rfl⟩
    exact ⟨E, P, U, by omega, by omega, hU, rfl⟩
  · rintro ⟨E, P, U, hE, hP, hU, rfl⟩
    exact ⟨_, ⟨by omega, rfl⟩, E, by omega, _, ⟨by omega, rfl⟩, P, by omega, U, hU, rfl⟩

omit [DecidableEq B] [Compact B] in
theorem expireIfLive_ok_iff {note : NoteMeta B} {cost : U64} :
    expireIfLive now note cost s = .ok s' ↔ ∃ E P U : U64, Releases now note cost s E P U
      ∧ s' = { s with encumberedReserve := E, pendingFeeReserve := P, refundReserve := U } := by
  unfold expireIfLive
  cases hc : note.cancelled
  · simp only [Bool.false_eq_true, ↓reduceIte, bind_ok_iff, assert_ok_iff, exists_const,
      releaseBudget_ok_iff]
    constructor
    · rintro ⟨hnow, E, P, U, hE, hP, hU, rfl⟩
      exact ⟨E, P, U, ⟨by simp [hc], fun _ => hnow, fun _ => hE, fun _ => hP, fun _ => hU⟩, rfl⟩
    · rintro ⟨E, P, U, h, rfl⟩
      exact ⟨h.expired hc, E, P, U, h.encumbered hc, h.pending hc, h.refund hc, rfl⟩
  · simp only [↓reduceIte, pure_ok_iff]
    constructor
    · rintro rfl
      exact ⟨_, _, _, ⟨fun _ => ⟨rfl, rfl, rfl⟩, by simp [hc], by simp [hc], by simp [hc],
        by simp [hc]⟩, rfl⟩
    · rintro ⟨E, P, U, h, rfl⟩
      obtain ⟨rfl, rfl, rfl⟩ := h.skipped hc
      rfl

omit [DecidableEq B] [Compact B] in
theorem releaseRemainder_ok_iff {outstanding cost U : U64} :
    releaseRemainder (decide (outstanding.val < cost.val)) cost s = .ok U ↔
      (cost.val ≤ outstanding.val → U.val + cost.val = s.refundReserve.val)
      ∧ (outstanding.val < cost.val → U = s.refundReserve) := by
  unfold releaseRemainder
  by_cases hlt : outstanding.val < cost.val
  · simp only [hlt, decide_true, ↓reduceIte, pure_ok_iff]
    exact ⟨fun h => ⟨by omega, fun _ => h.symm⟩, fun h => (h.2 trivial).symm⟩
  · simp only [hlt, decide_false, Bool.false_eq_true, ↓reduceIte, bind_ok_iff, sub_ok_iff,
      asUint_ok_iff]
    constructor
    · rintro ⟨_, ⟨_, rfl⟩, hU⟩
      exact ⟨by omega, by simp⟩
    · rintro ⟨hU, _⟩
      exact ⟨_, ⟨by omega, rfl⟩, by omega⟩

omit [DecidableEq B] [Compact B] in
theorem retireBudget_ok_iff {cost amount : U64} {r : U64 × U64} :
    retireBudget p cost amount s = .ok r ↔
      (p = .canonical →
        r.1 = s.totalReserve ∧ r.2.val = s.reportedRefundReserve.val + cost.val)
      ∧ (p = .organization →
        r.1.val + amount.val = s.totalReserve.val ∧ r.2 = s.reportedRefundReserve) := by
  obtain ⟨T, X⟩ := r
  cases p with
  | canonical =>
    simp only [retireBudget, bind_ok_iff, asUint_ok_iff, pure_ok_iff, Prod.mk.injEq]
    constructor
    · rintro ⟨_, hX, rfl, rfl⟩
      exact ⟨fun _ => ⟨rfl, hX⟩, by simp⟩
    · rintro ⟨h, _⟩
      exact ⟨X, (h trivial).2, (h trivial).1.symm, rfl⟩
  | organization =>
    simp only [retireBudget, bind_ok_iff, sub_ok_iff, asUint_ok_iff, pure_ok_iff, Prod.mk.injEq]
    constructor
    · rintro ⟨_, ⟨_, rfl⟩, _, hT, rfl, rfl⟩
      exact ⟨by simp, fun _ => ⟨by omega, rfl⟩⟩
    · rintro ⟨_, h⟩
      obtain ⟨hT, hX⟩ := h trivial
      exact ⟨_, ⟨by omega, rfl⟩, T, by omega, rfl, hX.symm⟩

omit [DecidableEq B] [Compact B] in
theorem depositRepayment_ok_iff {incoming T : U64} :
    depositRepayment p incoming s = .ok T ↔
      (p = .canonical → T = s.totalReserve)
      ∧ (p = .organization → T.val = s.totalReserve.val + incoming.val) := by
  cases p with
  | canonical =>
    simp only [depositRepayment, pure_ok_iff]
    exact ⟨fun h => ⟨fun _ => h.symm, by simp⟩, fun h => (h.1 trivial).symm⟩
  | organization =>
    simp only [depositRepayment, bind_ok_iff, assert_ok_iff, asUint_ok_iff, exists_const]
    exact ⟨fun h => ⟨by simp, fun _ => h.2⟩, fun h => ⟨Nat.le_add_right _ _, h.2 trivial⟩⟩

theorem expireNote_ok_iff {D : B} {note : NoteMeta B} {cost : U64} :
    expireNote now D note cost s = .ok s' ↔ ∃ E P U : U64,
      note.cancelled = false ∧ Releases now note cost s E P U
      ∧ s' = { s with
          encumberedReserve := E, pendingFeeReserve := P, refundReserve := U
          notes := s.notes.insert D note.expire } := by
  simp only [expireNote, bind_ok_iff, assert_ok_iff, exists_const, releaseBudget_ok_iff,
    pure_ok_iff]
  constructor
  · rintro ⟨hc, hnow, _, ⟨E, P, U, hE, hP, hU, rfl⟩, rfl⟩
    exact ⟨E, P, U, hc,
      ⟨by simp [hc], fun _ => hnow, fun _ => hE, fun _ => hP, fun _ => hU⟩, rfl⟩
  · rintro ⟨E, P, U, hc, h, rfl⟩
    exact ⟨hc, h.expired hc, _, ⟨E, P, U, h.encumbered hc, h.pending hc, h.refund hc, rfl⟩, rfl⟩

theorem allocateCurrent_ok_iff {D owner : B} {note : NoteMeta B} {cost : U64} :
    allocateCurrent w D note cost owner s = .ok s' ↔ ∃ U' e : U64,
      owner = s.identityCommit
      ∧ lineStateCommit (witnessBook w s) (w.salt 0) = s.lineCommit
      ∧ (cost.val ≤ (w.lineOutstanding 0).val → U'.val + cost.val = s.refundReserve.val)
      ∧ ((w.lineOutstanding 0).val < cost.val → U' = s.refundReserve)
      ∧ e.val = (w.lineEpoch 1).val + 1
      ∧ s' = { s with
          refundReserve := U'
          lineCommit := lineStateCommit ⟨s.contractDomain, s.identityCommit, w.lineLimit 1,
            debtAfterCredit (w.lineOutstanding 0) cost, e⟩ (w.newSalt 0)
          notes := s.notes.insert D (note.allocate
            (refundCommit (refundPreimage D note owner
              (cashRefundAmount (w.lineOutstanding 0) cost) s) (w.newSalt 1))
            (decide ((w.lineOutstanding 0).val < cost.val))) } := by
  simp only [allocateCurrent, bind_ok_iff, assert_ok_iff, asUint_ok_iff, pure_ok_iff,
    exists_const, cashRefundAmount_val, Nat.sub_pos_iff_lt, releaseRemainder_ok_iff]
  constructor
  · rintro ⟨ho, hst, U', ⟨hz, hp⟩, e, he, rfl⟩
    exact ⟨U', e, ho, hst, hz, hp, he, rfl⟩
  · rintro ⟨U', e, ho, hst, hz, hp, he, rfl⟩
    exact ⟨ho, hst, U', ⟨hz, hp⟩, e, he, rfl⟩

theorem cancelOrExpireNote_ok_iff {D : B} {action : Uint 8} {receiptExpiry : U64} :
    cancelOrExpireNote p w now D action receiptExpiry s = .ok s' ↔
      Step p ⟨.cancelOrExpireNote D action receiptExpiry, w, now⟩ s s' := by
  simp only [cancelOrExpireNote, bind_ok_iff, assert_ok_iff, lookup_ok_iff, asUint_ok_iff,
    exists_const, pure_ok_iff]
  constructor
  · rintro ⟨hm, n, hn, hr, cost, hcost, s₁, hs, rfl⟩
    unfold noteAction at hs
    split at hs
    · rename_i h0
      obtain ⟨E, P, U, hc, hR, rfl⟩ := expireNote_ok_iff.mp hs
      exact .expire h0 hn hr hc hcost hR
    · split at hs
      · rename_i _ h1
        simp only [allocateCompensation, bind_ok_iff, assert_ok_iff, exists_const,
          expireIfLive_ok_iff] at hs
        obtain ⟨ha, _, ⟨E, P, U, hR, rfl⟩, hop, hau, hs⟩ := hs
        have g : AllocateGuard w D s n := ⟨hn, hr, ha, hop, hau⟩
        split at hs
        · rename_i hg
          obtain ⟨U', e, ho, hst, hz, hp, he, rfl⟩ := allocateCurrent_ok_iff.mp hs
          exact .allocateCurrent h1 g hcost hR hg ho hst hz hp he
        · simp only [allocateOlder, bind_ok_iff, assert_ok_iff, exists_const, pure_ok_iff] at hs
          obtain ⟨hg, rfl⟩ := hs
          exact .allocateOlder h1 g hcost hR hg
      · rename_i h0 h1
        simp only [acknowledgeRefund, bind_ok_iff, assert_ok_iff, exists_const,
          requireIssuer_ok_iff, sub_ok_iff, asUint_ok_iff, retireBudget_ok_iff, pure_ok_iff] at hs
        obtain ⟨hi, ⟨hc, hal, how⟩, hack, hlive, ⟨hpos, hle⟩, hop, href, hfresh, _, ⟨_, rfl⟩, U, hU,
          c, hpay, r, ⟨hcan, horg⟩, rfl⟩ := hs
        have hlt : n.amount.val + n.fee.val < 2 ^ 64 := hcost ▸ cost.isLt
        have g : RefundGuard w now D receiptExpiry s n :=
          ⟨hn, hr, hi, hc, hal, how, hack, hlive, hpos, by omega, hop, href, hfresh⟩
        rw [hcost] at hcan
        have h2 : action.val = 2 := by omega
        have hU' : U.val + (n.amount.val + n.fee.val) = s.refundReserve.val := by omega
        exact .acknowledgeRefund h2 g hpay hlt hU' hcan horg
  · intro h
    suffices key : action.val ≤ 2 ∧ ∃ n, s.notes.lookup D = some n ∧ n.redeemed = false
        ∧ ∃ cost : U64, cost.val = n.amount.val + n.fee.val
        ∧ noteAction p w now D n action.val cost receiptExpiry s
            = .ok { s' with actionClock := s.actionClock }
        ∧ s'.actionClock = s.actionClock + 1 by
      obtain ⟨hm, n, hn, hr, cost, hcost, hs, hk⟩ := key
      exact ⟨hm, n, hn, hr, cost, hcost, _, hs, by rw [← hk]⟩
    cases h with
    | @expire _ _ _ _ _ _ n cost E P U h0 hn hr hc hcost hR =>
      refine ⟨by omega, n, hn, hr, cost, hcost, ?_, rfl⟩
      rw [noteAction, if_pos h0, expireNote_ok_iff]
      exact ⟨E, P, U, hc, hR, rfl⟩
    | @allocateCurrent _ _ _ _ _ _ n cost E P U U' e h1 g hcost hR hg ho hst hz hp he =>
      refine ⟨by omega, n, g.found, g.unredeemed, cost, hcost, ?_, rfl⟩
      rw [noteAction, if_neg (by omega), if_pos h1]
      simp only [allocateCompensation, bind_ok_iff, assert_ok_iff, exists_const]
      refine ⟨g.unallocated, _, expireIfLive_ok_iff.mpr ⟨E, P, U, hR, rfl⟩, g.opening,
        g.authority, ?_⟩
      rw [if_pos hg]
      exact allocateCurrent_ok_iff.mpr ⟨U', e, ho, hst, hz, hp, he, rfl⟩
    | @allocateOlder _ _ _ _ _ _ n cost E P U h1 g hcost hR hg =>
      refine ⟨by omega, n, g.found, g.unredeemed, cost, hcost, ?_, rfl⟩
      rw [noteAction, if_neg (by omega), if_pos h1]
      simp only [allocateCompensation, bind_ok_iff, assert_ok_iff, exists_const]
      refine ⟨g.unallocated, _, expireIfLive_ok_iff.mpr ⟨E, P, U, hR, rfl⟩, g.opening,
        g.authority, ?_⟩
      rw [if_neg (fun h => by rw [h] at hg; exact Nat.lt_irrefl _ hg)]
      simp only [Line.allocateOlder, bind_ok_iff, assert_ok_iff, exists_const, pure_ok_iff]
      exact ⟨hg, rfl⟩
    | @acknowledgeRefund _ _ _ _ _ _ n c U T X h2 g hpay hlt hU hcan horg =>
      refine ⟨by omega, n, g.found, g.unredeemed, ⟨_, hlt⟩, rfl, ?_, rfl⟩
      rw [noteAction, if_neg (by omega), if_neg (by omega)]
      simp only [Line.acknowledgeRefund, bind_ok_iff, assert_ok_iff, exists_const,
        requireIssuer_ok_iff, sub_ok_iff, asUint_ok_iff, retireBudget_ok_iff, pure_ok_iff]
      exact ⟨g.issuer, ⟨g.cancelled, g.allocated, g.owed⟩, g.unacknowledged, g.live,
        ⟨g.positive, g.bounded⟩, g.opening, g.reference, g.fresh, _, ⟨by omega, rfl⟩, U, by omega,
        c, hpay, (T, X), ⟨hcan, horg⟩, rfl⟩

theorem acknowledgeRepayment_ok_iff {receiptExpiry : U64} :
    acknowledgeRepayment p w now receiptExpiry s = .ok s' ↔
      Step p ⟨.acknowledgeRepayment receiptExpiry, w, now⟩ s s' := by
  simp only [acknowledgeRepayment, bind_ok_iff, requireIssuer_ok_iff, assert_ok_iff,
    asUint_ok_iff, sub_ok_iff, depositRepayment_ok_iff, pure_ok_iff, exists_const]
  constructor
  · rintro ⟨hi, hs, hst, hpos, hr, T, ⟨hcan, horg⟩, hl, href, hP, hN, _, ⟨_, rfl⟩, b, hb, e, he,
      rfl⟩
    exact .acknowledgeRepayment ⟨hi, hs, hst, hpos, hr, hl, href, hP, hN⟩ hcan horg (by omega) he
  · intro h
    cases h with
    | acknowledgeRepayment g hcan horg hb he =>
      exact ⟨g.issuer, g.status, g.stale, g.positive, g.range, _, ⟨hcan, horg⟩, g.live,
        g.reference, g.freshPayment, g.freshReceipt, _, ⟨g.range, rfl⟩, _, by omega, _, he, rfl⟩

theorem requireClosing_ok_iff {next : Status} {u : Unit} :
    requireClosing w next s = .ok u ↔
      (next = .CLOSED → lineStateCommit (witnessBook w s) (w.salt 0) = s.lineCommit
        ∧ (w.lineOutstanding 0).val = 0) := by
  unfold requireClosing
  by_cases h : next = .CLOSED
  · simp [h, witnessBook]
  · simp [h]

omit [DecidableEq B] [Compact B] in
/-- The reopening test adds nothing: a line that is neither absent nor closed is open or
defaulted. -/
theorem requireReopening_ok {next : Status} (hn : s.status ≠ .NONE) (hc : s.status ≠ .CLOSED) :
    requireReopening next s = .ok () := by
  unfold requireReopening
  split
  · rw [assert_ok_iff]
    cases hs : s.status <;> simp_all
  · rfl

theorem setStatus_ok_iff {next : Status} :
    setStatus w next s = .ok s' ↔ Step p ⟨.setStatus next, w, now⟩ s s' := by
  simp only [setStatus, bind_ok_iff, requireIssuer_ok_iff, assert_ok_iff, requireClosing_ok_iff,
    pure_ok_iff, exists_const]
  constructor
  · rintro ⟨hi, hn, hnn, hc, hcl, _, _, rfl⟩
    exact .setStatus ⟨hi, hn, hnn, hc, hcl⟩
  · intro h
    cases h with
    | setStatus g =>
      exact ⟨g.issuer, g.line, g.notNone, g.notClosed, g.closing, (),
        requireReopening_ok g.line g.notClosed, rfl⟩

/-- **A circuit succeeds exactly on the listed steps.** -/
theorem exec_ok_iff {c : Call B} : exec p c s = .ok s' ↔ Step p c s s' := by
  obtain ⟨op, w, now⟩ := c
  cases op with
  | registerMerchant => exact registerMerchant_ok_iff
  | disableMerchant => exact disableMerchant_ok_iff
  | fundReserve => exact fundReserve_ok_iff
  | withdrawUnencumberedReserve => exact withdrawUnencumberedReserve_ok_iff
  | withdrawFees => exact withdrawFees_ok_iff
  | openLine => exact openLine_ok_iff
  | postQuote => exact postQuote_ok_iff
  | draw => exact draw_ok_iff
  | redeemDraw => exact redeemDraw_ok_iff
  | cancelOrExpireNote => exact cancelOrExpireNote_ok_iff
  | acknowledgeRepayment => exact acknowledgeRepayment_ok_iff
  | setStatus => exact setStatus_ok_iff

end Complete

end Line
