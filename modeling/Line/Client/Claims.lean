import Line.Client.Restorable
import Line.Proof.Claim
import Line.Proof.Payouts

/-!
# Claims

A merchant looks a claim up in the ledger that it observes before it redeems it
(`inspectMerchantClaim`, `src/lib/organization/claims.ts`). The review leaves out what the circuit
also asks for, the nullifier and what the contract holds, and the ledger goes on before the call
arrives.

It is enough. What opens a note of a reachable ledger has the terms of that note
(`inspectMerchantClaim_ok_iff`). A claim that is shown as unspent is paid as it was shown, whenever
the call of `redeem` arrives before the expiry, and one that is shown otherwise never is
(`claims_reviewed`).
-/

namespace Line.Client

open Checked
open Organization (isHex64 require_ok_iff)

variable {B : Type} [DecidableEq B] [Compact B]

/-! ## The review -/

/-- The note is in the ledger, for this merchant, who is paid at this address. -/
structure Note.Claims (n : Note B) (L : Ledger B) (merchantPk : B)
    (receivingAddress : UserAddress B) : Prop where
  address : isHex64 n.contractAddress = true
  merchant : merchantPk = n.merchantPk
  opening : n.opening = .ok n.noteCommitment
  entry : n.noteCommitment ∈ L.notes
  recipient : L.merchantPayoutRecipients.lookup merchantPk = some receivingAddress

/-- How far an entry has come. -/
def claimStatus (entry : NoteMeta B) : ClaimStatus :=
  if entry.redeemed then .redeemed else if entry.cancelled then .cancelled else .unspent

/-- What is shown of a claim. -/
def Note.review (n : Note B) (L : Ledger B) (entry : NoteMeta B)
    (receivingAddress : UserAddress B) : ClaimReview B where
  contractAddress := n.contractAddress
  noteCommitment := n.noteCommitment
  assetColor := L.settlementTokenColor
  receivingAddress
  amount := n.amount
  fee := n.fee
  expiry := n.expiry
  generation := n.generation
  status := claimStatus entry

section Claims

variable {env : Env B} {S : Snapshot B} {plan : Plan B} {L L' : Ledger B} {h h' : Trace B}
  {n : Note B} {m : NoteMeta B} {merchantPk sk : B} {recipient : UserAddress B} {x : U64}
  {w : Witness B} {pre : DrawNotePreimage B} {review : ClaimReview B}

omit [DecidableEq B] [Compact B] in
theorem claimStatus_unspent_iff :
    claimStatus m = .unspent ↔ m.redeemed = false ∧ m.cancelled = false := by
  unfold claimStatus
  cases m.redeemed <;> cases m.cancelled <;> decide

omit [DecidableEq B] [Compact B] in
theorem claimStatus_redeemed_iff : claimStatus m = .redeemed ↔ m.redeemed = true := by
  unfold claimStatus
  cases m.redeemed <;> cases m.cancelled <;> decide

omit [DecidableEq B] [Compact B] in
theorem claimStatus_cancelled_iff (hm : m.WF) :
    claimStatus m = .cancelled ↔ m.cancelled = true := by
  have hex := hm.exclusive
  unfold claimStatus
  cases hr : m.redeemed with
  | false => cases m.cancelled <;> decide
  | true =>
    have hc : m.cancelled = false := by
      rw [← Bool.not_eq_true]
      exact fun hc => hex ⟨hr, hc⟩
    rw [hc]
    decide

variable [LawfulCompact B]

/-- **A claim that opens is shown**: that its terms and its facility match follows. -/
theorem inspectMerchantClaim_ok_iff (r : Reaches .organization h L) :
    inspectMerchantClaim L n merchantPk recipient = .ok review ↔
      n.Claims L merchantPk recipient ∧
        ∃ m, L.notes.lookup n.noteCommitment = some m ∧ review = n.review L m recipient := by
  simp only [inspectMerchantClaim, bind_ok_iff, found_ok_iff, require_ok_iff, exists_const,
    Bool.and_eq_true, decide_eq_true_eq, pure_ok_iff]
  constructor
  · rintro ⟨haddress, ⟨hmerchant, -⟩, D, hD, rfl, m, hm, ⟨⟨⟨ha, hf⟩, hx⟩, hg⟩, hrecipient, rfl⟩
    refine ⟨⟨haddress, hmerchant, hD, Finmap.mem_of_lookup_eq_some hm, hrecipient⟩, m, hm, ?_⟩
    rw [Note.review, claimStatus, ha, hf, hx, hg]
  · rintro ⟨hn, m, hm, rfl⟩
    -- only what the note was drawn with opens it
    obtain ⟨hdomain, ha, hf, hx, hg⟩ := Note.terms_of_opening r hn.opening hm
    refine ⟨hn.address, ⟨hn.merchant, hdomain.symm⟩, _, hn.opening, rfl, m, hm,
      ⟨⟨⟨ha, hf⟩, hx⟩, hg⟩, hn.recipient, ?_⟩
    rw [Note.review, claimStatus, ha, hf, hx, hg]

omit [LawfulCompact B] in
/-- A claim stays one: a recipient is for good, and no note goes away. -/
theorem Note.Claims.later (hn : n.Claims L merchantPk recipient) (r : Reaches .organization h L)
    (r' : Continues .organization L h' L') : n.Claims L' merchantPk recipient := by
  obtain ⟨m, hm⟩ := Finmap.mem_iff.mp hn.entry
  obtain ⟨m', hm', -⟩ := Continues.note r' hm (r.noteWF hm)
  exact ⟨hn.address, hn.merchant, hn.opening, Finmap.mem_of_lookup_eq_some hm',
    r'.recipient r.sameKeys hn.recipient⟩

/-! ## The redemption -/

/-- The plan can be signed, and whatever is signed is applied, and pays what was shown to whom it
was shown. -/
structure Plan.Pays (plan : Plan B) (now : ℕ) (L : Ledger B) (review : ClaimReview B) : Prop where
  signs : ∃ tx, plan.intent.Signs tx
  lands : ∀ tx, plan.intent.Signs tx → ∃ (L' : Ledger B) (amount : ℕ),
    (∀ chain : Chain B, chain review.contractAddress = some L →
      Lands now review.contractAddress tx chain
        (Function.update chain review.contractAddress (some L'))) ∧
    (amount : ℤ) = review.amount ∧ L'.settlementTokenColor = review.assetColor ∧
    L'.custody.sent = (review.receivingAddress, amount) :: L.custody.sent

/-- The inputs of a redemption. -/
def Note.redeemInput (n : Note B) (merchantSecret : B) : Input B := {
  callerSecret := some merchantSecret, noteIdentity := some n.identity
  noteQuoteCommit := some n.quoteCommitment, noteNonce := some n.noteNonce
  noteSalt := some n.noteSalt, redeemAmount := some n.amount }

omit [LawfulCompact B] [DecidableEq B] [Compact B] in
/-- What is proven with them shows the opening of the note. -/
theorem Note.holdsOpening (hpre : n.preimage = .ok pre) (hw : (n.redeemInput sk).Proves w) :
    HoldsOpening w sk pre n.noteSalt := by
  obtain ⟨-, -, hi, hQ, -, ha, -, hnonce, -⟩ := Note.preimage_ok_iff.mp hpre
  refine ⟨hw.callerSecret sk rfl, ?_, ?_, ?_, ?_, hw.noteSalt _ rfl 0⟩
  · have hamount := hw.redeemAmount n.amount rfl 0
    exact Uint.val_inj.mp (by omega)
  · rw [hw.noteIdentity _ rfl 0, hi]
  · rw [hw.noteQuoteCommit _ rfl 0, hQ]
  · rw [hw.noteNonce _ rfl 0, hnonce]

omit [LawfulCompact B] [DecidableEq B] [Compact B] in
theorem Note.redeemInput_proves (hpre : n.preimage = .ok pre) (sk : B) :
    ∃ w, (n.redeemInput sk).Proves w := by
  obtain ⟨-, -, -, -, -, ha, -⟩ := Note.preimage_ok_iff.mp hpre
  have hunset : ∀ answers : ℕ → U64, AnswersUnit none answers := fun _ z hz => by cases hz
  have hset : ∀ b : B, Answers (some b) fun _ => b := fun b _ hb _ => Option.some.inj hb
  have hnone : ∀ answers : ℕ → B, Answers none answers := fun _ b hb => by cases hb
  refine ⟨{
    callerSecret := fun _ => sk, agentSecret := fun _ => sk, salt := fun _ => sk
    newSalt := fun _ => sk, invoiceId := fun _ => sk, quoteNonce := fun _ => sk
    receiptNonce := fun _ => sk, paymentRef := fun _ => sk, noteNonce := fun _ => n.noteNonce
    noteSalt := fun _ => n.noteSalt, noteIdentity := fun _ => n.identity
    noteQuoteCommit := fun _ => n.quoteCommitment, quoteMerchantPk := fun _ => sk
    lineLimit := fun _ => pre.amount, lineOutstanding := fun _ => pre.amount
    lineEpoch := fun _ => pre.amount, quoteAmount := fun _ => pre.amount
    drawAmount := fun _ => pre.amount, redeemAmount := fun _ => pre.amount
    repayAmount := fun _ => pre.amount },
    hset _, hnone _, hnone _, hnone _, hnone _, hnone _, hnone _, hnone _, hset _, hset _, hset _,
    hset _, hnone _, hunset _, hunset _, hunset _, hunset _, hunset _, fun z hz _ => ?_, hunset _⟩
  rw [← Option.some.inj hz, ha]

/-- **An unspent claim is paid**, in every later ledger where it is unspent. -/
theorem Note.Claims.pays {now : ℕ} (hn : n.Claims L (merchantPublicKey sk) recipient)
    (r : Reaches .organization h L) (hm : L.notes.lookup n.noteCommitment = some m)
    (hlive : m.Live) (hnow : (now : ℤ) < n.expiry) (hx : (x.val : ℤ) = n.expiry)
    (hintent : plan.intent = .call (.redeemDraw n.noteCommitment x) (n.redeemInput sk)) :
    plan.Pays now L (n.review L m recipient) := by
  obtain ⟨pre, hpre, hopen⟩ := Note.opening_ok_iff.mp hn.opening
  obtain ⟨w, hw⟩ := Note.redeemInput_proves hpre sk
  have hsigned : plan.intent.Signs (.call (.redeemDraw n.noteCommitment x) w) := by
    rw [hintent]
    exact .call hw
  refine ⟨⟨_, hsigned⟩, fun tx hsigns => ?_⟩
  rw [hintent] at hsigns
  cases hsigns with
  | @call _ _ w hw =>
    obtain ⟨-, -, -, -, hM, -, -, -, hpx⟩ := Note.preimage_ok_iff.mp hpre
    obtain ⟨-, ha, -, hmx, -⟩ := Note.terms_of_opening r hn.opening hm
    obtain rfl : pre.expiry = x := Uint.val_inj.mp (by omega)
    have hearly : now < m.expiry.val := by omega
    obtain ⟨L', hexec, hpaid⟩ := r.redeems_ok hm hlive hopen (hM.trans hn.merchant.symm)
      (Note.holdsOpening hpre hw) hearly
    obtain ⟨payee, hpayee, hsent⟩ := hpaid rfl
    rw [hM, ← hn.merchant, hn.recipient] at hpayee
    obtain rfl := Option.some.inj hpayee
    exact ⟨L', m.amount.val, fun chain hchain => .call hchain hexec, ha,
      (calls_iff.mp hexec).sameInstance.settlementTokenColor, hsent⟩

/-- The call goes to the contract, with an unspent claim. -/
theorem redeem_ok (hL : inspect env S n.contractAddress = .ok L)
    (hn : n.Claims L (merchantPublicKey S.merchantSecret) env.receivingAddress)
    (r : Reaches .organization h L) (hm : L.notes.lookup n.noteCommitment = some m)
    (hlive : claimStatus m = .unspent) :
    ∃ plan x, redeem env S n = .ok plan ∧ (x.val : ℤ) = n.expiry ∧
      plan.intent = .call (.redeemDraw n.noteCommitment x) (n.redeemInput S.merchantSecret) := by
  obtain ⟨pre, hpre, -⟩ := Note.opening_ok_iff.mp hn.opening
  obtain ⟨-, -, -, -, -, -, -, -, hx⟩ := Note.preimage_ok_iff.mp hpre
  have hreview := (inspectMerchantClaim_ok_iff r).mpr ⟨hn, m, hm, rfl⟩
  have hstatus : (n.review L m env.receivingAddress).status = .unspent := hlive
  refine ⟨.call "redeemDraw" none n.contractAddress (S.redeemed n)
    (.redeemDraw n.noteCommitment pre.expiry) (n.redeemInput S.merchantSecret), pre.expiry,
    bind_ok_iff.mpr ⟨L, hL, bind_ok_iff.mpr ⟨_, hreview, ?_⟩⟩, hx, rfl⟩
  rw [hstatus]
  exact bind_ok_iff.mpr ⟨(), rfl, bind_ok_iff.mpr ⟨(), rfl,
    bind_ok_iff.mpr ⟨pre.expiry, uint64_ok_iff.mpr hx, rfl⟩⟩⟩

omit [LawfulCompact B] in
/-- No call is prepared of a claim that is shown to be settled. -/
theorem redeem_refuses (hL : inspect env S n.contractAddress = .ok L)
    (hreview : inspectMerchantClaim L n (merchantPublicKey S.merchantSecret)
      env.receivingAddress = .ok review)
    (hspent : review.status ≠ .unspent) : redeem env S n ≠ .ok plan := by
  intro hplan
  simp only [redeem, bind_ok_iff, require_ok_iff, decide_eq_true_eq] at hplan
  obtain ⟨book, hbook, shown, hshown, -, hredeemed, -, hcancelled, -⟩ := hplan
  obtain rfl := Except.ok.inj (hL.symm.trans hbook)
  obtain rfl := Except.ok.inj (hreview.symm.trans hshown)
  cases hstatus : review.status with
  | unspent => exact hspent hstatus
  | redeemed => exact hredeemed hstatus
  | cancelled => exact hcancelled hstatus

/-- **What is prepared of an unspent claim is paid later too**, unless somebody was faster. -/
theorem redeem_pays (hL : inspect env S n.contractAddress = .ok L)
    (hn : n.Claims L (merchantPublicKey S.merchantSecret) env.receivingAddress)
    (r : Reaches .organization h L) (hm : L.notes.lookup n.noteCommitment = some m)
    (hunspent : claimStatus m = .unspent) : ∃ plan, redeem env S n = .ok plan ∧
      ∀ h' L', Continues .organization L h' L' → (∀ e ∈ h', (e.label.now : ℤ) < n.expiry) →
        (∃ e ∈ h', e.label.op.redeems n.noteCommitment = true) ∨
          ∀ now : ℕ, (now : ℤ) < n.expiry →
            plan.Pays now L' (n.review L m env.receivingAddress) := by
  obtain ⟨plan, x, hplan, hx, hintent⟩ := redeem_ok hL hn r hm hunspent
  refine ⟨plan, hplan, fun h' L' r' htimes => ?_⟩
  have hlive : m.Live := claimStatus_unspent_iff.mp hunspent
  obtain ⟨-, -, -, hmx, -⟩ := Note.terms_of_opening r hn.opening hm
  have hearly : ∀ e ∈ h', e.label.now < m.expiry.val := fun e he => by
    have htime := htimes e he
    omega
  rcases r'.live_kept hm hlive hearly with hkept | hdone
  · right
    intro now hnow
    -- the review in the later ledger is the one that was shown, asset included
    have hpays := (hn.later r r').pays (r.append r') hkept hlive hnow hx hintent
    rw [Note.review, r'.sameInstance.settlementTokenColor] at hpays
    exact hpays
  · exact .inl hdone

omit [LawfulCompact B] in
/-- **A note that was redeemed or cancelled is not redeemed** by any later call. -/
theorem not_redeemed_later {D : B} (r : Reaches .organization h L)
    (hm : L.notes.lookup D = some m) (hdone : ¬ m.Live)
    (r' : Continues .organization L h' L') : ∀ e ∈ h', e.label.op.redeems D = false := by
  intro e he
  rw [← Bool.not_eq_true]
  intro hredeems
  obtain ⟨h₁, h₂, -, r₁, st, -⟩ := History.Run.of_mem r' he
  obtain ⟨m', hm', -, hevolves⟩ := Continues.note r₁ hm (r.noteWF hm)
  -- the circuit would find a flag that was raised before
  obtain ⟨x, m₀, g, -⟩ := (calls_iff.mp st).redeems hredeems
  obtain rfl := Option.some.inj (hm'.symm.trans g.found)
  refine hdone ⟨?_, ?_⟩
  · rw [← Bool.not_eq_true]
    intro hr
    have hr' := hevolves.redeemed hr
    rw [g.unredeemed] at hr'
    cases hr'
  · rw [← Bool.not_eq_true]
    intro hc
    have hc' := hevolves.cancelled hc
    rw [g.uncancelled] at hc'
    cases hc'

/-- What a merchant may conclude from a review. -/
structure Reviewed (env : Env B) (S : Snapshot B) (L : Ledger B) (n : Note B)
    (review : ClaimReview B) : Prop where
  /-- It shows the claim as it is, with the status of the entry. -/
  shows : ∃ m, L.notes.lookup n.noteCommitment = some m ∧
    review = n.review L m env.receivingAddress ∧
    (review.status = .redeemed ↔ m.redeemed = true) ∧
    (review.status = .cancelled ↔ m.cancelled = true)
  /-- An unspent claim can be redeemed as long as it has not expired and was not redeemed. -/
  unspent : review.status = .unspent → ∃ plan, redeem env S n = .ok plan ∧
    ∀ h' L', Continues .organization L h' L' → (∀ e ∈ h', (e.label.now : ℤ) < n.expiry) →
      (∃ e ∈ h', e.label.op.redeems n.noteCommitment = true) ∨
        ∀ now : ℕ, (now : ℤ) < n.expiry → plan.Pays now L' review
  /-- Another one never is redeemed. -/
  settled : review.status ≠ .unspent → (∀ plan, redeem env S n ≠ .ok plan) ∧
    ∀ h' L', Continues .organization L h' L' →
      ∀ e ∈ h', e.label.op.redeems n.noteCommitment = false

/-- **The review of a claim agrees with its redemption**, in every ledger that is reached: it is
made exactly of the merchant's claims, and says what becomes of them. -/
theorem claims_reviewed (r : Reaches .organization h L)
    (hL : inspect env S n.contractAddress = .ok L) :
    ((∃ review, inspectMerchantClaim L n (merchantPublicKey S.merchantSecret)
        env.receivingAddress = .ok review) ↔
      n.Claims L (merchantPublicKey S.merchantSecret) env.receivingAddress) ∧
    ∀ review, inspectMerchantClaim L n (merchantPublicKey S.merchantSecret)
      env.receivingAddress = .ok review → Reviewed env S L n review := by
  constructor
  · constructor
    · rintro ⟨review, hreview⟩
      exact ((inspectMerchantClaim_ok_iff r).mp hreview).1
    · intro hn
      obtain ⟨m, hm⟩ := Finmap.mem_iff.mp hn.entry
      exact ⟨_, (inspectMerchantClaim_ok_iff r).mpr ⟨hn, m, hm, rfl⟩⟩
  · intro review hreview
    obtain ⟨hn, m, hm, rfl⟩ := (inspectMerchantClaim_ok_iff r).mp hreview
    have hwf := r.noteWF hm
    refine ⟨⟨m, hm, rfl, claimStatus_redeemed_iff, claimStatus_cancelled_iff hwf⟩,
      fun hunspent => redeem_pays hL hn r hm hunspent, fun hspent => ?_⟩
    have hdone : ¬ m.Live := fun hlive => hspent (claimStatus_unspent_iff.mpr hlive)
    exact ⟨fun plan => redeem_refuses hL hreview hspent,
      fun h' L' r' => not_redeemed_later r hm hdone r'⟩

end Claims

/-! A note is drawn, and its merchant reviews the claim. -/

namespace Sample

/-- The claim on the first note of the first generation. -/
def claim : Note Term where
  contractAddress := address
  domain := Demo.domain
  identity := agentId Demo.borrower
  merchantPk := merchantPublicKey Demo.merchant
  quoteCommitment := Demo.quote 1 1
  amount := 100
  fee := 2
  expiry := 50
  generation := 1
  noteNonce := .atom 1
  noteSalt := .atom 0
  noteCommitment := Demo.note 1 1
  redeemed := false
  expiryRecorded := none
  refund := none

/-- The merchant's wallet sees this ledger. -/
def shop (L : Ledger Term) : Env Term where
  chain := Function.update start.chain address (some L)
  operations := fun _ => allKeys
  release
  now := 3
  receivingAddress := ⟨.atom 6⟩

theorem inspect_shop (L : Ledger Term) :
    inspect (shop L) account claim.contractAddress = .ok L := by
  have hhex : isHex64 claim.contractAddress = true := by decide
  have hL : (shop L).chain claim.contractAddress = some L := by
    show Function.update start.chain address (some L) address = some L
    exact Function.update_self ..
  refine bind_ok_iff.mpr ⟨(), require_ok_iff.mpr hhex, bind_ok_iff.mpr ⟨L, found_ok_iff.mpr hL, ?_⟩⟩
  refine bind_ok_iff.mpr ⟨(), requireRelease_allKeys, ?_⟩
  exact bind_ok_iff.mpr ⟨(), require_ok_iff.mpr (Bool.or_true _), rfl⟩

end Sample

theorem claims_reviewed_sample : ∃ (h : Trace Term) (L : Ledger Term) (review : ClaimReview Term)
    (plan : Plan Term), Reaches .organization h L ∧ review.status = .unspent ∧
      review.amount = 100 ∧ redeem (Sample.shop L) Sample.account Sample.claim = .ok plan ∧
      plan.Pays 3 L review := by
  obtain ⟨h, L, r, ht⟩ := Demo.reaches_of_check .organization
    [Demo.fund 1000, Demo.openLine, Demo.post 1 1, Demo.draw 1 1 0 0]
    (fun _ L => match inspectMerchantClaim L Sample.claim (merchantPublicKey Demo.merchant)
        ⟨.atom 6⟩ with
      | .ok review => decide (review.status = .unspent) && decide (review.amount = 100)
      | .error _ => false) (by decide +kernel)
  split at ht
  · next review hreview =>
    rw [Bool.and_eq_true, decide_eq_true_eq, decide_eq_true_eq] at ht
    obtain ⟨hunspent, hamount⟩ := ht
    have hreviewed := (claims_reviewed r (Sample.inspect_shop L)).2 review hreview
    obtain ⟨plan, hplan, hpays⟩ := hreviewed.unspent hunspent
    have hnow : ((3 : ℕ) : ℤ) < Sample.claim.expiry := by decide
    rcases hpays [] L (.start rfl) (fun e he => by cases he) with ⟨e, he, -⟩ | hpays
    · cases he
    · exact ⟨h, L, review, plan, r, hunspent, hamount, hplan, hpays 3 hnow⟩
  · cases ht

end Line.Client
