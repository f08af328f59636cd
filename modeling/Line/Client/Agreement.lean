import Line.Client.Network
import Line.Proof.Generations
import Line.Proof.NoteCycle

/-!
# Records that agree with the chain

A saved facility agrees with the ledger at its address if its numbers open the committed book, and
a saved note if it opens its entry. That is what the checks of a restored backup ask, field by
field (`matchesRestoredFacility_iff`, `matchesRestoredNote_iff`).

The second half says which steps of the contract leave a record in agreement: all but those that
only the holder of a secret can take. A book is replaced by its issuer or its agent and by nobody
else, so a stranger's step leaves it alone (`Facility.Agrees.stranger`). An entry is never removed,
and its terms never change; what changes is which of the three outcomes it has had, and a saved note
claims an outcome only after the chain has shown it. Secrets are compared through their hashes,
which is why every lemma about strangers uses that the hash is injective.
-/

namespace Line.Client

open Checked

variable {B : Type} [DecidableEq B] [Compact B]

/-! ## Agreement -/

/-- The saved facility is the one of this ledger, and its book is the committed one. -/
structure Facility.Agrees (f : Facility B) (issuerSecret : B) (L : Ledger B) : Prop where
  issuer : L.issuer = issuerPublicKey issuerSecret
  domain : ∃ m rest, f.merchants = m :: rest ∧
    L.contractDomain = contractDomain (issuerPublicKey issuerSecret) m.publicKey f.instanceNonce
  recipient : L.issuerPayoutRecipient = f.issuerRecipient
  color : L.settlementTokenColor = f.assetColor
  generation : (L.lineGeneration.val : ℤ) = f.generation
  /-- A facility that was never opened has no book. -/
  unopened : f.generation = 0 → L.status = .NONE
  /-- Otherwise the saved numbers are the opening of the commitment. -/
  book : f.generation ≠ 0 → L.identityCommit = agentId f.agentSecret ∧
    ∃ limit outstanding epoch : U64, (limit.val : ℤ) = f.limit ∧
      (outstanding.val : ℤ) = f.outstanding ∧ (epoch.val : ℤ) = f.epoch ∧
      lineStateCommit ⟨L.contractDomain, agentId f.agentSecret, limit, outstanding, epoch⟩ f.salt
        = L.lineCommit

/-- The saved note has the terms and the marks of this entry. -/
structure Note.Fits (n : Note B) (m : NoteMeta B) : Prop where
  amount : (m.amount.val : ℤ) = n.amount
  fee : (m.fee.val : ℤ) = n.fee
  expiry : (m.expiry.val : ℤ) = n.expiry
  generation : (m.lineGeneration.val : ℤ) = n.generation
  recorded : n.expiryRecorded.getD false = true → m.cancelled = true
  redeemed : n.redeemed = true → m.redeemed = true
  allocated : m.compensationAllocated = n.refund.isSome
  refund : ∀ r, n.refund = some r → n.refundOpening r = .ok m.refundCommitment ∧
    m.cashRefundOwed = decide (0 < r.amount) ∧
    r.paid = (!m.cashRefundOwed || m.refundAcknowledged)

/-- The saved note opens an entry of this ledger, which it fits. -/
structure Note.Agrees (n : Note B) (L : Ledger B) : Prop where
  domain : n.domain = L.contractDomain
  opening : n.opening = .ok n.noteCommitment
  entry : ∃ m, L.notes.lookup n.noteCommitment = some m ∧ n.Fits m

omit [Compact B] in
@[simp] theorem yields_iff {x : Result B} {b : B} : yields x b = true ↔ x = .ok b := by
  unfold yields
  cases x with
  | ok a => rw [decide_eq_true_eq, Except.ok.injEq]
  | error e => exact iff_of_false Bool.false_ne_true (fun h => by cases h)

omit [DecidableEq B] in
theorem Facility.opening_ok_iff {f : Facility B} {domain c : B} :
    f.opening domain = .ok c ↔ ∃ limit outstanding epoch : U64, (limit.val : ℤ) = f.limit ∧
      (outstanding.val : ℤ) = f.outstanding ∧ (epoch.val : ℤ) = f.epoch ∧
      lineStateCommit ⟨domain, agentId f.agentSecret, limit, outstanding, epoch⟩ f.salt = c := by
  simp only [Facility.opening, bind_ok_iff, uint64_ok_iff, pure_ok_iff]
  constructor
  · rintro ⟨limit, hl, outstanding, ho, epoch, he, hc⟩
    exact ⟨limit, outstanding, epoch, hl, ho, he, hc⟩
  · rintro ⟨limit, outstanding, epoch, hl, ho, he, hc⟩
    exact ⟨limit, hl, outstanding, ho, epoch, he, hc⟩

theorem matchesRestoredFacility_iff {L : Ledger B} {f : Facility B} {issuerSecret : B} :
    matchesRestoredFacility L f issuerSecret = true ↔ f.Agrees issuerSecret L := by
  unfold matchesRestoredFacility
  constructor
  · intro h
    split at h
    · cases h
    · next m hm =>
      -- the source looks at the first merchant of the list
      obtain ⟨rest, hmerchants⟩ : ∃ rest, f.merchants = m :: rest := by
        cases hf : f.merchants with
        | nil =>
          rw [hf] at hm
          cases hm
        | cons m' rest =>
          rw [hf] at hm
          exact ⟨rest, by rw [Option.some.inj hm]⟩
      simp only [Bool.and_eq_true, decide_eq_true_eq] at h
      obtain ⟨⟨⟨⟨⟨hrecipient, hcolor⟩, hgeneration⟩, hissuer⟩, hdomain⟩, hbook⟩ := h
      refine ⟨hissuer.symm, ⟨m, rest, hmerchants, hdomain.symm⟩, hrecipient, hcolor, hgeneration,
        ?_, ?_⟩
      -- an unopened facility is compared with a ledger that has no book yet
      · intro h0
        rw [if_pos h0, decide_eq_true_eq] at hbook
        exact hbook
      · intro h0
        rw [if_neg h0, Bool.and_eq_true, decide_eq_true_eq, yields_iff, hdomain,
          Facility.opening_ok_iff] at hbook
        exact ⟨hbook.1.symm, hbook.2⟩
  · intro h
    obtain ⟨m, rest, hmerchants, hdomain⟩ := h.domain
    rw [hmerchants, List.head?_cons]
    simp only [Bool.and_eq_true, decide_eq_true_eq]
    refine ⟨⟨⟨⟨⟨h.recipient, h.color⟩, h.generation⟩, h.issuer.symm⟩, hdomain.symm⟩, ?_⟩
    -- and the same two cases the other way
    by_cases h0 : f.generation = 0
    · rw [if_pos h0, decide_eq_true_eq]
      exact h.unopened h0
    · obtain ⟨hidentity, hbook⟩ := h.book h0
      rw [if_neg h0, Bool.and_eq_true, decide_eq_true_eq, yields_iff, ← hdomain,
        Facility.opening_ok_iff]
      exact ⟨hidentity.symm, hbook⟩

theorem matchesRefund_iff {m : NoteMeta B} {n : Note B} :
    matchesRefund m n = true ↔ ∀ r, n.refund = some r →
      n.refundOpening r = .ok m.refundCommitment ∧ m.cashRefundOwed = decide (0 < r.amount) ∧
      r.paid = (!m.cashRefundOwed || m.refundAcknowledged) := by
  unfold matchesRefund
  cases n.refund with
  | none => exact iff_of_true rfl fun r h => by cases h
  | some r =>
    simp only [Bool.and_eq_true, decide_eq_true_eq, yields_iff, Option.some.injEq, forall_eq',
      and_assoc]

theorem matchesRestoredNote_iff {L : Ledger B} {n : Note B} :
    matchesRestoredNote L n = true ↔ n.Agrees L := by
  unfold matchesRestoredNote
  rw [Bool.and_eq_true, decide_eq_true_eq]
  cases hm : L.notes.lookup n.noteCommitment with
  -- a note without an entry agrees with nothing
  | none =>
    refine iff_of_false (fun h => by cases h.2) ?_
    rintro ⟨-, -, m, hm', -⟩
    rw [hm] at hm'
    cases hm'
  | some m =>
    simp only [Bool.and_eq_true, decide_eq_true_eq, yields_iff, matchesRefund_iff,
      Bool.not_eq_true', Bool.and_eq_false_iff, Bool.not_eq_false']
    constructor
    -- what is recorded and redeemed is asked of the ledger only if the note says so
    · rintro ⟨hdomain, ⟨⟨⟨⟨⟨⟨⟨hrecorded, ha⟩, hf⟩, hx⟩, hg⟩, hredeemed⟩, hopening⟩, halloc⟩, hr⟩
      refine ⟨hdomain, hopening, m, hm, ha, hf, hx, hg, ?_, ?_, halloc, hr⟩
      · intro h
        rw [h] at hrecorded
        exact hrecorded.resolve_left (fun h => by cases h)
      · intro h
        rw [h] at hredeemed
        exact hredeemed.resolve_left (fun h => by cases h)
    -- the other way, with the one entry there is
    · rintro ⟨hdomain, hopening, m', hm', hfits⟩
      obtain rfl := Option.some.inj (hm.symm.trans hm')
      refine ⟨hdomain, ⟨⟨⟨⟨⟨⟨⟨?_, hfits.amount⟩, hfits.fee⟩, hfits.expiry⟩, hfits.generation⟩, ?_⟩,
        hopening⟩, hfits.allocated⟩, hfits.refund⟩
      · cases h : n.expiryRecorded.getD false with
        | false => exact .inl rfl
        | true => exact .inr (hfits.recorded h)
      · cases h : n.redeemed with
        | false => exact .inl rfl
        | true => exact .inr (hfits.redeemed h)

/-! ## One step of the contract -/

variable {h : Trace B} {c : Call B} {L L' : Ledger B} {f : Facility B} {n : Note B}

/-- The committed book of a ledger, and whose it is. -/
structure SameBook (L L' : Ledger B) : Prop where
  lineGeneration : L'.lineGeneration = L.lineGeneration
  identityCommit : L'.identityCommit = L.identityCommit
  lineCommit : L'.lineCommit = L.lineCommit

theorem Facility.Agrees.keep {issuerSecret : B} (hf : f.Agrees issuerSecret L)
    (r : Reaches .organization h L) (st : Line.Step .organization c L L') (hb : SameBook L L') :
    f.Agrees issuerSecret L' := by
  have hsame := st.sameInstance
  have r' : Reaches .organization (⟨c, L, L'⟩ :: h) L' := .next r (calls_iff.mpr st)
  have hgeneration : (L'.lineGeneration.val : ℤ) = f.generation := by
    rw [hb.lineGeneration]
    exact hf.generation
  refine ⟨hsame.issuer.trans hf.issuer, ?_, hsame.issuerPayoutRecipient.trans hf.recipient,
    hsame.settlementTokenColor.trans hf.color, hgeneration, ?_, ?_⟩
  · rw [hsame.contractDomain]
    exact hf.domain
  · intro h0
    exact r'.status_none_iff.mpr (by omega)
  · rw [hsame.contractDomain, hb.identityCommit, hb.lineCommit]
    exact hf.book

/-- **A note stays in agreement**, unless it is compensated or its refund is acknowledged. -/
theorem Note.Agrees.keep (hn : n.Agrees L) (r : Reaches .organization h L)
    (st : Line.Step .organization c L L') (h₁ : c.op.cancels n.noteCommitment 1 = false)
    (h₂ : c.op.cancels n.noteCommitment 2 = false) : n.Agrees L' := by
  obtain ⟨hdomain, hopening, m, hm, hfits⟩ := hn
  refine ⟨hdomain.trans st.sameInstance.contractDomain.symm, hopening, ?_⟩
  obtain ⟨m', hm', rfl | hmove⟩ := st.notes.lookup hm
  · exact ⟨_, hm', hfits⟩
  have hwf := r.noteWF hm
  -- a note that is not cancelled was not compensated, so no refund is saved of it
  have hrefund : m.cancelled = false → n.refund = none := by
    intro hc
    have ha := hfits.allocated
    rw [hwf.uncancelled hc] at ha
    exact Option.isNone_iff_eq_none.mp (Option.isSome_eq_false_iff.mp ha.symm)
  refine ⟨m', hm', ?_⟩
  cases hmove with
  | redeem _ g =>
    have hnone := hrefund g.uncancelled
    refine ⟨hfits.amount, hfits.fee, hfits.expiry, hfits.generation, ?_, fun _ => rfl, ?_, ?_⟩
    · intro hrec
      have hc := hfits.recorded hrec
      rw [g.uncancelled] at hc
      cases hc
    · rw [hnone]
      rfl
    · intro refund hr
      rw [hnone] at hr
      cases hr
  | expire _ _ hr hc _ =>
    have hnone := hrefund hc
    refine ⟨hfits.amount, hfits.fee, hfits.expiry, hfits.generation, fun _ => rfl, ?_, ?_, ?_⟩
    · intro hred
      have hm := hfits.redeemed hred
      rw [hr] at hm
      cases hm
    · rw [hnone]
      rfl
    · intro refund hr
      rw [hnone] at hr
      cases hr
  | allocate hop hmode _ _ =>
    rw [hop, Op.cancels, decide_eq_false_iff_not] at h₁
    exact absurd ⟨rfl, hmode⟩ h₁
  | acknowledge hop hmode _ =>
    rw [hop, Op.cancels, decide_eq_false_iff_not] at h₂
    exact absurd ⟨rfl, hmode⟩ h₂

/-! ### Strangers -/

/-- The caller answers with no secret of the account. -/
structure Stranger (S : Snapshot B) (c : Call B) : Prop where
  issuer : ∀ k, c.witness.callerSecret k ≠ S.issuerSecret
  caller : ∀ f ∈ S.facilities, ∀ k, c.witness.callerSecret k ≠ f.agentSecret
  agent : ∀ f ∈ S.facilities, ∀ k, c.witness.agentSecret k ≠ f.agentSecret

variable [LawfulCompact B] {S : Snapshot B}

omit [DecidableEq B] in
theorem Stranger.not_issuer (hs : Stranger S c) (hL : L.issuer = issuerPublicKey S.issuerSecret) :
    ¬ IsIssuer c.witness L := by
  intro hi
  exact hs.issuer 0 (issuerPublicKey_inj (hi.symm.trans hL))

/-- A stranger opens no line of ours. -/
theorem Stranger.not_opens (hs : Stranger S c) (hL : L.issuer = issuerPublicKey S.issuerSecret)
    (st : Line.Step .organization c L L') : SameLine L L' := by
  rcases st.line with ⟨g, x, b, e, ho⟩ | ⟨-, hl⟩
  · exact absurd ho.issuer (hs.not_issuer hL)
  · exact hl

/-- **Strangers leave our book alone.** -/
theorem Facility.Agrees.stranger (hf : f.Agrees S.issuerSecret L) (hmem : f ∈ S.facilities)
    (hs : Stranger S c) (r : Reaches .organization h L) (st : Line.Step .organization c L L') :
    f.Agrees S.issuerSecret L' := by
  refine hf.keep r st ?_
  -- the issuer's key is a hash of the secret that a stranger does not have
  have hissuer := hs.not_issuer hf.issuer
  have hgeneration := hf.generation
  cases st with
  | openLine g => exact absurd g.issuer hissuer
  | acknowledgeRepayment g => exact absurd g.issuer hissuer
  | draw g =>
    -- an unopened line has nothing to draw on
    by_cases h0 : f.generation = 0
    · have hnone := hf.unopened h0
      rw [g.status] at hnone
      cases hnone
    -- an agent's id is a hash too
    · have hagent := g.agent.trans (hf.book h0).1
      exact absurd (agentId_inj hagent) (hs.agent f hmem 0)
  | allocateCurrent _ g _ _ hgen hid =>
    have hpos := (r.note_generation g.found).1
    rcases g.authority with hi | hi
    · exact absurd hi.symm hissuer
    · -- the note is of the current generation, so the line is open and ours
      have h0 : f.generation ≠ 0 := by
        rw [hgen] at hpos
        omega
      have hagent := (hi.trans hid).trans (hf.book h0).1
      exact absurd (agentId_inj hagent) (hs.caller f hmem 0)
  | _ => exact ⟨rfl, rfl, rfl⟩

/-- The note was drawn by a facility of the account. -/
def Snapshot.Owns (S : Snapshot B) (n : Note B) : Prop :=
  ∃ f ∈ S.facilities, f.address = some n.contractAddress ∧ n.identity = agentId f.agentSecret

omit [DecidableEq B] [Compact B] [LawfulCompact B] in
theorem Note.preimage_ok_iff {p : DrawNotePreimage B} : n.preimage = .ok p ↔
    p.domain = n.domain ∧ (p.lineGeneration.val : ℤ) = n.generation ∧ p.identity = n.identity ∧
    p.quoteCommit = n.quoteCommitment ∧ p.merchantPk = n.merchantPk ∧
    (p.amount.val : ℤ) = n.amount ∧ (p.fee.val : ℤ) = n.fee ∧ p.noteNonce = n.noteNonce ∧
    (p.expiry.val : ℤ) = n.expiry := by
  simp only [Note.preimage, bind_ok_iff, uint64_ok_iff, pure_ok_iff]
  constructor
  · rintro ⟨g, hg, a, ha, e, he, x, hx, rfl⟩
    exact ⟨rfl, hg, rfl, rfl, rfl, ha, he, rfl, hx⟩
  · rintro ⟨hd, hg, hi, hq, hm, ha, he, hnonce, hx⟩
    refine ⟨_, hg, _, ha, _, he, _, hx, ?_⟩
    rw [← hd, ← hi, ← hq, ← hm, ← hnonce]

omit [DecidableEq B] [LawfulCompact B] in
theorem Note.opening_ok_iff {D : B} : n.opening = .ok D ↔
    ∃ p, n.preimage = .ok p ∧ drawNoteCommit p n.noteSalt = D := by
  simp only [Note.opening, bind_ok_iff, pure_ok_iff]

omit [DecidableEq B] in
/-- Whoever opens the note shows the saved fields. -/
theorem Note.opening_unique {p : DrawNotePreimage B} {salt : B}
    (hn : n.opening = .ok n.noteCommitment) (hp : drawNoteCommit p salt = n.noteCommitment) :
    n.preimage = .ok p ∧ salt = n.noteSalt := by
  obtain ⟨p', hp', hD⟩ := Note.opening_ok_iff.mp hn
  obtain ⟨rfl, hsalt⟩ := drawNoteCommit_inj (hp.trans hD.symm)
  exact ⟨hp', hsalt⟩

/-- **Strangers leave our notes in agreement**: they may redeem or expire them. -/
theorem Note.Agrees.stranger (hn : n.Agrees L)
    (hown : n.redeemed = true ∨ S.Owns n ∧ L.issuer = issuerPublicKey S.issuerSecret)
    (hs : Stranger S c) (r : Reaches .organization h L) (st : Line.Step .organization c L L') :
    n.Agrees L' := by
  obtain ⟨m, hm, hfits⟩ := hn.entry
  -- compensations and refunds need a note that was not redeemed, and a secret
  have hmode : ∀ mode, 0 < mode → c.op.cancels n.noteCommitment mode = false := by
    intro mode hpos
    rw [← Bool.not_eq_true]
    intro hc
    have hunredeemed : m.redeemed = false → n.redeemed = false := by
      intro hr
      rw [← Bool.not_eq_true]
      intro hred
      have hm' := hfits.redeemed hred
      rw [hr] at hm'
      cases hm'
    have hours : m.redeemed = false →
        S.Owns n ∧ L.issuer = issuerPublicKey S.issuerSecret := by
      intro hr
      refine hown.resolve_left ?_
      rw [hunredeemed hr]
      exact Bool.false_ne_true
    have hallocate : ∀ m', AllocateGuard c.witness n.noteCommitment L m' → False := by
      intro m' g
      obtain rfl := Option.some.inj (hm.symm.trans g.found)
      obtain ⟨⟨f, hf, -, hidentity⟩, hissuer⟩ := hours g.unredeemed
      rcases g.authority with hi | hi
      · exact hs.not_issuer hissuer hi.symm
      · obtain ⟨hpre, -⟩ := Note.opening_unique hn.opening g.opening
        have hid : c.witness.noteIdentity 0 = n.identity := (Note.preimage_ok_iff.mp hpre).2.2.1
        exact hs.caller f hf 0 (agentId_inj ((hi.trans hid).trans hidentity))
    cases st with
    | expire h0 =>
      obtain ⟨-, hmode⟩ := of_decide_eq_true hc
      omega
    | allocateCurrent _ g =>
      obtain ⟨rfl, -⟩ := of_decide_eq_true hc
      exact hallocate _ g
    | allocateOlder _ g =>
      obtain ⟨rfl, -⟩ := of_decide_eq_true hc
      exact hallocate _ g
    | acknowledgeRefund _ g =>
      obtain ⟨rfl, -⟩ := of_decide_eq_true hc
      obtain rfl := Option.some.inj (hm.symm.trans g.found)
      exact hs.not_issuer (hours g.unredeemed).2 g.issuer
    | _ => cases hc
  exact hn.keep r st (hmode 1 Nat.one_pos) (hmode 2 Nat.two_pos)

end Line.Client
