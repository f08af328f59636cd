import Line.Client.Planned
import Line.Proof.Provenance

/-!
# Notes that are drawn and settled

The requests that change a note, or add one, and the deployment of a facility. With them every
request keeps its promise (`planned`).

Each of these lemmas reads the request in the same order as the source. The checks of the
request say which facility and which note it is about; `called` leaves it to show what one call
of that contract does. What the call changed in the note's entry is read off the step of the
contract, and the note that the candidate saves opens the new entry again. Every other note has
another commitment, and its entry is as it was; every facility has its book, as none of these
calls touches one, or it is the facility of the call.

The ledger that the request looked at may be an older one by then. So nothing is taken from it but
what stays: which contract it is, and that a commitment opens in one way only.
-/

namespace Line.Client

open Checked
open Organization (isHex64 require_ok_iff)

variable {B : Type} [DecidableEq B] [Compact B]

section Notes

variable {env : Env B} {chain : Chain B} {S after : Snapshot B} {p : Plan B} {id : String}
  {f : Facility B} {a : Address} {L L' : Ledger B} {h : Trace B} {c : Call B} {n : Note B} {D : B}

/-! ## One note -/

/-- The note that is found agrees with its contract. -/
theorem Sound.found_note (hs : Sound chain S) (hL : chain a = some L)
    (hfind : S.findNote D a = some n) : n.noteCommitment = D ∧ n.Agrees L := by
  obtain ⟨hmem, hkey⟩ := Records.mem_of_find hfind
  have hplace : n.contractAddress = a := congrArg Prod.snd hkey
  exact ⟨congrArg Prod.fst hkey, hs.note_agrees hmem (by rw [hplace, hL])⟩

/-- **A call that settles one note**, and may move the book. -/
theorem Sound.settled (hs : Sound chain S) (hL : chain a = some L) (r : Reaches .organization h L)
    (st : Line.Step .organization c L L') (hfind : S.findNote D a = some n) {g : Note B → Note B}
    (hg : ∀ n, (g n).key = n.key ∧ (g n).identity = n.identity ∧ (g n).redeemed = n.redeemed)
    (hagree : n.Agrees L → (g n).Agrees L') (hc : ∀ D' ≠ D, ∀ mode, c.op.cancels D' mode = false)
    (hsecret : after.issuerSecret = S.issuerSecret)
    (hcores : after.facilities.map Facility.core = S.facilities.map Facility.core)
    (hfacilities : ∀ f ∈ after.facilities,
      f.address = some a ∧ f.Agrees S.issuerSecret L' ∨ f ∈ S.facilities ∧ f.address ≠ some a)
    (hnotes : after.notes = (S.setNote D a g).notes) :
    Sound (Function.update chain a (some L')) after := by
  have hn := (hs.found_note hL hfind).2
  refine hs.moved hsecret hcores ?_ hfacilities ?_ ?_
  · rw [hnotes, keys_set fun n => (hg n).1]
    exact hs.keys
  · rw [hnotes]
    exact hs.notes_set hL r st hfind (hg n).1 (hagree hn) hc
  · intro n' hn'
    rw [hnotes] at hn'
    have howned := hs.owned_set (D := D) (a := a) (g := g)
      (fun n => ⟨congrArg Prod.snd (hg n).1, (hg n).2⟩) n' hn'
    exact howned.imp_right (Snapshot.Owns.of_cores hcores)

/-- What a plan says of the notes that it changes. -/
theorem Sound.set_there (hs : Sound env.chain S) (g : Note B → Note B)
    (hg : ∀ n, (g n).key = n.key) :
    ∀ n ∈ (S.setNote D a g).notes, ∃ L, env.chain n.contractAddress = some L := by
  intro n hn
  rcases Records.exists_of_mem_change hn with hold | ⟨m, hm, rfl⟩
  · exact hs.notes_there n hold
  · obtain ⟨L, hL⟩ := hs.notes_there m hm
    have hplace : (g m).contractAddress = m.contractAddress := congrArg Prod.snd (hg m)
    exact ⟨L, by rw [hplace, hL]⟩

/-- Only a compensation moves the book. -/
theorem sameBook_of_mode {action : Uint 8} {x : U64} {w : Witness B} {now : ℕ}
    (st : Line.Step .organization ⟨.cancelOrExpireNote D action x, w, now⟩ L L')
    (hmode : action.val ≠ 1) : SameBook L L' := by
  cases st with
  | allocateCurrent h1 => exact absurd h1 hmode
  | _ => exact ⟨rfl, rfl, rfl⟩

omit [Compact B] in
/-- The call is about one note. -/
theorem cancels_other {action : Uint 8} {x : U64} :
    ∀ D' ≠ D, ∀ mode, (Op.cancelOrExpireNote D action x : Op B).cancels D' mode = false := by
  intro D' hD mode
  exact decide_eq_false fun h => hD h.1.symm

theorem recordClaimExpiry_planned (hs : Sound env.chain S)
    (h : recordClaimExpiry env S id D = .ok p) : Planned env.chain S p := by
  simp only [recordClaimExpiry, bind_ok_iff, found_ok_iff, require_ok_iff, pure_ok_iff] at h
  obtain ⟨⟨f, a⟩, hfacility, book, hinspect, n, hfind, -, hopen, -, -, m, hm, -, -, -, -, rfl⟩ := h
  obtain ⟨hfacility, ha⟩ := facility_ok_iff.mp hfacility
  simp only [Bool.and_eq_true, Bool.not_eq_true', Option.isNone_iff_eq_none] at hopen
  obtain ⟨⟨hredeemed, hrefund⟩, -⟩ := hopen
  -- the facility is the account's own, and the call is of its contract
  refine .called rfl (fun b => Iff.rfl) (hs.set_there _ fun n => rfl)
    (.inl (has_of_find hfacility ha)) ?_
  intro w hw chain h L L' now hs hg hL r st
  have hbook := sameBook_of_mode st (by decide)
  refine hs.settled (g := fun n => { n with expiryRecorded := some true }) hL r st hfind
    (fun n => ⟨rfl, rfl, rfl⟩) ?_ cancels_other rfl rfl
    (facilities_kept fun f hf ha => (hs.agrees hf ha hL).keep r st hbook) rfl
  -- the entry that the note opens is the one that the call marks
  rintro ⟨hdomain, hopening, m, hm, hfits⟩
  obtain ⟨m', hm', hr', hc', -, hnotes⟩ := st.expires (D := D) (decide_eq_true ⟨rfl, rfl⟩)
  have hkey : n.noteCommitment = D := congrArg Prod.fst (Records.mem_of_find hfind).2
  rw [hkey] at hm
  obtain rfl := Option.some.inj (hm.symm.trans hm')
  refine ⟨hdomain.trans st.sameInstance.contractDomain.symm, hopening, m.expire, ?_, ?_⟩
  · show L'.notes.lookup n.noteCommitment = _
    rw [hnotes, hkey, Finmap.lookup_insert]
  -- its terms are as they were, and the saved note was neither redeemed nor refunded
  · refine ⟨hfits.amount, hfits.fee, hfits.expiry, hfits.generation, fun _ => rfl, ?_, ?_, ?_⟩
    · intro hred
      rw [show n.redeemed = true from hred] at hredeemed
      cases hredeemed
    · show false = n.refund.isSome
      rw [hrefund]
      rfl
    · intro r hr
      rw [show n.refund = some r from hr] at hrefund
      cases hrefund

theorem refund_planned {paymentRef : B} (hs : Sound env.chain S)
    (h : refund env S id D paymentRef = .ok p) : Planned env.chain S p := by
  simp only [refund, bind_ok_iff, found_ok_iff, require_ok_iff, pure_ok_iff] at h
  obtain ⟨⟨f, a⟩, hfacility, book, hinspect, n, hfind, refund, hrefund, -, -, u, hu, rfl⟩ := h
  obtain ⟨hfacility, ha⟩ := facility_ok_iff.mp hfacility
  refine .called rfl (fun b => Iff.rfl) (hs.set_there _ fun n => rfl)
    (.inl (has_of_find hfacility ha)) ?_
  intro w hw chain h L L' now hs hg hL r st
  have hbook := sameBook_of_mode st (by decide)
  refine hs.settled
    (g := fun n => { n with refund := n.refund.map fun r => { r with paid := true } })
    hL r st hfind (fun n => ⟨rfl, rfl, rfl⟩) ?_ cancels_other rfl rfl
    (facilities_kept fun f hf ha => (hs.agrees hf ha hL).keep r st hbook) rfl
  rintro ⟨hdomain, hopening, m, hm, hfits⟩
  -- the contract pays only a refund that is owed, of a note with an allocation
  obtain ⟨x, m', g, hnotes⟩ := st.refunds (D := D) (decide_eq_true ⟨rfl, rfl⟩)
  have hkey : n.noteCommitment = D := congrArg Prod.fst (Records.mem_of_find hfind).2
  rw [hkey] at hm
  obtain rfl := Option.some.inj (hm.symm.trans g.found)
  obtain ⟨hopens, howed, -⟩ := hfits.refund refund hrefund
  refine ⟨hdomain.trans st.sameInstance.contractDomain.symm, hopening,
    m.acknowledge (witnessPayment w L), ?_, ?_⟩
  · show L'.notes.lookup n.noteCommitment = _
    rw [hnotes, hkey, Finmap.lookup_insert]
  -- the saved refund opens the same allocation and is paid now
  · refine ⟨hfits.amount, hfits.fee, hfits.expiry, hfits.generation, fun _ => rfl, ?_, ?_, ?_⟩
    · intro hred
      have hm := hfits.redeemed hred
      rw [g.unredeemed] at hm
      cases hm
    · show true = (n.refund.map _).isSome
      rw [hrefund]
      rfl
    · intro r hr
      replace hr : n.refund.map _ = some r := hr
      rw [hrefund, Option.map_some] at hr
      obtain rfl := Option.some.inj hr
      refine ⟨hopens, ?_, rfl⟩
      show true = _
      rw [← howed, g.owed]

/-- The entry of a compensated note, whose refund is saved. -/
theorem Note.Agrees.compensated {w : Witness B} {m : NoteMeta B} {amount : U64} {salt : B}
    {owed : Bool} (hn : n.Agrees L) (hkey : n.noteCommitment = D) (g : AllocateGuard w D L m)
    (hidentity : w.noteIdentity 0 = n.identity) (hdomain : L'.contractDomain = L.contractDomain)
    (howed : owed = decide (0 < amount.val))
    (hnotes : L'.notes = L.notes.insert D
      (m.allocate (refundCommit (refundPreimage D m (w.noteIdentity 0) amount L) salt) owed)) :
    Note.Agrees { n with refund := some ⟨salt, amount.val, !owed⟩ } L' := by
  obtain ⟨hd, hopening, m', hm, hfits⟩ := hn
  rw [hkey] at hm
  obtain rfl := Option.some.inj (hm.symm.trans g.found)
  -- the entry has the allocation now that the witness opened
  have hentry := Finmap.lookup_insert (a := D) (s := L.notes)
    (b := m'.allocate (refundCommit (refundPreimage D m' (w.noteIdentity 0) amount L) salt) owed)
  rw [← hnotes, ← hkey] at hentry
  refine ⟨hd.trans hdomain.symm, hopening, _, hentry, hfits.amount, hfits.fee, hfits.expiry,
    hfits.generation, fun _ => rfl, fun hred => ?_, rfl, ?_⟩
  -- a redeemed note would have been refused
  · have hr := hfits.redeemed hred
    rw [g.unredeemed] at hr
    cases hr
  · intro r hr
    obtain rfl := Option.some.inj hr
    refine ⟨?_, ?_, ?_⟩
    · simp only [Note.refundOpening, bind_ok_iff, uint64_ok_iff, pure_ok_iff]
      refine ⟨m'.lineGeneration, hfits.generation, amount, rfl, ?_⟩
      rw [NoteMeta.allocate, refundPreimage, hidentity, ← hd, hkey]
    -- what is owed is exactly a positive amount, and what is not counts as paid
    · show owed = decide (0 < (amount.val : ℤ))
      rw [howed, decide_eq_decide, Int.natCast_pos]
    · show (!owed) = (!owed || false)
      rw [Bool.or_false]

omit [DecidableEq B] [Compact B] in
/-- What is left of a cost after a credit, and whether anything is. -/
theorem refund_of_credit {cost credit : ℤ} {amount : U64} {owed : Bool} (salt : B)
    (hamount : (amount.val : ℤ) = cost - credit) (howed : owed = decide (0 < amount.val)) :
    (⟨salt, cost - credit, decide (cost = credit)⟩ : Refund B) = ⟨salt, amount.val, !owed⟩ := by
  have hpaid : decide (cost = credit) = !owed := by
    rw [howed, ← decide_not, decide_eq_decide]
    omega
  rw [hamount, hpaid]

/-- A claim of the current allowance is credited against its balance. -/
theorem cancelCurrent_follows {salt : B} {credit : ℤ} {x : U64} {w : Witness B}
    (hfacility : S.findFacility id = some f) (ha : f.address = some a)
    (hfind : S.findNote D a = some n) (hcurrent : n.generation = f.generation)
    (hcredit : credit = if f.outstanding < n.amount + n.fee then f.outstanding
      else n.amount + n.fee)
    (hidentity : w.noteIdentity 0 = n.identity) (hsalt : ∀ k, w.newSalt k = salt)
    (hlimit : ((w.lineLimit 1).val : ℤ) = f.limit)
    (houtstanding : ((w.lineOutstanding 0).val : ℤ) = f.outstanding)
    (hepoch : ((w.lineEpoch 1).val : ℤ) = f.epoch) :
    Follows S
      ((S.setNote D a fun n' => { n' with
          refund := some ⟨salt, n.amount + n.fee - credit,
            decide (n.amount + n.fee = credit)⟩ }).setFacility id fun next => { next with
        outstanding := next.outstanding - credit, epoch := next.epoch + 1, salt })
      (.cancelOrExpireNote D ⟨1, one_lt_u8⟩ x) w a := by
  intro chain h L L' now hs hg hL r st
  have hmem := (Records.mem_of_find hfacility).1
  obtain ⟨hkey, -, -, m, hm, hfits⟩ := hs.found_note hL hfind
  rw [hkey] at hm
  have hread := (hs.agrees hmem ha hL).generation
  have hgeneration := hfits.generation
  have hamount := hfits.amount
  have hfee := hfits.fee
  have st₀ := st
  cases st with
  | expire h0 => exact absurd h0 (by decide)
  | acknowledgeRefund h2 => exact absurd h2 (by decide)
  | allocateOlder h1 g hcost hrel hlt =>
    -- the note would be of an earlier allowance
    obtain rfl := Option.some.inj (hm.symm.trans g.found)
    omega
  | allocateCurrent h1 g hcost hrel hgen hid hst hz hp he =>
    rename_i m' cost E P U U' e
    obtain rfl := Option.some.inj (hm.symm.trans g.found)
    have hdebt := debtAfterCredit_val (w.lineOutstanding 0) cost
    have hcash := cashRefundAmount_val (w.lineOutstanding 0) cost
    have howed : decide ((w.lineOutstanding 0).val < cost.val)
        = decide (0 < (cashRefundAmount (w.lineOutstanding 0) cost).val) := by
      rw [decide_eq_decide]
      omega
    have hleft : ((cashRefundAmount (w.lineOutstanding 0) cost).val : ℤ)
        = n.amount + n.fee - credit := by
      rw [hcredit]
      split <;> omega
    refine hs.settled (g := fun n' => { n' with refund := some ⟨salt, n.amount + n.fee - credit,
        decide (n.amount + n.fee = credit)⟩ }) hL r st₀ hfind (fun n => ⟨rfl, rfl, rfl⟩)
      (fun hn => ?_) cancels_other rfl (cores_set fun f => rfl)
      (hs.facilities_set hfacility ha rfl ?_) rfl
    · rw [refund_of_credit salt hleft howed]
      refine hn.compensated hkey g hidentity rfl howed ?_
      rw [← hsalt 1]
    · have hf := hs.agrees hmem ha hL
      refine ⟨hf.issuer, hf.domain, hf.recipient, hf.color, hf.generation, hf.unopened,
        fun h0 => ?_⟩
      obtain ⟨hidentity, -⟩ := hf.book h0
      refine ⟨hidentity, w.lineLimit 1, debtAfterCredit (w.lineOutstanding 0) cost, e, hlimit, ?_,
        ?_, ?_⟩
      · show ((debtAfterCredit (w.lineOutstanding 0) cost).val : ℤ) = f.outstanding - credit
        rw [hcredit]
        split <;> omega
      · show (e.val : ℤ) = f.epoch + 1
        omega
      · show lineStateCommit ⟨L.contractDomain, agentId f.agentSecret, _, _, _⟩ salt
          = lineStateCommit ⟨L.contractDomain, L.identityCommit, _, _, _⟩ (w.newSalt 0)
        rw [hidentity, hsalt 0]

/-- A claim of an earlier allowance is refunded in full. -/
theorem cancelOlder_follows {salt : B} {x : U64} {w : Witness B}
    (hfacility : S.findFacility id = some f) (ha : f.address = some a)
    (hfind : S.findNote D a = some n) (hcurrent : n.generation ≠ f.generation)
    (hidentity : w.noteIdentity 0 = n.identity) (hsalt : ∀ k, w.newSalt k = salt) :
    Follows S
      (S.setNote D a fun n' => { n' with
        refund := some ⟨salt, n.amount + n.fee - 0, decide (n.amount + n.fee = 0)⟩ })
      (.cancelOrExpireNote D ⟨1, one_lt_u8⟩ x) w a := by
  intro chain h L L' now hs hg hL r st
  have hmem := (Records.mem_of_find hfacility).1
  obtain ⟨hkey, -, -, m, hm, hfits⟩ := hs.found_note hL hfind
  rw [hkey] at hm
  have hread := (hs.agrees hmem ha hL).generation
  have hgeneration := hfits.generation
  have hamount := hfits.amount
  have hfee := hfits.fee
  have st₀ := st
  cases st with
  | expire h0 => exact absurd h0 (by decide)
  | acknowledgeRefund h2 => exact absurd h2 (by decide)
  | allocateCurrent h1 g hcost hrel hgen =>
    -- the note would be of the current allowance
    obtain rfl := Option.some.inj (hm.symm.trans g.found)
    rw [hgen] at hgeneration
    omega
  | allocateOlder h1 g hcost hrel hlt =>
    rename_i m' cost E P U
    obtain rfl := Option.some.inj (hm.symm.trans g.found)
    have hpositive := (r.noteWF hm).positive
    have howed : true = decide (0 < cost.val) := by
      rw [eq_comm, decide_eq_true_eq]
      omega
    have hleft : (cost.val : ℤ) = n.amount + n.fee - 0 := by omega
    refine hs.settled (g := fun n' => { n' with refund := some ⟨salt, n.amount + n.fee - 0,
        decide (n.amount + n.fee = 0)⟩ }) hL r st₀ hfind (fun n => ⟨rfl, rfl, rfl⟩)
      (fun hn => ?_) cancels_other rfl rfl
      (facilities_kept fun f hf ha => (hs.agrees hf ha hL).keep r st₀ ⟨rfl, rfl, rfl⟩) rfl
    rw [refund_of_credit salt hleft howed]
    refine hn.compensated hkey g hidentity rfl howed ?_
    rw [← hsalt 0]

theorem cancelExpired_planned {salt : B} (hs : Sound env.chain S)
    (h : cancelExpired env S id D salt = .ok p) : Planned env.chain S p := by
  simp only [cancelExpired, bind_ok_iff, found_ok_iff, require_ok_iff, pure_ok_iff] at h
  obtain ⟨⟨f, a⟩, hfacility, book, hinspect, n, hfind, -, -, u, hu, rfl⟩ := h
  obtain ⟨hfacility, ha⟩ := facility_ok_iff.mp hfacility
  have hmem := (Records.mem_of_find hfacility).1
  have hread := (hs.agrees hmem ha (inspect_ok hinspect).2).generation
  by_cases hcurrent : n.generation = book.lineGeneration.val
  · rw [decide_eq_true hcurrent, if_pos rfl, if_pos rfl]
    refine .called rfl (fun b => ?_) (hs.set_there _ fun n => rfl) (.inl (has_of_find hfacility ha))
      fun w hw => ?_
    · refine has_set ?_
      intro f
      rfl
    · exact cancelCurrent_follows hfacility ha hfind (by rw [hcurrent, hread]) rfl
        (hw.noteIdentity _ rfl 0) (hw.newSalt _ rfl) (hw.lineLimit _ rfl 1)
        (hw.lineOutstanding _ rfl 0) (hw.lineEpoch _ rfl 1)
  · rw [decide_eq_false hcurrent]
    refine .called rfl (fun b => Iff.rfl) (hs.set_there _ fun n => rfl)
      (.inl (has_of_find hfacility ha)) fun w hw => ?_
    refine cancelOlder_follows hfacility ha hfind ?_ (hw.noteIdentity _ rfl 0) (hw.newSalt _ rfl)
    rw [← hread]
    exact hcurrent

/-! ## Purchases -/

omit [DecidableEq B] in
/-- A facility has one domain. -/
theorem Facility.Agrees.same_domain {secret : B} {M : Ledger B} (hf : f.Agrees secret L)
    (hf' : f.Agrees secret M) : L.contractDomain = M.contractDomain := by
  obtain ⟨m, rest, hm, hdomain⟩ := hf.domain
  obtain ⟨m', rest', hm', hdomain'⟩ := hf'.domain
  rw [hm] at hm'
  obtain ⟨rfl, -⟩ := List.cons.inj hm'
  rw [hdomain, hdomain']

omit [DecidableEq B] in
/-- The line of an opened facility is its own. -/
theorem Facility.Agrees.opened {secret : B} (hf : f.Agrees secret L) (hs : L.status ≠ .NONE) :
    L.identityCommit = agentId f.agentSecret :=
  (hf.book fun h0 => hs (hf.unopened h0)).1

/-- What is prepared for a purchase. -/
structure Purchase (f : Facility B) (quote : Quote B) (nonce salt : B) (w : Witness B)
    (x fee : U64) : Prop where
  amount : ((w.drawAmount 0).val : ℤ) = quote.amount
  expiry : (x.val : ℤ) = quote.expiry
  merchant : w.quoteMerchantPk 0 = quote.merchantPk
  noteNonce : w.noteNonce 0 = nonce
  noteSalt : w.noteSalt 0 = salt
  limit : ((w.lineLimit 0).val : ℤ) = f.limit
  outstanding : ((w.lineOutstanding 0).val : ℤ) = f.outstanding
  epoch : ((w.lineEpoch 0).val : ℤ) = f.epoch

omit [DecidableEq B] in
/-- **The saved note is the drawn one.** -/
theorem Purchase.drawn {secret nonce salt : B} {quote : Quote B} {w : Witness B} {x fee : U64}
    (hp : Purchase f quote nonce salt w x fee) (hf : f.Agrees secret L) (hs : L.status ≠ .NONE)
    (hdomain : quote.domain = L.contractDomain)
    (hgeneration : quote.generation = L.lineGeneration.val)
    (h : purchasedNote f a quote fee.val nonce salt = .ok n) :
    n.noteCommitment = drawnNote w quote.quoteCommitment x fee L
      ∧ n.opening = .ok n.noteCommitment := by
  simp only [purchasedNote, bind_ok_iff, pure_ok_iff] at h
  obtain ⟨D, hD, rfl⟩ := h
  refine ⟨?_, hD⟩
  obtain ⟨pre, hpre, rfl⟩ := Note.opening_ok_iff.mp hD
  obtain ⟨hd, hg, hi, hQ, hM, ha, hfee, hnonce, hx⟩ := Note.preimage_ok_iff.mp hpre
  have hpreimage : pre = drawnPreimage w quote.quoteCommitment x fee L := by
    have hamount := hp.amount
    have hexpiry := hp.expiry
    simp only at hg ha hfee hx
    obtain ⟨d, g, i, Q, M, amount, fee', nonce', expiry⟩ := pre
    simp only at hd hg hi hQ hM ha hfee hnonce hx
    rw [drawnPreimage, DrawNotePreimage.mk.injEq]
    refine ⟨hd.trans hdomain, Uint.val_inj.mp (by omega), ?_, hQ, ?_, Uint.val_inj.mp (by omega),
      Uint.val_inj.mp (by omega), ?_, Uint.val_inj.mp (by omega)⟩
    · rw [hi, hf.opened hs]
    · rw [hM, hp.merchant]
    · rw [hnonce, hp.noteNonce]
  rw [hpreimage, drawnNote, hp.noteSalt]

omit [DecidableEq B] [Compact B] in
theorem bindOrder_parts (S : Snapshot B) (binding : Option (String × String)) (D : B) :
    (S.bindOrder binding D).issuerSecret = S.issuerSecret ∧
      (S.bindOrder binding D).facilities = S.facilities ∧
      (S.bindOrder binding D).notes = S.notes := by
  cases binding <;> exact ⟨rfl, rfl, rfl⟩

omit [DecidableEq B] in
/-- A note that was just drawn fits its entry. -/
theorem Purchase.fits {nonce salt : B} {quote : Quote B} {w : Witness B} {x fee g : U64}
    (hp : Purchase f quote nonce salt w x fee) (hgeneration : quote.generation = g.val)
    (h : purchasedNote f a quote fee.val nonce salt = .ok n) :
    n.Fits (.drawn (w.drawAmount 0) fee x g) := by
  simp only [purchasedNote, bind_ok_iff, pure_ok_iff] at h
  obtain ⟨D, hD, rfl⟩ := h
  refine ⟨hp.amount, rfl, hp.expiry, hgeneration.symm, ?_, ?_, rfl, ?_⟩
  · intro hr
    cases hr
  · intro hr
    cases hr
  · intro r hr
    cases hr

/-- The draw moves the balance as the account does. -/
theorem Purchase.book {secret nonce salt newSalt : B} {quote : Quote B} {w : Witness B}
    {x fee : U64} {now : ℕ} (hp : Purchase f quote nonce salt w x fee)
    (hsalt : w.newSalt 0 = newSalt) (hf : f.Agrees secret L)
    (st : Line.Step .organization ⟨.draw quote.quoteCommitment x fee, w, now⟩ L L') :
    Facility.Agrees { f with
      outstanding := f.outstanding + (quote.amount + fee.val), epoch := f.epoch + 1
      salt := newSalt } secret L' := by
  have hamount := hp.amount
  have houtstanding := hp.outstanding
  have hepoch := hp.epoch
  cases st with
  | draw g hE hP hb he =>
    rename_i q E P b e
    refine ⟨hf.issuer, hf.domain, hf.recipient, hf.color, hf.generation, hf.unopened, fun h0 => ?_⟩
    obtain ⟨hidentity, -⟩ := hf.book h0
    refine ⟨hidentity, w.lineLimit 0, b, e, hp.limit, ?_, ?_, ?_⟩
    · show (b.val : ℤ) = f.outstanding + (quote.amount + fee.val)
      omega
    · show (e.val : ℤ) = f.epoch + 1
      omega
    · show lineStateCommit ⟨L.contractDomain, agentId f.agentSecret, _, _, _⟩ newSalt
        = lineStateCommit ⟨L.contractDomain, L.identityCommit, _, _, _⟩ (w.newSalt 0)
      rw [hidentity, hsalt]

/-- **A purchase takes its cost from the balance, and its note was drawn.** -/
theorem purchase_follows {nonce salt newSalt : B} {quote : Quote B} {w : Witness B} {x fee : U64}
    (hfind : S.findFacility id = some f) (ha : f.address = some a)
    (hp : Purchase f quote nonce salt w x fee) (hsalt : w.newSalt 0 = newSalt)
    (hdomain : ∀ L, f.Agrees S.issuerSecret L → quote.domain = L.contractDomain)
    (hgeneration : quote.generation = f.generation)
    (hn : purchasedNote f a quote fee.val nonce salt = .ok n)
    (hsecret : after.issuerSecret = S.issuerSecret)
    (hfacilities : after.facilities = (S.setFacility id fun next => { next with
      outstanding := next.outstanding + (quote.amount + fee.val), epoch := next.epoch + 1
      salt := newSalt }).facilities)
    (hnotes : after.notes = S.notes ++ [n]) :
    Follows S after (.draw quote.quoteCommitment x fee) w a := by
  intro chain h L L' now hs hg hL r st
  have hmem := (Records.mem_of_find hfind).1
  have hf := hs.agrees hmem ha hL
  have hbooked := hp.book hsalt hf st
  have hnow : quote.generation = L.lineGeneration.val := by rw [hgeneration, hf.generation]
  have hcores : after.facilities.map Facility.core = S.facilities.map Facility.core := by
    rw [hfacilities]
    exact cores_set fun f => rfl
  obtain ⟨hplace, hidentity⟩ : n.contractAddress = a ∧ n.identity = agentId f.agentSecret := by
    simp only [purchasedNote, bind_ok_iff, pure_ok_iff] at hn
    obtain ⟨D, -, rfl⟩ := hn
    exact ⟨rfl, rfl⟩
  have hkept := hs.notes_kept hL r st fun n _ _ mode _ => rfl
  -- the note is new to the contract, and what was there is as it was
  obtain ⟨hnew, hagrees⟩ : n.noteCommitment ∉ L.notes ∧ n.Agrees L' := by
    have hfits := hp.fits hnow hn
    have hd : n.domain = quote.domain := by
      simp only [purchasedNote, bind_ok_iff, pure_ok_iff] at hn
      obtain ⟨D, -, rfl⟩ := hn
      rfl
    cases st with
    | draw g =>
      obtain ⟨hD, hopening⟩ := hp.drawn hf (by rw [g.status]; decide) (hdomain L hf) hnow hn
      have hfree := g.free
      rw [← hD] at hfree
      refine ⟨hfree, hd.trans (hdomain L hf), hopening, _, ?_, hfits⟩
      show (L.notes.insert _ _).lookup n.noteCommitment = _
      rw [hD, Finmap.lookup_insert]
  refine hs.moved hsecret hcores ?_ ?_ ?_ ?_
  · rw [hnotes, List.map_append, List.map_singleton, List.nodup_append]
    refine ⟨hs.keys, List.nodup_singleton _, ?_⟩
    intro k hk k' hk' heq
    obtain ⟨m, hm, rfl⟩ := List.mem_map.mp hk
    rw [List.mem_singleton.mp hk'] at heq
    have hcommitment : m.noteCommitment = n.noteCommitment := congrArg Prod.fst heq
    have haddress : m.contractAddress = a := (congrArg Prod.snd heq).trans hplace
    obtain ⟨-, -, entry, hentry, -⟩ := hs.note_agrees hm (by rw [haddress, hL])
    rw [hcommitment] at hentry
    exact hnew (Finmap.mem_of_lookup_eq_some hentry)
  · rw [hfacilities]
    exact hs.facilities_set hfind ha rfl hbooked
  · intro m hm
    rw [hnotes] at hm
    rcases List.mem_append.mp hm with hm | hm
    · exact hkept m hm
    · obtain rfl := List.mem_singleton.mp hm
      exact .inl ⟨hplace, hagrees⟩
  · intro m hm
    rw [hnotes] at hm
    rcases List.mem_append.mp hm with hm | hm
    · exact (hs.owned m hm).imp_right (Snapshot.Owns.of_cores hcores)
    · obtain rfl := List.mem_singleton.mp hm
      exact .inr (Snapshot.Owns.of_cores hcores ⟨f, hmem, by rw [ha, hplace], hidentity⟩)

theorem purchase_planned {quote : Quote B} {binding : Option (String × String)}
    {salt noteNonce noteSalt : B} (hs : Sound env.chain S)
    (h : purchase env S id quote binding salt noteNonce noteSalt = .ok (some p)) :
    Planned env.chain S p := by
  simp only [purchase, bind_ok_iff] at h
  obtain ⟨⟨f, a⟩, hfacility, book, hinspect, u, hquote, cost, -, -, -, h⟩ := h
  -- a price that the budget does not cover ends in no plan
  split at h
  · cases h
  simp only [bind_ok_iff, require_ok_iff, pure_ok_iff, Option.some.injEq] at h
  obtain ⟨-, -, n, hn, x, hx, fee, hfee, rfl⟩ := h
  obtain ⟨hfind, ha⟩ := facility_ok_iff.mp hfacility
  obtain ⟨-, hbook⟩ := inspect_ok hinspect
  have hmem := (Records.mem_of_find hfind).1
  -- the numbers of the facility are those of the book on the chain
  have hread := hs.agrees hmem ha hbook
  simp only [requireQuote, bind_ok_iff, require_ok_iff, Bool.and_eq_true, decide_eq_true_eq]
    at hquote
  obtain ⟨-, ⟨⟨⟨⟨⟨-, hdomain⟩, hgeneration⟩, -⟩, -⟩, -⟩, -⟩ := hquote
  rw [uint64_ok_iff] at hfee hx
  subst hfee
  -- the new note is of the facility's contract
  have hplace : n.contractAddress = a := by
    simp only [purchasedNote, bind_ok_iff, pure_ok_iff] at hn
    obtain ⟨D, -, rfl⟩ := hn
    rfl
  -- the note may be bound to an order, which changes neither notes nor facilities
  refine .called (bindOrder_parts _ _ _).1 (fun b => ?_) (fun m hm => ?_)
    (.inl (has_of_find hfind ha)) fun w hw => ?_
  · rw [Snapshot.Has, (bindOrder_parts _ _ _).2.1]
    exact has_set fun f => rfl
  · rw [(bindOrder_parts _ _ _).2.2] at hm
    rcases List.mem_append.mp hm with hm | hm
    · exact hs.notes_there m hm
    · obtain rfl := List.mem_singleton.mp hm
      exact ⟨book, by rw [hplace, hbook]⟩
  -- the witness answers with the numbers of the plan
  · refine purchase_follows hfind ha ⟨hw.drawAmount _ rfl 0, hx, hw.quoteMerchantPk _ rfl 0,
      hw.noteNonce _ rfl 0, hw.noteSalt _ rfl 0, hw.lineLimit _ rfl 0, hw.lineOutstanding _ rfl 0,
      hw.lineEpoch _ rfl 0⟩ (hw.newSalt _ rfl 0) (fun L hf => ?_) ?_ hn (bindOrder_parts _ _ _).1
      (bindOrder_parts _ _ _).2.1 (bindOrder_parts _ _ _).2.2
    · rw [hdomain]
      exact hread.same_domain hf
    · rw [hgeneration]
      exact hread.generation

/-! ## Redemptions -/

variable [LawfulCompact B]

/-- **Whoever opens a note knows its terms**: they are those of the entry. -/
theorem Note.terms_of_opening {m : NoteMeta B} (r : Reaches .organization h L)
    (hopening : n.opening = .ok n.noteCommitment)
    (hm : L.notes.lookup n.noteCommitment = some m) :
    n.domain = L.contractDomain ∧ (m.amount.val : ℤ) = n.amount ∧ (m.fee.val : ℤ) = n.fee ∧
      (m.expiry.val : ℤ) = n.expiry ∧ (m.lineGeneration.val : ℤ) = n.generation := by
  obtain ⟨Q, M, k, hprovenance⟩ := r.provenance hm
  obtain ⟨nonce, salt, hD⟩ := hprovenance.opening
  obtain ⟨hpre, -⟩ := Note.opening_unique hopening hD.symm
  obtain ⟨hd, hg, -, -, -, ha, hf, -, hx⟩ := Note.preimage_ok_iff.mp hpre
  exact ⟨hd.symm, ha, hf, hx, hg⟩

omit [DecidableEq B] in
theorem contractDomain_inj {k k' M M' nonce nonce' : B}
    (h : contractDomain k M nonce = contractDomain k' M' nonce') :
    k = k' ∧ M = M' ∧ nonce = nonce' := by
  simpa [contractDomain, hash_eq_iff] using h

omit [LawfulCompact B] in
/-- The domain names the issuer. -/
theorem domain_of_reached (r : Reaches .organization h L) :
    ∃ M nonce, L.contractDomain = contractDomain L.issuer M nonce := by
  refine r.stateInvariant
    (I := fun L => ∃ M nonce, L.contractDomain = contractDomain L.issuer M nonce)
    (fun d => ⟨d.initialMerchantPk, d.instanceNonce, rfl⟩) ?_
  rintro L c L' ⟨M, nonce, hd⟩ st
  rw [st.sameInstance.contractDomain, st.sameInstance.issuer]
  exact ⟨M, nonce, hd⟩

/-- **A contract that knows a note of ours is the one the note is saved under.** -/
theorem Sound.same_place (hs : Sound chain S) (hg : Genuine chain S) (hn : n ∈ S.notes)
    (hL : chain a = some L) (hD : n.noteCommitment ∈ L.notes) :
    n.redeemed = true ∨ n.contractAddress = a := by
  refine (hs.owned n hn).imp_right ?_
  rintro ⟨f, hf, hplace, -⟩
  obtain ⟨m, hm⟩ := Finmap.mem_iff.mp hD
  obtain ⟨M, hM, hagrees⟩ := hs.notes n hn
  obtain ⟨h, r⟩ := hg.reached a L hL
  have hdomain := (Note.terms_of_opening r hagrees.opening hm).1
  obtain ⟨m₁, -, -, h₁⟩ := (hs.agrees hf hplace hM).domain
  obtain ⟨merchant, nonce, h₂⟩ := domain_of_reached r
  have hsame : M.contractDomain = L.contractDomain := hagrees.domain.symm.trans hdomain
  obtain ⟨hissuer, -, hnonce⟩ := contractDomain_inj ((h₁.symm.trans hsame).trans h₂)
  -- our secret opened the line that the note was drawn on, so the contract is one of ours
  have hopened : L.lineGeneration.val ≠ 0 := by
    have hgeneration := r.note_generation hm
    omega
  obtain ⟨f', hf', hplace'⟩ := (hg.ours a L hL hissuer.symm).resolve_right hopened
  obtain ⟨m₂, -, -, h₃⟩ := (hs.agrees hf' hplace' hL).domain
  obtain ⟨-, -, hnonce'⟩ := contractDomain_inj ((h₁.symm.trans hsame).trans h₃)
  obtain rfl := List.inj_on_of_nodup_map hs.nonces hf hf' hnonce'
  exact Option.some.inj (hplace.symm.trans hplace')

omit [LawfulCompact B] in
/-- A note that is redeemed now may be marked so. -/
theorem Note.Agrees.marked {m : NoteMeta B} (hn : n.Agrees L)
    (hm : L.notes.lookup n.noteCommitment = some m) (hr : m.redeemed = true) :
    Note.Agrees { n with redeemed := true } L := by
  obtain ⟨hdomain, hopening, m', hm', hfits⟩ := hn
  obtain rfl := Option.some.inj (hm.symm.trans hm')
  exact ⟨hdomain, hopening, m, hm, hfits.amount, hfits.fee, hfits.expiry, hfits.generation,
    hfits.recorded, fun _ => hr, hfits.allocated, hfits.refund⟩

/-- **Marking a note as redeemed**, of a contract where it is. -/
theorem Sound.marked {m : NoteMeta B} (hs : Sound chain S) (hg : Genuine chain S)
    (hL : chain a = some L) (hm : L.notes.lookup D = some m) (hr : m.redeemed = true)
    (hfind : Records.find Note.noteCommitment S.notes D = some n)
    (hsecret : after.issuerSecret = S.issuerSecret) (hfacilities : after.facilities = S.facilities)
    (hnotes : after.notes =
      Records.change Note.noteCommitment (fun n => { n with redeemed := true }) D S.notes) :
    Sound chain after := by
  obtain ⟨hmem, hD⟩ := Records.mem_of_find hfind
  subst hD
  have hcores : after.facilities.map Facility.core = S.facilities.map Facility.core := by
    rw [hfacilities]
  -- the note is of that contract, or it was marked before
  have hmarked : Note.Agrees { n with redeemed := true } L ∧ n.contractAddress = a ∨
      { n with redeemed := true } = n := by
    rcases hs.same_place hg hmem hL (Finmap.mem_of_lookup_eq_some hm) with hn | hplace
    · right
      rw [← hn]
    · exact .inl ⟨(hs.note_agrees hmem (by rw [hplace, hL])).marked hm hr, hplace⟩
  refine ⟨?_, ?_, ?_, ?_, ?_, ?_, ?_⟩
  · rw [hfacilities, hsecret]
    exact hs.facilities
  · intro n' hn'
    rw [hnotes] at hn'
    -- one note is replaced, the others are as they were
    rcases Records.mem_change hfind hn' with hold | rfl
    · exact hs.notes n' hold
    · rcases hmarked with ⟨hagrees, hplace⟩ | heq
      · exact ⟨L, by rw [← hL, ← hplace], hagrees⟩
      · rw [heq]
        exact hs.notes n hmem
  · intro n' hn'
    rw [hnotes] at hn'
    rcases Records.mem_change hfind hn' with hold | rfl
    · exact (hs.owned n' hold).imp_right (Snapshot.Owns.of_cores hcores)
    · exact .inl rfl
  · rw [hfacilities]
    exact hs.ids
  · rw [hfacilities]
    exact hs.places
  · rw [hfacilities]
    exact hs.nonces
  · rw [hnotes]
    refine (congrArg List.Nodup (Records.map_change Note.key ?_)).mpr hs.keys
    intro n
    rfl

omit [LawfulCompact B] in
/-- **A note that was redeemed elsewhere is saved.** -/
theorem Sound.pushed (hs : Sound chain S) (hL : chain n.contractAddress = some L) (hn : n.Agrees L)
    (hr : n.redeemed = true) (hnew : n.key ∉ S.notes.map Note.key) :
    Sound chain { S with notes := S.notes ++ [n] } := by
  refine ⟨hs.facilities, fun m hm => ?_, fun m hm => ?_, hs.ids, hs.places, hs.nonces, ?_⟩
  · rcases List.mem_append.mp hm with hm | hm
    · exact hs.notes m hm
    · obtain rfl := List.mem_singleton.mp hm
      exact ⟨L, hL, hn⟩
  · rcases List.mem_append.mp hm with hm | hm
    · exact hs.owned m hm
    · obtain rfl := List.mem_singleton.mp hm
      exact .inl hr
  · rw [List.map_append, List.map_singleton, List.nodup_append]
    refine ⟨hs.keys, List.nodup_singleton _, ?_⟩
    intro k hk k' hk' heq
    rw [heq, List.mem_singleton.mp hk'] at hk
    exact hnew hk

/-- A claim as it was received: nothing is noted on it yet. -/
structure Note.Received (n : Note B) : Prop where
  refund : n.refund = none
  expiryRecorded : n.expiryRecorded = none

theorem redeem_follows {x : U64} {w : Witness B} (hn : n.Received)
    (hopening : n.opening = .ok n.noteCommitment) :
    Follows S (S.redeemed n) (.redeemDraw n.noteCommitment x) w n.contractAddress := by
  intro chain h L L' now hs hg hL r st
  have hL' : Function.update chain n.contractAddress (some L') n.contractAddress = some L' :=
    Function.update_self ..
  -- a redemption does not touch the book
  have hbook : SameBook L L' := by
    cases st
    exact ⟨rfl, rfl, rfl⟩
  have hs' : Sound (Function.update chain n.contractAddress (some L')) S :=
    hs.kept hL r st hbook (fun D mode hmode => rfl) rfl rfl rfl
  have hg' : Genuine (Function.update chain n.contractAddress (some L')) S :=
    hg.moved hL st rfl (fun b hb => hb) fun _ => .inr hbook.lineGeneration
  obtain ⟨x', m, g, hnotes⟩ := st.redeems (D := n.noteCommitment) (decide_eq_true rfl)
  have hm : L'.notes.lookup n.noteCommitment = some m.redeem := by
    rw [hnotes, Finmap.lookup_insert]
  unfold Snapshot.redeemed
  split
  -- a note that the account has already is marked
  · next n₀ hfind => exact hs'.marked hg' hL' hm rfl hfind rfl rfl rfl
  -- one that it received from outside is added with the terms of its entry
  · next hfind =>
    obtain ⟨hdomain, ha, hf, hx, hgen⟩ := Note.terms_of_opening r hopening g.found
    refine hs'.pushed (n := { n with redeemed := true }) hL' ?_ rfl ?_
    · refine ⟨hdomain.trans st.sameInstance.contractDomain.symm, hopening, m.redeem, hm, ha, hf, hx,
        hgen, fun hrec => ?_, fun _ => rfl, ?_, fun refund hrefund => ?_⟩
      · replace hrec : n.expiryRecorded.getD false = true := hrec
        rw [hn.expiryRecorded] at hrec
        cases hrec
      · show false = n.refund.isSome
        rw [hn.refund]
        rfl
      · replace hrefund : n.refund = some refund := hrefund
        rw [hn.refund] at hrefund
        cases hrefund
    · intro hmem
      obtain ⟨n', hn', hkey⟩ := List.mem_map.mp hmem
      exact Records.find_eq_none_iff.mp hfind
        (List.mem_map.mpr ⟨n', hn', congrArg Prod.fst hkey⟩)

theorem redeem_planned (hs : Sound env.chain S) (hn : n.Received)
    (h : redeem env S n = .ok p) : Planned env.chain S p := by
  simp only [redeem, inspectMerchantClaim, bind_ok_iff, found_ok_iff, require_ok_iff,
    decide_eq_true_eq] at h
  obtain ⟨book, hinspect, review, ⟨-, -, -, -, D, hD, -, rfl, -⟩, -, -, -, -, x, hx, h⟩ := h
  obtain rfl := Except.ok.inj h
  obtain ⟨-, hbook⟩ := inspect_ok hinspect
  refine .called ?_ (fun b => ?_) (fun m hm => ?_) (.inr rfl) fun w hw => redeem_follows hn hD
  · unfold Snapshot.redeemed
    split <;> rfl
  · unfold Snapshot.redeemed
    split <;> rfl
  · unfold Snapshot.redeemed at hm
    split at hm
    · rcases Records.exists_of_mem_change hm with hold | ⟨m', hm', rfl⟩
      · exact hs.notes_there m hold
      · exact hs.notes_there m' hm'
    · rcases List.mem_append.mp hm with hm | hm
      · exact hs.notes_there m hm
      · obtain rfl := List.mem_singleton.mp hm
        exact ⟨book, hbook⟩

/-! ## Deployments -/

omit [LawfulCompact B] in
/-- **A facility that was just deployed agrees with its contract.** -/
theorem Sound.deployed {d : Deployment B} (hs : Sound chain S) (hfree : chain a = none)
    (hid : f.id ∉ S.facilities.map Facility.id)
    (hnonce : f.instanceNonce ∉ S.facilities.map Facility.instanceNonce)
    (ha : f.address = some a) (hf : f.Agrees S.issuerSecret (constructor .organization d)) :
    Sound (Function.update chain a (some (constructor .organization d)))
      { S with facilities := S.facilities ++ [f] } := by
  -- the address was free, so no other contract changed
  have hother : ∀ b M, chain b = some M →
      Function.update chain a (some (constructor .organization d)) b = some M := by
    intro b M hM
    have hne : b ≠ a := by
      rintro rfl
      rw [hfree] at hM
      cases hM
    rw [Function.update_of_ne hne, hM]
  -- and what is different stays different with one new value
  have hpush : ∀ {γ : Type} (g : Facility B → γ), (S.facilities.map g).Nodup →
      g f ∉ S.facilities.map g → ((S.facilities ++ [f]).map g).Nodup := by
    intro γ g hnodup hnew
    rw [List.map_append, List.map_singleton, List.nodup_append]
    refine ⟨hnodup, List.nodup_singleton _, ?_⟩
    intro k hk k' hk' heq
    rw [heq, List.mem_singleton.mp hk'] at hk
    exact hnew hk
  refine ⟨fun f' hf' => ?_, fun n hn => ?_, fun n hn => ?_, hpush _ hs.ids hid,
    hpush _ hs.places ?_, hpush _ hs.nonces hnonce, hs.keys⟩
  · rcases List.mem_append.mp hf' with hf' | hf'
    · obtain ⟨b, M, hb, hM, hagrees⟩ := hs.facilities f' hf'
      exact ⟨b, M, hb, hother b M hM, hagrees⟩
    · obtain rfl := List.mem_singleton.mp hf'
      exact ⟨a, _, ha, Function.update_self .., hf⟩
  · obtain ⟨M, hM, hagrees⟩ := hs.notes n hn
    exact ⟨M, hother _ M hM, hagrees⟩
  · refine (hs.owned n hn).imp_right ?_
    rintro ⟨f', hf', hown⟩
    exact ⟨f', List.mem_append_left _ hf', hown⟩
  -- a facility at the free address would have its contract there
  · intro hmem
    obtain ⟨f', hf', hplace⟩ := List.mem_map.mp hmem
    obtain ⟨b, M, hb, hM, -⟩ := hs.facilities f' hf'
    obtain rfl := Option.some.inj (ha.symm.trans (hplace.symm.trans hb))
    rw [hfree] at hM
    cases hM

omit [LawfulCompact B] in
/-- Our contract is one of ours, and the others are as they were. -/
theorem Genuine.deployed {d : Deployment B} (hg : Genuine chain S) (hhex : isHex64 a = true)
    (hsecret : after.issuerSecret = S.issuerSecret) (hhas : ∀ b, S.Has b → after.Has b) :
    Genuine (Function.update chain a (some (constructor .organization d))) after := by
  refine ⟨fun b M hM => ?_, fun b M hM => ?_, fun b M hM hissuer => ?_⟩ <;>
    by_cases hb : b = a
  · rw [hb, hhex]
  · rw [Function.update_of_ne hb] at hM
    exact hg.address b M hM
  · subst hb
    rw [Function.update_self] at hM
    obtain rfl := Option.some.inj hM
    exact ⟨[], .start ⟨d, rfl⟩⟩
  · rw [Function.update_of_ne hb] at hM
    exact hg.reached b M hM
  · subst hb
    rw [Function.update_self] at hM
    obtain rfl := Option.some.inj hM
    exact .inr rfl
  · rw [Function.update_of_ne hb] at hM
    rw [hsecret] at hissuer
    exact (hg.ours b M hM hissuer).imp_left (hhas b)

omit [LawfulCompact B] in
theorem createFacility_planned {name : Utf16} {assetColor instanceNonce agentSecret salt : B}
    {merchant : MerchantBinding B} {key : String} (hs : Sound env.chain S)
    (hid : id ∉ S.facilities.map Facility.id)
    (hnonce : instanceNonce ∉ S.facilities.map Facility.instanceNonce)
    (h : createFacility env S id name assetColor merchant instanceNonce agentSecret salt key
      = .ok p) : Planned env.chain S p := by
  simp only [createFacility, bind_ok_iff, require_ok_iff, pure_ok_iff] at h
  obtain ⟨-, -, -, -, rfl⟩ := h
  refine ⟨?_, hs.notes_there, ?_⟩
  -- until it is deployed the new facility has no address
  · rintro a ⟨f, hf, ha⟩
    rcases List.mem_append.mp hf with hf | hf
    · exact ⟨f, hf, ha⟩
    · obtain rfl := List.mem_singleton.mp hf
      cases ha
  -- the address comes with the transaction, and the candidate gets it then
  · intro pid fingerprint tx a after hsigns hhex haddress hafter
    cases hsigns
    simp only [Plan.pending, Pending.deployedAt, Option.bind_some, Snapshot.findFacility,
      Records.find_push, if_true, Records.find_eq_none_iff.mpr hid, Option.none_or,
      Snapshot.setFacility, Except.ok.injEq] at hafter
    rw [Records.change_push hid rfl] at hafter
    subst hafter
    refine ⟨rfl, ?_, ?_⟩
    · rintro b ⟨f, hf, hb⟩
      exact ⟨f, List.mem_append_left _ hf, hb⟩
    · intro chain chain' now hs hg hlands
      cases hlands with
      | deploy hfree =>
        -- the constructor commits to no book, and the facility has none
        refine ⟨hs.deployed hfree hid hnonce rfl ?_, hg.deployed hhex rfl ?_⟩
        · exact ⟨rfl, ⟨merchant, [], rfl, rfl⟩, rfl, rfl, rfl, fun _ => rfl,
            fun h0 => absurd rfl h0⟩
        · rintro b ⟨f, hf, hb⟩
          exact ⟨f, List.mem_append_left _ hf, hb⟩

/-- The record that a request adds is new: its id, and what is drawn at random. -/
def Request.Fresh (S : Snapshot B) : Request B → Prop
  | .createFacility id _ _ _ instanceNonce _ _ _ =>
      id ∉ S.facilities.map Facility.id ∧
        instanceNonce ∉ S.facilities.map Facility.instanceNonce
  | .redeem note => note.Received
  | _ => True

omit [DecidableEq B] [Compact B] [LawfulCompact B] in
theorem some_map_ok_iff {α : Type} {x : Result α} {y : α} :
    (some <$> x : Result (Option α)) = .ok (some y) ↔ x = .ok y := by
  cases x with
  | error e => exact iff_of_false (fun h => by cases h) (fun h => by cases h)
  | ok a =>
    show (Except.ok (some a) : Result (Option α)) = .ok (some y) ↔ _
    rw [Except.ok.injEq, Option.some.injEq, Except.ok.injEq]

/-- **Every request keeps its promise.** -/
theorem planned {request : Request B} (hs : Sound env.chain S) (hfresh : request.Fresh S)
    (h : request.plan env S = .ok (some p)) : Planned env.chain S p := by
  cases request with
  | purchase => exact purchase_planned hs h
  | createFacility => exact createFacility_planned hs hfresh.1 hfresh.2 (some_map_ok_iff.mp h)
  | registerVerifierKey => exact registerVerifierKey_planned hs h
  | reserve => exact reserve_planned hs (some_map_ok_iff.mp h)
  | openAllowance => exact openAllowance_planned hs (some_map_ok_iff.mp h)
  | replenish => exact replenish_planned hs (some_map_ok_iff.mp h)
  | registerMerchant => exact registerMerchant_planned hs (some_map_ok_iff.mp h)
  | disableMerchant => exact disableMerchant_planned hs (some_map_ok_iff.mp h)
  | status => exact status_planned hs (some_map_ok_iff.mp h)
  | postQuote => exact postQuote_planned hs (some_map_ok_iff.mp h)
  | redeem => exact redeem_planned hs hfresh (some_map_ok_iff.mp h)
  | recordClaimExpiry => exact recordClaimExpiry_planned hs (some_map_ok_iff.mp h)
  | cancelExpired => exact cancelExpired_planned hs (some_map_ok_iff.mp h)
  | refund => exact refund_planned hs (some_map_ok_iff.mp h)

end Notes

end Line.Client
