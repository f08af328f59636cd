import Line.Client.Restorable

/-!
# What a backup restores

`restoreBackup` accepts a backup by what it finds on the chain, and does not know which backup is
the latest. It need not: commitments bind, so what agrees with a contract has the only book that
does (`Facility.Agrees.same`), and the only refund of each note (`Note.Agrees.same`). An older
backup is accepted as long as what it holds is current, and no backup brings back an older book
(`accepted_current`).

A facility that was not opened yet has no book, and the check asks of it only that the ledger has
none either. So what is said of numbers is said of a facility once it is opened.
-/

namespace Line.Client

open Checked

variable {B : Type} [DecidableEq B] [Compact B]

/-- The same contract, with the same book. -/
structure Facility.Same (f g : Facility B) : Prop where
  instanceNonce : f.instanceNonce = g.instanceNonce
  merchant : f.merchants.head?.map MerchantBinding.publicKey =
    g.merchants.head?.map MerchantBinding.publicKey
  assetColor : f.assetColor = g.assetColor
  issuerRecipient : f.issuerRecipient = g.issuerRecipient
  generation : f.generation = g.generation
  book : f.generation ≠ 0 → f.agentSecret = g.agentSecret ∧ f.salt = g.salt ∧
    f.limit = g.limit ∧ f.outstanding = g.outstanding ∧ f.epoch = g.epoch

/-- The same opening, and the same compensation. -/
structure Note.Same (n n' : Note B) : Prop where
  domain : n.domain = n'.domain
  identity : n.identity = n'.identity
  merchantPk : n.merchantPk = n'.merchantPk
  quoteCommitment : n.quoteCommitment = n'.quoteCommitment
  amount : n.amount = n'.amount
  fee : n.fee = n'.fee
  expiry : n.expiry = n'.expiry
  generation : n.generation = n'.generation
  noteNonce : n.noteNonce = n'.noteNonce
  noteSalt : n.noteSalt = n'.noteSalt
  refund : n.refund = n'.refund

/-- The snapshot that counts: the candidate, from when the saved transaction was applied. -/
def World.Current (w : World B) (S : Snapshot B) : Prop :=
  w.applied = false ∧ S = w.record.snapshot ∨
    w.applied = true ∧ ∃ p, w.record.pending = some p ∧ S = p.after

section Backups

variable {w : World B} {S S' : Snapshot B} {L : Ledger B} {f g : Facility B} {n n' : Note B}
  {a : Address} {s s' : B} {backup : Record B (Transaction B)} {release : Release}
  {operations : Address → Operations}

omit [DecidableEq B] [Compact B] in
theorem Note.Same.of_preimage {p : DrawNotePreimage B} (hp : n.preimage = .ok p)
    (hp' : n'.preimage = .ok p) (hsalt : n.noteSalt = n'.noteSalt)
    (hrefund : n.refund = n'.refund) : n.Same n' := by
  obtain ⟨hd, hg, hi, hQ, hM, ha, hf, hnonce, hx⟩ := Note.preimage_ok_iff.mp hp
  obtain ⟨hd', hg', hi', hQ', hM', ha', hf', hnonce', hx'⟩ := Note.preimage_ok_iff.mp hp'
  exact ⟨hd.symm.trans hd', hi.symm.trans hi', hM.symm.trans hM', hQ.symm.trans hQ',
    ha.symm.trans ha', hf.symm.trans hf', hx.symm.trans hx', hg.symm.trans hg',
    hnonce.symm.trans hnonce', hsalt, hrefund⟩

variable [LawfulCompact B]

/-! ## What agrees is the same -/

omit [DecidableEq B] in
/-- **A contract has one book.** -/
theorem Facility.Agrees.same (hf : f.Agrees s L) (hg : g.Agrees s' L) : f.Same g := by
  obtain ⟨m, rest, hm, hd⟩ := hf.domain
  obtain ⟨m', rest', hm', hd'⟩ := hg.domain
  obtain ⟨-, hM, hnonce⟩ := contractDomain_inj (hd.symm.trans hd')
  have hgeneration := hf.generation.symm.trans hg.generation
  refine ⟨hnonce, ?_, hf.color.symm.trans hg.color, hf.recipient.symm.trans hg.recipient,
    hgeneration, fun h0 => ?_⟩
  · rw [hm, hm', List.head?_cons, List.head?_cons, Option.map_some, Option.map_some, hM]
  · -- both open the commitment of the line
    obtain ⟨hi, limit, outstanding, epoch, hl, ho, he, hc⟩ := hf.book h0
    obtain ⟨hi', limit', outstanding', epoch', hl', ho', he', hc'⟩ :=
      hg.book (by rwa [← hgeneration])
    obtain ⟨hpre, hsalt⟩ := lineStateCommit_inj (hc.trans hc'.symm)
    obtain ⟨-, -, rfl, rfl, rfl⟩ := LinePreimage.mk.inj hpre
    exact ⟨agentId_inj (hi.symm.trans hi'), hsalt, hl.symm.trans hl', ho.symm.trans ho',
      he.symm.trans he'⟩

omit [DecidableEq B] in
/-- What was bound for a note is one refund, and the ledger says whether it was paid. -/
theorem Note.Fits.refund_eq {m : NoteMeta B} (hn : n.Fits m) (hn' : n'.Fits m) :
    n.refund = n'.refund := by
  -- whether there is a refund is a flag of the entry
  have hsome := hn.allocated.symm.trans hn'.allocated
  cases hr : n.refund with
  | none =>
    rw [hr] at hsome
    exact (Option.isNone_iff_eq_none.mp (Option.isSome_eq_false_iff.mp hsome.symm)).symm
  | some r =>
    rw [hr] at hsome
    obtain ⟨r', hr'⟩ := Option.isSome_iff_exists.mp hsome.symm
    obtain ⟨hopen, -, hpaid⟩ := hn.refund r hr
    obtain ⟨hopen', -, hpaid'⟩ := hn'.refund r' hr'
    simp only [Note.refundOpening, bind_ok_iff, uint64_ok_iff, pure_ok_iff] at hopen hopen'
    obtain ⟨g, -, amount, ha, hc⟩ := hopen
    obtain ⟨g', -, amount', ha', hc'⟩ := hopen'
    obtain ⟨hpre, hsalt⟩ := refundCommit_inj (hc.trans hc'.symm)
    obtain ⟨-, -, -, -, rfl⟩ := RefundPreimage.mk.inj hpre
    obtain ⟨salt, value, paid⟩ := r
    obtain ⟨salt', value', paid'⟩ := r'
    simp only at ha ha' hsalt hpaid hpaid'
    rw [hr', ← ha, ← ha', hsalt, hpaid, hpaid']

/-- **A commitment has one note.** -/
theorem Note.Agrees.same (hn : n.Agrees L) (hn' : n'.Agrees L)
    (hkey : n.noteCommitment = n'.noteCommitment) : n.Same n' := by
  obtain ⟨p, hp, hD⟩ := Note.opening_ok_iff.mp hn.opening
  rw [hkey] at hD
  obtain ⟨hp', hsalt⟩ := Note.opening_unique hn'.opening hD
  obtain ⟨m, hm, hfits⟩ := hn.entry
  obtain ⟨m', hm', hfits'⟩ := hn'.entry
  rw [hkey, hm'] at hm
  obtain rfl := Option.some.inj hm
  exact .of_preimage hp hp' hsalt (hfits.refund_eq hfits')

/-! ## What is accepted -/

omit [LawfulCompact B] in
/-- What is asked of a backup at a contract that it names. -/
theorem restorable_at {chain : Chain B} (hok : restorable release chain operations backup = true)
    (ha : a ∈ backup.addresses) (hL : chain a = some L) :
    ((∃ S ∈ backup.snapshots, S.Has a) → L.issuer = issuerPublicKey backup.snapshot.issuerSecret) ∧
    ∃ S' ∈ backup.snapshots,
      ((∃ S ∈ backup.snapshots, S.Has a) →
        ∃ f ∈ S'.facilities, f.address = some a ∧ f.Agrees S'.issuerSecret L) ∧
      ∀ n ∈ S'.notes, n.contractAddress = a → n.Agrees L := by
  rw [restorable, Bool.and_eq_true] at hok
  have hat := List.all_eq_true.mp hok.2 a ha
  rw [hL] at hat
  simp only [Bool.and_eq_true, Bool.or_eq_true, Bool.not_eq_true', decide_eq_true_eq,
    List.any_eq_true, List.all_eq_true] at hat
  obtain ⟨⟨-, hissuer⟩, S', hS', hfacility, hnotes⟩ := hat
  have howned : (∃ S ∈ backup.snapshots, S.Has a) →
      ((backup.snapshots.flatMap Snapshot.facilities).any fun f =>
        decide (f.address = some a)) ≠ false := by
    rintro ⟨S, hS, f, hf, hplace⟩
    rw [ne_eq, Bool.not_eq_false]
    exact List.any_eq_true.mpr ⟨f, List.mem_flatMap.mpr ⟨S, hS, hf⟩, decide_eq_true hplace⟩
  refine ⟨fun h => hissuer.resolve_left (howned h), S', hS', fun h => ?_, fun n hn hplace => ?_⟩
  · obtain ⟨f, hfind, hf⟩ := (Option.any_eq_true _ _).mp (hfacility.resolve_left (howned h))
    obtain ⟨hmem, hplace⟩ := Records.mem_of_find hfind
    exact ⟨f, hmem, hplace, matchesRestoredFacility_iff.mp hf⟩
  · exact matchesRestoredNote_iff.mp
      (hnotes n (List.mem_filter.mpr ⟨hn, decide_eq_true hplace⟩))

/-- **An accepted backup holds the current book**, in every world that is reached, whatever the
backup is: at each contract one of its snapshots has the facility of the organization, with its
book if a line was ever opened, and the openings of its notes as the account has them now. -/
theorem accepted_current (h : w.Reachable)
    (hok : restorable release w.chain operations backup = true) :
    ∃ S, w.Current S ∧ ∀ a ∈ backup.addresses, ∀ L, w.chain a = some L →
      ∃ S' ∈ backup.snapshots,
        ((∃ S'' ∈ backup.snapshots, S''.Has a) → ∀ g ∈ S.facilities, g.address = some a →
          backup.snapshot.issuerSecret = S.issuerSecret ∧ S'.issuerSecret = S.issuerSecret ∧
            ∃ f ∈ S'.facilities, f.address = some a ∧ f.Same g) ∧
        ∀ n ∈ S'.notes, n.contractAddress = a → ∀ n' ∈ S.notes, n'.contractAddress = a →
          n.noteCommitment = n'.noteCommitment → n.Same n' := by
  -- the snapshot that agrees with the chain, before and after the saved transaction
  have hcurrent : ∃ S, w.Current S ∧ Sound w.chain S := by
    cases happlied : w.applied with
    | false => exact ⟨_, .inl ⟨happlied, rfl⟩, (h.good.saved happlied).1⟩
    | true =>
      obtain ⟨p, hp, hafter⟩ := h.good.candidate happlied
      exact ⟨_, .inr ⟨happlied, p, hp, rfl⟩, hafter.sound⟩
  obtain ⟨S, hS, hs⟩ := hcurrent
  refine ⟨S, hS, fun a ha L hL => ?_⟩
  obtain ⟨hissuer, S', hS', hfacility, hnotes⟩ := restorable_at hok ha hL
  refine ⟨S', hS', fun hown g hg hplace => ?_, fun n hn hplace n' hn' hplace' hkey => ?_⟩
  · have hagrees := hs.agrees hg hplace hL
    obtain ⟨f, hf, hplace', hsame⟩ := hfacility hown
    exact ⟨issuerPublicKey_inj ((hissuer hown).symm.trans hagrees.issuer),
      issuerPublicKey_inj (hsame.issuer.symm.trans hagrees.issuer), f, hf, hplace',
      hsame.same hagrees⟩
  · have hthere := hs.note_agrees hn' (by rw [hplace', hL])
    exact (hnotes n hn hplace).same hthere hkey

end Backups

/-- A backup made while the allowance was being opened is accepted when the receipt has arrived, and
its candidate has the book that the account has now. -/
theorem accepted_current_sample : ∃ (w : World Term) (backup : Record Term (Transaction Term)),
    w.Reachable ∧ restorable w.release w.chain w.operations backup = true ∧
    w.record.pending = none ∧ backup.snapshot.facilities.map Facility.generation = [0] ∧
    ∃ g ∈ w.record.snapshot.facilities, g.limit = 500 ∧
      ∃ S' ∈ backup.snapshots, ∃ f ∈ S'.facilities, f.salt = g.salt ∧ f.limit = g.limit := by
  obtain ⟨v, p, hv, happlied, hsaved, hp, hfacilities, hnotes, r, hcomplete⟩ := Sample.opened
  have hw := hv.next (.complete happlied hcomplete)
  obtain ⟨q, hq, rfl⟩ := complete_ok hcomplete
  obtain rfl := Option.some.inj (hp.symm.trans hq)
  obtain ⟨g, hg, hshape⟩ : ∃ g ∈ p.after.facilities,
      (g.address, g.generation, g.limit) = (some Sample.address, 1, 500) := by
    refine List.mem_map.mp ?_
    rw [hfacilities]
    exact List.mem_singleton_self _
  obtain ⟨hgeneration, hlimit⟩ := Prod.mk.inj (Prod.mk.inj hshape).2
  -- the backup agrees with the chain as the account did when it was made
  have hok : restorable v.release v.chain v.operations v.record = true :=
    hv.restorable fun b hb L hL => by
      obtain ⟨S, hS, hhas⟩ := Record.owns_named hnotes hb
      exact hv.maintained.published S hS b hhas L hL
  obtain ⟨a, L, ha, hL, -⟩ := (hw.good.saved rfl).1.facilities g hg
  have hmem := Record.candidate_mem hp
  have hnamed : a ∈ v.record.addresses :=
    List.mem_append_left _ (List.mem_filterMap.mpr ⟨g, List.mem_flatMap.mpr ⟨_, hmem, hg⟩, ha⟩)
  obtain ⟨S, hS, hheld⟩ := accepted_current hw hok
  obtain ⟨-, rfl⟩ := hS.resolve_right fun h => by cases h.1
  obtain ⟨S', hS', hfacility, -⟩ := hheld a hnamed L hL
  obtain ⟨-, -, f, hf, -, hsame⟩ := hfacility ⟨_, hmem, g, hg, ha⟩ g hg ha
  have hopened : f.generation ≠ 0 := by
    rw [hsame.generation, hgeneration]
    decide
  obtain ⟨-, hsalt, hlimits, -⟩ := hsame.book hopened
  exact ⟨_, v.record, hw, hok, rfl, hsaved, g, hg, hlimit, S', hS', f, hf, hsalt, hlimits⟩

end Line.Client
