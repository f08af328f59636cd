import Line.Client.Agreement
import Line.Organization.Transfers
import Line.Proof.Provenance

/-!
# What the client keeps comes out of its package

The values that the client sends come from three places. It makes them itself: its own profile
(`merchantProfile`), the quote it posts and the note it purchases, whose circuit calls the contract
accepted. It receives them as packages: every profile that `createFacility` and `registerMerchant`
store was decoded by their callers first. Or it restores them from a backup.

`restoreBackup` has checks of its own, and they are not those of the decoders. A profile's name may
be blank, and nobody holds a quote against the chain. A note is compared with the entry of the
contract, whose terms are those of a draw; but not where the backup's own operation is the
deployment of that contract and is not on the chain yet, and of the two snapshots of a backup with
an operation under way only one has to agree. So exactly these come back changed, or not at all.

Secrets and commitments are words of the chain in `Client.Record`, and texts here (`Hex`).
-/

namespace Line.Organization

open JsonText Checked

variable {bech32m : Bech32m}

/-! ## What the client makes -/

/-- `toHex`, of the words of the chain. -/
structure Hex (B : Type) where
  toHex : B → Utf16
  isHex64_toHex : ∀ b, isHex64 (toHex b) = true

/-- `merchantProfile`. -/
def merchantProfile (publicKey address name : Utf16) : MerchantBinding where
  publicKey
  address
  name := if ((trim name).take 80).isEmpty then ascii "Merchant" else (trim name).take 80
  disabled := none

variable {B : Type} [Line.Compact B]

/-- The quote of `postQuote`. -/
def postedQuote (words : Hex B) (address : Utf16) (w : Line.Witness B) (expiry : Line.U64)
    (book : Line.Ledger B) : OrganizationQuote where
  contractAddress := address
  domain := words.toHex book.contractDomain
  merchantPk := words.toHex (Line.merchantPublicKey (w.callerSecret 0))
  invoiceId := words.toHex (w.invoiceId 0)
  quoteNonce := words.toHex (w.quoteNonce 0)
  amount := (w.quoteAmount 0).val
  expiry := expiry.val
  generation := book.lineGeneration.val
  feeFlat := book.feeFlat.val
  feeBps := book.feeBps.val
  quoteCommitment := words.toHex (Line.witnessQuote w expiry book)

/-- The note of `purchase`. -/
def purchasedNote (words : Hex B) (address : Utf16) (w : Line.Witness B) (Q : B)
    (expiry fee : Line.U64) (book : Line.Ledger B) : OrganizationNote where
  contractAddress := address
  domain := words.toHex book.contractDomain
  identity := words.toHex (Line.agentId (w.agentSecret 0))
  merchantPk := words.toHex (w.quoteMerchantPk 0)
  quoteCommitment := words.toHex Q
  amount := (w.drawAmount 0).val
  fee := fee.val
  expiry := expiry.val
  generation := book.lineGeneration.val
  noteNonce := words.toHex (w.noteNonce 0)
  noteSalt := words.toHex (w.noteSalt 0)
  noteCommitment := words.toHex (Line.drawnNote w Q expiry fee book)
  redeemed := false
  expiryRecorded := none
  refund := none

/-- A number of 64 bits, in `backup.ts`. -/
def isUint (z : ℤ) : Bool := decide (0 ≤ z) && decide (z ≤ UINT64_MAX)

/-! ## What a backup is held against -/

/-- What a backup's quotes are held against. -/
def restorableQuote (q : OrganizationQuote) : Bool :=
  [q.contractAddress, q.domain, q.merchantPk, q.invoiceId, q.quoteNonce, q.quoteCommitment].all
      isHex64 &&
    [q.amount, q.expiry, q.generation, q.feeFlat, q.feeBps].all isUint &&
    decide (0 < q.amount) && decide (q.feeBps ≤ 10000)

def restorableNote (n : OrganizationNote) : Bool :=
  [n.contractAddress, n.domain, n.identity, n.merchantPk, n.quoteCommitment, n.noteNonce,
      n.noteSalt, n.noteCommitment].all isHex64 &&
    [n.amount, n.fee, n.expiry, n.generation].all isUint && decide (0 < n.amount) &&
    !(n.expiryRecorded.getD false && n.redeemed) &&
    n.refund.all fun r => isHex64 r.salt && isUint r.amount

def restorableMerchant (bech32m : Bech32m) (m : MerchantBinding) : Bool :=
  isHex64 m.publicKey && !m.address.isEmpty && decide (m.address.length ≤ 200) &&
    (receivingAddressBytes bech32m m.address).isOk && !m.name.isEmpty &&
    decide (m.name.length ≤ 80)

/-- The texts of a quote that the account keeps in words. -/
def quoteText (words : Hex B) (q : Client.Quote B) : OrganizationQuote where
  contractAddress := q.contractAddress
  domain := words.toHex q.domain
  merchantPk := words.toHex q.merchantPk
  invoiceId := words.toHex q.invoiceId
  quoteNonce := words.toHex q.quoteNonce
  amount := q.amount
  expiry := q.expiry
  generation := q.generation
  feeFlat := q.feeFlat
  feeBps := q.feeBps
  quoteCommitment := words.toHex q.quoteCommitment

def noteText (words : Hex B) (n : Client.Note B) : OrganizationNote where
  contractAddress := n.contractAddress
  domain := words.toHex n.domain
  identity := words.toHex n.identity
  merchantPk := words.toHex n.merchantPk
  quoteCommitment := words.toHex n.quoteCommitment
  amount := n.amount
  fee := n.fee
  expiry := n.expiry
  generation := n.generation
  noteNonce := words.toHex n.noteNonce
  noteSalt := words.toHex n.noteSalt
  noteCommitment := words.toHex n.noteCommitment
  redeemed := n.redeemed
  expiryRecorded := n.expiryRecorded
  refund := n.refund.map fun r => ⟨words.toHex r.salt, r.amount, r.paid⟩

/-- The texts of a profile; `address` is the text under which each address was saved. -/
def merchantText (words : Hex B) (address : Line.UserAddress B → Utf16)
    (m : Client.MerchantBinding B) : MerchantBinding where
  publicKey := words.toHex m.publicKey
  address := address m.address
  name := m.name
  disabled := m.disabled

variable [DecidableEq B]

/-- A snapshot of a backup that `restoreBackup` accepts. -/
structure Restored (S : Client.Snapshot B) : Prop where
  backup : ∃ (T : Type) (release : Client.Release)
    (chain : Client.Address → Option (Line.Ledger B))
    (operations : Client.Address → Client.Operations) (r : Client.Record B T),
    Client.restorable release chain operations r = true ∧ S ∈ r.snapshots

/-- The profiles that the client makes or stores. -/
inductive MerchantKept (bech32m : Bech32m) (words : Hex B) : MerchantBinding → Prop
  | profile {publicKey address name bytes} : isHex64 publicKey = true →
      receivingAddressBytes bech32m address = .ok bytes →
      MerchantKept bech32m words (merchantProfile publicKey address name)
  /-- What `createFacility` and `registerMerchant` are called with. -/
  | received {text m} : decodeMerchant bech32m text = .ok m → MerchantKept bech32m words m
  | disabled {m} : MerchantKept bech32m words m →
      MerchantKept bech32m words { m with disabled := some true }
  | restored {S f m address} : Restored S → f ∈ S.facilities → m ∈ f.merchants →
      restorableMerchant bech32m (merchantText words address m) = true →
      MerchantKept bech32m words (merchantText words address m)

/-- The quotes that the client makes or stores. -/
inductive QuoteKept (words : Hex B) : OrganizationQuote → Prop
  | posted {h s s' w now expiry address} : Line.Reaches .organization h s →
      Line.Step .organization ⟨.postQuote expiry, w, now⟩ s s' → isHex64 address = true →
      QuoteKept words (postedQuote words address w expiry s)
  | received {text q} : decodeQuote text = .ok q → QuoteKept words q
  | restored {S q} : Restored S → q ∈ S.quotes → restorableQuote (quoteText words q) = true →
      QuoteKept words (quoteText words q)

/-- The notes that the client makes or stores, with what it marks on them. -/
inductive NoteKept (words : Hex B) : OrganizationNote → Prop
  | purchased {h s s' w now Q expiry fee address} : Line.Reaches .organization h s →
      Line.Step .organization ⟨.draw Q expiry fee, w, now⟩ s s' → isHex64 address = true →
      NoteKept words (purchasedNote words address w Q expiry fee s)
  | received {text n} : decodeNote text = .ok n → NoteKept words n
  | marked {n redeemed expiryRecorded refund} : NoteKept words n →
      NoteKept words { n with redeemed, expiryRecorded, refund }
  | restored {S n} : Restored S → n ∈ S.notes → restorableNote (noteText words n) = true →
      NoteKept words (noteText words n)

/-! ### What is kept is sound -/

theorem isUint_val (a : Line.U64) : IsUint a.val := by
  have h := a.isLt
  unfold IsUint UINT64_MAX
  omega

theorem isUint_iff {z : ℤ} : isUint z = true ↔ IsUint z := by
  rw [isUint, Bool.and_eq_true, decide_eq_true_eq, decide_eq_true_eq]
  rfl

/-- The client's own profile has a name that can be sent. -/
theorem merchantProfile_named (publicKey address name : Utf16) :
    (merchantProfile publicKey address name).Named := by
  rw [MerchantBinding.Named, merchantProfile]
  simp only
  split
  · decide
  · next hne =>
    refine ⟨?_, List.length_take_le 80 _⟩
    cases hs : trim name with
    | nil =>
      rw [hs] at hne
      exact absurd rfl hne
    | cons c cs =>
      rw [List.take_succ_cons, ne_eq, trim_eq_nil_iff]
      intro hall
      have hc := hall c List.mem_cons_self
      rw [trim_head hs] at hc
      cases hc

/-- A kept profile is sound up to a blank name. -/
theorem MerchantKept.sound {words : Hex B} {m : MerchantBinding}
    (h : MerchantKept bech32m words m) (hname : trim m.name ≠ []) : m.Sound bech32m := by
  induction h with
  | profile hkey haddress => exact ⟨merchantProfile_named _ _ _, hkey, _, haddress⟩
  | received hdecode => exact (decodeMerchant_sound hdecode).1
  | disabled _ ih =>
    obtain ⟨hnamed, hkey, haddress⟩ := ih hname
    exact ⟨hnamed, hkey, haddress⟩
  | @restored S f m address _ _ _ hrestored =>
    simp only [restorableMerchant, Bool.and_eq_true, decide_eq_true_eq] at hrestored
    obtain ⟨⟨⟨⟨⟨hkey, -⟩, -⟩, haddress⟩, -⟩, hlength⟩ := hrestored
    refine ⟨⟨hname, hlength⟩, hkey, ?_⟩
    cases hbytes : receivingAddressBytes bech32m (merchantText words address m).address with
    | ok bytes => exact ⟨bytes, rfl⟩
    | error reason =>
      rw [hbytes] at haddress
      cases haddress

/-- A posted quote is of a generation, which is not the first number. -/
theorem posted_positive {p : Line.Profile} {h : Line.Trace B} {s : Line.Ledger B}
    (r : Line.Reaches p h s) (ho : s.status = .OPEN) : 0 < s.lineGeneration.val := by
  by_contra h0
  have hnone := r.status_none_iff.mpr (by omega)
  rw [ho] at hnone
  cases hnone

theorem postedQuote_sound {words : Hex B} {address : Utf16} {w : Line.Witness B}
    {expiry : Line.U64} {now : ℕ} {p : Line.Profile} {h : Line.Trace B} {s s' : Line.Ledger B}
    (r : Line.Reaches p h s) (st : Line.Step p ⟨.postQuote expiry, w, now⟩ s s')
    (ha : isHex64 address = true) : (postedQuote words address w expiry s).Sound := by
  cases st with
  | postQuote guard =>
    have hgeneration := posted_positive r guard.status
    have hamount := guard.positive
    have hexpiry := guard.deadline
    have hbps := r.feeBps_le
    exact {
      contractAddress := ha
      domain := words.isHex64_toHex _
      merchantPk := words.isHex64_toHex _
      invoiceId := words.isHex64_toHex _
      quoteNonce := words.isHex64_toHex _
      amount := ⟨isUint_val _, Int.natCast_pos.mpr hamount⟩
      expiry := ⟨isUint_val _, Int.natCast_pos.mpr (Nat.zero_lt_of_lt hexpiry)⟩
      generation := ⟨isUint_val _, Int.natCast_pos.mpr hgeneration⟩
      feeFlat := isUint_val _
      feeBps := ⟨isUint_val _, Int.ofNat_le.mpr hbps⟩
      quoteCommitment := words.isHex64_toHex _ }

theorem purchasedNote_sound {words : Hex B} {address : Utf16} {w : Line.Witness B} {Q : B}
    {expiry fee : Line.U64} {now : ℕ} {p : Line.Profile} {h : Line.Trace B} {s s' : Line.Ledger B}
    (r : Line.Reaches p h s) (st : Line.Step p ⟨.draw Q expiry fee, w, now⟩ s s')
    (ha : isHex64 address = true) : (purchasedNote words address w Q expiry fee s).Sound := by
  cases st with
  | draw guard =>
    have hgeneration := posted_positive r guard.status
    have hamount := guard.positive
    have hexpiry := guard.quoteLive
    rw [← guard.terms] at hexpiry
    exact {
      contractAddress := ha
      domain := words.isHex64_toHex _
      identity := words.isHex64_toHex _
      merchantPk := words.isHex64_toHex _
      quoteCommitment := words.isHex64_toHex _
      amount := ⟨isUint_val _, Int.natCast_pos.mpr hamount⟩
      fee := isUint_val _
      expiry := ⟨isUint_val _, Int.natCast_pos.mpr (by omega)⟩
      generation := ⟨isUint_val _, Int.natCast_pos.mpr hgeneration⟩
      noteNonce := words.isHex64_toHex _
      noteSalt := words.isHex64_toHex _
      noteCommitment := words.isHex64_toHex _ }

/-- **The entries of a contract are of draws**, so their terms are positive. -/
theorem entry_positive {p : Line.Profile} {h : Line.Trace B} {s : Line.Ledger B} {D : B}
    {m : Line.NoteMeta B} (r : Line.Reaches p h s) (hm : s.notes.lookup D = some m) :
    0 < m.expiry.val ∧ 0 < m.lineGeneration.val := by
  obtain ⟨_, _, e, Q, q, -, r₁, -, -, guard, -, -, hgeneration, -⟩ := r.drawn hm
  have hexpiry := guard.quoteLive
  rw [← guard.terms] at hexpiry
  rw [hgeneration]
  exact ⟨by omega, posted_positive r₁ guard.status⟩

/-- A quote that the backup's check passes is sound up to its expiry and its generation. -/
theorem restorableQuote_sound {q : OrganizationQuote} (h : restorableQuote q = true)
    (hx : 0 < q.expiry) (hg : 0 < q.generation) : q.Sound := by
  simp only [restorableQuote, Bool.and_eq_true, List.all_cons, List.all_nil, decide_eq_true_eq,
    isUint_iff] at h
  obtain ⟨⟨⟨⟨h₁, h₂, h₃, h₄, h₅, h₆, -⟩, ha, hx', hg', hf, hb, -⟩, hpos⟩, hrate⟩ := h
  exact ⟨h₁, h₂, h₃, h₄, h₅, ⟨ha, hpos⟩, ⟨hx', hx⟩, ⟨hg', hg⟩, hf, ⟨hb, hrate⟩, h₆⟩

theorem restorableNote_sound {n : OrganizationNote} (h : restorableNote n = true)
    (hx : 0 < n.expiry) (hg : 0 < n.generation) : n.Sound := by
  simp only [restorableNote, Bool.and_eq_true, List.all_cons, List.all_nil, decide_eq_true_eq,
    isUint_iff] at h
  obtain ⟨⟨⟨⟨⟨h₁, h₂, h₃, h₄, h₅, h₆, h₇, h₈, -⟩, ha, hf, hx', hg', -⟩, hpos⟩, -⟩, -⟩ := h
  exact ⟨h₁, h₂, h₃, h₄, h₅, ⟨ha, hpos⟩, hf, ⟨hx', hx⟩, ⟨hg', hg⟩, h₆, h₇, h₈⟩

/-- A kept quote is sound up to its expiry and its generation. -/
theorem QuoteKept.sound {words : Hex B} {q : OrganizationQuote} (h : QuoteKept words q)
    (hx : 0 < q.expiry) (hg : 0 < q.generation) : q.Sound := by
  cases h with
  | posted r st ha => exact postedQuote_sound r st ha
  | received hdecode => exact decodeQuote_sound hdecode
  | restored _ _ hrestored => exact restorableQuote_sound hrestored hx hg

theorem NoteKept.sound {words : Hex B} {n : OrganizationNote} (h : NoteKept words n)
    (hx : 0 < n.expiry) (hg : 0 < n.generation) : n.Sound := by
  induction h with
  | purchased r st ha => exact purchasedNote_sound r st ha
  | received hdecode => exact (decodeNote_sound hdecode).1
  | marked _ ih =>
    obtain ⟨h₁, h₂, h₃, h₄, h₅, h₆, h₇, h₈, h₉, h₁₀, h₁₁, h₁₂⟩ := ih hx hg
    exact ⟨h₁, h₂, h₃, h₄, h₅, h₆, h₇, h₈, h₉, h₁₀, h₁₁, h₁₂⟩
  | restored _ _ hrestored => exact restorableNote_sound hrestored hx hg

/-- Without an operation under way, each note of a backup agrees with the contract it names. -/
theorem agrees_of_restorable {T : Type} {release : Client.Release}
    {chain : Client.Address → Option (Line.Ledger B)}
    {operations : Client.Address → Client.Operations} {r : Client.Record B T} {n : Client.Note B}
    (hr : Client.restorable release chain operations r = true) (hp : r.pending = none)
    (hn : n ∈ r.snapshot.notes) :
    ∃ book, chain n.contractAddress = some book ∧ n.Agrees book := by
  have hsnapshots : r.snapshots = [r.snapshot] := by
    rw [Client.Record.snapshots, hp]
    rfl
  have hmem : n.contractAddress ∈ r.addresses := by
    rw [Client.Record.addresses, hsnapshots]
    refine List.mem_append_right _ (List.mem_map_of_mem ?_)
    rw [List.flatMap_cons, List.flatMap_nil, List.append_nil]
    exact hn
  rw [Client.restorable, Bool.and_eq_true] at hr
  have haddress := List.all_eq_true.mp hr.2 _ hmem
  cases hbook : chain n.contractAddress with
  | none =>
    rw [hbook, hp] at haddress
    cases haddress
  | some book =>
    rw [hbook, hsnapshots] at haddress
    simp only [List.any_cons, List.any_nil, Bool.or_false, Bool.and_eq_true] at haddress
    obtain ⟨-, -, hnotes⟩ := haddress
    have hat : n ∈ r.snapshot.notesAt n.contractAddress :=
      List.mem_filter.mpr ⟨hn, decide_eq_true rfl⟩
    exact ⟨book, rfl, Client.matchesRestoredNote_iff.mp (List.all_eq_true.mp hnotes _ hat)⟩

/--
**Transfer packages round trip.** A profile that the client makes or stores comes out of its package
exactly if its name is not blank, and a quote or a note if its expiry and its generation are
positive. The client's own profile, what was posted or purchased on the chain and what was received
have that, and so have the notes of a backup without an operation under way. Whatever a decoder
accepts survives another round.
-/
theorem transfers_round_trip (bech32m : Bech32m) (words : Hex B) :
    (∀ m, MerchantKept bech32m words m →
      (decodeMerchant bech32m (encodeMerchant m) = .ok m.shared ↔ trim m.name ≠ [])) ∧
    (∀ q, QuoteKept words q →
      (decodeQuote (encodeQuote q) = .ok q ↔ 0 < q.expiry ∧ 0 < q.generation)) ∧
    (∀ n, NoteKept words n →
      (decodeNote (encodeNote n) = .ok n.shared ↔ 0 < n.expiry ∧ 0 < n.generation)) ∧
    (∀ publicKey address name, trim (merchantProfile publicKey address name).name ≠ []) ∧
    (∀ h s s' w now expiry address, Line.Reaches .organization h s →
      Line.Step .organization ⟨.postQuote expiry, w, now⟩ s s' → isHex64 address = true →
      decodeQuote (encodeQuote (postedQuote words address w expiry s)) =
        .ok (postedQuote words address w expiry s)) ∧
    (∀ h s s' w now Q expiry fee address, Line.Reaches .organization h s →
      Line.Step .organization ⟨.draw Q expiry fee, w, now⟩ s s' → isHex64 address = true →
      decodeNote (encodeNote (purchasedNote words address w Q expiry fee s)) =
        .ok (purchasedNote words address w Q expiry fee s)) ∧
    (∀ (T : Type) release chain operations (r : Client.Record B T) n,
      Client.restorable release chain operations r = true → r.pending = none →
      (∀ a book, chain a = some book → ∃ h, Line.Reaches .organization h book) →
      n ∈ r.snapshot.notes → restorableNote (noteText words n) = true →
      decodeNote (encodeNote (noteText words n)) = .ok (noteText words n).shared) ∧
    ∀ text, (∀ m, decodeMerchant bech32m text = .ok m →
        decodeMerchant bech32m (encodeMerchant m) = .ok m) ∧
      (∀ q, decodeQuote text = .ok q → decodeQuote (encodeQuote q) = .ok q) ∧
      ∀ n, decodeNote text = .ok n → decodeNote (encodeNote n) = .ok n := by
  refine ⟨?_, ?_, ?_, fun _ _ _ => (merchantProfile_named _ _ _).1, ?_, ?_, ?_, ?_⟩
  · intro m hm
    constructor
    · intro hdecode
      exact (decodeMerchant_sound hdecode).1.named.1
    · intro hname
      exact decodeMerchant_encodeMerchant (hm.sound hname)
  · intro q hq
    constructor
    · intro hdecode
      have hsound := decodeQuote_sound hdecode
      exact ⟨hsound.expiry.2, hsound.generation.2⟩
    · rintro ⟨hx, hg⟩
      exact decodeQuote_encodeQuote (hq.sound hx hg)
  · intro n hn
    constructor
    · intro hdecode
      have hsound := (decodeNote_sound hdecode).1
      exact ⟨hsound.expiry.2, hsound.generation.2⟩
    · rintro ⟨hx, hg⟩
      exact decodeNote_encodeNote (hn.sound hx hg)
  · intro h s s' w now expiry address r st ha
    exact decodeQuote_encodeQuote (postedQuote_sound r st ha)
  · intro h s s' w now Q expiry fee address r st ha
    exact decodeNote_encodeNote (purchasedNote_sound r st ha)
  · intro T release chain operations r n hr hp hchain hn hrow
    -- the entry it agrees with is of a draw
    obtain ⟨book, hbook, -, -, m, hm, hfits⟩ := agrees_of_restorable hr hp hn
    obtain ⟨h, hreaches⟩ := hchain _ _ hbook
    obtain ⟨hx, hg⟩ := entry_positive hreaches hm
    refine decodeNote_encodeNote (restorableNote_sound hrow ?_ ?_)
    · show 0 < n.expiry
      rw [← hfits.expiry]
      exact_mod_cast hx
    · show 0 < n.generation
      rw [← hfits.generation]
      exact_mod_cast hg
  · intro text
    refine ⟨?_, ?_, ?_⟩
    · intro m hdecode
      obtain ⟨hsound, hshared⟩ := decodeMerchant_sound hdecode
      rw [decodeMerchant_encodeMerchant hsound, hshared]
    · intro q hdecode
      exact decodeQuote_encodeQuote (decodeQuote_sound hdecode)
    · intro n hdecode
      obtain ⟨hsound, hshared⟩ := decodeNote_sound hdecode
      rw [decodeNote_encodeNote hsound, hshared]

/-! ### A backup -/

def sampleAddress : Utf16 :=
  ascii "mn_addr_preprod1psxqcrqvpsxqcrqvpsxqcrqvpsxqcrqvpsxqcrqvpsxqcrqvpsxqd5rp3a"

/-- The one address that is looked at. -/
def sampleBech32m : Bech32m where
  decodeToBytes s :=
    if s = sampleAddress then some (ascii "mn_addr_preprod", List.replicate 32 12) else none
  length_decodeToBytes := by
    intro s part bytes h
    split at h
    · next hs =>
      cases h
      rw [hs]
      decide
    · cases h

def zeroWords : Hex Line.Term where
  toHex _ := List.replicate 64 48
  isHex64_toHex _ := by decide

namespace Sample

/-- A supplier of this name. -/
def merchant (name : Utf16) : Client.MerchantBinding Line.Term where
  publicKey := .atom 3
  address := ⟨.atom 4⟩
  name
  disabled := none

/-- A quote with this deadline. -/
def quote (expiry : ℤ) : Client.Quote Line.Term where
  contractAddress := List.replicate 64 48
  domain := .atom 5
  merchantPk := .atom 3
  invoiceId := .atom 6
  quoteNonce := .atom 7
  amount := 40
  expiry
  generation := 1
  feeFlat := 1
  feeBps := 100
  quoteCommitment := .atom 8

/-- A workspace with a facility that was never deployed, the supplier and the quote. -/
def backup (name : Utf16) (expiry : ℤ) : Client.Record Line.Term Unit where
  snapshot := {
    issuerSecret := .atom 0
    merchantSecret := .atom 1
    facilities := [{
      id := "f", name := [70], address := none, instanceNonce := .atom 2, maintenanceKey := ""
      assetColor := .atom 9, issuerRecipient := ⟨.atom 10⟩, merchants := [merchant name]
      agentSecret := .atom 11, salt := .atom 12, limit := 0, outstanding := 0, epoch := 0
      generation := 0 }]
    quotes := [quote expiry]
    notes := []
    receipts := []
    serviceOrders := none
    failures := none }
  pending := none

def release : Client.Release where
  sourceFingerprint := ""
  verifierKey _ := []

theorem restored (name : Utf16) (expiry : ℤ) : Restored (backup name expiry).snapshot :=
  ⟨Unit, release, fun _ => none, fun _ => .empty, backup name expiry, rfl, List.mem_cons_self⟩

theorem merchant_kept {name : Utf16}
    (hname : (!name.isEmpty && decide (name.length ≤ 80)) = true) :
    MerchantKept sampleBech32m zeroWords
      (merchantText zeroWords (fun _ => sampleAddress) (merchant name)) := by
  refine .restored (restored name 0) List.mem_cons_self List.mem_cons_self ?_
  have haddress : (receivingAddressBytes sampleBech32m sampleAddress).isOk = true := by
    rw [receivingAddressBytes, sampleBech32m]
    rfl
  have hkey : isHex64 (List.replicate 64 48) = true := by decide
  have hlength : (!sampleAddress.isEmpty && decide (sampleAddress.length ≤ 200)) = true := by decide
  simp only [restorableMerchant, merchantText, zeroWords, merchant, hkey, haddress,
    Bool.and_eq_true] at hname hlength ⊢
  exact ⟨⟨⟨⟨⟨trivial, hlength.1⟩, hlength.2⟩, trivial⟩, hname.1⟩, hname.2⟩

theorem quote_kept {expiry : ℤ} (hx : isUint expiry = true) :
    QuoteKept zeroWords (quoteText zeroWords (quote expiry)) := by
  refine .restored (restored [] expiry) List.mem_cons_self ?_
  have hkey : isHex64 (List.replicate 64 48) = true := by decide
  simp only [restorableQuote, quoteText, quote, zeroWords, List.all_cons, List.all_nil, hkey, hx,
    Bool.and_true, Bool.true_and]
  rfl

end Sample

theorem transfers_round_trip_sample :
    decodeMerchant sampleBech32m (encodeMerchant (merchantText zeroWords (fun _ => sampleAddress)
      (Sample.merchant (ascii "Independent supplier")))) =
      .ok (merchantText zeroWords (fun _ => sampleAddress)
        (Sample.merchant (ascii "Independent supplier"))) ∧
    decodeQuote (encodeQuote (quoteText zeroWords (Sample.quote 100))) =
      .ok (quoteText zeroWords (Sample.quote 100)) := by
  obtain ⟨hmerchants, hquotes, -⟩ := transfers_round_trip sampleBech32m zeroWords
  constructor
  · refine (hmerchants _ (Sample.merchant_kept ?_)).mpr ?_
    · decide
    · decide +kernel
  · exact (hquotes _ (Sample.quote_kept rfl)).mpr ⟨by decide, by decide⟩

/-- A backup with a supplier of a blank name, and with a quote without deadline, is restored; the
packages of both are refused. -/
theorem transfers_round_trip_fails :
    Client.restorable Sample.release (fun _ => none) (fun _ => .empty)
      (Sample.backup [32] 0) = true ∧
    MerchantKept sampleBech32m zeroWords
      (merchantText zeroWords (fun _ => sampleAddress) (Sample.merchant [32])) ∧
    decodeMerchant sampleBech32m (encodeMerchant (merchantText zeroWords
      (fun _ => sampleAddress) (Sample.merchant [32]))) ≠
        .ok (merchantText zeroWords (fun _ => sampleAddress) (Sample.merchant [32])) ∧
    QuoteKept zeroWords (quoteText zeroWords (Sample.quote 0)) ∧
    decodeQuote (encodeQuote (quoteText zeroWords (Sample.quote 0))) ≠
      .ok (quoteText zeroWords (Sample.quote 0)) := by
  refine ⟨rfl, Sample.merchant_kept rfl, fun hdecode => ?_, Sample.quote_kept rfl,
    fun hdecode => ?_⟩
  · exact (decodeMerchant_sound hdecode).1.named.1 (by decide)
  · exact absurd (decodeQuote_sound hdecode).expiry.2 (by decide)

end Line.Organization
