import Line.Client.Kept

/-!
# What an operation promises

An operation is prepared long before its transaction is applied, if it ever is, and other people
act in between. So what is shown of a plan is a promise (`Promises`): on every chain that the
current snapshot agrees with, applying the transaction leads to one that the candidate agrees with.
`planned` makes that promise for every request.

The promise quantifies over all chains, because what happens in between is not known; that each
chain on the way agrees with the snapshot is a matter of what strangers cannot do, and shown
elsewhere. A plan also says that its candidate names no contract without one that is there, so
that the candidate can be looked up even while it waits.
-/

namespace Line.Client

open Checked
open Organization (isHex64 require_ok_iff)

variable {B : Type} [DecidableEq B] [Compact B]

/-! ## Promises -/

/-- A transaction is applied, at an address. -/
inductive Lands (now : ℕ) (a : Address) : Transaction B → Chain B → Chain B → Prop
  | deploy {chain d} : chain a = none →
      Lands now a (.deploy d) chain (Function.update chain a (some (constructor .organization d)))
  | key {chain circuit} : Lands now a (.key circuit) chain chain
  | call {chain op w L L'} : chain a = some L → Calls .organization ⟨op, w, now⟩ L L' →
      Lands now a (.call op w) chain (Function.update chain a (some L'))

/-- The candidate takes the place of the snapshot when the transaction is applied. -/
structure Promises (S after : Snapshot B) (tx : Transaction B) (a : Address) : Prop where
  secret : after.issuerSecret = S.issuerSecret
  has : ∀ b, S.Has b → after.Has b
  lands : ∀ chain chain' now, Sound chain S → Genuine chain S → Lands now a tx chain chain' →
    Sound chain' after ∧ Genuine chain' after

/-- `operation`: what is saved of a plan before anything is sent. -/
def Plan.pending (p : Plan B) (id sourceFingerprint : String) : Pending B (Transaction B) where
  id
  kind := p.kind
  circuit := p.circuit
  facilityId := p.facilityId
  contractAddress := p.address
  sourceFingerprint
  after := p.after
  txId := none
  transaction := none

/-- What holds of a plan when it is made. -/
structure Planned (chain : Chain B) (S : Snapshot B) (p : Plan B) : Prop where
  has : ∀ a, p.after.Has a → S.Has a
  /-- Notes are of contracts that are there. -/
  notes : ∀ n ∈ p.after.notes, ∃ L, chain n.contractAddress = some L
  keeps : ∀ id sourceFingerprint tx a after, p.intent.Signs tx → isHex64 a = true →
    (∀ b, p.address = some b → b = a) →
    (p.pending id sourceFingerprint).deployedAt a = .ok after → Promises S after tx a

/-- Wherever the call succeeds, the candidate agrees with what it leaves. -/
def Follows (S after : Snapshot B) (op : Op B) (w : Witness B) (a : Address) : Prop :=
  ∀ chain h L L' now, Sound chain S → Genuine chain S → chain a = some L →
    Reaches .organization h L → Line.Step .organization ⟨op, w, now⟩ L L' →
    Sound (Function.update chain a (some L')) after

section Calls

variable {chain : Chain B} {S after : Snapshot B} {a : Address} {L L' : Ledger B} {c : Call B}
  {h : Trace B} {op : Op B} {input : Input B}

theorem Genuine.moved (hg : Genuine chain S) (hL : chain a = some L)
    (st : Line.Step .organization c L L') (hsecret : after.issuerSecret = S.issuerSecret)
    (hhas : ∀ b, S.Has b → after.Has b)
    (hkept : L.issuer = issuerPublicKey S.issuerSecret →
      S.Has a ∨ L'.lineGeneration = L.lineGeneration) :
    Genuine (Function.update chain a (some L')) after := by
  -- one contract moved, and all others are as they were
  have hat : ∀ b M, Function.update chain a (some L') b = some M →
      b = a ∧ M = L' ∨ b ≠ a ∧ chain b = some M := by
    intro b M hM
    by_cases hb : b = a
    · subst hb
      rw [Function.update_self] at hM
      exact .inl ⟨rfl, (Option.some.inj hM).symm⟩
    · rw [Function.update_of_ne hb] at hM
      exact .inr ⟨hb, hM⟩
  -- the address is one of a contract still, and the ledger is one call further
  refine ⟨fun b M hM => ?_, fun b M hM => ?_, fun b M hM hissuer => ?_⟩
  · rcases hat b M hM with ⟨rfl, -⟩ | ⟨-, hM⟩
    · exact hg.address _ _ hL
    · exact hg.address _ _ hM
  · rcases hat b M hM with ⟨-, rfl⟩ | ⟨-, hM⟩
    · obtain ⟨h, r⟩ := hg.reached _ _ hL
      exact ⟨_, .next r (calls_iff.mpr st)⟩
    · exact hg.reached _ _ hM
  · rw [hsecret] at hissuer
    rcases hat b M hM with ⟨rfl, rfl⟩ | ⟨-, hM⟩
    -- the issuer key is fixed, so a contract of ours was ours before
    · rw [st.sameInstance.issuer] at hissuer
      rcases hkept hissuer with hours | hgeneration
      · exact .inl (hhas _ hours)
      · rw [hgeneration]
        exact (hg.ours _ _ hL hissuer).imp_left (hhas _)
    · exact (hg.ours _ _ hM hissuer).imp_left (hhas _)

/-- A call that opens no line of somebody else. -/
theorem Promises.called {w : Witness B} (hsecret : after.issuerSecret = S.issuerSecret)
    (hhas : ∀ b, S.Has b → after.Has b) (hopens : S.Has a ∨ op.opens = false)
    (hfollows : Follows S after op w a) : Promises S after (.call op w) a := by
  refine ⟨hsecret, hhas, ?_⟩
  intro chain chain' now hs hg hlands
  cases hlands with
  | call hL hcall =>
    rename_i L L'
    have st := calls_iff.mp hcall
    obtain ⟨h, r⟩ := hg.reached _ _ hL
    refine ⟨hfollows chain h L L' now hs hg hL r st, hg.moved hL st hsecret hhas fun _ => ?_⟩
    refine hopens.imp_right fun hop => ?_
    rcases st.line with ⟨g, x, f, b, ho⟩ | ⟨-, hl⟩
    · have hopen := ho.opens
      rw [hop] at hopen
      cases hopen
    · exact hl.lineGeneration

theorem Planned.called {circuit : String} {facilityId : Option String}
    (hsecret : after.issuerSecret = S.issuerSecret) (hhas : ∀ b, after.Has b ↔ S.Has b)
    (hnotes : ∀ n ∈ after.notes, ∃ L, chain n.contractAddress = some L)
    (hopens : S.Has a ∨ op.opens = false)
    (hfollows : ∀ w, input.Proves w → Follows S after op w a) :
    Planned chain S (.call circuit facilityId a after op input) := by
  refine ⟨fun b => (hhas b).mp, hnotes, ?_⟩
  intro id fingerprint tx b after' hsigns hhex haddress hafter
  obtain rfl := haddress a rfl
  obtain rfl := Except.ok.inj hafter
  cases hsigns with
  | call hproves => exact .called hsecret (fun b => (hhas b).mpr) hopens (hfollows _ hproves)

end Calls

/-! ## What a request finds -/

section Requests

variable {env : Env B} {S : Snapshot B} {p : Plan B} {id : String} {f : Facility B} {a : Address}
  {L : Ledger B}

omit [DecidableEq B] [Compact B] in
theorem facility_ok_iff :
    facility S id = .ok (f, a) ↔ S.findFacility id = some f ∧ f.address = some a := by
  simp only [facility, bind_ok_iff, found_ok_iff, pure_ok_iff, Prod.mk.injEq]
  constructor
  · rintro ⟨f', hf, a', ha, rfl, rfl⟩
    exact ⟨hf, ha⟩
  · rintro ⟨hf, ha⟩
    exact ⟨f, hf, a, ha, rfl, rfl⟩

theorem inspect_ok {all : Bool} (h : inspect env S a all = .ok L) :
    isHex64 a = true ∧ env.chain a = some L := by
  simp only [inspect, bind_ok_iff, found_ok_iff, require_ok_iff, pure_ok_iff] at h
  obtain ⟨-, hhex, L', hL, -, -, -, -, rfl⟩ := h
  exact ⟨hhex, hL⟩

omit [DecidableEq B] [Compact B] in
/-- A facility that is found is ours. -/
theorem has_of_find (hfind : S.findFacility id = some f) (ha : f.address = some a) : S.Has a :=
  ⟨f, (Records.mem_of_find hfind).1, ha⟩

omit [DecidableEq B] [Compact B] in
theorem has_set {g : Facility B → Facility B} (hg : ∀ f, (g f).core = f.core) :
    (S.setFacility id g).Has a ↔ S.Has a :=
  ⟨Snapshot.Has.of_cores (cores_set hg).symm, Snapshot.Has.of_cores (cores_set hg)⟩

theorem Sound.notes_there {chain : Chain B} (hs : Sound chain S) :
    ∀ n ∈ S.notes, ∃ L, chain n.contractAddress = some L := by
  intro n hn
  obtain ⟨L, hL, -⟩ := hs.notes n hn
  exact ⟨L, hL⟩

/-! ## Requests that leave the book alone -/

theorem registerVerifierKey_planned {circuit : Circuit} (hs : Sound env.chain S)
    (h : registerVerifierKey env S id circuit = .ok (some p)) : Planned env.chain S p := by
  simp only [registerVerifierKey, bind_ok_iff] at h
  obtain ⟨⟨f, a⟩, hfacility, L, hinspect, h⟩ := h
  split at h
  · cases h
  obtain rfl := Option.some.inj (Except.ok.inj h)
  refine ⟨fun b hb => hb, hs.notes_there, ?_⟩
  intro id fingerprint tx b after hsigns hhex haddress hafter
  obtain rfl := Except.ok.inj hafter
  cases hsigns
  refine ⟨rfl, fun b hb => hb, ?_⟩
  intro chain chain' now hs hg hlands
  cases hlands
  exact ⟨hs, hg⟩

theorem reserve_planned {action : ReserveAction} {amount : ℤ} (hs : Sound env.chain S)
    (h : reserve env S id action amount = .ok p) : Planned env.chain S p := by
  simp only [reserve, bind_ok_iff, pure_ok_iff] at h
  obtain ⟨⟨f, a⟩, hfacility, L, hinspect, u, hu, rfl⟩ := h
  obtain ⟨hfind, ha⟩ := facility_ok_iff.mp hfacility
  refine .called rfl (fun b => Iff.rfl) hs.notes_there (.inl (has_of_find hfind ha)) ?_
  intro w hw chain h L L' now hs hg hL r st
  refine hs.kept hL r st ?_ ?_ rfl rfl rfl
  · cases action <;> cases st <;> exact ⟨rfl, rfl, rfl⟩
  · intro D mode hmode
    cases action <;> rfl

theorem status_planned {next : Status} (hs : Sound env.chain S)
    (h : status env S id next = .ok p) : Planned env.chain S p := by
  simp only [status, bind_ok_iff, require_ok_iff, pure_ok_iff] at h
  obtain ⟨⟨f, a⟩, hfacility, L, hinspect, -, -, rfl⟩ := h
  obtain ⟨hfind, ha⟩ := facility_ok_iff.mp hfacility
  refine .called rfl (fun b => Iff.rfl) hs.notes_there (.inl (has_of_find hfind ha)) ?_
  intro w hw chain h L L' now hs hg hL r st
  refine hs.kept hL r st ?_ (fun D mode hmode => rfl) rfl rfl rfl
  cases st
  exact ⟨rfl, rfl, rfl⟩

theorem postQuote_planned {invoiceId nonce : B} {amount expiry : ℤ} (hs : Sound env.chain S)
    (h : postQuote env S a invoiceId amount expiry nonce = .ok p) : Planned env.chain S p := by
  simp only [postQuote, bind_ok_iff, require_ok_iff, pure_ok_iff] at h
  obtain ⟨L, hinspect, -, -, -, -, Q, hQ, u, hu, rfl⟩ := h
  refine .called rfl (fun b => Iff.rfl) hs.notes_there (.inr rfl) ?_
  intro w hw chain h L L' now hs hg hL r st
  refine hs.kept hL r st ?_ (fun D mode hmode => rfl) rfl rfl rfl
  cases st
  exact ⟨rfl, rfl, rfl⟩

/-! ## Requests that move the book -/

/-- The requests that change one facility, at its contract. -/
theorem Planned.facility {circuit : String} {op : Op B} {input : Input B}
    {g : Facility B → Facility B} (hs : Sound env.chain S) (hfind : S.findFacility id = some f)
    (ha : f.address = some a) (hg : ∀ f, (g f).core = f.core)
    (hc : ∀ D mode, 0 < mode → op.cancels D mode = false)
    (hagree : ∀ w now L L', input.Proves w → Line.Step .organization ⟨op, w, now⟩ L L' →
      f.Agrees S.issuerSecret L → (g f).Agrees S.issuerSecret L') :
    Planned env.chain S (.call circuit (some id) a (S.setFacility id g) op input) := by
  refine .called rfl (fun b => has_set hg) hs.notes_there (.inl (has_of_find hfind ha)) ?_
  intro w hw chain h L L' now hs hg' hL r st
  exact hs.setFacility hL r st hc hfind ha hg (hagree w now L L' hw st)

theorem openAllowance_planned {limit expiry flatFee basisPoints : ℤ} {salt : B}
    (hs : Sound env.chain S)
    (h : openAllowance env S id limit expiry flatFee basisPoints salt = .ok p) :
    Planned env.chain S p := by
  simp only [openAllowance, bind_ok_iff, require_ok_iff, pure_ok_iff] at h
  obtain ⟨-, -, ⟨f, a⟩, hfacility, book, hinspect, -, -, x, hx, flat, hflat, bps, hbps, rfl⟩ := h
  obtain ⟨hfind, ha⟩ := facility_ok_iff.mp hfacility
  have hbook := hs.agrees (Records.mem_of_find hfind).1 ha (inspect_ok hinspect).2
  refine .facility hs hfind ha (fun f => rfl) (fun D mode hmode => rfl) ?_
  intro w now L L' hw st hf
  -- the generation that was read is still the current one
  have hnow : L.lineGeneration.val = book.lineGeneration.val := by
    have h₁ := hf.generation
    have h₂ := hbook.generation
    omega
  cases st with
  | openLine g hgeneration =>
    rename_i next
    refine ⟨hf.issuer, hf.domain, hf.recipient, hf.color, ?_, fun h0 => ?_, fun h0 => ⟨?_, ?_⟩⟩
    · show (next.val : ℤ) = (book.lineGeneration.val : ℤ) + 1
      omega
    · replace h0 : (book.lineGeneration.val : ℤ) + 1 = 0 := h0
      omega
    · show agentId (w.agentSecret 0) = _
      rw [hw.agentSecret _ rfl 0]
    · refine ⟨w.lineLimit 0, .zero 64, .zero 64, hw.lineLimit _ rfl 0, rfl, rfl, ?_⟩
      show lineStateCommit _ salt = lineStateCommit _ (w.salt 0)
      rw [hw.salt _ rfl 0, hw.agentSecret _ rfl 0]

theorem replenish_planned {amount : ℤ} {salt paymentRef receiptNonce : B} (hs : Sound env.chain S)
    (h : replenish env S id amount salt paymentRef receiptNonce = .ok p) :
    Planned env.chain S p := by
  simp only [replenish, bind_ok_iff, require_ok_iff, pure_ok_iff] at h
  obtain ⟨⟨f, a⟩, hfacility, book, hinspect, -, -, u, hu, rfl⟩ := h
  obtain ⟨hfind, ha⟩ := facility_ok_iff.mp hfacility
  refine .facility hs hfind ha (fun f => rfl) (fun D mode hmode => rfl) ?_
  intro w now L L' hw st hf
  have hlimit : ((w.lineLimit 0).val : ℤ) = f.limit := hw.lineLimit _ rfl 0
  have houtstanding : ((w.lineOutstanding 0).val : ℤ) = f.outstanding := hw.lineOutstanding _ rfl 0
  have hepoch : ((w.lineEpoch 0).val : ℤ) = f.epoch := hw.lineEpoch _ rfl 0
  have hamount : ((w.repayAmount 0).val : ℤ) = amount := hw.repayAmount _ rfl 0
  cases st with
  | acknowledgeRepayment g hcanonical hreceived hb he =>
    rename_i T b e
    refine ⟨hf.issuer, hf.domain, hf.recipient, hf.color, hf.generation, hf.unopened, fun h0 => ?_⟩
    obtain ⟨hidentity, -⟩ := hf.book h0
    refine ⟨hidentity, w.lineLimit 0, b, e, hlimit, ?_, ?_, ?_⟩
    · show (b.val : ℤ) = f.outstanding - amount
      omega
    · show (e.val : ℤ) = f.epoch + 1
      omega
    · show lineStateCommit ⟨L.contractDomain, agentId f.agentSecret, _, _, _⟩ salt
        = lineStateCommit ⟨L.contractDomain, L.identityCommit, _, _, _⟩ (w.newSalt 0)
      rw [hidentity, hw.newSalt _ rfl 0]

omit [DecidableEq B] in
/-- The registry is not part of the book; the first merchant stays first. -/
theorem Facility.Agrees.merchants {secret : B} {L' : Ledger B}
    {merchants : List (MerchantBinding B)}
    (hf : f.Agrees secret L') (hhead : ∀ m rest, f.merchants = m :: rest →
      ∃ m' rest', merchants = m' :: rest' ∧ m'.publicKey = m.publicKey) :
    Facility.Agrees { f with merchants } secret L' := by
  obtain ⟨m, rest, hmerchants, hdomain⟩ := hf.domain
  obtain ⟨m', rest', hm', hkey⟩ := hhead m rest hmerchants
  refine ⟨hf.issuer, ⟨m', rest', hm', ?_⟩, hf.recipient, hf.color, hf.generation, hf.unopened,
    hf.book⟩
  rw [hkey]
  exact hdomain

theorem registerMerchant_planned {merchant : MerchantBinding B} (hs : Sound env.chain S)
    (h : registerMerchant env S id merchant = .ok p) : Planned env.chain S p := by
  simp only [registerMerchant, bind_ok_iff, pure_ok_iff] at h
  obtain ⟨⟨f, a⟩, hfacility, book, hinspect, rfl⟩ := h
  obtain ⟨hfind, ha⟩ := facility_ok_iff.mp hfacility
  refine .facility hs hfind ha (fun f => rfl) (fun D mode hmode => rfl) ?_
  intro w now L L' hw st hf
  refine Facility.Agrees.merchants (f := f) ?_ ?_
  · cases st
    exact ⟨hf.issuer, hf.domain, hf.recipient, hf.color, hf.generation, hf.unopened, hf.book⟩
  · intro m rest hm
    exact ⟨m, rest ++ [merchant], by rw [hm, List.cons_append], rfl⟩

theorem disableMerchant_planned {publicKey : B} (hs : Sound env.chain S)
    (h : disableMerchant env S id publicKey = .ok p) : Planned env.chain S p := by
  simp only [disableMerchant, bind_ok_iff, require_ok_iff, pure_ok_iff] at h
  obtain ⟨⟨f, a⟩, hfacility, book, hinspect, merchant, -, -, -, rfl⟩ := h
  obtain ⟨hfind, ha⟩ := facility_ok_iff.mp hfacility
  refine .facility hs hfind ha (fun f => rfl) (fun D mode hmode => rfl) ?_
  intro w now L L' hw st hf
  refine Facility.Agrees.merchants (f := f) ?_ ?_
  · cases st
    exact ⟨hf.issuer, hf.domain, hf.recipient, hf.color, hf.generation, hf.unopened, hf.book⟩
  · intro m rest hm
    rw [hm, Records.change_cons]
    split
    · exact ⟨_, _, rfl, rfl⟩
    · exact ⟨_, _, rfl, rfl⟩

end Requests

end Line.Client
