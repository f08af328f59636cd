import Line.Engine.Compensation
import Line.Contract.Symbolic

/-!
# The reference engine refines the contract

A call is made to both sides: the engine answers with a ledger or with a failure, the
circuit succeeds or is refused, and the party that failed stays at its ledger. `Agrees`
says that both accept or both refuse, and that the ledgers are related afterwards.

Agreement is not for every call. `Mirrored c s` is exactly what it takes, and it leaves
three kinds of calls out.

* The issuer registers a key that is in the registry, disabled. The engine reads the
  value under the key and enables it again, the circuit asks for the key alone.
* The issuer funds beyond the safe integers, where the engine does not check the sum,
  and the sum is rounded to another one.
* A draw, a repayment or an allocation rotates the book to an epoch beyond the safe
  integers. The engine cannot encode it.

`Tandem` is a run of both sides, in which every call is mirrored.
-/

namespace Line.Engine

open Checked

variable {B : Type} [DecidableEq B] [Compact B]

/-- The state that is held after a computation: the result's, or the one from before. -/
def held {ε σ : Type} (x : Except ε σ) (s : σ) : σ :=
  match x with
  | .ok s' => s'
  | .error _ => s

/-- The answers of the engine and of the circuit agree. -/
structure Agrees (x : Result (Ledger B)) (e : Ledger B) (y : Checked (Line.Ledger B))
    (s : Line.Ledger B) : Prop where
  accepts : (∃ e', x = .ok e') ↔ ∃ s', y = .ok s'
  related : Related (held x e) (held y s)

/-- **When the engine answers as the circuit does.** -/
def Mirrored (c : Call B) (s : Line.Ledger B) : Prop :=
  match c.op with
  | .registerMerchant M _ =>
      IsIssuer c.witness s → s.registeredMerchants.lookup M ≠ some false
  | .fundReserve a =>
      IsIssuer c.witness s → 0 < a.val → Number.Exact (s.totalReserve.val + a.val)
  | .draw Q noteExpiry fee => ∀ quote,
      DrawGuard .canonical c.witness c.now Q noteExpiry fee s quote →
      (c.witness.lineEpoch 0).val + 1 ≤ Number.maxSafe
  | .cancelOrExpireNote D action _ => action.val = 1 → EpochLeft c.witness c.now D s
  | .acknowledgeRepayment receiptExpiry => RepayGuard c.witness c.now receiptExpiry s →
      (c.witness.lineEpoch 0).val + 1 ≤ Number.maxSafe
  | _ => True

/-- The call keeps the counters of the ledger within the safe integers. -/
def StaysSafe (c : Call B) (s : Line.Ledger B) : Prop :=
  s.actionClock + 1 ≤ Number.maxSafe ∧
  match c.op with
  | .fundReserve a => s.totalReserve.val + a.val ≤ Number.maxSafe
  | .openLine _ _ _ => s.lineGeneration.val + 1 ≤ Number.maxSafe
  | _ => True

variable {e : Ledger B} {s s' : Line.Ledger B} {c : Call B} {env : Env B} {h : Trace B}

/-- On related ledgers agreement is the matching of single steps. -/
theorem agrees_iff_matches (hR : Related e s) {x : Result (Ledger B)} :
    Agrees x e (exec .canonical c s) s ↔ Matches x c s := by
  constructor
  · intro ha
    constructor
    · intro e' hx
      obtain ⟨s', hy⟩ := ha.accepts.mp ⟨e', hx⟩
      exact ⟨s', exec_ok_iff.mp hy⟩
    · intro s' st
      have hy := exec_ok_iff.mpr st
      obtain ⟨e', hx⟩ := ha.accepts.mpr ⟨s', hy⟩
      have hrel := ha.related
      rw [hx, hy] at hrel
      exact ⟨e', hx, hrel⟩
  · intro hm
    -- both accept, since each has an answer where the other has
    have haccepts : (∃ e', x = .ok e') ↔ ∃ s', exec .canonical c s = .ok s' := by
      constructor
      · rintro ⟨e', hx⟩
        obtain ⟨s', st⟩ := hm.sound e' hx
        exact ⟨s', exec_ok_iff.mpr st⟩
      · rintro ⟨s', hy⟩
        obtain ⟨e', hx, -⟩ := hm.complete s' (exec_ok_iff.mp hy)
        exact ⟨e', hx⟩
    refine ⟨haccepts, ?_⟩
    cases hy : exec .canonical c s with
    | ok s' =>
      obtain ⟨e', hx, hrel⟩ := hm.complete s' (exec_ok_iff.mp hy)
      rw [hx]
      exact hrel
    -- both refuse, and the parties stay where they are
    | error f =>
      cases hx : x with
      | ok e' =>
        obtain ⟨s', hs'⟩ := haccepts.mp ⟨e', hx⟩
        rw [hy] at hs'
        cases hs'
      | error f' => exact hR

/-- **One call**: the engine agrees with the circuit exactly on the mirrored calls. -/
theorem agrees_iff_mirrored [Words B] (hempty : ∀ v : List B, persistentHash v ≠ pad "")
    (r : Reaches .canonical h s) (hR : Related e s) (hin : InRange s) {i : Input B}
    (htime : OnTime env c) (hc : Carries env s i c) :
    Agrees (run env i e) e (exec .canonical c s) s ↔ Mirrored c s := by
  -- a reference is hashed, and no hash is the empty word that the circuits refuse
  have hreference : ∀ {reference : JsString} {b : B},
      canonicalPaymentReferenceBytes reference = .ok b → b ≠ pad "" := by
    intro reference b hb
    obtain ⟨v, rfl⟩ := canonicalPaymentReferenceBytes_hash hb
    exact hempty v
  rw [agrees_iff_matches hR]
  obtain ⟨hclock, hnow⟩ := htime
  -- operation by operation; where nothing is asked both sides are true
  cases hc with
  | @registerMerchant i w now recipient hcaller =>
    constructor
    · intro hm hi hl
      exact registerMerchant_disabled hR hcaller hi hl hm
    · exact registerMerchant_matches hR hin hcaller
  | disableMerchant hcaller => exact iff_of_true (disableMerchant_matches hR hin hcaller) trivial
  | fundReserve hcaller ha => exact fundReserve_matches_iff hR hin hcaller ha
  | withdrawUnencumberedReserve hcaller ha =>
    exact iff_of_true (withdrawUnencumberedReserve_matches r hR hin hcaller ha) trivial
  | withdrawFees hcaller => exact iff_of_true (withdrawFees_matches r hR hin hcaller) trivial
  | openLine hi => exact iff_of_true (hi.matches hR hin hclock hnow) trivial
  | postQuote hi => exact iff_of_true (hi.matches r hR hin hclock hnow) trivial
  | draw hi => exact hi.matches_iff r hR hin hclock hnow
  | redeemDraw hi => exact iff_of_true (hi.matches r hR hin hclock hnow) trivial
  | cancelOrExpireNote hi =>
    refine hi.matches_iff r hR hin hclock hnow fun hmode => ?_
    obtain ⟨ack, -, hack⟩ := hi.refund hmode
    exact hreference hack.reference
  | acknowledgeRepayment hi => exact hi.matches_iff hR hin hclock hnow (hreference hi.reference)
  | setStatus hi => exact iff_of_true (hi.matches hR hin) trivial

/-! ## Staying within the safe integers -/

theorem InRange.constructor (d : Deployment B) : InRange (Line.constructor .canonical d) where
  totalReserve := Nat.zero_le _
  feeFlat := Nat.zero_le _
  lineExpiry := Nat.zero_le _
  lineGeneration := Nat.zero_le _
  quotes := by simp [Line.constructor]
  notes := by simp [Line.constructor]
  actionClock := Nat.zero_le _

/-- What a step adds to the quotes is as safe as what it was given. -/
theorem InRange.step_quotes [Words B] (hin : InRange s) {i : Input B} (hc : Carries env s i c)
    (st : Step .canonical c s s') : ∀ Q quote, s'.quotes.lookup Q = some quote →
      Safe quote.expiry ∧ Safe quote.lineGeneration := by
  refine st.quotes.forall ?_ ?_ hin.quotes
  · rintro Q quote ⟨hop, -⟩
    cases hc with
    | postQuote hi =>
      injection hop with hx
      exact ⟨hx ▸ hi.expiry.2, hin.lineGeneration⟩
    | _ => cases hop
  · rintro Q quote quote' ⟨-, -⟩ hsafe
    exact hsafe

/-- What a step adds to the notes costs no more than the limit of the line. -/
theorem InRange.step_notes [Words B] (hin : InRange s) {i : Input B} (hc : Carries env s i c)
    (st : Step .canonical c s s') : ∀ D note, s'.notes.lookup D = some note →
      note.cost ≤ Number.maxSafe ∧ Safe note.expiry ∧ Safe note.lineGeneration := by
  refine st.notes.forall ?_ ?_ hin.notes
  · rintro D note ⟨hop, g⟩
    cases hc with
    | @draw _ _ w _ _ _ _ _ _ hi =>
      obtain ⟨rfl, rfl, rfl⟩ := Op.draw.inj hop
      have hlim : (w.lineLimit 0).val ≤ Number.maxSafe := hi.book.limit.2
      have hcap : (w.lineOutstanding 0).val + ((w.drawAmount 0).val + _) ≤ (w.lineLimit 0).val :=
        g.capacity
      refine ⟨?_, ?_, hin.lineGeneration⟩
      · simp only [NoteMeta.cost, NoteMeta.drawn]
        omega
      · rw [NoteMeta.drawn, g.terms]
        exact (hin.quotes _ _ g.found).1
    | _ => cases hop
  · intro D note note' hm hsafe
    cases hm <;> exact hsafe

/-- **A call that stays safe leads to a ledger in range.** -/
theorem InRange.step [Words B] (hin : InRange s) {i : Input B} (hc : Carries env s i c)
    (hsafe : StaysSafe c s) (st : Step .canonical c s s') : InRange s' := by
  have hquotes := hin.step_quotes hc st
  have hnotes := hin.step_notes hc st
  -- a call stays safe if what it adds to does
  obtain ⟨hclock, hmore⟩ := hsafe
  have htotal := hin.totalReserve
  unfold Safe at htotal
  cases st with
  | fundReserve _ _ hT =>
    exact { hin with totalReserve := le_of_eq_of_le hT hmore, actionClock := hclock }
  | @withdrawUnencumberedReserve _ _ _ _ T _ _ _ _ _ hT =>
    have hT : T.val ≤ Number.maxSafe := by omega
    exact { hin with totalReserve := hT, actionClock := hclock }
  | @withdrawFees _ _ _ T _ _ _ _ _ hT =>
    have hT : T.val ≤ Number.maxSafe := by omega
    exact { hin with totalReserve := hT, actionClock := hclock }
  -- the terms of a line are those that the call carries
  | openLine _ hg =>
    cases hc with
    | openLine hi =>
      exact { hin with
        feeFlat := hi.flat.2
        lineExpiry := hi.expiry.2
        lineGeneration := le_of_eq_of_le hg hmore
        actionClock := hclock }
  | postQuote => exact { hin with quotes := hquotes, actionClock := hclock }
  | draw => exact { hin with quotes := hquotes, notes := hnotes, actionClock := hclock }
  | redeemDraw => exact { hin with notes := hnotes, actionClock := hclock }
  | expire => exact { hin with notes := hnotes, actionClock := hclock }
  | allocateCurrent => exact { hin with notes := hnotes, actionClock := hclock }
  | allocateOlder => exact { hin with notes := hnotes, actionClock := hclock }
  -- the canonical contract pays nothing out, so the total is as it was
  | acknowledgeRefund _ _ _ _ _ hcan =>
    obtain ⟨rfl, -⟩ := hcan rfl
    exact { hin with notes := hnotes, actionClock := hclock }
  | acknowledgeRepayment _ hcan =>
    obtain rfl := hcan rfl
    exact { hin with actionClock := hclock }
  | _ => exact { hin with actionClock := hclock }

/-! ## Runs of both sides -/

/-- A ledger that the engine creates is the one that the constructor makes of its keys. -/
theorem Related.created (env : Env B) (params : LedgerParams B) (d : Deployment B)
    (hissuer : d.issuerPk = (createLedger env params).issuerPubKey)
    (hmerchant : d.initialMerchantPk = (createLedger env params).initialMerchantPubKey)
    (hnonce : d.instanceNonce = (createLedger env params).instanceNonce) :
    Related (createLedger env params) (Line.constructor .canonical d) where
  issuer := hissuer.symm
  contractDomain := by
    rw [Line.constructor, hissuer, hmerchant, hnonce]
    rfl
  registeredMerchants := by
    rw [Line.constructor, hmerchant]
    rfl
  totalReserve := rfl
  encumberedReserve := rfl
  redeemedReserve := rfl
  feeReserve := rfl
  pendingFeeReserve := rfl
  refundReserve := rfl
  reportedRefundReserve := rfl
  feeFlat := rfl
  feeBps := rfl
  identityCommitment := rfl
  lineCommitment := rfl
  lineExpiry := rfl
  status := rfl
  lineGeneration := rfl
  quotes := .empty
  notes := .empty
  nullifiers := fun n => iff_of_false List.not_mem_nil (Finset.notMem_empty n)
  actionClock := rfl

/-- A run of the engine and of the contract, call by call: the answers of each side, newest first,
and the ledgers they hold. Each side stays at its ledger when it refuses a call. -/
inductive Tandem [Words B] : List Bool → List Bool → Ledger B → Line.Ledger B → Prop
  | deploy {env : Env B} {params : LedgerParams B} {d : Deployment B} :
      d.issuerPk = (createLedger env params).issuerPubKey →
      d.initialMerchantPk = (createLedger env params).initialMerchantPubKey →
      d.instanceNonce = (createLedger env params).instanceNonce →
      Tandem [] [] (createLedger env params) (Line.constructor .canonical d)
  | call {vs us : List Bool} {e : Ledger B} {s : Line.Ledger B} {env : Env B} {i : Input B}
      {c : Call B} :
      Tandem vs us e s → OnTime env c → Carries env s i c → StaysSafe c s → Mirrored c s →
      Tandem ((run env i e).isOk :: vs) ((exec .canonical c s).isOk :: us) (held (run env i e) e)
        (held (exec .canonical c s) s)

theorem isOk_iff {ε σ : Type} {x : Except ε σ} : x.isOk = true ↔ ∃ a, x = .ok a := by
  cases x <;> simp [Except.isOk, Except.toBool]

/-- **Traces of any length**: both sides accept the same calls, and their ledgers stay related. -/
theorem Tandem.agree [Words B] (hempty : ∀ v : List B, persistentHash v ≠ pad "")
    {vs us : List Bool} (t : Tandem vs us e s) :
    vs = us ∧ Related e s ∧ InRange s ∧ ∃ h, Reaches .canonical h s := by
  induction t with
  | @deploy env params d hissuer hmerchant hnonce =>
    exact ⟨rfl, .created env params d hissuer hmerchant hnonce, .constructor d, [], .start ⟨d, rfl⟩⟩
  | @call vs us e s env i c _ htime hc hsafe hmirror ih =>
    obtain ⟨rfl, hR, hin, h, r⟩ := ih
    have ha := (agrees_iff_mirrored hempty r hR hin htime hc).mpr hmirror
    have hok : (run env i e).isOk = (exec .canonical c s).isOk := by
      rw [Bool.eq_iff_iff, isOk_iff, isOk_iff]
      exact ha.accepts
    refine ⟨by rw [hok], ha.related, ?_⟩
    cases hy : exec .canonical c s with
    | error f => exact ⟨hin, h, r⟩
    | ok s' => exact ⟨hin.step hc hsafe (exec_ok_iff.mp hy), _, .next r hy⟩

/-! ## The refinement -/

/-- **The engine refines the contract.** On a reachable ledger of safe integers a call has the same
answer on both sides, and leads to related ledgers, exactly if it is mirrored; and a run of mirrored
calls, of any length, has the same answers and related ledgers throughout. -/
theorem engine_refines [Words B] (hempty : ∀ v : List B, persistentHash v ≠ pad "") :
    (∀ (h : Trace B) (e : Ledger B) (s : Line.Ledger B) (env : Env B) (i : Input B) (c : Call B),
      Reaches .canonical h s → Related e s → InRange s → OnTime env c → Carries env s i c →
        (Agrees (run env i e) e (exec .canonical c s) s ↔ Mirrored c s))
    ∧ ∀ (vs us : List Bool) (e : Ledger B) (s : Line.Ledger B), Tandem vs us e s →
        vs = us ∧ Related e s ∧ ∃ h, Reaches .canonical h s := by
  constructor
  · intro h e s env i c r hR hin htime hc
    exact agrees_iff_mirrored hempty r hR hin htime hc
  · intro vs us e s t
    obtain ⟨hvs, hR, -, hr⟩ := t.agree hempty
    exact ⟨hvs, hR, hr⟩

/-! ## Over terms -/

/-- A word of bytes as a vector of numbers. -/
instance : Words Term where
  word bytes := Term.vector (bytes.map fun byte => .number byte.toNat)

namespace Demo

open Line.Demo

/-- The engine's ledger of the demo deployment. -/
def params : LedgerParams Term where
  issuerSecret := some issuer
  merchantSecret := some merchant
  instanceNonce := some (.atom 4)
  issuerPubKey := none
  merchantPubKey := none

/-- A caller's program at time `now`. -/
def program (now : ℕ) : Env Term := ⟨fun _ => .atom 0, .ofNat now⟩

def ledger : Ledger Term := createLedger (program 0) params

/-- The issuer of the demo calls the engine. -/
def amount (a : ℕ) : AmountInput Term := ⟨some issuer, none, .ofNat a⟩

def merchantInput : MerchantInput Term := ⟨some issuer, none, Line.merchantPublicKey merchant⟩

/-- The issuer registers the demo merchant once more. -/
def registerAgain : Call Term :=
  ⟨.registerMerchant (Line.merchantPublicKey merchant) ⟨.atom 6⟩, caller issuer 0 0 0 0 0, 2⟩

theorem related : Related ledger (Line.constructor .canonical deployment) :=
  .created (program 0) params deployment rfl rfl rfl

def openInput : OpenLineInput Term where
  caller := some issuer
  callerSk := none
  agentSecret := borrower
  limit := some (.ofNat 500)
  salt := some (.atom 0)
  expiry := .ofNat 100
  feeFlat := some (.ofNat 1)
  feeBps := some (.ofNat 100)

def quoteInput : PostQuoteInput Term where
  caller := none
  callerSk := none
  merchantSecret := some merchant
  amount := some (.ofNat 100)
  invoiceId := .atom 0
  expiry := .ofNat 50
  nonce := some (.atom 1)

/-- The book of the borrower, whose line is new. -/
def shownBook : LineWitness Term :=
  ⟨domain, agentId borrower, .ofNat 500, .ofNat 0, .ofNat 0, .atom 0⟩

def opening : QuotePreimage Term :=
  ⟨Line.merchantPublicKey merchant, .ofNat 100, .atom 0, .ofNat 50, .atom 1, .ofNat 1, .ofNat 1,
    .ofNat 100⟩

/-- Whoever holds the secret `k` draws on the book of the borrower. -/
def drawInput (k : Term) : DrawInput Term where
  caller := none
  callerSk := none
  agentSecret := some k
  agent := none
  witness := some shownBook
  quote := some opening
  invoice := none
  quoteCommit := some (quote 1 1)
  newSalt := some (.atom 0)
  noteNonce := some (.atom 1)
  noteSalt := some (.atom 0)
  noteExpiry := some (.ofNat 50)
  fee := some (.ofNat 2)

def drawBy (k : Term) : Call Term :=
  ⟨.draw (quote 1 1) (Line.Demo.u64 50) (Line.Demo.u64 2),
    { caller k 1 1 0 0 0 with agentSecret := fun _ => k }, 2⟩

/-- Whoever holds the secret `k` redeems the note of the merchant. -/
def redeemInput (k : Term) : RedeemInput Term where
  caller := some k
  callerSk := none
  merchantSecret := none
  note := none
  noteCommitment := some (note 1 1)
  noteExpiry := some (.ofNat 50)
  notePreimage := some ⟨domain, .ofNat 1, agentId borrower, quote 1 1,
    Line.merchantPublicKey merchant, .ofNat 100, .ofNat 2, .atom 1, .ofNat 50⟩
  noteSalt := some (.atom 0)

def redeemBy (k : Term) : Call Term :=
  ⟨.redeemDraw (note 1 1) (Line.Demo.u64 50), caller k 1 1 0 0 0, 3⟩

theorem counts_u64 {n : ℕ} (h : n ≤ Number.maxSafe) : Counts (.ofNat n) (Line.Demo.u64 n) := by
  have hval : (Line.Demo.u64 n).val = n := Nat.mod_eq_of_lt (lt_of_le_of_lt h (by decide))
  exact ⟨by rw [num, hval], le_of_eq_of_le hval h⟩

theorem openCarried (s : Line.Ledger Term) :
    Carries (program 0) s (.openLine openInput none) Line.Demo.openLine :=
  .openLine ⟨rfl, rfl, counts_u64 (by decide), rfl, counts_u64 (by decide), counts_u64 (by decide),
    counts_u64 (by decide)⟩

theorem openSafe {s : Line.Ledger Term} (hclock : s.actionClock + 1 ≤ Number.maxSafe)
    (hgen : s.lineGeneration.val + 1 ≤ Number.maxSafe) : StaysSafe Line.Demo.openLine s :=
  ⟨hclock, hgen⟩

theorem quoteCarried (s : Line.Ledger Term) :
    Carries (program 1) s (.postQuote quoteInput none) (post 1 1) :=
  .postQuote ⟨rfl, counts_u64 (by decide), rfl, rfl, counts_u64 (by decide)⟩

/-- The book of the borrower is carried, whoever draws on it. -/
theorem drawCarried {s : Line.Ledger Term} (hdomain : s.contractDomain = domain)
    (hname : s.identityCommit = agentId borrower) (k : Term) :
    Carries (program 2) s (.draw (drawInput k) none) (drawBy k) := by
  have hi : DrawCarried (program 2) s (drawInput k) none (drawBy k).witness (quote 1 1)
      (Line.Demo.u64 50) (Line.Demo.u64 2) shownBook opening := {
    secret := rfl
    books := rfl
    book := .line hdomain.symm hname.symm (counts_u64 (by decide)) (counts_u64 (by decide))
      (counts_u64 (by decide)) rfl _
    opening := rfl
    commitment := rfl
    merchant := rfl
    invoice := rfl
    nonce := rfl
    amount := counts_u64 (by decide)
    fee := counts_u64 (by decide)
    noteExpiry := fun _ _ => counts_u64 (by decide)
    noteNonce := rfl
    noteSalt := rfl
    newSalt := rfl }
  exact .draw hi

/-- And the note of the merchant, whoever redeems it. -/
theorem redeemCarried (s : Line.Ledger Term) {k : Term} (hk : k ≠ merchant) :
    Carries (program 3) s (.redeemDraw (redeemInput k) none) (redeemBy k) :=
  .redeemDraw {
    secret := rfl
    again := rfl
    commitment := rfl
    preimage := rfl
    merchant := fun n _ hopen => absurd hopen
      (opening_stranger (D := note 1 1) rfl (fun h => hk (merchantPublicKey_inj h).symm) _ n)
    amount := counts_u64 (by decide)
    identity := rfl
    quote := rfl
    nonce := rfl
    noteExpiry := counts_u64 (by decide)
    salt := rfl }

end Demo

/-- A line is opened, and two strangers are refused on both sides: one draws on the book of the
borrower, one redeems the note of the merchant. -/
theorem engine_refines_run : ∃ vs us e s, Tandem (B := Term) vs us e s
    ∧ vs = [false, true, true, false, true, true] ∧ us = vs ∧ Related e s := by
  have hstart : Tandem [] [] Demo.ledger (Line.constructor .canonical Line.Demo.deployment) :=
    .deploy rfl rfl rfl
  have hamount : Carries (Demo.program 0) (Line.constructor .canonical Line.Demo.deployment)
      (.fundReserve (Demo.amount 1000)) (Line.Demo.fund 1000) :=
    .fundReserve rfl (Demo.counts_u64 (by decide))
  have hfund := hstart.call ⟨rfl, by decide⟩ hamount
    ⟨by decide, show 0 + 1000 ≤ Number.maxSafe by decide⟩ (fun _ _ => .inl (by decide))
  -- a line with a reserve behind it
  have hopen := hfund.call ⟨rfl, by decide⟩ (Demo.openCarried _)
    (Demo.openSafe (by decide +kernel) (by decide +kernel)) trivial
  -- the merchant draws on the borrower's book
  have hstranger := hopen.call (c := Demo.drawBy Line.Demo.merchant) ⟨rfl, by decide⟩
    (Demo.drawCarried (by decide +kernel) (by decide +kernel) _)
    ⟨by decide +kernel, trivial⟩ (fun _ _ => by decide)
  have hpost := hstranger.call (c := Line.Demo.post 1 1) ⟨rfl, by decide⟩ (Demo.quoteCarried _)
    ⟨by decide +kernel, trivial⟩ trivial
  have hdraw := hpost.call (c := Demo.drawBy Line.Demo.borrower) ⟨rfl, by decide⟩
    (Demo.drawCarried (by decide +kernel) (by decide +kernel) _)
    ⟨by decide +kernel, trivial⟩ (fun _ _ => by decide)
  -- the borrower redeems a note that is the merchant's
  have hredeem := hdraw.call (c := Demo.redeemBy Line.Demo.borrower) ⟨rfl, by decide⟩
    (Demo.redeemCarried _ (by decide)) ⟨by decide +kernel, trivial⟩ trivial
  have hempty : ∀ v : List Term, persistentHash v ≠ pad "" := fun _ hv => by cases hv
  obtain ⟨hvs, hR, -⟩ := (engine_refines hempty).2 _ _ _ _ hredeem
  exact ⟨_, _, _, _, hredeem, by decide +kernel, hvs.symm, hR⟩

/-- The issuer disables the merchant and registers the same key again: the engine enables it, the
circuit refuses. -/
theorem engine_refines_fails : ∃ (h : Trace Term) (e : Ledger Term) (s : Line.Ledger Term)
    (env : Env Term) (i : Input Term) (c : Call Term), Reaches .canonical h s ∧ Related e s
      ∧ InRange s ∧ OnTime env c ∧ Carries env s i c
      ∧ ¬ Agrees (run env i e) e (exec .canonical c s) s := by
  have hin : InRange (Line.constructor .canonical Line.Demo.deployment) := .constructor _
  have hissuer : IsIssuer (Line.Demo.caller Line.Demo.issuer 0 0 0 0 0)
      (Line.constructor .canonical Line.Demo.deployment) := rfl
  have st : Step .canonical Line.Demo.disableMerchant
      (Line.constructor .canonical Line.Demo.deployment) _ :=
    .disableMerchant hissuer (Finmap.mem_insert.mpr (.inl rfl))
  have hcarry : Carries (Demo.program 1) (Line.constructor .canonical Line.Demo.deployment)
      (.disableMerchant Line.Demo.issuer (Line.merchantPublicKey Line.Demo.merchant))
      Line.Demo.disableMerchant := .disableMerchant rfl
  obtain ⟨e', -, hR⟩ := (disableMerchant_matches Demo.related hin rfl).complete _ st
  refine ⟨_, e', _, Demo.program 2, .registerMerchant Demo.merchantInput, Demo.registerAgain,
    .next (.start ⟨Line.Demo.deployment, rfl⟩) (exec_ok_iff.mpr st), hR,
    hin.step hcarry ⟨by decide, trivial⟩ st, ⟨rfl, by decide⟩, .registerMerchant rfl, ?_⟩
  rw [agrees_iff_matches hR]
  intro hm
  exact registerMerchant_disabled hR rfl hissuer (Finmap.lookup_insert _) hm

end Line.Engine
