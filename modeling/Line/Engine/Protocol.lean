import Line.Engine.Encoding

/-!
# The operations of the reference engine

`src/lib/line/protocol.ts`, one function for each circuit. Every function works on a
clone of its ledger and returns the clone, so a call that fails leaves the ledger of
its caller as it was; here a ledger is a value and nothing has to be cloned.

Words that a caller may leave out are optional, as in the source, and `a ?? b` is
`a.or b` or `a.getD b`. An expression that may throw is a step of its own.

The order of the checks is the source's, since the first that fails names the failure, and with it
what the caller is told. Where the source asks a field of a record that may be missing, the record
is looked up at that place and not before.
-/

namespace Line.Engine

open Checked

variable {B : Type}

def assertSafeUint (n : Number) : Bool :=
  n.isInteger && (Number.ofNat 0).le n && n.isSafeInteger

/-- What a call gets from its surroundings. -/
structure Env (B : Type) where
  /-- The answers of `randomBytes32()`, one for each place it is called from. -/
  randomBytes32 : ℕ → B
  /-- The answer of the execution clock. -/
  clock : Number

/-- `executionUnixSeconds`. -/
def executionUnixSeconds (env : Env B) : Result Number := do
  if !env.clock.isSafeInteger || env.clock.lt (.ofNat 0) then
    raise "Invalid trusted model Unix-seconds clock"
  pure env.clock

/-- `if (!assertSafeUint(expiry) || expiry <= executionUnixSeconds(next)) return fail(…);`. -/
def deadline (env : Env B) (expiry : Number) (reason : String) : Result Unit := do
  failIf (!assertSafeUint expiry) "EXPIRY" reason
  let now ← executionUnixSeconds env
  failIf (expiry.le now) "EXPIRY" reason

/-- `BigInt(n)`. -/
def bigInt (n : Number) : Result ℤ :=
  match n.toBigInt with
  | some z => pure z
  | none => raise "The number cannot be converted to a BigInt because it is not an integer"

def UINT64_MAX : ℤ := 18446744073709551615

/-- `u64`: a safe integer is far below `2 ^ 64`. -/
def u64 (n : Number) : Result U64 := do
  if !n.isInteger || n.lt (.ofNat 0) || !n.isSafeInteger then
    raise "not a Uint<64>-compatible integer"
  let z ← bigInt n
  if h : z.toNat < 2 ^ 64 then pure ⟨z.toNat, h⟩
  else raise "not a Uint<64>-compatible integer"

def lockedReserve (ledger : Ledger B) : Number :=
  ((((ledger.encumberedReserve.add ledger.redeemedReserve).add ledger.feeReserve).add
    ledger.pendingFeeReserve).add ledger.refundReserve).add ledger.reportedRefundReserve

/-- `pushEvent`, of which the ledger here keeps the clock. -/
def pushEvent (ledger : Ledger B) : Ledger B :=
  { ledger with actionClock := ledger.actionClock.add (.ofNat 1) }

variable [DecidableEq B] [Compact B]

/-- `getCaller`. -/
def getCaller (caller callerSk : Option B) : B := (callerSk.or caller).getD (pad "")

/-! ## Commitments -/

def identityCommitment (agentSecret : B) : B := agentId agentSecret

def lineCommitment (w : LineWitness B) : Result B := do
  let limit ← u64 w.L
  let outstanding ← u64 w.B
  let epoch ← u64 w.e
  pure (lineStateCommit w.domain w.I limit outstanding epoch w.s)

def quoteCommitment (q : QuotePreimage B) (domain : B) : Result B := do
  let amount ← u64 q.amount
  let expiry ← u64 q.expiry
  let generation ← u64 q.generation
  let feeFlat ← u64 q.feeFlat
  let feeBps ← u64 q.feeBps
  pure (quoteCommit q.merchantCommitment q.invoiceId amount expiry q.nonce generation domain
    feeFlat feeBps)

def drawNoteCommitment (np : DrawNotePreimage B) (salt : B) : Result B := do
  let lineGeneration ← u64 np.lineGeneration
  let amount ← u64 np.amount
  let fee ← u64 np.fee
  let expiry ← u64 np.expiry
  pure (drawNoteCommit np.domain lineGeneration np.identity np.quoteCommit np.merchantPk amount
    fee np.noteNonce expiry salt)

def refundCommitment (domain : B) (lineGeneration : Number) (identity noteCommit : B)
    (amount : Number) (salt : B) : Result B := do
  let lineGeneration ← u64 lineGeneration
  let amount ← u64 amount
  pure (refundCommit domain lineGeneration identity noteCommit amount salt)

def opens (w : LineWitness B) (C : Option B) : Result Bool :=
  match C with
  | none => pure false
  | some C => do
    let opened ← lineCommitment w
    pure (decide (opened = C))

/-! ## Deployment, registry and reserve -/

/-- The parameters of `createLedger`, less the clock. -/
structure LedgerParams (B : Type) where
  issuerSecret : Option B
  merchantSecret : Option B
  instanceNonce : Option B
  issuerPubKey : Option B
  merchantPubKey : Option B

def createLedger (env : Env B) (params : LedgerParams B) : Ledger B :=
  let issuerPk := (params.issuerPubKey.or (params.issuerSecret.map issuerPublicKey)).getD
    (env.randomBytes32 0)
  let merchantPk := (params.merchantPubKey.or (params.merchantSecret.map merchantPublicKey)).getD
    (env.randomBytes32 1)
  let nonce := params.instanceNonce.getD (env.randomBytes32 2)
  { contractDomain := contractDomain issuerPk merchantPk nonce
    issuerPubKey := issuerPk
    initialMerchantPubKey := merchantPk
    instanceNonce := nonce
    registeredMerchants := (∅ : Finmap _).insert merchantPk true
    totalReserve := .ofNat 0
    encumberedReserve := .ofNat 0
    redeemedReserve := .ofNat 0
    feeReserve := .ofNat 0
    pendingFeeReserve := .ofNat 0
    refundReserve := .ofNat 0
    reportedRefundReserve := .ofNat 0
    feeFlat := .ofNat 0
    feeBps := .ofNat 0
    identityCommitment := none
    lineCommitment := none
    lineExpiry := .ofNat 0
    status := .NONE
    lineGeneration := .ofNat 0
    quotes := []
    notes := []
    nullifiers := []
    actionClock := .ofNat 0 }

def isIssuer (ledger : Ledger B) (callerSecret : B) : Bool :=
  decide (issuerPublicKey callerSecret = ledger.issuerPubKey)

/-- The input of `registerMerchant`. -/
structure MerchantInput (B : Type) where
  caller : Option B
  callerSk : Option B
  merchantPk : B

/-- The test is on the value under the key: a key that was disabled passes it. -/
def registerMerchant (ledger : Ledger B) (input : MerchantInput B) : Result (Ledger B) := do
  let next := ledger
  let caller := getCaller input.caller input.callerSk
  failIf (!isIssuer next caller) "AUTH_ISSUER" FAIL.AUTH_ISSUER
  let pubM := input.merchantPk
  failIf ((next.registeredMerchants.lookup pubM).getD false) "MERCHANT_REGISTERED"
    FAIL.MERCHANT_REGISTERED
  pure (pushEvent { next with registeredMerchants := next.registeredMerchants.insert pubM true })

/-- The test is on the presence of the key. -/
def disableMerchant (ledger : Ledger B) (caller merchantPk : B) : Result (Ledger B) := do
  let next := ledger
  failIf (!isIssuer next caller) "AUTH_ISSUER" FAIL.AUTH_ISSUER
  let pubM := merchantPk
  failIf (decide (pubM ∉ next.registeredMerchants)) "UNKNOWN_MERCHANT" FAIL.UNKNOWN_MERCHANT
  pure (pushEvent { next with registeredMerchants := next.registeredMerchants.insert pubM false })

/-- The input of `fundReserve` and of `withdrawUnencumberedReserve`. -/
structure AmountInput (B : Type) where
  caller : Option B
  callerSk : Option B
  amount : Number

/-- The sum is held against `2 ^ 64`, not against the safe integers. -/
def fundReserve (ledger : Ledger B) (input : AmountInput B) : Result (Ledger B) := do
  let next := ledger
  let caller := getCaller input.caller input.callerSk
  failIf (!isIssuer next caller) "AUTH_ISSUER" FAIL.AUTH_ISSUER
  failIf (!assertSafeUint input.amount || input.amount.le (.ofNat 0)) "ZERO" FAIL.ZERO
  let nextReserve := next.totalReserve.add input.amount
  let nextReserveBig ← bigInt nextReserve
  failIf (decide (UINT64_MAX < nextReserveBig)) "OVERFLOW" FAIL.OVERFLOW
  pure (pushEvent { next with totalReserve := nextReserve })

def withdrawUnencumberedReserve (ledger : Ledger B) (input : AmountInput B) :
    Result (Ledger B) := do
  let next := ledger
  let caller := getCaller input.caller input.callerSk
  failIf (!isIssuer next caller) "AUTH_ISSUER" FAIL.AUTH_ISSUER
  failIf (!assertSafeUint input.amount || input.amount.le (.ofNat 0)) "ZERO" FAIL.ZERO
  let withdrawable := next.totalReserve.sub (lockedReserve next)
  failIf (withdrawable.lt input.amount) "RESERVE_WITHDRAW" FAIL.RESERVE_WITHDRAW
  pure (pushEvent { next with totalReserve := next.totalReserve.sub input.amount })

/-- What `withdrawFees` returns. -/
structure FeesWithdrawn (B : Type) where
  ledger : Ledger B
  fees : Number

def withdrawFees (ledger : Ledger B) (caller : B) : Result (FeesWithdrawn B) := do
  let next := ledger
  failIf (!isIssuer next caller) "AUTH_ISSUER" FAIL.AUTH_ISSUER
  let f := next.feeReserve
  failIf (f.le (.ofNat 0)) "NO_FEES" FAIL.NO_FEES
  failIf (next.totalReserve.lt (lockedReserve next)) "RESERVE_DEFICIT" FAIL.RESERVE_DEFICIT
  pure {
    ledger := pushEvent { next with
      totalReserve := next.totalReserve.sub f, feeReserve := .ofNat 0 }
    fees := f }

/-! ## Line, quotes and draws -/

/-- The input of `openLine`. -/
structure OpenLineInput (B : Type) where
  caller : Option B
  callerSk : Option B
  agentSecret : B
  limit : Option Number
  salt : Option B
  expiry : Number
  feeFlat : Option Number
  feeBps : Option Number

/-- What `openLine` returns. -/
structure LineOpened (B : Type) where
  ledger : Ledger B
  agent : AgentStore B

/-- `!assertSafeUint(feeFlat) || !assertSafeUint(feeBps) || feeBps > 10_000`. -/
def badPolicy (feeFlat feeBps : Number) : Bool :=
  !assertSafeUint feeFlat || !assertSafeUint feeBps || (Number.ofNat 10000).lt feeBps

/-- `witnessLimit` is the limit of the `OpenLineWitness`, if there is one. -/
def openLine (env : Env B) (ledger : Ledger B) (input : OpenLineInput B)
    (witnessLimit : Option Number) : Result (LineOpened B) := do
  let next := ledger
  let caller := getCaller input.caller input.callerSk
  failIf (!isIssuer next caller) "AUTH_ISSUER" FAIL.AUTH_ISSUER
  let limit := (witnessLimit.or input.limit).getD (.ofNat 0)
  failIf (!assertSafeUint limit || limit.le (.ofNat 0)) "LIMIT" FAIL.LIMIT
  deadline env input.expiry FAIL.EXPIRY
  failIf (decide (next.status ≠ .NONE) && decide (next.status ≠ .CLOSED)) "LINE_EXISTS"
    FAIL.LINE_EXISTS
  let feeFlat := input.feeFlat.getD (.ofNat 0)
  let feeBps := input.feeBps.getD (.ofNat 0)
  failIf (badPolicy feeFlat feeBps) "FEE_POLICY" "invalid issuer fee policy"
  let I := identityCommitment input.agentSecret
  let lineWitness : LineWitness B := {
    domain := next.contractDomain, I, L := limit, B := .ofNat 0, e := .ofNat 0
    s := input.salt.getD (env.randomBytes32 0) }
  let C ← lineCommitment lineWitness
  pure {
    ledger := pushEvent { next with
      identityCommitment := some I
      lineCommitment := some C
      lineExpiry := input.expiry
      feeFlat
      feeBps
      status := .OPEN
      lineGeneration := next.lineGeneration.add (.ofNat 1) }
    agent := {
      secret := input.agentSecret, witness := some lineWitness, identityCommitment := some I } }

/-- The input of `postQuote`. -/
structure PostQuoteInput (B : Type) where
  caller : Option B
  callerSk : Option B
  merchantSecret : Option B
  amount : Option Number
  invoiceId : B
  expiry : Number
  nonce : Option B

/-- What `postQuote` returns. -/
structure QuotePosted (B : Type) where
  ledger : Ledger B
  quote : QuotePreimage B
  Q : B

/-- `witnessAmount` is the amount of the `PostQuoteWitness`, if there is one. -/
def postQuote (env : Env B) (ledger : Ledger B) (input : PostQuoteInput B)
    (witnessAmount : Option Number) : Result (QuotePosted B) := do
  let next := ledger
  let caller := (input.callerSk.or (input.merchantSecret.or input.caller)).getD (pad "")
  let mPk := merchantPublicKey caller
  failIf (decide (mPk ∉ next.registeredMerchants)) "AUTH_MERCHANT" FAIL.AUTH_MERCHANT
  failIf (decide (next.registeredMerchants.lookup mPk ≠ some true)) "MERCHANT_DISABLED"
    FAIL.MERCHANT_DISABLED
  failIf (decide (next.status ≠ .OPEN)) "STATUS" FAIL.STATUS
  let amount := (witnessAmount.or input.amount).getD (.ofNat 0)
  failIf (!assertSafeUint amount || amount.le (.ofNat 0)) "ZERO" FAIL.ZERO
  deadline env input.expiry FAIL.EXPIRY
  failIf (badPolicy next.feeFlat next.feeBps) "FEE_POLICY" "missing or invalid issuer fee policy"
  let preimage : QuotePreimage B := {
    merchantCommitment := mPk, amount, invoiceId := input.invoiceId, expiry := input.expiry
    nonce := input.nonce.getD (env.randomBytes32 0), generation := next.lineGeneration
    feeFlat := next.feeFlat, feeBps := next.feeBps }
  let Q ← quoteCommitment preimage next.contractDomain
  failIf (next.quotes.any fun q => decide (q.commitment = Q)) "QUOTE_USED"
    "quote commitment already posted"
  pure {
    ledger := pushEvent { next with
      quotes := next.quotes ++ [{
        commitment := Q, expiry := input.expiry, lineGeneration := next.lineGeneration
        used := false }] }
    quote := preimage
    Q }

/-- `MerchantInvoice`, of which the engine reads the opening of the quote. -/
structure MerchantInvoice (B : Type) where
  preimage : QuotePreimage B

/-- The input of `draw`. -/
structure DrawInput (B : Type) where
  caller : Option B
  callerSk : Option B
  agentSecret : Option B
  agent : Option (AgentStore B)
  witness : Option (LineWitness B)
  quote : Option (QuotePreimage B)
  invoice : Option (MerchantInvoice B)
  quoteCommit : Option B
  newSalt : Option B
  noteNonce : Option B
  noteSalt : Option B
  noteExpiry : Option Number
  fee : Option Number

/-- `DrawWitness`. -/
structure DrawWitness (B : Type) where
  books : LineWitness B
  quote : QuotePreimage B

/-- What `draw` returns. -/
structure Drawn (B : Type) where
  ledger : Ledger B
  agent : AgentStore B
  note : DrawNote B

/-- `input.agentSecret ?? input.agent?.secret ?? input.callerSk ?? input.caller`. -/
def DrawInput.secret (input : DrawInput B) : Option B :=
  input.agentSecret.or ((input.agent.map (·.secret)).or (input.callerSk.or input.caller))

/-- `witness?.books ?? input.witness ?? input.agent?.witness`. -/
def DrawInput.books (input : DrawInput B) (witness : Option (DrawWitness B)) :
    Option (LineWitness B) :=
  (witness.map (·.books)).or (input.witness.or (input.agent.bind (·.witness)))

/-- `witness?.quote ?? input.quote ?? input.invoice?.preimage`. -/
def DrawInput.opening (input : DrawInput B) (witness : Option (DrawWitness B)) :
    Option (QuotePreimage B) :=
  (witness.map (·.quote)).or (input.quote.or (input.invoice.map (·.preimage)))

/-- `input.quoteCommit ?? quoteCommitment(wq, next.contractDomain)`. -/
def DrawInput.commitment (input : DrawInput B) (wq : QuotePreimage B) (domain : B) : Result B :=
  match input.quoteCommit with
  | some Q => pure Q
  | none => quoteCommitment wq domain

def draw (env : Env B) (ledger : Ledger B) (input : DrawInput B)
    (witness : Option (DrawWitness B)) : Result (Drawn B) := do
  let next := ledger
  let now ← executionUnixSeconds env
  failIf (decide (next.status ≠ .OPEN)) "STATUS" FAIL.STATUS
  failIf next.lineCommitment.isNone "NO_LINE" FAIL.NO_LINE
  failIf (next.lineExpiry.le now) "LINE_EXPIRED" FAIL.LINE_EXPIRED
  let secret ← present input.secret "AUTH_AGENT" FAIL.AUTH_AGENT
  let books ← present (input.books witness) "STALE" FAIL.STALE
  let I := identityCommitment secret
  failIf (decide (I ≠ books.I) || decide (some I ≠ next.identityCommitment)) "AUTH_AGENT"
    FAIL.AUTH_AGENT
  let opened ← opens books next.lineCommitment
  failIf (!opened) "STALE" FAIL.STALE
  let wq ← present (input.opening witness) "QUOTE" FAIL.QUOTE
  failIf (badPolicy next.feeFlat next.feeBps) "FEE_POLICY" "missing or invalid issuer fee policy"
  let Q ← input.commitment wq next.contractDomain
  let live ← present (Records.find QuoteRecord.commitment next.quotes Q) "QUOTE" FAIL.QUOTE
  failIf live.used "QUOTE_USED" FAIL.QUOTE_USED
  failIf (live.expiry.le now) "QUOTE_EXPIRED" FAIL.QUOTE_EXPIRED
  failIf (!live.lineGeneration.eq next.lineGeneration) "QUOTE_GEN" FAIL.QUOTE_GEN
  let wMerchantPk := wq.merchantCommitment
  let A := wq.amount
  failIf (!assertSafeUint A || A.le (.ofNat 0)) "ZERO" FAIL.ZERO
  -- the expiry and the generation are those of the record, not of the opening
  let recon ← quoteCommitment {
    merchantCommitment := wMerchantPk, invoiceId := wq.invoiceId, amount := A
    expiry := live.expiry, nonce := wq.nonce, generation := live.lineGeneration
    feeFlat := next.feeFlat, feeBps := next.feeBps } next.contractDomain
  failIf (decide (recon ≠ Q)) "QUOTE" "quote preimage does not match a live quote"
  failIf (decide (wMerchantPk ∉ next.registeredMerchants)) "QUOTE_AUTH" FAIL.QUOTE_AUTH
  let f := input.fee.getD (.ofNat 0)
  failIf (!assertSafeUint f) "AMOUNT" "fee must be a non-negative integer"
  let expectedFee ← catchFail "OVERFLOW" FAIL.OVERFLOW (do
    let amount ← u64 A
    let flat ← u64 next.feeFlat
    let bps ← u64 next.feeBps
    requiredDrawFee amount.val flat.val bps.val)
  failIf (decide ((Number.maxSafe : ℤ) < expectedFee)) "OVERFLOW" FAIL.OVERFLOW
  let fee ← u64 f
  failIf (decide ((fee.val : ℤ) ≠ expectedFee)) "FEE_POLICY" "fee does not match issuer policy"
  let cost := A.add f
  failIf (cost.lt A || !assertSafeUint cost) "OVERFLOW" FAIL.OVERFLOW
  let nextB := books.B.add cost
  failIf (nextB.lt books.B || !assertSafeUint nextB) "OVERFLOW" FAIL.OVERFLOW
  failIf (books.L.lt nextB) "CAPACITY" FAIL.CAPACITY
  let locked := lockedReserve next
  failIf (next.totalReserve.lt locked) "RESERVE_DEFICIT" FAIL.RESERVE_DEFICIT
  let free := next.totalReserve.sub locked
  failIf (free.lt cost) "RESERVE_CAPACITY" FAIL.RESERVE_CAPACITY
  let noteExp := input.noteExpiry.getD live.expiry
  failIf (!noteExp.eq live.expiry) "NOTE_EXPIRY"
    "note expiry must match authenticated quote deadline"
  failIf (!assertSafeUint noteExp || noteExp.le now) "NOTE_EXPIRED" FAIL.NOTE_EXPIRED
  let N := drawNullifier secret Q next.contractDomain
  failIf (decide (N ∈ next.nullifiers)) "NULLIFIER" FAIL.NULLIFIER
  let noteSalt := input.noteSalt.getD (env.randomBytes32 1)
  let notePreimage : DrawNotePreimage B := {
    domain := next.contractDomain, lineGeneration := next.lineGeneration, identity := I
    quoteCommit := Q, merchantPk := wMerchantPk, amount := A, fee := f
    noteNonce := input.noteNonce.getD (env.randomBytes32 0), expiry := noteExp }
  let D ← drawNoteCommitment notePreimage noteSalt
  failIf (next.notes.any fun n => decide (n.commitment = D)) "NOTE_USED"
    "note commitment already exists"
  let nextWitness : LineWitness B := {
    domain := next.contractDomain, I, L := books.L, B := nextB, e := books.e.add (.ofNat 1)
    s := input.newSalt.getD (env.randomBytes32 2) }
  let C2 ← lineCommitment nextWitness
  pure {
    ledger := pushEvent { next with
      quotes := Records.change QuoteRecord.commitment (fun q => { q with used := true }) Q
        next.quotes
      lineCommitment := some C2
      nullifiers := next.nullifiers ++ [N]
      encumberedReserve := next.encumberedReserve.add A
      pendingFeeReserve := next.pendingFeeReserve.add f
      notes := next.notes ++ [{
        commitment := D, amount := A, fee := f, redeemed := false, cancelled := false
        expiry := noteExp, lineGeneration := next.lineGeneration
        compensationAllocated := false, refundCommitment := pad "", cashRefundOwed := false
        refundAcknowledged := false, refundPaymentNullifier := pad "" }] }
    agent := { secret, witness := some nextWitness, identityCommitment := some I }
    note := { D, preimage := notePreimage, salt := noteSalt } }

/-! ## Redemption -/

/-- The input of `redeemDraw`. -/
structure RedeemInput (B : Type) where
  caller : Option B
  callerSk : Option B
  merchantSecret : Option B
  note : Option (DrawNote B)
  noteCommitment : Option B
  noteExpiry : Option Number
  notePreimage : Option (DrawNotePreimage B)
  noteSalt : Option B

/-- What `redeemDraw` returns. -/
structure NoteRedeemed (B : Type) where
  ledger : Ledger B
  N_redeem : B

/-- `input.callerSk ?? input.merchantSecret ?? input.caller ?? ""`. -/
def RedeemInput.secret (input : RedeemInput B) : B :=
  (input.callerSk.or (input.merchantSecret.or input.caller)).getD (pad "")

/-- `input.noteCommitment ?? input.note?.D`. -/
def RedeemInput.commitment (input : RedeemInput B) : Option B :=
  input.noteCommitment.or (input.note.map (·.D))

/-- `witness?.note ?? input.notePreimage ?? input.note?.preimage`. -/
def RedeemInput.preimage (input : RedeemInput B) (witnessNote : Option (DrawNotePreimage B)) :
    Option (DrawNotePreimage B) :=
  witnessNote.or (input.notePreimage.or (input.note.map (·.preimage)))

/-- `input.noteSalt ?? input.note?.salt ?? ""`. -/
def RedeemInput.salt (input : RedeemInput B) : B :=
  (input.noteSalt.or (input.note.map (·.salt))).getD (pad "")

/-- `witnessNote` is the note of the `RedeemWitness`, if there is one. -/
def redeemDraw (env : Env B) (ledger : Ledger B) (input : RedeemInput B)
    (witnessNote : Option (DrawNotePreimage B)) : Result (NoteRedeemed B) := do
  let next := ledger
  let caller := input.secret
  -- without a commitment the source looks for the empty one, which no record has
  let commitment ← present input.commitment "NOTE_NOT_FOUND" FAIL.NOTE_NOT_FOUND
  let live ← present (Records.find NoteRecord.commitment next.notes commitment) "NOTE_NOT_FOUND"
    FAIL.NOTE_NOT_FOUND
  failIf live.redeemed "NOTE_USED" FAIL.NOTE_USED
  failIf live.cancelled "NOTE_CANCELLED" FAIL.NOTE_CANCELLED
  let now ← executionUnixSeconds env
  failIf (live.expiry.le now) "NOTE_EXPIRED" FAIL.NOTE_EXPIRED
  let preimage ← present (input.preimage witnessNote) "NOTE_AUTH" FAIL.NOTE_AUTH
  let mPk := merchantPublicKey caller
  failIf (decide (mPk ≠ preimage.merchantPk)) "NOTE_AUTH" FAIL.NOTE_AUTH
  failIf (!preimage.amount.eq live.amount) "AMOUNT" "note preimage amount mismatch"
  let computedD ← drawNoteCommitment {
    domain := next.contractDomain, lineGeneration := live.lineGeneration
    identity := preimage.identity, quoteCommit := preimage.quoteCommit, merchantPk := mPk
    amount := preimage.amount, fee := live.fee, noteNonce := preimage.noteNonce
    expiry := input.noteExpiry.getD preimage.expiry } input.salt
  failIf (decide (computedD ≠ commitment)) "NOTE_OPENING" FAIL.NOTE_OPENING
  let N := redeemNullifier caller commitment next.contractDomain
  failIf (decide (N ∈ next.nullifiers)) "NULLIFIER" "redemption nullifier already spent"
  pure {
    ledger := pushEvent { next with
      notes := Records.change NoteRecord.commitment (fun n => { n with redeemed := true })
        commitment next.notes
      nullifiers := next.nullifiers ++ [N]
      encumberedReserve := next.encumberedReserve.sub live.amount
      redeemedReserve := next.redeemedReserve.add live.amount
      pendingFeeReserve := next.pendingFeeReserve.sub live.fee
      feeReserve := next.feeReserve.add live.fee }
    N_redeem := N }

/-! ## Expiry, compensation and refunds -/

/-- `compensation`. -/
structure Compensation (B : Type) where
  note : DrawNotePreimage B
  noteSalt : B
  newSalt : B
  books : Option (LineWitness B)

/-- `refundAck`. -/
structure RefundAck (B : Type) where
  identity : B
  amount : Number
  salt : B
  paymentRef : JsString
  receiptExpiry : Number

/-- The input of `cancelOrExpireNote`. -/
structure NoteInput (B : Type) where
  caller : Option B
  callerSk : Option B
  agentSecret : Option B
  noteCommitment : Option B
  note : Option (DrawNote B)
  action : Option Number
  receiptExpiry : Option Number
  compensation : Option (Compensation B)
  refundAck : Option (RefundAck B)

/-- `input.callerSk ?? input.caller ?? input.agentSecret ?? ""`. -/
def NoteInput.secret (input : NoteInput B) : B :=
  (input.callerSk.or (input.caller.or input.agentSecret)).getD (pad "")

/-- `input.noteCommitment ?? input.note?.D`. -/
def NoteInput.commitment (input : NoteInput B) : Option B :=
  input.noteCommitment.or (input.note.map (·.D))

/-- What `cancelOrExpireNote` returns. -/
structure NoteHandled (B : Type) where
  ledger : Ledger B
  witness : Option (LineWitness B)
  refund : Option (RefundAllocation B)

/-- `if (!live.cancelled) { … }` of modes 0 and 1, less the flag of the record. -/
def expireLive (env : Env B) (live : NoteRecord B) (cost : Number) (next : Ledger B) :
    Result (Ledger B) :=
  if live.cancelled then pure next
  else do
    let now ← executionUnixSeconds env
    failIf (now.lt live.expiry) "NOTE_NOT_EXPIRED" FAIL.NOTE_NOT_EXPIRED
    pure { next with
      encumberedReserve := next.encumberedReserve.sub live.amount
      pendingFeeReserve := next.pendingFeeReserve.sub live.fee
      refundReserve := next.refundReserve.add cost }

/-- `mode === 0`. -/
def cancelNote (env : Env B) (commitment : B) (live : NoteRecord B) (cost : Number)
    (next : Ledger B) : Result (NoteHandled B) := do
  failIf live.cancelled "NOTE_CANCELLED" FAIL.NOTE_CANCELLED
  let next ← expireLive env live cost next
  pure {
    ledger := { next with
      notes := Records.change NoteRecord.commitment (fun n => { n with cancelled := true })
        commitment next.notes }
    witness := none
    refund := none }

/-- What mode 1 makes of the line: the ledger, the new book, the cash owed and the credit. -/
structure Settled (B : Type) where
  ledger : Ledger B
  witness : Option (LineWitness B)
  owed : Number
  credited : Number

/-- `if (live.lineGeneration === next.lineGeneration) { … } else if (…) { … }`. -/
def settle (proof : Compensation B) (owner : B) (live : NoteRecord B) (cost : Number)
    (next : Ledger B) : Result (Settled B) :=
  if live.lineGeneration.eq next.lineGeneration then do
    failIf (decide (some owner ≠ next.identityCommitment)) "COMPENSATION_IDENTITY"
      "compensation identity mismatch"
    let books ← present proof.books "STALE" "stale compensation book"
    failIf (decide (books.I ≠ owner)) "STALE" "stale compensation book"
    let opened ← opens books next.lineCommitment
    failIf (!opened) "STALE" "stale compensation book"
    failIf (!assertSafeUint books.B || !assertSafeUint (books.e.add (.ofNat 1))) "OVERFLOW"
      FAIL.OVERFLOW
    let credited := books.B.min cost
    let owed := cost.sub credited
    let updatedWitness := { books with
      domain := next.contractDomain, B := books.B.sub credited, e := books.e.add (.ofNat 1)
      s := proof.newSalt }
    let C ← lineCommitment updatedWitness
    pure {
      ledger := { next with
        lineCommitment := some C
        refundReserve :=
          if owed.eq (.ofNat 0) then next.refundReserve.sub cost else next.refundReserve }
      witness := some updatedWitness
      owed
      credited }
  else do
    failIf (next.lineGeneration.le live.lineGeneration) "COMPENSATION_GENERATION"
      "compensation generation mismatch"
    pure { ledger := next, witness := none, owed := cost, credited := .ofNat 0 }

/-- `mode === 1`. -/
def allocateCompensation (env : Env B) (caller commitment : B) (live : NoteRecord B)
    (cost : Number) (compensation : Option (Compensation B)) (next : Ledger B) :
    Result (NoteHandled B) := do
  failIf live.compensationAllocated "COMPENSATION_USED" "compensation already allocated"
  let next ← expireLive env live cost next
  let proof ← present compensation "COMPENSATION_OPENING" "missing compensation note opening"
  let owner := proof.note.identity
  let computedD ← catchFail "COMPENSATION_OPENING" "invalid compensation note opening"
    (drawNoteCommitment { proof.note with
      domain := next.contractDomain, lineGeneration := live.lineGeneration, identity := owner
      amount := live.amount, fee := live.fee, expiry := live.expiry } proof.noteSalt)
  failIf (decide (computedD ≠ commitment)) "COMPENSATION_OPENING"
    "invalid compensation note opening"
  failIf (!isIssuer next caller && decide (identityCommitment caller ≠ owner))
    "COMPENSATION_AUTH" "caller does not own compensation authority"
  let settled ← settle proof owner live cost next
  let next := settled.ledger
  let refund ← refundCommitment next.contractDomain live.lineGeneration owner commitment
    settled.owed proof.newSalt
  pure {
    ledger := { next with
      notes := Records.change NoteRecord.commitment (fun n => { n with
        cancelled := true
        compensationAllocated := true
        refundCommitment := refund
        cashRefundOwed := (Number.ofNat 0).lt settled.owed
        refundAcknowledged := false
        refundPaymentNullifier := pad "" }) commitment next.notes }
    witness := settled.witness
    refund := some {
      domain := next.contractDomain, lineGeneration := live.lineGeneration, identity := owner
      noteCommit := commitment, amount := settled.owed, allocatedCredit := settled.credited
      salt := proof.newSalt, commitment := refund } }

/-- `mode === 2`. -/
def acknowledgeRefund [Words B] (env : Env B) (caller commitment : B) (live : NoteRecord B)
    (cost : Number) (receiptExpiry : Option Number) (refundAck : Option (RefundAck B))
    (next : Ledger B) : Result (NoteHandled B) := do
  failIf (!isIssuer next caller) "AUTH_ISSUER" FAIL.AUTH_ISSUER
  failIf (!live.cancelled || !live.compensationAllocated || !live.cashRefundOwed) "NO_REFUND"
    "no cash refund obligation"
  failIf live.refundAcknowledged "REFUND_USED" "refund already acknowledged"
  let ack ← present refundAck "REFUND_OPENING" "missing refund opening"
  deadline env (receiptExpiry.getD ack.receiptExpiry) "refund receipt expired"
  failIf (!assertSafeUint ack.amount || ack.amount.eq (.ofNat 0) || cost.lt ack.amount)
    "REFUND_AMOUNT" "refund amount is outside the note cost"
  let computed ← catchFail "REFUND_OPENING" "invalid refund opening or payment reference" (do
    let computedRefund ← refundCommitment next.contractDomain live.lineGeneration ack.identity
      commitment ack.amount ack.salt
    let referenceBytes ← canonicalPaymentReferenceBytes ack.paymentRef
    pure (computedRefund, referenceBytes))
  failIf (decide (computed.1 ≠ live.refundCommitment)) "REFUND_OPENING"
    "refund opening does not match obligation"
  let paymentN := paymentNullifier caller computed.2 next.contractDomain
  failIf (decide (paymentN ∈ next.nullifiers)) "RECEIPT_USED" FAIL.RECEIPT_USED
  pure {
    ledger := { next with
      nullifiers := next.nullifiers ++ [paymentN]
      notes := Records.change NoteRecord.commitment (fun n => { n with
        refundAcknowledged := true
        refundPaymentNullifier := paymentN }) commitment next.notes
      refundReserve := next.refundReserve.sub cost
      reportedRefundReserve := next.reportedRefundReserve.add cost }
    witness := none
    refund := none }

/-- The three modes. -/
def handleNote [Words B] (env : Env B) (input : NoteInput B) (mode : Number) (commitment : B)
    (live : NoteRecord B) (cost : Number) (next : Ledger B) : Result (NoteHandled B) :=
  if mode.eq (.ofNat 0) then cancelNote env commitment live cost next
  else if mode.eq (.ofNat 1) then
    allocateCompensation env input.secret commitment live cost input.compensation next
  else
    acknowledgeRefund env input.secret commitment live cost input.receiptExpiry input.refundAck
      next

def cancelOrExpireNote [Words B] (env : Env B) (ledger : Ledger B) (input : NoteInput B) :
    Result (NoteHandled B) := do
  let next := ledger
  let mode := input.action.getD (.ofNat 0)
  failIf (!mode.eq (.ofNat 0) && !mode.eq (.ofNat 1) && !mode.eq (.ofNat 2))
    "COMPENSATION_ACTION" "unsupported compensation action"
  let commitment ← present input.commitment "NOTE_NOT_FOUND" FAIL.NOTE_NOT_FOUND
  let live ← present (Records.find NoteRecord.commitment next.notes commitment) "NOTE_NOT_FOUND"
    FAIL.NOTE_NOT_FOUND
  failIf live.redeemed "NOTE_USED" FAIL.NOTE_USED
  let cost := live.amount.add live.fee
  failIf (!assertSafeUint live.amount || !assertSafeUint live.fee || !assertSafeUint cost)
    "OVERFLOW" FAIL.OVERFLOW
  let handled ← handleNote env input mode commitment live cost next
  pure { handled with ledger := pushEvent handled.ledger }

/-! ## Repayment and status -/

/-- The input of `acknowledgeRepayment`. -/
structure RepayInput (B : Type) where
  caller : Option B
  callerSk : Option B
  agent : Option (AgentStore B)
  witness : Option (LineWitness B)
  receipt : Option (RepayReceipt B)
  newSalt : Option B
  receiptExpiry : Option Number

/-- `RepayWitness`. -/
structure RepayWitness (B : Type) where
  books : LineWitness B
  receipt : RepayReceipt B

/-- What `acknowledgeRepayment` returns. -/
structure Repaid (B : Type) where
  ledger : Ledger B
  witness : LineWitness B
  agent : Option (AgentStore B)

/-- `witness?.books ?? input.witness ?? input.agent?.witness`. -/
def RepayInput.books (input : RepayInput B) (witness : Option (RepayWitness B)) :
    Option (LineWitness B) :=
  (witness.map (·.books)).or (input.witness.or (input.agent.bind (·.witness)))

/-- `witness?.receipt ?? input.receipt`. -/
def RepayInput.proof (input : RepayInput B) (witness : Option (RepayWitness B)) :
    Option (RepayReceipt B) :=
  (witness.map (·.receipt)).or input.receipt

def acknowledgeRepayment [Words B] (env : Env B) (ledger : Ledger B) (input : RepayInput B)
    (witness : Option (RepayWitness B)) : Result (Repaid B) := do
  let next := ledger
  let caller := getCaller input.caller input.callerSk
  failIf (!isIssuer next caller) "AUTH_ISSUER" FAIL.AUTH_ISSUER
  failIf (decide (next.status ≠ .OPEN) && decide (next.status ≠ .DEFAULTED)) "STATUS" FAIL.STATUS
  let C ← present next.lineCommitment "NO_LINE" FAIL.NO_LINE
  let books ← present (input.books witness) "STALE" FAIL.STALE
  let opened ← opens books next.lineCommitment
  failIf (!opened) "STALE" FAIL.STALE
  let r ← present (input.proof witness) "RECEIPT" FAIL.RECEIPT
  failIf (decide (r.contractDomain ≠ next.contractDomain)) "RECEIPT" FAIL.RECEIPT
  failIf (decide (r.identity ≠ books.I) || decide (some r.identity ≠ next.identityCommitment))
    "RECEIPT" FAIL.RECEIPT
  failIf (decide (r.currentC ≠ C)) "RECEIPT_STALE" FAIL.RECEIPT_STALE
  deadline env (input.receiptExpiry.getD r.expiry) FAIL.EXPIRY
  let R := r.amount
  failIf (!assertSafeUint R || R.le (.ofNat 0) || books.B.lt R) "RECEIPT_RANGE" FAIL.RECEIPT_RANGE
  let referenceBytes ← catchFail "RECEIPT" FAIL.RECEIPT
    (canonicalPaymentReferenceBytes r.paymentRef)
  let amount ← u64 R
  let N := repayNullifier r.nonce books.I C amount referenceBytes next.contractDomain
  let paymentN := paymentNullifier caller referenceBytes next.contractDomain
  failIf (decide (paymentN ∈ next.nullifiers)) "RECEIPT_USED" FAIL.RECEIPT_USED
  failIf (decide (N ∈ next.nullifiers)) "RECEIPT_USED" FAIL.RECEIPT_USED
  let nextWitness : LineWitness B := {
    domain := next.contractDomain, I := books.I, L := books.L, B := books.B.sub R
    e := books.e.add (.ofNat 1), s := input.newSalt.getD (env.randomBytes32 0) }
  let C2 ← lineCommitment nextWitness
  pure {
    ledger := pushEvent { next with
      lineCommitment := some C2
      nullifiers := next.nullifiers ++ [N, paymentN] }
    witness := nextWitness
    agent := input.agent.map fun agent => { agent with
      witness := some nextWitness, identityCommitment := some books.I } }

/-- The input of `setStatus`. -/
structure StatusInput (B : Type) where
  caller : Option B
  callerSk : Option B
  status : LineStatus
  witness : Option (LineWitness B)

/-- `if (input.status === "closed") { … }`. -/
def closing (input : StatusInput B) (next : Ledger B) : Result Unit :=
  if input.status = .CLOSED then do
    let books ← present input.witness "STALE" "stale closing book"
    failIf (decide (some books.I ≠ next.identityCommitment)) "STALE" "stale closing book"
    let opened ← opens books next.lineCommitment
    failIf (!opened) "STALE" "stale closing book"
    failIf (!books.B.eq (.ofNat 0)) "OUTSTANDING_DEBT" "outstanding debt"
  else pure ()

def setStatus (ledger : Ledger B) (input : StatusInput B) : Result (Ledger B) := do
  let next := ledger
  let caller := getCaller input.caller input.callerSk
  failIf (!isIssuer next caller) "AUTH_ISSUER" FAIL.AUTH_ISSUER
  failIf (decide (next.status = .NONE) || next.lineCommitment.isNone) "NO_LINE" FAIL.NO_LINE
  failIf (decide (input.status = .NONE)) "BAD_STATUS" FAIL.BAD_STATUS
  failIf (decide (next.status = .CLOSED)) "CLOSED" FAIL.CLOSED
  failIf (decide (input.status = .OPEN) && decide (next.status ≠ .OPEN)
    && decide (next.status ≠ .DEFAULTED)) "BAD_STATUS" FAIL.BAD_STATUS
  closing input next
  pure (pushEvent { next with status := input.status })

/-! ## Calls -/

/-- An operation with what its caller passes. -/
inductive Input (B : Type) where
  | registerMerchant (input : MerchantInput B)
  | disableMerchant (caller merchantPk : B)
  | fundReserve (input : AmountInput B)
  | withdrawUnencumberedReserve (input : AmountInput B)
  | withdrawFees (caller : B)
  | openLine (input : OpenLineInput B) (witnessLimit : Option Number)
  | postQuote (input : PostQuoteInput B) (witnessAmount : Option Number)
  | draw (input : DrawInput B) (witness : Option (DrawWitness B))
  | redeemDraw (input : RedeemInput B) (witnessNote : Option (DrawNotePreimage B))
  | cancelOrExpireNote (input : NoteInput B)
  | acknowledgeRepayment (input : RepayInput B) (witness : Option (RepayWitness B))
  | setStatus (input : StatusInput B)

/-- Run the operation, and keep the ledger of what it returns. -/
def run [Words B] (env : Env B) (input : Input B) (ledger : Ledger B) : Result (Ledger B) :=
  match input with
  | .registerMerchant input => registerMerchant ledger input
  | .disableMerchant caller merchantPk => disableMerchant ledger caller merchantPk
  | .fundReserve input => fundReserve ledger input
  | .withdrawUnencumberedReserve input => withdrawUnencumberedReserve ledger input
  | .withdrawFees caller => (withdrawFees ledger caller).map (·.ledger)
  | .openLine input limit => (openLine env ledger input limit).map (·.ledger)
  | .postQuote input amount => (postQuote env ledger input amount).map (·.ledger)
  | .draw input witness => (draw env ledger input witness).map (·.ledger)
  | .redeemDraw input note => (redeemDraw env ledger input note).map (·.ledger)
  | .cancelOrExpireNote input => (cancelOrExpireNote env ledger input).map (·.ledger)
  | .acknowledgeRepayment input witness =>
      (acknowledgeRepayment env ledger input witness).map (·.ledger)
  | .setStatus input => setStatus ledger input

end Line.Engine
