import Line.Console.Recovery
import Line.Proof.Provenance

/-!
# Quote packages

A merchant hands its quote to the agent as a package, which the agent's console imports
(`importQuotePackage`, `src/app/store.ts`) and later draws on (`doDraw`, and `draw` of
`src/lib/runtime/network.ts`). The import opens the commitment with the bytes of the invoice
id, the draw with what the displayed id is decoded to.

The two are the same bytes for a package that the console itself has exported, and need not be
for any other: the import looks at the displayed id only to see that there is one. So a package
that is accepted can be drawn on exactly if its displayed id is decoded to the invoice that was
opened (`accepted_drawable`). Everything else that the witness is built of was compared with the
commitment when the package came in, and the commitment binds it.

A package is a value, looked at property by property; strings are Unicode strings. How the
runtime turns bytes into words and back is given from outside (`Encoding`).
-/

namespace Line.Console

open Vault Journal Checked

/-- The words of the circuits, as bytes. -/
structure Encoding (B : Type) where
  word : Bytes → B
  bytes : B → Bytes
  word_bytes : ∀ b, (bytes b).length = 32 → word (bytes b) = b

/-- What is read of `ledger` when a package is imported. -/
structure PublicLedger where
  networkId : String
  contractAddress : Option String
  contractDomain : String
  lineGeneration : Value
  feeFlat : Value
  feeBps : Value

/-- `MerchantQuoteRecord`; what comes out of a package may be any value. -/
structure MerchantQuoteRecord where
  networkId : Value
  contractAddress : Value
  merchantPublicKey : Value
  invoiceIdBytes : Value
  displayInvoiceId : Value
  amount : Value
  expiry : Value
  quoteNonce : Value
  quoteCommitment : Value
  lineGeneration : Value
  feePolicy : Value
  feeFlat : Value
  feeBps : Value
  fee : Value
  status : String
  updatedAt : Value

def FEE_POLICY : String := "flat-plus-ceil-bps-v1"

/-! ## Texts, words and numbers -/

/-- `value.replace(/^0x/, "").toLowerCase()`. -/
def plainHex (value : Value) : Result (List Char) :=
  match value with
  | .string s => .ok ((strip s.toList).map Char.toLower)
  | _ => .error (.typeError "value.replace is not a function")

def isSpace (c : Char) : Bool :=
  decide (c.toNat < 65536) && Line.Engine.isWhitespace c.toNat.toUInt16

/-- `text.trim()`. -/
def trim (cs : List Char) : List Char :=
  ((cs.dropWhile isSpace).reverse.dropWhile isSpace).reverse

/-- `validateWitnessBytes32`. -/
def validateWitnessBytes32 (value : Value) : Result Bytes :=
  match value with
  | .string s =>
    let clean := strip (trim s.toList)
    if (trim s.toList).isEmpty then .error (.plain "Missing private witness.")
    else if clean.length = 64 ∧ clean.all isHexDigit then
      .ok ((readBytes (clean.map Char.toLower)).getD [])
    else .error (.plain "Expected a 32-byte hex string (64 characters).")
  | .bytes bs =>
    if bs.length = 32 then .ok bs
    else .error (.plain "Expected a 32-byte hex string (64 characters).")
  | _ => .error (.plain "Missing private witness.")

/-- `BigInt(n)` of a number, as a `Uint<64>`. -/
def uint64 (value : Value) : Result Line.U64 :=
  match value with
  | .number (.finite q) =>
    if h : q.isInt ∧ 0 ≤ q ∧ q.num.toNat < 2 ^ 64 then .ok ⟨q.num.toNat, h.2.2⟩
    else .error (.plain "The number cannot be converted to a Uint<64>.")
  | .minusZero => .ok (.zero 64)
  | _ => .error (.typeError "Cannot convert to a BigInt")

/-- `new TextEncoder().encode(text)`. -/
def textBytes (s : String) : Bytes := s.toUTF8.toList.map fun b => Fin.ofNat 256 b.toNat

/-- `pad32`. -/
def pad32 (label : String) : Result Bytes :=
  if 32 < (textBytes label).length then .error (.plain s!"pad32 overflow: {label}")
  else .ok (textBytes label ++ List.replicate (32 - (textBytes label).length) 0)

/-- `/^[0-9a-fA-F]{64}$/`, less `0x`. -/
def isWordText (s : String) : Bool :=
  decide ((strip s.toList).length = 64) && (strip s.toList).all isHexDigit

/-- `invoiceReferenceError(invoiceId) === ""`. -/
def invoiceReferenceOk (invoiceId : String) : Bool :=
  isWordText invoiceId || decide ((textBytes invoiceId).length ≤ 32)

/-- `canonicalInvoiceIdBytes`. -/
def canonicalInvoiceIdBytes (invoiceId : String) : Result Bytes := do
  require (invoiceReferenceOk invoiceId)
    (.plain "Use a reference of at most 32 UTF-8 bytes, or a 64-digit hexadecimal invoice ID.")
  if isWordText invoiceId then
    .ok ((readBytes ((strip invoiceId.toList).map Char.toLower)).getD [])
  else pad32 invoiceId

/-! ## Importing -/

/-- `validateQuoteFeeTerms`. -/
def validateQuoteFeeTerms (value : Value) : Result Unit := do
  require ((value.get "feePolicy").isText FEE_POLICY)
    (.plain "Missing or unsupported issuer fee policy. Obtain a newly priced quote.")
  ["amount", "feeFlat", "feeBps", "fee"].forM fun key =>
    require (value.get key).safeNat.isSome (.plain s!"Invalid quote {key}")
  let number := fun key => ((value.get key).safeNat.getD 0 : ℤ)
  require (decide (0 < number "amount")) (.plain "Invalid quote amount")
  match Line.Engine.requiredDrawFee (number "amount") (number "feeFlat") (number "feeBps") with
  | .ok expected =>
    require (decide (number "fee" = expected))
      (.plain "Agreed quote fee does not match issuer policy")
  | .error (.thrown reason) => .error (.plain reason)
  | .error (.fail refusal) => .error (.plain refusal.reason)

/-- An expectation that is `undefined` or empty is not checked. -/
def expected (expectation : Option String) (value : Value) : Bool :=
  match expectation with
  | none | some "" => true
  | some s => value.isText s

/-- `validateQuoteTransferPackage`; what is refused for its target is not named here. -/
def validateQuoteTransferPackage (p : Value) (expectedNetwork expectedContract : Option String) :
    Result Unit := do
  require p.isObject (.plain "Invalid QuoteTransferPackage: expected object")
  require ((p.get "format").isText "line:quote-package:v3" &&
      (p.get "deadlineUnits").isText "unix-seconds")
    (.plain ("Unsupported quote fee/deadline format. Obtain a new v3 issuer-priced Unix-seconds " ++
      "quote package; legacy terms cannot be migrated automatically."))
  require (p.get "expiry").safeNat.isSome (.plain "Invalid Unix-seconds quote deadline")
  require (expected expectedNetwork (p.get "networkId")) (.plain "Quote network mismatch")
  require (expected expectedContract (p.get "contractAddress")) (.plain "Quote contract mismatch")
  require (p.get "quoteCommitment").isFilled
    (.plain "Missing quoteCommitment in QuoteTransferPackage")
  require (match p.get "amount" with
      | .number n => !n.le (.ofNat 0)
      | _ => false) (.plain "Invalid quote amount")
  require (p.get "quoteNonce").isFilled (.plain "Missing quoteNonce in package")
  validateQuoteFeeTerms p

variable {B : Type} [Line.Compact B]

/-- `quoteCommit`, of the terms that a package names. -/
def quotedCommit (enc : Encoding B) (merchantPublicKey invoiceIdBytes amount expiry quoteNonce
    lineGeneration contractDomain feeFlat feeBps : Value) : Result B := do
  let merchantPk ← hexToBytes merchantPublicKey
  let invoiceId ← hexToBytes invoiceIdBytes
  let amount ← uint64 amount
  let expiry ← uint64 expiry
  let nonce ← hexToBytes quoteNonce
  let generation ← uint64 lineGeneration
  let domain ← hexToBytes contractDomain
  let feeFlat ← uint64 feeFlat
  let feeBps ← uint64 feeBps
  pure (Line.quoteCommit (enc.word merchantPk) (enc.word invoiceId) amount expiry (enc.word nonce)
    generation (enc.word domain) feeFlat feeBps)

/-- The record of a package. -/
def packageRecord (valid : Value) : MerchantQuoteRecord where
  networkId := valid.get "networkId"
  contractAddress := valid.get "contractAddress"
  merchantPublicKey := valid.get "merchantPublicKey"
  invoiceIdBytes := valid.get "invoiceIdBytes"
  displayInvoiceId := valid.get "displayInvoiceId"
  amount := valid.get "amount"
  expiry := valid.get "expiry"
  quoteNonce := valid.get "quoteNonce"
  quoteCommitment := valid.get "quoteCommitment"
  lineGeneration := valid.get "lineGeneration"
  feePolicy := valid.get "feePolicy"
  feeFlat := valid.get "feeFlat"
  feeBps := valid.get "feeBps"
  fee := valid.get "fee"
  status := "open"
  updatedAt := valid.get "issuedAt"

def termsMismatch : Error :=
  .plain "Quote terms do not match the current issuer-approved policy and commitment."

/-- `importQuotePackage`, of an open session: the quotes it leaves, if it returns true. -/
def importQuotePackage (enc : Encoding B) (ledger : PublicLedger)
    (merchantQuotes : List MerchantQuoteRecord) (valid : Value) :
    Result (List MerchantQuoteRecord) := do
  validateQuoteTransferPackage valid (some ledger.networkId) ledger.contractAddress
  let domain ← plainHex (valid.get "contractDomain")
  require (domain == (strip ledger.contractDomain.toList).map Char.toLower &&
      (valid.get "lineGeneration").strictEq ledger.lineGeneration &&
      (valid.get "feeFlat").strictEq ledger.feeFlat && (valid.get "feeBps").strictEq ledger.feeBps)
    termsMismatch
  let commitment ← quotedCommit enc (valid.get "merchantPublicKey") (valid.get "invoiceIdBytes")
    (valid.get "amount") (valid.get "expiry") (valid.get "quoteNonce") (valid.get "lineGeneration")
    (valid.get "contractDomain") (valid.get "feeFlat") (valid.get "feeBps")
  let text ← plainHex (valid.get "quoteCommitment")
  require (text == (toHex (enc.bytes commitment)).toList) termsMismatch
  if merchantQuotes.any fun q => q.quoteCommitment.strictEq (valid.get "quoteCommitment") then
    pure merchantQuotes
  else pure (merchantQuotes ++ [packageRecord valid])

/-- The record that `doQuote` keeps of a quote it has posted. -/
def postedRecord (enc : Encoding B) (ledger : PublicLedger) (merchantPk quoteNonce : Bytes)
    (displayInvoiceId : String) (amount expiry fee updatedAt : ℕ) : Result MerchantQuoteRecord := do
  let invBytes ← canonicalInvoiceIdBytes displayInvoiceId
  let commitment ← quotedCommit enc (.string (toHex merchantPk)) (.string (toHex invBytes))
    (.number (.ofNat amount)) (.number (.ofNat expiry)) (.string (toHex quoteNonce))
    ledger.lineGeneration (.string ledger.contractDomain) ledger.feeFlat ledger.feeBps
  pure {
    networkId := .string ledger.networkId
    contractAddress := .string (ledger.contractAddress.getD "")
    merchantPublicKey := .string (toHex merchantPk)
    invoiceIdBytes := .string (toHex invBytes)
    displayInvoiceId := .string displayInvoiceId
    amount := .number (.ofNat amount)
    expiry := .number (.ofNat expiry)
    quoteNonce := .string (toHex quoteNonce)
    quoteCommitment := .string (toHex (enc.bytes commitment))
    lineGeneration := ledger.lineGeneration
    feePolicy := .string FEE_POLICY
    feeFlat := ledger.feeFlat
    feeBps := ledger.feeBps
    fee := .number (.ofNat fee)
    status := "open"
    updatedAt := .number (.ofNat updatedAt) }

/-- What a draw does to the quotes. -/
def consume (Q : Value) (q : MerchantQuoteRecord) : MerchantQuoteRecord :=
  if q.quoteCommitment.strictEq Q then { q with status := "consumed" } else q

/-- The quotes that a console can come to keep. -/
inductive Stored (enc : Encoding B) : List MerchantQuoteRecord → Prop
  | nil : Stored enc []
  | imported {quotes quotes' ledger valid} : Stored enc quotes →
      importQuotePackage enc ledger quotes valid = .ok quotes' → Stored enc quotes'
  | posted {quotes ledger merchantPk nonce display amount expiry fee updatedAt q} :
      Stored enc quotes →
      postedRecord enc ledger merchantPk nonce display amount expiry fee updatedAt = .ok q →
      Stored enc (quotes ++ [q])
  | drawn {quotes Q} : Stored enc quotes → Stored enc (quotes.map (consume Q))

/-! ## Drawing -/

/-- What `draw` of the network runtime gets from the quote: arguments of the circuit and private
witnesses. The others are those of the agent's line. -/
structure DrawContext where
  quoteCommit : Bytes
  noteExpiry : Line.U64
  invoiceId : Bytes
  quoteNonce : Bytes
  drawAmount : Line.U64
  quoteMerchantPk : Bytes

/-- `draw`, as `doDraw` calls it on a stored quote. -/
def drawContext (quote : MerchantQuoteRecord) : Result DrawContext := do
  let noteExpiry ← uint64 quote.expiry
  require (decide (0 < noteExpiry.val)) (.plain "Draw refused: noteExpiry is required")
  require (notBlank quote.displayInvoiceId) (.plain "Missing private witness.")
  let invoiceId ← match quote.displayInvoiceId with
    | .string s => canonicalInvoiceIdBytes s
    | _ => .error (.typeError "params.invoiceId.trim is not a function")
  let quoteNonce ← validateWitnessBytes32 quote.quoteNonce
  let drawAmount ← uint64 quote.amount
  -- a key that is missing is missed when the circuit asks for it
  let quoteMerchantPk ← validateWitnessBytes32 quote.merchantPublicKey
  let quoteCommit ← validateWitnessBytes32 quote.quoteCommitment
  pure { quoteCommit, noteExpiry, invoiceId, quoteNonce, drawAmount, quoteMerchantPk }

/-- The circuit's test: the terms that are witnessed, and those of the ledger, hash to the quote. -/
def DrawContext.Recomputes (enc : Encoding B) (ctx : DrawContext) (s : Line.Ledger B) (Q : B)
    (quote : Line.QuoteMeta) : Prop :=
  enc.word ctx.quoteCommit = Q ∧
    Line.quoteCommit (enc.word ctx.quoteMerchantPk) (enc.word ctx.invoiceId) ctx.drawAmount
      quote.expiry (enc.word ctx.quoteNonce) quote.lineGeneration s.contractDomain s.feeFlat
      s.feeBps = Q

instance [DecidableEq B] (enc : Encoding B) (ctx : DrawContext) (s : Line.Ledger B) (Q : B)
    (quote : Line.QuoteMeta) : Decidable (ctx.Recomputes enc s Q quote) :=
  inferInstanceAs (Decidable (_ ∧ _))

/-! ## Reading hexadecimal texts -/

theorem hexDigit_toLower {c : Char} (h : isHexDigit c = true) :
    ∃ x < 16, hexDigit c.toLower = some x ∧ Nat.digitChar x = c.toLower := by
  have key : ("0123456789abcdefABCDEF".toList.all fun c =>
      (List.range 16).any fun x => hexDigit c.toLower == some x && Nat.digitChar x == c.toLower)
        = true := by decide
  rw [List.all_eq_true] at key
  obtain ⟨x, hx, heq⟩ := List.any_eq_true.mp (key c (List.contains_iff_mem.mp h))
  rw [Bool.and_eq_true, beq_iff_eq, beq_iff_eq] at heq
  exact ⟨x, List.mem_range.mp hx, heq⟩

/-- Only hexadecimal digits are one in lower case. -/
theorem isHexDigit_of_toLower {c : Char} (h : isHexDigit c.toLower = true) :
    isHexDigit c = true := by
  by_cases hc : c.toLower = c
  · rwa [hc] at h
  · have hupper : 65 ≤ c.toNat ∧ c.toNat ≤ 90 := by
      by_contra hout
      have hrange : ¬('A'.val ≤ c.val ∧ c.val ≤ 'Z'.val) := by
        intro hle
        exact hout ⟨UInt32.le_iff_toNat_le.mp hle.1, UInt32.le_iff_toNat_le.mp hle.2⟩
      exact hc (dif_neg hrange)
    have key : ((List.range 91).all fun n => decide (n < 65) ||
        !isHexDigit (Char.ofNat n).toLower || isHexDigit (Char.ofNat n)) = true := by
      decide
    have hsame : Char.ofNat c.toNat = c := Char.ofNat_toNat c
    rw [← hsame] at h ⊢
    have hc := List.all_eq_true.mp key c.toNat (List.mem_range.mpr (by omega))
    rw [h, decide_eq_false (by omega)] at hc
    exact hc

/-- A text of pairs of digits is read, and is the text of what is read, in lower case. -/
theorem readBytes_digits {cs : List Char} (hall : ∀ c ∈ cs, isHexDigit c = true)
    (heven : cs.length % 2 = 0) : ∃ bs, readBytes (cs.map Char.toLower) = some bs ∧
      cs.length = 2 * bs.length ∧ bs.flatMap hexPair = cs.map Char.toLower := by
  match cs with
  | [] => exact ⟨[], rfl, rfl, rfl⟩
  | [_] => cases heven
  | a :: b :: cs =>
    obtain ⟨x, hx, hax, hxa⟩ := hexDigit_toLower (hall a List.mem_cons_self)
    obtain ⟨y, hy, hby, hyb⟩ :=
      hexDigit_toLower (hall b (List.mem_cons_of_mem _ List.mem_cons_self))
    have hrest : ∀ c ∈ cs, isHexDigit c = true :=
      fun c hc => hall c (List.mem_cons_of_mem _ (List.mem_cons_of_mem _ hc))
    obtain ⟨bs, hread, hlength, htext⟩ := readBytes_digits hrest (by
      rw [List.length_cons, List.length_cons] at heven
      omega)
    have hpair : readPair a.toLower b.toLower = some (Fin.ofNat 256 (16 * x + y)) := by
      rw [readPair, hax, hby]
    have hback : hexPair (Fin.ofNat 256 (16 * x + y)) = [a.toLower, b.toLower] := by
      have hval : (Fin.ofNat 256 (16 * x + y)).val = 16 * x + y := Nat.mod_eq_of_lt (by omega)
      rw [hexPair, hval, show (16 * x + y) / 16 = x by omega, show (16 * x + y) % 16 = y by omega,
        hxa, hyb]
    refine ⟨Fin.ofNat 256 (16 * x + y) :: bs, ?_, ?_, ?_⟩
    · rw [List.map_cons, List.map_cons, readBytes, hpair, hread]
    · rw [List.length_cons, List.length_cons, List.length_cons, hlength]
      omega
    · rw [List.flatMap_cons, hback, htext]
      rfl

theorem hexPair_digits (b : Fin 256) : ∀ c ∈ hexPair b, isHexDigit c = true ∧ c.toLower = c := by
  have key : ∀ x < 16, isHexDigit (Nat.digitChar x) = true ∧
      (Nat.digitChar x).toLower = Nat.digitChar x := by decide
  have hlt := b.isLt
  intro c hc
  rcases List.mem_pair.mp hc with rfl | rfl
  · exact key _ (by omega)
  · exact key _ (by omega)

theorem toHex_digits (bs : Bytes) :
    ∀ c ∈ (toHex bs).toList, isHexDigit c = true ∧ c.toLower = c := by
  intro c hc
  rw [toHex, String.toList_ofList] at hc
  obtain ⟨b, -, hmem⟩ := List.mem_flatMap.mp hc
  exact hexPair_digits b c hmem

theorem length_toHex (bs : Bytes) : (toHex bs).toList.length = 2 * bs.length := by
  rw [toHex, String.toList_ofList]
  induction bs with
  | nil => rfl
  | cons b bs ih =>
    rw [List.flatMap_cons, List.length_append, ih, List.length_cons]
    simp only [hexPair, List.length_cons, List.length_nil]
    omega

/-- A text that is the text of bytes in lower case has only digits. -/
theorem digits_of_map {cs : List Char} {bs : Bytes} (h : cs.map Char.toLower = (toHex bs).toList) :
    (∀ c ∈ cs, isHexDigit c = true) ∧ cs.length = 2 * bs.length := by
  have hlength := congrArg List.length h
  rw [List.length_map, length_toHex] at hlength
  refine ⟨?_, hlength⟩
  intro c hc
  refine isHexDigit_of_toLower (toHex_digits bs _ ?_).1
  rw [← h]
  exact List.mem_map_of_mem hc

/-- What is read, digit by digit. -/
theorem hexToBytes_ok_iff {v : Value} {bs : Bytes} : hexToBytes v = .ok bs ↔
    ∃ s, v = .string s ∧ (strip s.toList).map Char.toLower = (toHex bs).toList := by
  constructor
  · intro h
    cases v with
    | string s =>
      rw [hexToBytes] at h
      split at h
      · next hdigits =>
        obtain ⟨bs', hread, -, htext⟩ :=
          readBytes_digits (List.all_eq_true.mp hdigits.2) hdigits.1
        rw [hread] at h
        cases h
        refine ⟨s, rfl, ?_⟩
        rw [toHex, String.toList_ofList]
        exact htext.symm
      · cases h
    | _ => cases h
  · rintro ⟨s, rfl, htext⟩
    obtain ⟨hall, hlength⟩ := digits_of_map htext
    have heven : (strip s.toList).length % 2 = 0 := by omega
    rw [hexToBytes, if_pos ⟨heven, List.all_eq_true.mpr hall⟩, htext, toHex, String.toList_ofList,
      readBytes_flatMap]
    rfl

/-- A text of bytes is read back. -/
theorem hexToBytes_toHex (bs : Bytes) : hexToBytes (.string (toHex bs)) = .ok bs := by
  refine hexToBytes_ok_iff.mpr ⟨_, rfl, ?_⟩
  have hdigits := toHex_digits bs
  rw [strip_digits (List.all_eq_true.mpr fun c hc => (hdigits c hc).1)]
  exact (List.map_congr_left fun c hc => (hdigits c hc).2).trans (List.map_id _)

theorem mem_strip {cs : List Char} {c : Char} (h : c ∈ cs) : c ∈ strip cs ∨ c = '0' ∨ c = 'x' := by
  unfold strip
  split
  · rcases List.mem_cons.mp h with rfl | h
    · exact .inr (.inl rfl)
    · rcases List.mem_cons.mp h with rfl | h
      · exact .inr (.inr rfl)
      · exact .inl h
  · exact .inl h

/-- There is nothing to trim off a text of digits. -/
theorem trim_digits {s : String} (h : ∀ c ∈ strip s.toList, isHexDigit c = true) :
    trim s.toList = s.toList := by
  have hchars : ∀ c ∈ s.toList, isSpace c = false := by
    have key : (('x' :: "0123456789abcdefABCDEF".toList).all fun c => !isSpace c) = true := by
      decide
    intro c hc
    rw [← Bool.not_eq_true']
    refine List.all_eq_true.mp key c ?_
    rcases mem_strip hc with hc | rfl | rfl
    · exact List.mem_cons_of_mem _ (List.contains_iff_mem.mp (h c hc))
    · decide
    · decide
  have hdrop : ∀ l : List Char, (∀ c ∈ l, isSpace c = false) → l.dropWhile isSpace = l := by
    intro l hl
    cases l with
    | nil => rfl
    | cons c l => rw [List.dropWhile_cons, hl c List.mem_cons_self, if_neg Bool.false_ne_true]
  have hreverse : ∀ c ∈ s.toList.reverse, isSpace c = false :=
    fun c hc => hchars c (List.mem_reverse.mp hc)
  rw [trim, hdrop _ hchars, hdrop _ hreverse, List.reverse_reverse]

/-- A text that is read as bytes is a witness exactly if it is of 32 bytes. -/
theorem validate_iff {v : Value} {bs bs' : Bytes} (h : hexToBytes v = .ok bs) :
    validateWitnessBytes32 v = .ok bs' ↔ bs' = bs ∧ bs.length = 32 := by
  obtain ⟨s, rfl, htext⟩ := hexToBytes_ok_iff.mp h
  obtain ⟨hall, hlength⟩ := digits_of_map htext
  have hread : (readBytes ((strip s.toList).map Char.toLower)).getD [] = bs := by
    rw [htext, toHex, String.toList_ofList, readBytes_flatMap]
    rfl
  simp only [validateWitnessBytes32, trim_digits hall, hread, hlength]
  constructor
  · intro hv
    split at hv
    · cases hv
    · split at hv
      · next hwords =>
        cases hv
        exact ⟨rfl, by omega⟩
      · cases hv
  · rintro ⟨rfl, h32⟩
    have hne : s.toList.isEmpty = false := by
      cases hs : s.toList with
      | nil =>
        rw [hs] at hlength
        simp only [strip, List.length_nil] at hlength
        omega
      | cons c cs => rfl
    rw [hne, if_neg Bool.false_ne_true, if_pos ⟨by omega, List.all_eq_true.mpr hall⟩]

theorem length_toList_loop (bs : ByteArray) (i : ℕ) (acc : List UInt8) :
    (ByteArray.toList.loop bs i acc).length = acc.length + (bs.size - i) := by
  fun_induction ByteArray.toList.loop bs i acc with
  | case1 i acc h ih =>
    rw [ih, List.length_cons]
    omega
  | case2 i acc h =>
    rw [List.length_reverse]
    omega

theorem length_le_utf8Encode (cs : List Char) : cs.length ≤ cs.utf8Encode.size := by
  induction cs with
  | nil => exact Nat.zero_le _
  | cons c cs ih =>
    have hc : 0 < [c].utf8Encode.size := by
      rw [List.utf8Encode_singleton, List.size_toByteArray, String.length_utf8EncodeChar]
      exact c.utf8Size_pos
    rw [List.utf8Encode_cons, ByteArray.size_append, List.length_cons]
    omega

/-- A text has at least as many bytes as characters. -/
theorem length_le_textBytes (s : String) : s.length ≤ (textBytes s).length := by
  have hbytes := length_le_utf8Encode s.toList
  rw [← String.toByteArray_ofList, String.ofList_toList] at hbytes
  rw [textBytes, List.length_map, ByteArray.toList, length_toList_loop, ← String.length_toList]
  simpa using hbytes

/-- A reference that is too long, and is not a word in hexadecimal. -/
theorem canonicalInvoiceIdBytes_long {s : String} (hword : isWordText s = false)
    (hlong : 32 < s.length) :
    canonicalInvoiceIdBytes s = .error (.plain
      "Use a reference of at most 32 UTF-8 bytes, or a 64-digit hexadecimal invoice ID.") := by
  have hbytes : ¬ (textBytes s).length ≤ 32 := by
    have := length_le_textBytes s
    omega
  rw [canonicalInvoiceIdBytes, invoiceReferenceOk, hword, decide_eq_false hbytes]
  rfl

/-- A word is the invoice that its digits display. -/
theorem canonicalInvoiceIdBytes_toHex {bs : Bytes} (h32 : bs.length = 32) :
    canonicalInvoiceIdBytes (toHex bs) = .ok bs := by
  have hdigits := toHex_digits bs
  have hall : ∀ c ∈ (toHex bs).toList, isHexDigit c = true := fun c hc => (hdigits c hc).1
  have hstrip := strip_digits (List.all_eq_true.mpr hall)
  have hlower : (toHex bs).toList.map Char.toLower = (toHex bs).toList :=
    (List.map_congr_left fun c hc => (hdigits c hc).2).trans (List.map_id _)
  have hword : isWordText (toHex bs) = true := by
    rw [isWordText, hstrip, Bool.and_eq_true, length_toHex, h32]
    exact ⟨rfl, List.all_eq_true.mpr hall⟩
  rw [canonicalInvoiceIdBytes, invoiceReferenceOk, hword, hstrip, hlower, toHex,
    String.toList_ofList, readBytes_flatMap]
  rfl

theorem plainHex_iff {v : Value} {bs : Bytes} :
    plainHex v = .ok (toHex bs).toList ↔ hexToBytes v = .ok bs := by
  rw [hexToBytes_ok_iff]
  constructor
  · intro h
    cases v with
    | string s => exact ⟨s, rfl, Except.ok.inj h⟩
    | _ => cases h
  · rintro ⟨s, rfl, htext⟩
    rw [plainHex, htext]

/-! ## What is stored -/

/-- The terms of a stored quote open its commitment. -/
def Opened (enc : Encoding B) (q : MerchantQuoteRecord) : Prop :=
  ∃ domain commitment,
    quotedCommit enc q.merchantPublicKey q.invoiceIdBytes q.amount q.expiry q.quoteNonce
        q.lineGeneration domain q.feeFlat q.feeBps = .ok commitment ∧
      hexToBytes q.quoteCommitment = .ok (enc.bytes commitment)

variable {enc : Encoding B} {ledger : PublicLedger} {quotes quotes' : List MerchantQuoteRecord}
  {pkg : Value} {q : MerchantQuoteRecord}

/-- What an import has checked, and what it leaves. -/
theorem import_ok (h : importQuotePackage enc ledger quotes pkg = .ok quotes') :
    Opened enc (packageRecord pkg) ∧ quotes' =
      if quotes.any fun q => q.quoteCommitment.strictEq (pkg.get "quoteCommitment") then quotes
      else quotes ++ [packageRecord pkg] := by
  rw [importQuotePackage] at h
  obtain ⟨_, -, h⟩ := bind_ok_iff.mp h
  obtain ⟨domain, -, h⟩ := bind_ok_iff.mp h
  obtain ⟨_, -, h⟩ := bind_ok_iff.mp h
  obtain ⟨commitment, hcommit, h⟩ := bind_ok_iff.mp h
  obtain ⟨text, htext, h⟩ := bind_ok_iff.mp h
  obtain ⟨_, hsame, h⟩ := bind_ok_iff.mp h
  refine ⟨⟨_, commitment, hcommit, ?_⟩, ?_⟩
  · rw [← plainHex_iff]
    rw [eq_of_beq (require_ok_iff.mp hsame)] at htext
    exact htext
  · split at h
    · next hany => rw [if_pos hany, ← Except.ok.inj h]
    · next hany => rw [if_neg hany, ← Except.ok.inj h]

theorem posted_opened {merchantPk nonce : Bytes} {display : String}
    {amount expiry fee updatedAt : ℕ}
    (h : postedRecord enc ledger merchantPk nonce display amount expiry fee updatedAt = .ok q) :
    Opened enc q := by
  rw [postedRecord] at h
  obtain ⟨inv, -, h⟩ := bind_ok_iff.mp h
  obtain ⟨commitment, hcommit, h⟩ := bind_ok_iff.mp h
  cases h
  exact ⟨_, commitment, hcommit, hexToBytes_toHex _⟩

/-- **Every stored quote opens its commitment.** -/
theorem Stored.opened (hst : Stored enc quotes) : ∀ q ∈ quotes, Opened enc q := by
  induction hst with
  | nil =>
    intro q hq
    cases hq
  | imported _ himport ih =>
    obtain ⟨hnew, rfl⟩ := import_ok himport
    intro q hq
    split at hq
    · exact ih q hq
    · rcases List.mem_append.mp hq with hq | hq
      · exact ih q hq
      · rw [List.mem_singleton.mp hq]
        exact hnew
  | posted _ hpost ih =>
    intro q hq
    rcases List.mem_append.mp hq with hq | hq
    · exact ih q hq
    · rw [List.mem_singleton.mp hq]
      exact posted_opened hpost
  | drawn _ ih =>
    intro q hq
    obtain ⟨q₀, hq₀, rfl⟩ := List.mem_map.mp hq
    rw [consume]
    split
    · exact ih q₀ hq₀
    · exact ih q₀ hq₀

theorem strictEq_string {v : Value} {s : String} (h : v.strictEq (.string s) = true) :
    v = .string s := by
  cases v with
  | string t => rw [eq_of_beq h]
  | number n => cases n <;> cases h
  | _ => cases h

/-- The quote that a draw on an accepted package finds. -/
theorem import_find {s : String} (h : importQuotePackage enc ledger quotes pkg = .ok quotes')
    (hs : pkg.get "quoteCommitment" = .string s) :
    ∃ q ∈ quotes', q.quoteCommitment = .string s ∧
      quotes'.find? (fun q => q.quoteCommitment.strictEq (pkg.get "quoteCommitment")) = some q := by
  obtain ⟨-, rfl⟩ := import_ok h
  rw [hs]
  have hsome : ((if quotes.any fun q => q.quoteCommitment.strictEq (.string s) then quotes
      else quotes ++ [packageRecord pkg]).find? fun q =>
        q.quoteCommitment.strictEq (.string s)).isSome := by
    rw [List.find?_isSome]
    split
    · next hany => exact List.any_eq_true.mp hany
    · refine ⟨packageRecord pkg, List.mem_append_right _ List.mem_cons_self, ?_⟩
      rw [packageRecord, hs]
      exact beq_self_eq_true s
  obtain ⟨q, hq⟩ := Option.isSome_iff_exists.mp hsome
  have hfound := List.find?_some hq
  exact ⟨q, List.mem_of_find?_eq_some hq, strictEq_string hfound, hq⟩

theorem quotedCommit_ok_iff {merchant inv amount expiry nonce gen domain flat bps : Value}
    {commitment : B} :
    quotedCommit enc merchant inv amount expiry nonce gen domain flat bps = .ok commitment ↔
      ∃ merchantPk invoiceId, hexToBytes merchant = .ok merchantPk ∧
      hexToBytes inv = .ok invoiceId ∧
      ∃ a x, uint64 amount = .ok a ∧ uint64 expiry = .ok x ∧
      ∃ n g d, hexToBytes nonce = .ok n ∧ uint64 gen = .ok g ∧ hexToBytes domain = .ok d ∧
      ∃ f b, uint64 flat = .ok f ∧ uint64 bps = .ok b ∧
        commitment = Line.quoteCommit (enc.word merchantPk) (enc.word invoiceId) a x (enc.word n) g
          (enc.word d) f b := by
  simp only [quotedCommit, bind_ok_iff, pure_ok_iff]
  constructor
  · rintro ⟨m, hm, i, hi, a, ha, x, hx, n, hn, g, hg, d, hd, f, hf, b, hb, hc⟩
    exact ⟨m, i, hm, hi, a, x, ha, hx, n, g, d, hn, hg, hd, f, b, hf, hb, hc.symm⟩
  · rintro ⟨m, i, hm, hi, a, x, ha, hx, n, g, d, hn, hg, hd, f, b, hf, hb, hc⟩
    exact ⟨m, hm, i, hi, a, ha, x, hx, n, hn, g, hg, d, hd, f, hf, b, hb, hc.symm⟩

theorem drawContext_ok_iff {ctx : DrawContext} :
    drawContext q = .ok ctx ↔
      uint64 q.expiry = .ok ctx.noteExpiry ∧ 0 < ctx.noteExpiry.val ∧
      (∃ s, q.displayInvoiceId = .string s ∧ notBlank q.displayInvoiceId = true ∧
        canonicalInvoiceIdBytes s = .ok ctx.invoiceId) ∧
      validateWitnessBytes32 q.quoteNonce = .ok ctx.quoteNonce ∧
      uint64 q.amount = .ok ctx.drawAmount ∧
      validateWitnessBytes32 q.merchantPublicKey = .ok ctx.quoteMerchantPk ∧
      validateWitnessBytes32 q.quoteCommitment = .ok ctx.quoteCommit := by
  rw [drawContext]
  constructor
  · intro h
    obtain ⟨expiry, hexpiry, h⟩ := bind_ok_iff.mp h
    obtain ⟨_, hpositive, h⟩ := bind_ok_iff.mp h
    obtain ⟨_, hblank, h⟩ := bind_ok_iff.mp h
    -- what is displayed has to be a text before it can be decoded
    cases hs : q.displayInvoiceId with
    | string s =>
      rw [hs] at h hblank
      obtain ⟨invoice, hinvoice, h⟩ := bind_ok_iff.mp h
      obtain ⟨nonce, hnonce, h⟩ := bind_ok_iff.mp h
      obtain ⟨amount, hamount, h⟩ := bind_ok_iff.mp h
      obtain ⟨merchant, hmerchant, h⟩ := bind_ok_iff.mp h
      obtain ⟨commitment, hcommitment, h⟩ := bind_ok_iff.mp h
      cases h
      exact ⟨hexpiry, of_decide_eq_true (require_ok_iff.mp hpositive),
        ⟨s, rfl, require_ok_iff.mp hblank, hinvoice⟩, hnonce, hamount, hmerchant, hcommitment⟩
    | _ =>
      rw [hs] at h
      cases h
  -- the parts stand in the order in which the source computes them
  · rintro ⟨hexpiry, hpositive, ⟨s, hs, hblank, hinvoice⟩, hnonce, hamount, hmerchant, hcommitment⟩
    rw [hexpiry]
    refine bind_ok_iff.mpr ⟨_, rfl, ?_⟩
    refine bind_ok_iff.mpr ⟨(), require_ok_iff.mpr (decide_eq_true hpositive), ?_⟩
    refine bind_ok_iff.mpr ⟨(), require_ok_iff.mpr hblank, ?_⟩
    rw [hs, hnonce, hamount, hmerchant, hcommitment]
    exact bind_ok_iff.mpr ⟨_, hinvoice, rfl⟩

/-! ## Posted quotes -/

variable [DecidableEq B] {p : Line.Profile} {h : Line.Trace B} {s : Line.Ledger B} {Q : B}
  {quote : Line.QuoteMeta}

/-- **A posted quote commits to its terms**, and, while its generation lasts, to the line's
fees. -/
theorem posted_terms (r : Line.Reaches p h s) (hq : s.quotes.lookup Q = some quote) :
    0 < quote.expiry.val ∧ ∃ M inv amount nonce flat bps,
      Q = Line.quoteCommit M inv amount quote.expiry nonce quote.lineGeneration s.contractDomain
        flat bps ∧
      (quote.lineGeneration = s.lineGeneration → flat = s.feeFlat ∧ bps = s.feeBps) := by
  obtain ⟨e, he, hop, guard, hQ, hgen⟩ := r.posted hq
  have hdeadline := guard.deadline
  let w := e.label.witness
  refine ⟨by omega, Line.merchantPublicKey (w.callerSecret 0), w.invoiceId 0, w.quoteAmount 0,
    w.quoteNonce 0, e.pre.feeFlat, e.pre.feeBps, ?_, ?_⟩
  · rw [← r.domain_of_mem he, hgen]
    exact hQ
  · intro hsame
    obtain ⟨_, _, -, _, st, r₂⟩ := r.of_mem he
    rcases st.line with ⟨_, _, _, _, ho⟩ | ⟨-, hpost⟩
    · -- a post does not open the line
      have hopens := ho.op
      rw [hop] at hopens
      cases hopens
    · have hlater := r₂.line.2 (by rw [← hsame, hgen, hpost.lineGeneration])
      have hline := hpost.trans hlater
      exact ⟨hline.feeFlat.symm, hline.feeBps.symm⟩

/-! ## Accepted packages -/

variable [Line.LawfulCompact B]

/-- A stored quote of a posted commitment names its terms. -/
theorem Opened.terms (ho : Opened enc q) (r : Line.Reaches p h s)
    (hq : s.quotes.lookup Q = some quote)
    (hQ : hexToBytes q.quoteCommitment = .ok (enc.bytes Q)) (h32 : (enc.bytes Q).length = 32) :
    ∃ merchantPk invoiceId amount nonce flat bps,
      hexToBytes q.merchantPublicKey = .ok merchantPk ∧
      hexToBytes q.invoiceIdBytes = .ok invoiceId ∧ uint64 q.amount = .ok amount ∧
      uint64 q.expiry = .ok quote.expiry ∧ hexToBytes q.quoteNonce = .ok nonce ∧
      uint64 q.feeFlat = .ok flat ∧ uint64 q.feeBps = .ok bps ∧
      Q = Line.quoteCommit (enc.word merchantPk) (enc.word invoiceId) amount quote.expiry
        (enc.word nonce) quote.lineGeneration s.contractDomain flat bps ∧
      (quote.lineGeneration = s.lineGeneration → flat = s.feeFlat ∧ bps = s.feeBps) := by
  obtain ⟨domain, commitment, hcommit, hbytes⟩ := ho
  -- the commitment that was opened is the one on the chain
  have hsame : enc.bytes commitment = enc.bytes Q := Except.ok.inj (hbytes.symm.trans hQ)
  have hcommitment : commitment = Q := by
    rw [← enc.word_bytes commitment (by rw [hsame]; exact h32), hsame, enc.word_bytes Q h32]
  obtain ⟨merchantPk, invoiceId, hm, hi, a, x, ha, hx, n, g, d, hn, -, -, f, b, hf, hb, hc⟩ :=
    quotedCommit_ok_iff.mp hcommit
  obtain ⟨-, M, inv, amount, nonce, flat, bps, hposted, hfees⟩ := posted_terms r hq
  rw [hcommitment] at hc
  have hc' := hc
  rw [hposted] at hc'
  obtain ⟨-, -, -, rfl, -, rfl, hdomain, rfl, rfl⟩ := Line.quoteCommit_inj hc'
  rw [← hdomain] at hc
  exact ⟨merchantPk, invoiceId, a, n, flat, bps, hm, hi, ha, hx, hn, hf, hb, hc, hfees⟩

/-- The draw reads the terms that opened the quote. -/
structure Drawable (enc : Encoding B) (q : MerchantQuoteRecord) : Prop where
  merchant : ∃ bs, hexToBytes q.merchantPublicKey = .ok bs ∧ bs.length = 32
  nonce : ∃ bs, hexToBytes q.quoteNonce = .ok bs ∧ bs.length = 32
  /-- The displayed id, which the draw decodes, names the invoice that the import opened. -/
  invoice : ∃ s bs bs', q.displayInvoiceId = .string s ∧ notBlank q.displayInvoiceId = true ∧
    canonicalInvoiceIdBytes s = .ok bs ∧ hexToBytes q.invoiceIdBytes = .ok bs' ∧
    enc.word bs = enc.word bs'

/-- The line still charges the fees that the quote names. -/
def Charges (s : Line.Ledger B) (q : MerchantQuoteRecord) : Prop :=
  uint64 q.feeFlat = .ok s.feeFlat ∧ uint64 q.feeBps = .ok s.feeBps

/--
**What an accepted package is drawn with.** Let an import accept the package of a quote that is
on the chain, and `q` be the record that is then kept of it. A draw on it builds a witness that
recomputes the commitment exactly if the id that is displayed is decoded to the invoice that was
opened, the key and the nonce are whole words, and the line charges the fees that are named. The
last holds as long as the quote's generation is the line's.
-/
theorem accepted_drawable (hst : Stored enc quotes)
    (himport : importQuotePackage enc ledger quotes pkg = .ok quotes') (r : Line.Reaches p h s)
    (hq : s.quotes.lookup Q = some quote)
    (hQ : hexToBytes (pkg.get "quoteCommitment") = .ok (enc.bytes Q))
    (h32 : (enc.bytes Q).length = 32) :
    ∃ q, quotes'.find? (fun q => q.quoteCommitment.strictEq (pkg.get "quoteCommitment")) = some q ∧
      ((∃ ctx, drawContext q = .ok ctx ∧ ctx.Recomputes enc s Q quote) ↔
        Drawable enc q ∧ Charges s q) ∧
      (quote.lineGeneration = s.lineGeneration → Charges s q) := by
  obtain ⟨text, htext, -⟩ := hexToBytes_ok_iff.mp hQ
  -- the record that is kept is the one under the commitment
  obtain ⟨q, hmem, hsame, hfind⟩ := import_find himport htext
  have hcommitment : hexToBytes q.quoteCommitment = .ok (enc.bytes Q) := by
    rw [hsame, ← htext]
    exact hQ
  -- what its fields open, by binding
  obtain ⟨merchantPk, invoiceId, amount, nonce, flat, bps, hm, hi, ha, hx, hn, hf, hb, hterms,
    hfees⟩ := ((hst.imported himport).opened q hmem).terms r hq hcommitment h32
  obtain ⟨hexpiry, -⟩ := posted_terms r hq
  refine ⟨q, hfind, ?_, ?_⟩
  · constructor
    · rintro ⟨ctx, hctx, -, hrecomputed⟩
      obtain ⟨-, -, ⟨s', hs', hblank, hinv⟩, hnonce, hamount, hmerchant, -⟩ :=
        drawContext_ok_iff.mp hctx
      -- a witness that recomputes the commitment has the opened terms
      rw [hterms] at hrecomputed
      obtain ⟨-, hword, -, -, -, -, -, rfl, rfl⟩ := Line.quoteCommit_inj hrecomputed
      refine ⟨⟨⟨merchantPk, hm, ((validate_iff hm).mp hmerchant).2⟩,
        ⟨nonce, hn, ((validate_iff hn).mp hnonce).2⟩, ?_⟩, hf, hb⟩
      exact ⟨s', _, _, hs', hblank, hinv, hi, hword⟩
    · rintro ⟨⟨⟨m', hm', hmlen⟩, ⟨n', hn', hnlen⟩, s', inv, inv', hs', hblank, hinv, hinv', hword⟩,
        hflat, hbps⟩
      obtain rfl := Except.ok.inj (hm.symm.trans hm')
      obtain rfl := Except.ok.inj (hn.symm.trans hn')
      obtain rfl := Except.ok.inj (hi.symm.trans hinv')
      obtain rfl := Except.ok.inj (hf.symm.trans hflat)
      obtain rfl := Except.ok.inj (hb.symm.trans hbps)
      -- and the other way these terms are what the draw builds
      refine ⟨⟨enc.bytes Q, quote.expiry, inv, nonce, amount, merchantPk⟩, ?_, ?_, ?_⟩
      · exact drawContext_ok_iff.mpr ⟨hx, hexpiry, ⟨s', hs', hblank, hinv⟩,
          (validate_iff hn).mpr ⟨rfl, hnlen⟩, ha, (validate_iff hm).mpr ⟨rfl, hmlen⟩,
          (validate_iff hcommitment).mpr ⟨rfl, h32⟩⟩
      · exact enc.word_bytes Q h32
      · rw [hword]
        exact hterms.symm
  -- the fees are named for the generation of the quote
  · intro hgen
    obtain ⟨rfl, rfl⟩ := hfees hgen
    exact ⟨hf, hb⟩

/-! ## A package of two invoices -/

/-- The merchant's key, the domain and the quote have bytes of their own, other words have none. -/
def sampleEncoding : Encoding Line.Term where
  word bs :=
    if bs = List.replicate 32 1 then Line.merchantPublicKey Line.Demo.merchant
    else if bs = List.replicate 32 2 then Line.Demo.domain
    else if bs = List.replicate 32 3 then Line.Demo.quote 1 1
    else .atom (bs.foldl (fun n b => 256 * n + b.val) 0)
  bytes b :=
    if b = Line.merchantPublicKey Line.Demo.merchant then List.replicate 32 1
    else if b = Line.Demo.domain then List.replicate 32 2
    else if b = Line.Demo.quote 1 1 then List.replicate 32 3
    else []
  word_bytes := by
    intro b
    split
    · next hb => exact fun _ => hb.symm
    · split
      · next hb => exact fun _ => hb.symm
      · split
        · next hb => exact fun _ => hb.symm
        · intro h
          cases h

def samplePublicLedger : PublicLedger where
  networkId := "preview"
  contractAddress := none
  contractDomain := toHex (List.replicate 32 2)
  lineGeneration := .number (.ofNat 1)
  feeFlat := .number (.ofNat 1)
  feeBps := .number (.ofNat 100)

/-- The package of the quote, with an id to display. -/
def samplePackage (displayInvoiceId : String) : Value := .object [
  ("format", .string "line:quote-package:v3"),
  ("deadlineUnits", .string "unix-seconds"),
  ("networkId", .string "preview"),
  ("contractDomain", .string (toHex (List.replicate 32 2))),
  ("merchantPublicKey", .string (toHex (List.replicate 32 1))),
  ("invoiceIdBytes", .string (toHex (List.replicate 32 0))),
  ("displayInvoiceId", .string displayInvoiceId),
  ("amount", .number (.ofNat 100)),
  ("expiry", .number (.ofNat 50)),
  ("quoteNonce", .string (toHex (List.replicate 31 0 ++ [1]))),
  ("quoteCommitment", .string (toHex (List.replicate 32 3))),
  ("lineGeneration", .number (.ofNat 1)),
  ("feePolicy", .string FEE_POLICY),
  ("feeFlat", .number (.ofNat 1)),
  ("feeBps", .number (.ofNat 100)),
  ("fee", .number (.ofNat 2))]

/-- What a draw on it builds, for the invoice of that id. -/
def sampleContext (invoiceId : Bytes) : DrawContext where
  quoteCommit := List.replicate 32 3
  noteExpiry := Line.Demo.u64 50
  invoiceId
  quoteNonce := List.replicate 31 0 ++ [1]
  drawAmount := Line.Demo.u64 100
  quoteMerchantPk := List.replicate 32 1

/-- The context of that invoice does not recompute the quote. -/
def sampleMissed (invoiceId : Bytes) (s : Line.Ledger Line.Term) : Bool :=
  (s.quotes.lookup (Line.Demo.quote 1 1)).any fun quote =>
    ¬ (sampleContext invoiceId).Recomputes sampleEncoding s (Line.Demo.quote 1 1) quote

/-- The quote is on the chain, of the current generation. -/
def sampleCurrent (s : Line.Ledger Line.Term) : Bool :=
  (s.quotes.lookup (Line.Demo.quote 1 1)).any fun q => q.lineGeneration = s.lineGeneration

theorem sampleCurrent_iff {s : Line.Ledger Line.Term} : sampleCurrent s = true ↔
    ∃ quote, s.quotes.lookup (Line.Demo.quote 1 1) = some quote ∧
      quote.lineGeneration = s.lineGeneration := by
  rw [sampleCurrent, Option.any_eq_true]
  simp only [decide_eq_true_eq]

/-- The words of the package are those of the quote. -/
theorem sample_commit (display : String) : quotedCommit sampleEncoding
    ((samplePackage display).get "merchantPublicKey") ((samplePackage display).get "invoiceIdBytes")
    ((samplePackage display).get "amount") ((samplePackage display).get "expiry")
    ((samplePackage display).get "quoteNonce") ((samplePackage display).get "lineGeneration")
    ((samplePackage display).get "contractDomain") ((samplePackage display).get "feeFlat")
    ((samplePackage display).get "feeBps") = .ok (Line.Demo.quote 1 1) := by
  refine quotedCommit_ok_iff.mpr ⟨_, _, hexToBytes_toHex _, hexToBytes_toHex _, ?_⟩
  refine ⟨_, _, rfl, rfl, _, _, _, hexToBytes_toHex _, rfl, hexToBytes_toHex _, _, _, rfl, rfl, ?_⟩
  decide

theorem sample_bytes (display : String) :
    hexToBytes ((samplePackage display).get "quoteCommitment") =
        .ok (sampleEncoding.bytes (Line.Demo.quote 1 1)) ∧
      (sampleEncoding.bytes (Line.Demo.quote 1 1)).length = 32 := by
  have hbytes : sampleEncoding.bytes (Line.Demo.quote 1 1) = List.replicate 32 3 := by
    decide
  rw [hbytes]
  exact ⟨hexToBytes_toHex _, rfl⟩

/-- A package of valid terms is accepted, whatever it displays. -/
theorem sample_import {display : String}
    (hvalid : (validateQuoteTransferPackage (samplePackage display)
      (some samplePublicLedger.networkId) samplePublicLedger.contractAddress).isOk = true) :
    importQuotePackage sampleEncoding samplePublicLedger [] (samplePackage display) =
      .ok [packageRecord (samplePackage display)] := by
  have hplain : ∀ bs, plainHex (.string (toHex bs)) = .ok (toHex bs).toList :=
    fun bs => plainHex_iff.mpr (hexToBytes_toHex bs)
  rw [importQuotePackage]
  refine bind_ok_iff.mpr ⟨(), ?_, ?_⟩
  · cases hv : validateQuoteTransferPackage (samplePackage display)
      (some samplePublicLedger.networkId) samplePublicLedger.contractAddress with
    | ok u => rfl
    | error e =>
      rw [hv] at hvalid
      cases hvalid
  refine bind_ok_iff.mpr ⟨_, hplain _, ?_⟩
  refine bind_ok_iff.mpr ⟨(), require_ok_iff.mpr ?_, ?_⟩
  · have hdomain : (strip samplePublicLedger.contractDomain.toList).map Char.toLower =
        (toHex (List.replicate 32 2)).toList := Except.ok.inj (hplain _)
    rw [hdomain, beq_self_eq_true, Bool.true_and]
    rfl
  refine bind_ok_iff.mpr ⟨_, sample_commit display, ?_⟩
  refine bind_ok_iff.mpr ⟨_, plainHex_iff.mpr (sample_bytes display).1, ?_⟩
  exact bind_ok_iff.mpr ⟨(), require_ok_iff.mpr (beq_self_eq_true _), rfl⟩

/-- A package that displays the digits of its invoice is drawn on. -/
theorem accepted_drawable_sample : ∃ (h : Line.Trace Line.Term) (s : Line.Ledger Line.Term),
    Line.Reaches .canonical h s ∧ ∃ q ctx quote, drawContext q = .ok ctx ∧
      s.quotes.lookup (Line.Demo.quote 1 1) = some quote ∧
      ctx.Recomputes sampleEncoding s (Line.Demo.quote 1 1) quote := by
  let digits := toHex (List.replicate 32 0)
  obtain ⟨h, s, r, ht⟩ := Line.Demo.reaches_of_check .canonical
    [Line.Demo.fund 1000, Line.Demo.openLine, Line.Demo.post 1 1]
    (fun _ s => sampleCurrent s) (by decide +kernel)
  obtain ⟨quote, hq, hgen⟩ := sampleCurrent_iff.mp ht
  have himport := sample_import (show _ = true by decide +kernel : (validateQuoteTransferPackage
    (samplePackage digits) _ _).isOk = true)
  obtain ⟨hQ, h32⟩ := sample_bytes digits
  obtain ⟨q, hfind, hdraw, hcharges⟩ := accepted_drawable .nil himport r hq hQ h32
  have hrecord : q = packageRecord (samplePackage digits) :=
    List.mem_singleton.mp (List.mem_of_find?_eq_some hfind)
  have hdrawable : Drawable sampleEncoding q := by
    rw [hrecord]
    refine ⟨⟨_, hexToBytes_toHex _, rfl⟩, ⟨_, hexToBytes_toHex _, rfl⟩, ?_⟩
    refine ⟨digits, List.replicate 32 0, _, rfl, ?_, ?_, hexToBytes_toHex _, rfl⟩
    · decide +kernel
    · exact canonicalInvoiceIdBytes_toHex rfl
  obtain ⟨ctx, hctx, hrecomputed⟩ := hdraw.mpr ⟨hdrawable, hcharges hgen⟩
  exact ⟨h, s, r, q, ctx, quote, hctx, hq, hrecomputed⟩

/-- The id that is displayed decides the invoice of the draw. -/
theorem sample_draw {display : String} {invoiceId : Bytes}
    (hblank : notBlank (.string display) = true)
    (hinvoice : canonicalInvoiceIdBytes display = .ok invoiceId) :
    drawContext (packageRecord (samplePackage display)) = .ok (sampleContext invoiceId) := by
  have hword : ∀ bs : Bytes, bs.length = 32 →
      validateWitnessBytes32 (.string (toHex bs)) = .ok bs :=
    fun bs h32 => (validate_iff (hexToBytes_toHex bs)).mpr ⟨rfl, h32⟩
  refine drawContext_ok_iff.mpr ⟨rfl, Nat.zero_lt_succ 49, ⟨display, rfl, hblank, hinvoice⟩, ?_⟩
  exact ⟨hword _ rfl, rfl, hword _ rfl, hword _ rfl⟩

/-- One that displays another invoice is accepted as well, and what the draw builds does not
recompute the quote. -/
theorem accepted_drawable_fails : ∃ (h : Line.Trace Line.Term) (s : Line.Ledger Line.Term),
    Line.Reaches .canonical h s ∧ ∃ q ctx quote,
      importQuotePackage sampleEncoding samplePublicLedger [] (samplePackage "INV-2") = .ok [q] ∧
      s.quotes.lookup (Line.Demo.quote 1 1) = some quote ∧
      quote.lineGeneration = s.lineGeneration ∧ drawContext q = .ok ctx ∧
      ¬ ctx.Recomputes sampleEncoding s (Line.Demo.quote 1 1) quote := by
  let invoiceId : Bytes := [73, 78, 86, 45, 50] ++ List.replicate 27 0
  obtain ⟨h, s, r, ht⟩ := Line.Demo.reaches_of_check .canonical
    [Line.Demo.fund 1000, Line.Demo.openLine, Line.Demo.post 1 1]
    (fun _ s => sampleCurrent s && sampleMissed invoiceId s) (by decide +kernel)
  rw [Bool.and_eq_true] at ht
  obtain ⟨quote, hq, hgen⟩ := sampleCurrent_iff.mp ht.1
  have himport := sample_import (show _ = true by decide +kernel : (validateQuoteTransferPackage
    (samplePackage "INV-2") _ _).isOk = true)
  have hmissed := ht.2
  rw [sampleMissed, hq, Option.any_some] at hmissed
  have hword : isWordText "INV-2" = false := by decide +kernel
  have htext : textBytes "INV-2" = [73, 78, 86, 45, 50] := by decide +kernel
  have hinvoice : canonicalInvoiceIdBytes "INV-2" = .ok invoiceId := by
    rw [canonicalInvoiceIdBytes, invoiceReferenceOk, hword, if_neg Bool.false_ne_true, pad32, htext]
    rfl
  exact ⟨h, s, r, _, _, quote, himport, hq, hgen, sample_draw (by decide +kernel) hinvoice,
    of_decide_eq_true hmissed⟩

end Line.Console
