import Line.Engine.Ledger

/-!
# Encodings of the reference engine

`src/lib/line/encoding.ts` writes down once more how keys, commitments and nullifiers
are made, with type descriptors and tags of its own. That they come out as the
contract's is the content of the lemmas at the end of the first section.

The second section is the arithmetic and the payment references, which the contract
has no counterpart of: it takes the required fee and the bytes of a reference as
given and checks them. A reference is the hash of a text with its length, taken in UTF-8; a text
that is empty, too long, not well formed or set in whitespace throws before anything is hashed.
-/

namespace Line.Engine

open Checked

variable {B : Type} [Compact B]

/-! ## Keys, commitments and nullifiers -/

namespace TAG

def issuerPk : B := pad "line:issuer:pk"
def merchantPk : B := pad "line:merchant:pk"
def id : B := pad "line:id"
def domain : B := pad "line:v2:domain"
def quote : B := pad "line:v3:quote"
def draw : B := pad "line:v2:draw"
def redeem : B := pad "line:v2:redeem"
def repay : B := pad "line:v2:repay"
def payment : B := pad "line:v3:payment"

end TAG

def encodeU64 (n : U64) : B := Compact.ofU64 n

def issuerPublicKey (sk : B) : B := persistentHash [TAG.issuerPk, sk]

def merchantPublicKey (sk : B) : B := persistentHash [TAG.merchantPk, sk]

def agentId (sk : B) : B := persistentHash [TAG.id, sk]

def contractDomain (issuerPk initialMerchantPk instanceNonce : B) : B :=
  persistentHash [TAG.domain, issuerPk, initialMerchantPk, instanceNonce]

/-- `LINE_PREIMAGE_TYPE` serialises the fields in this order. -/
def lineStateCommit (domain identity : B) (limit outstanding epoch : U64) (salt : B) : B :=
  persistentCommit
    [.bytes domain, .bytes identity, .u64 limit, .u64 outstanding, .u64 epoch] salt

/-- `DRAW_NOTE_PREIMAGE_TYPE` serialises the fields in this order. -/
def drawNoteCommit (domain : B) (lineGeneration : U64) (identity quoteCommit merchantPk : B)
    (amount fee : U64) (noteNonce : B) (expiry : U64) (salt : B) : B :=
  persistentCommit
    [.bytes domain, .u64 lineGeneration, .bytes identity, .bytes quoteCommit, .bytes merchantPk,
      .u64 amount, .u64 fee, .bytes noteNonce, .u64 expiry] salt

/-- `REFUND_PREIMAGE_TYPE` serialises the fields in this order. -/
def refundCommit (domain : B) (lineGeneration : U64) (identity noteCommit : B) (amount : U64)
    (salt : B) : B :=
  persistentCommit
    [.bytes domain, .u64 lineGeneration, .bytes identity, .bytes noteCommit, .u64 amount] salt

def quoteCommit (merchantPk invoiceId : B) (amount expiry : U64) (nonce : B) (generation : U64)
    (domain : B) (feeFlat feeBps : U64) : B :=
  persistentHash [TAG.quote, merchantPk, invoiceId, encodeU64 amount, encodeU64 expiry, nonce,
    encodeU64 generation, domain, encodeU64 feeFlat, encodeU64 feeBps]

def drawNullifier (sk Q domain : B) : B := persistentHash [TAG.draw, sk, Q, domain]

def redeemNullifier (sk D domain : B) : B := persistentHash [TAG.redeem, sk, D, domain]

def repayNullifier (nonce identity currentC : B) (amount : U64) (paymentRef domain : B) : B :=
  persistentHash [TAG.repay, nonce, identity, currentC, encodeU64 amount, paymentRef, domain]

def paymentNullifier (issuerSecret paymentRef domain : B) : B :=
  persistentHash [TAG.payment, issuerSecret, paymentRef, domain]

section Agree

variable (sk M inv nonce dom I C D Q r salt : B) (a f x g flat bps L b e : U64)

@[simp] theorem issuerPublicKey_eq : issuerPublicKey sk = Line.issuerPublicKey sk := rfl

@[simp] theorem merchantPublicKey_eq : merchantPublicKey sk = Line.merchantPublicKey sk := rfl

@[simp] theorem agentId_eq : agentId sk = Line.agentId sk := rfl

@[simp] theorem lineStateCommit_eq :
    lineStateCommit dom I L b e salt = Line.lineStateCommit ⟨dom, I, L, b, e⟩ salt := rfl

@[simp] theorem drawNoteCommit_eq :
    drawNoteCommit dom g I Q M a f nonce x salt
      = Line.drawNoteCommit ⟨dom, g, I, Q, M, a, f, nonce, x⟩ salt := rfl

@[simp] theorem refundCommit_eq :
    refundCommit dom g I D a salt = Line.refundCommit ⟨dom, g, I, D, a⟩ salt := rfl

@[simp] theorem quoteCommit_eq :
    quoteCommit M inv a x nonce g dom flat bps = Line.quoteCommit M inv a x nonce g dom flat bps :=
  rfl

@[simp] theorem drawNullifier_eq : drawNullifier sk Q dom = Line.drawNullifier sk Q dom := rfl

@[simp] theorem redeemNullifier_eq : redeemNullifier sk D dom = Line.redeemNullifier sk D dom := rfl

@[simp] theorem repayNullifier_eq :
    repayNullifier nonce I C a r dom = Line.repayNullifier nonce I C a r dom := rfl

@[simp] theorem paymentNullifier_eq : paymentNullifier sk r dom = Line.paymentNullifier sk r dom :=
  rfl

end Agree

/-! ## Fees and payment references -/

/-- `requiredDrawFee`, on `bigint`s. -/
def requiredDrawFee (amount flat bps : ℤ) : Result ℤ :=
  let max : ℤ := 2 ^ 64 - 1
  if [amount, flat, bps].any fun value => decide (value < 0) || decide (max < value) then
    raise "Fee inputs must be Uint64 bigint values"
  else if 10000 < bps then raise "Fee basis points exceed supported rate"
  else
    let fee := flat + (amount * bps + 9999) / 10000
    if max < fee then raise "Required fee exceeds Uint64" else pure fee

/-- Within the range the engine computes the fee that the contract brackets. -/
theorem requiredDrawFee_ok_iff {amount flat bps : U64} (hbps : bps.val ≤ 10000) {fee : ℤ} :
    requiredDrawFee amount.val flat.val bps.val = .ok fee ↔
      fee = (flat.val + (amount.val * bps.val + 9999) / 10000 : ℕ) ∧ fee < 2 ^ 64 := by
  have hrange : [(amount.val : ℤ), flat.val, bps.val].any
      (fun value => decide (value < 0) || decide ((2 ^ 64 - 1 : ℤ) < value)) = false := by
    have ha := amount.isLt
    have hf := flat.isLt
    have hb := bps.isLt
    simp only [List.any_cons, List.any_nil, Bool.or_false, Bool.or_eq_false_iff,
      decide_eq_false_iff_not]
    omega
  unfold requiredDrawFee
  simp only [hrange, Bool.false_eq_true, ↓reduceIte]
  rw [if_neg (by omega)]
  have hcast : (flat.val : ℤ) + (amount.val * bps.val + 9999) / 10000
      = ((flat.val + (amount.val * bps.val + 9999) / 10000 : ℕ) : ℤ) := by push_cast; rfl
  rw [hcast]
  generalize (flat.val + (amount.val * bps.val + 9999) / 10000 : ℕ) = n
  split
  · simp only [raise, reduceCtorEq, false_iff]
    omega
  · rw [pure_ok_iff]
    omega

/-- A word filled with bytes from its start, and with zeros after them: `new Uint8Array(32)` and
`set`. -/
class Words (B : Type) where
  word : List UInt8 → B

/-- The code points of a string, unless it has a surrogate without its partner. -/
def codePoints : JsString → Option (List ℕ)
  | [] => some []
  | code :: rest =>
      if 0xd800 ≤ code.toNat ∧ code.toNat ≤ 0xdbff then
        match rest with
        | next :: rest =>
            if 0xdc00 ≤ next.toNat ∧ next.toNat ≤ 0xdfff then
              (codePoints rest).map fun points =>
                (0x10000 + (code.toNat - 0xd800) * 0x400 + (next.toNat - 0xdc00)) :: points
            else none
        | [] => none
      else if 0xdc00 ≤ code.toNat ∧ code.toNat ≤ 0xdfff then none
      else (codePoints rest).map fun points => code.toNat :: points

/-- `new TextEncoder().encode`, of one code point. -/
def utf8 (point : ℕ) : List UInt8 :=
  if point < 0x80 then [point.toUInt8]
  else if point < 0x800 then
    [(0xc0 + point / 0x40).toUInt8, (0x80 + point % 0x40).toUInt8]
  else if point < 0x10000 then
    [(0xe0 + point / 0x1000).toUInt8, (0x80 + point / 0x40 % 0x40).toUInt8,
      (0x80 + point % 0x40).toUInt8]
  else
    [(0xf0 + point / 0x40000).toUInt8, (0x80 + point / 0x1000 % 0x40).toUInt8,
      (0x80 + point / 0x40 % 0x40).toUInt8, (0x80 + point % 0x40).toUInt8]

/-- What `trim` takes off the ends of a string. -/
def isWhitespace (code : UInt16) : Bool :=
  [0x9, 0xa, 0xb, 0xc, 0xd, 0x20, 0xa0, 0x1680, 0x2028, 0x2029, 0x202f, 0x205f, 0x3000,
    0xfeff].contains code.toNat || (0x2000 ≤ code.toNat && code.toNat ≤ 0x200a)

/-- `reference !== reference.trim()`. -/
def untrimmed (reference : JsString) : Bool :=
  reference.head?.any isWhitespace || reference.getLast?.any isWhitespace

/-- The words of the bytes, 32 in each. -/
def parts [Words B] (bytes : List UInt8) : List B :=
  (List.range ((bytes.length + 31) / 32)).map fun i =>
    Words.word ((bytes.drop (32 * i)).take 32)

/-- `canonicalPaymentReferenceBytes`. -/
def canonicalPaymentReferenceBytes [Words B] (reference : JsString) : Result B :=
  if reference.isEmpty || untrimmed reference then
    raise "Payment reference must be nonempty with no surrounding whitespace."
  else
    match codePoints reference with
    | none => raise "Malformed Unicode payment reference."
    | some points =>
        let bytes := points.flatMap utf8
        if h : bytes.length ≤ 4096 then
          pure (persistentHash (pad "line:payment-ref:v1"
            :: encodeU64 ⟨bytes.length, by omega⟩ :: parts bytes))
        else raise "Payment reference exceeds 4096 UTF-8 bytes."

/-- The bytes of a reference are always a hash. -/
theorem canonicalPaymentReferenceBytes_hash [Words B] {reference : JsString} {r : B}
    (hr : canonicalPaymentReferenceBytes reference = .ok r) :
    ∃ v : List B, r = persistentHash v := by
  unfold canonicalPaymentReferenceBytes at hr
  split at hr
  · cases hr
  · split at hr
    · cases hr
    · simp only at hr
      split at hr
      · exact ⟨_, (pure_ok_iff.mp hr).symm⟩
      · cases hr

end Line.Engine
