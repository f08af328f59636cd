import Line.Lib.Checked

/-!
# The ledger of the Line contract

The public state, the private preimages and the witnesses of
`contracts/line.compact` and `contracts/organization/line.compact`.

The two contracts share twelve circuits line for line; the organization contract
adds real token movements to six of them. They are modelled once, with the
`Profile` saying which of the two files is meant.

`Bytes<32>` is a type parameter `B`. What the circuits need of it is the class
`Compact`: the hash and commitment functions of the standard library, the padded
text constants and the encoding of a `Uint<64>`. `LawfulCompact` says that
nothing collides, which is the idealisation the security claims are about; the
accounting results do without it.
-/

namespace Line

open Checked

/-- Which contract: `contracts/line.compact` or `contracts/organization/line.compact`. -/
inductive Profile where
  | canonical
  | organization
deriving DecidableEq

/-- `Uint<64>`. -/
abbrev U64 := Uint 64

theorem mod_lt_u64 (n : Nat) : n % 2 ^ 64 < 2 ^ 64 := Nat.mod_lt _ (Nat.two_pow_pos 64)

theorem one_lt_u8 : 1 < 2 ^ 8 := by decide

theorem two_lt_u8 : 2 < 2 ^ 8 := by decide

/-! ## The standard library -/

/-- One field of a committed structure, as its type descriptor serialises it. -/
inductive FieldValue (B : Type) where
  | bytes (b : B)
  | u64 (n : U64)

/-- What the circuits use of `CompactStandardLibrary` over `Bytes<32>`. -/
class Compact (B : Type) where
  /-- `persistentHash<Vector<n, Bytes<32>>>`. -/
  persistentHash : List B → B
  /-- `persistentCommit<T>(value, rand)`, on the serialised fields of `value`. -/
  persistentCommit : List (FieldValue B) → B → B
  /-- `pad(32, text)`. -/
  pad : String → B
  /-- `n as Bytes<32>`. -/
  ofU64 : U64 → B

export Compact (persistentHash persistentCommit pad)

/-- The domain-separation texts of the contracts. -/
def tags : List String :=
  ["line:issuer:pk", "line:merchant:pk", "line:id", "line:v2:domain", "line:v3:quote",
    "line:v2:draw", "line:v2:redeem", "line:v2:repay", "line:v3:payment"]

/-- Nothing collides: hashes, commitments, the tags and the encodings are injective. -/
class LawfulCompact (B : Type) [Compact B] : Prop where
  /-- `persistentHash` is injective, on vectors of every length. -/
  hash_inj : Function.Injective (persistentHash (B := B))
  /-- `persistentCommit` binds both the value and the salt. -/
  commit_inj : Function.Injective2 (persistentCommit (B := B))
  /-- Different tags pad to different words. -/
  pad_inj : ∀ a ∈ tags, ∀ b ∈ tags, pad (B := B) a = pad b → a = b
  /-- Different numbers encode to different words. -/
  ofU64_inj : Function.Injective (Compact.ofU64 (B := B))

/-! ## Structures -/

/-- `enum Status`. -/
inductive Status where
  | NONE
  | OPEN
  | DEFAULTED
  | CLOSED
deriving DecidableEq

/-- `struct QuoteMeta`. -/
structure QuoteMeta where
  expiry : U64
  lineGeneration : U64
  used : Bool
deriving DecidableEq

/-- `struct NoteMeta`. -/
structure NoteMeta (B : Type) where
  amount : U64
  fee : U64
  redeemed : Bool
  cancelled : Bool
  expiry : U64
  lineGeneration : U64
  compensationAllocated : Bool
  refundCommitment : B
  cashRefundOwed : Bool
  refundAcknowledged : Bool
  refundPaymentNullifier : B
deriving DecidableEq

/-- `UserAddress`. -/
structure UserAddress (B : Type) where
  bytes : B
deriving DecidableEq

section Preimages

variable {B : Type}

/-- `struct LinePreimage`. -/
structure LinePreimage (B : Type) where
  domain : B
  identity : B
  limit : U64
  outstanding : U64
  epoch : U64

/-- `struct DrawNotePreimage`. -/
structure DrawNotePreimage (B : Type) where
  domain : B
  lineGeneration : U64
  identity : B
  quoteCommit : B
  merchantPk : B
  amount : U64
  fee : U64
  noteNonce : B
  expiry : U64

/-- `struct RefundPreimage`. -/
structure RefundPreimage (B : Type) where
  domain : B
  lineGeneration : U64
  identity : B
  noteCommit : B
  amount : U64

/-- The fields of a `LinePreimage`, in order. -/
def LinePreimage.toValue (p : LinePreimage B) : List (FieldValue B) :=
  [.bytes p.domain, .bytes p.identity, .u64 p.limit, .u64 p.outstanding, .u64 p.epoch]

/-- The fields of a `DrawNotePreimage`, in order. -/
def DrawNotePreimage.toValue (p : DrawNotePreimage B) : List (FieldValue B) :=
  [.bytes p.domain, .u64 p.lineGeneration, .bytes p.identity, .bytes p.quoteCommit,
    .bytes p.merchantPk, .u64 p.amount, .u64 p.fee, .bytes p.noteNonce, .u64 p.expiry]

/-- The fields of a `RefundPreimage`, in order. -/
def RefundPreimage.toValue (p : RefundPreimage B) : List (FieldValue B) :=
  [.bytes p.domain, .u64 p.lineGeneration, .bytes p.identity, .bytes p.noteCommit,
    .u64 p.amount]

theorem LinePreimage.toValue_inj {p q : LinePreimage B} (h : p.toValue = q.toValue) : p = q := by
  cases p; cases q
  simpa [toValue] using h

theorem DrawNotePreimage.toValue_inj {p q : DrawNotePreimage B} (h : p.toValue = q.toValue) :
    p = q := by
  cases p; cases q
  simpa [toValue] using h

theorem RefundPreimage.toValue_inj {p q : RefundPreimage B} (h : p.toValue = q.toValue) :
    p = q := by
  cases p; cases q
  simpa [toValue] using h

end Preimages

/-! ## State -/

/--
The settlement tokens held by an organization contract, and the transfers it has
made. The balance moves only through `receiveUnshielded` and `sendUnshielded`;
the record of both is kept beside it. The canonical contract never touches these.
-/
structure Custody (B : Type) where
  /-- Tokens of `settlementTokenColor` held by the contract. -/
  balance : Nat
  /-- Everything ever received. -/
  received : Nat
  /-- Everything ever sent, newest first. -/
  sent : List (UserAddress B × Nat)

/--
The ledger. The fields up to `actionClock` are those of both contracts, in the
order of the source; the last five belong to the organization contract only.
-/
structure Ledger (B : Type) where
  issuer : B
  contractDomain : B
  registeredMerchants : Finmap fun _ : B => Bool
  totalReserve : U64
  encumberedReserve : U64
  redeemedReserve : U64
  feeReserve : U64
  pendingFeeReserve : U64
  refundReserve : U64
  reportedRefundReserve : U64
  feeFlat : U64
  feeBps : U64
  identityCommit : B
  lineCommit : B
  lineExpiry : U64
  status : Status
  lineGeneration : U64
  quotes : Finmap fun _ : B => QuoteMeta
  notes : Finmap fun _ : B => NoteMeta B
  nullifiers : Finset B
  /-- `Counter`: it orders transactions and is compared with nothing. -/
  actionClock : Nat
  issuerPayoutRecipient : UserAddress B
  merchantPayoutRecipients : Finmap fun _ : B => UserAddress B
  settlementTokenColor : B
  settlementTokenInitialized : Bool
  custody : Custody B

/--
The witnesses of one circuit call. A witness is a function of the caller's own
program, so nothing makes two calls of it inside one circuit return the same
value: every call is a private input of the proof of its own. `w.lineLimit k` is
the answer to the call number `k`, from 0, of `lineLimit()` in the circuit.
-/
structure Witness (B : Type) where
  callerSecret : Nat → B
  agentSecret : Nat → B
  salt : Nat → B
  newSalt : Nat → B
  invoiceId : Nat → B
  quoteNonce : Nat → B
  receiptNonce : Nat → B
  paymentRef : Nat → B
  noteNonce : Nat → B
  noteSalt : Nat → B
  noteIdentity : Nat → B
  noteQuoteCommit : Nat → B
  lineLimit : Nat → U64
  lineOutstanding : Nat → U64
  lineEpoch : Nat → U64
  quoteAmount : Nat → U64
  drawAmount : Nat → U64
  redeemAmount : Nat → U64
  repayAmount : Nat → U64
  quoteMerchantPk : Nat → B

end Line
