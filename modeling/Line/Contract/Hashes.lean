import Line.Contract.Ledger

/-!
# Keys, commitments and nullifiers

The pure circuits of the contract, and what injectivity of the hash makes of
them: a key determines its secret, a commitment its opening, and the four
families of nullifiers never meet.

Each circuit hashes a vector of a fixed length that begins with a text of its own, the tag. So two
equal hashes have equal vectors (`hash_eq_iff`), and the arguments are read off position by
position; a number is hashed in its 32-byte encoding, which determines it (`encodeU64_inj`). That
two families never meet is a matter of the tags alone: they are four different texts
(`Family.eq_of_has`).
-/

namespace Line

open Checked

variable {B : Type} [Compact B]

def issuerPublicKey (sk : B) : B := persistentHash [pad "line:issuer:pk", sk]

def merchantPublicKey (sk : B) : B := persistentHash [pad "line:merchant:pk", sk]

def agentId (sk : B) : B := persistentHash [pad "line:id", sk]

def encodeU64 (n : U64) : B := Compact.ofU64 n

def lineStateCommit (p : LinePreimage B) (s : B) : B := persistentCommit p.toValue s

def refundCommit (p : RefundPreimage B) (s : B) : B := persistentCommit p.toValue s

def drawNoteCommit (p : DrawNotePreimage B) (s : B) : B := persistentCommit p.toValue s

/-- `(cost - outstanding) as Uint<64>`, which is below `cost`. -/
def cashRefundAmount (outstanding cost : U64) : U64 :=
  if cost.val ≤ outstanding.val then .zero 64
  else ⟨cost.val - outstanding.val, by have := cost.isLt; omega⟩

/-- `(outstanding - cost) as Uint<64>`, which is below `outstanding`. -/
def debtAfterCredit (outstanding cost : U64) : U64 :=
  if cost.val ≤ outstanding.val then
    ⟨outstanding.val - cost.val, by have := outstanding.isLt; omega⟩
  else .zero 64

def quoteCommit (merchantPk inv : B) (amount expiry : U64) (nonce : B) (generation : U64)
    (domain : B) (flatFee basisPoints : U64) : B :=
  persistentHash [pad "line:v3:quote", merchantPk, inv, encodeU64 amount, encodeU64 expiry,
    nonce, encodeU64 generation, domain, encodeU64 flatFee, encodeU64 basisPoints]

def drawNullifier (sk Q domain : B) : B := persistentHash [pad "line:v2:draw", sk, Q, domain]

def redeemNullifier (sk D domain : B) : B := persistentHash [pad "line:v2:redeem", sk, D, domain]

def repayNullifier (nonce I C : B) (amount : U64) (payRef domain : B) : B :=
  persistentHash [pad "line:v2:repay", nonce, I, C, encodeU64 amount, payRef, domain]

def paymentNullifier (issuerSk payRef domain : B) : B :=
  persistentHash [pad "line:v3:payment", issuerSk, payRef, domain]

/-- The domain of an instance, as the constructor computes it. -/
def contractDomain (issuerPk initialMerchantPk instanceNonce : B) : B :=
  persistentHash [pad "line:v2:domain", issuerPk, initialMerchantPk, instanceNonce]

/-! ## The two halves of a credit -/

theorem debtAfterCredit_val (outstanding cost : U64) :
    (debtAfterCredit outstanding cost).val = outstanding.val - cost.val := by
  unfold debtAfterCredit
  split
  · rfl
  · simp only [Uint.val_zero]; omega

theorem cashRefundAmount_val (outstanding cost : U64) :
    (cashRefundAmount outstanding cost).val = cost.val - outstanding.val := by
  unfold cashRefundAmount
  split
  · simp only [Uint.val_zero]; omega
  · rfl

/-- What a compensation credits against the debt, and what it leaves owed, is the whole cost. -/
theorem credit_add_refund (outstanding cost : U64) :
    outstanding.val - (debtAfterCredit outstanding cost).val
      + (cashRefundAmount outstanding cost).val = cost.val := by
  rw [debtAfterCredit_val, cashRefundAmount_val]
  omega

/-! ## What injectivity gives -/

section Lawful

variable [LawfulCompact B]

theorem hash_eq_iff {v v' : List B} : persistentHash v = persistentHash v' ↔ v = v' :=
  LawfulCompact.hash_inj.eq_iff

theorem issuerPublicKey_inj {a b : B} (h : issuerPublicKey a = issuerPublicKey b) : a = b := by
  simpa [issuerPublicKey, hash_eq_iff] using h

theorem merchantPublicKey_inj {a b : B} (h : merchantPublicKey a = merchantPublicKey b) :
    a = b := by
  simpa [merchantPublicKey, hash_eq_iff] using h

theorem agentId_inj {a b : B} (h : agentId a = agentId b) : a = b := by
  simpa [agentId, hash_eq_iff] using h

theorem encodeU64_inj {a b : U64} : encodeU64 (B := B) a = encodeU64 b ↔ a = b :=
  LawfulCompact.ofU64_inj.eq_iff

theorem lineStateCommit_inj {p q : LinePreimage B} {s t : B}
    (h : lineStateCommit p s = lineStateCommit q t) : p = q ∧ s = t := by
  obtain ⟨hp, hs⟩ := LawfulCompact.commit_inj h
  exact ⟨LinePreimage.toValue_inj hp, hs⟩

theorem refundCommit_inj {p q : RefundPreimage B} {s t : B}
    (h : refundCommit p s = refundCommit q t) : p = q ∧ s = t := by
  obtain ⟨hp, hs⟩ := LawfulCompact.commit_inj h
  exact ⟨RefundPreimage.toValue_inj hp, hs⟩

theorem drawNoteCommit_inj {p q : DrawNotePreimage B} {s t : B}
    (h : drawNoteCommit p s = drawNoteCommit q t) : p = q ∧ s = t := by
  obtain ⟨hp, hs⟩ := LawfulCompact.commit_inj h
  exact ⟨DrawNotePreimage.toValue_inj hp, hs⟩

/-- A quote commitment binds every term of the quote. -/
theorem quoteCommit_inj {M M' inv inv' nonce nonce' dom dom' : B}
    {a a' e e' g g' f f' b b' : U64}
    (h : quoteCommit M inv a e nonce g dom f b = quoteCommit M' inv' a' e' nonce' g' dom' f' b') :
    M = M' ∧ inv = inv' ∧ a = a' ∧ e = e' ∧ nonce = nonce' ∧ g = g' ∧ dom = dom' ∧ f = f'
      ∧ b = b' := by
  simpa [quoteCommit, hash_eq_iff, encodeU64_inj] using h

theorem redeemNullifier_inj {sk sk' D D' dom dom' : B}
    (h : redeemNullifier sk D dom = redeemNullifier sk' D' dom') :
    sk = sk' ∧ D = D' ∧ dom = dom' := by
  simpa [redeemNullifier, hash_eq_iff] using h

theorem paymentNullifier_inj {sk sk' r r' dom dom' : B}
    (h : paymentNullifier sk r dom = paymentNullifier sk' r' dom') :
    sk = sk' ∧ r = r' ∧ dom = dom' := by
  simpa [paymentNullifier, hash_eq_iff] using h

end Lawful

/-! ## The four families of nullifiers -/

/-- What a nullifier was spent for. -/
inductive Family where
  | draw
  | redeem
  | repay
  | payment
deriving DecidableEq, Repr

/-- The tag every nullifier of the family starts with. -/
def Family.tag : Family → String
  | .draw => "line:v2:draw"
  | .redeem => "line:v2:redeem"
  | .repay => "line:v2:repay"
  | .payment => "line:v3:payment"

/-- `n` is a nullifier of the family. -/
def Family.Has (f : Family) (n : B) : Prop :=
  ∃ rest : List B, n = persistentHash (pad f.tag :: rest)

theorem drawNullifier_family (sk Q dom : B) : Family.draw.Has (drawNullifier sk Q dom) :=
  ⟨_, rfl⟩

theorem redeemNullifier_family (sk D dom : B) : Family.redeem.Has (redeemNullifier sk D dom) :=
  ⟨_, rfl⟩

theorem repayNullifier_family (nonce I C : B) (amount : U64) (payRef dom : B) :
    Family.repay.Has (repayNullifier nonce I C amount payRef dom) :=
  ⟨_, rfl⟩

theorem paymentNullifier_family (sk r dom : B) : Family.payment.Has (paymentNullifier sk r dom) :=
  ⟨_, rfl⟩

theorem Family.tag_mem (f : Family) : f.tag ∈ tags := by cases f <;> simp [Family.tag, tags]

theorem Family.tag_inj {f g : Family} (h : f.tag = g.tag) : f = g := by
  cases f <;> cases g <;> first | rfl | exact absurd h (by decide)

/-- **The families never meet.** -/
theorem Family.eq_of_has [LawfulCompact B] {f g : Family} {n : B} (hf : f.Has n) (hg : g.Has n) :
    f = g := by
  obtain ⟨r, rfl⟩ := hf
  obtain ⟨r', h⟩ := hg
  have hpad := (List.cons.inj (hash_eq_iff.mp h)).1
  exact Family.tag_inj (LawfulCompact.pad_inj _ f.tag_mem _ g.tag_mem hpad)

end Line
