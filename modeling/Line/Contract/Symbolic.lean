import Line.Contract.Run

/-!
# Words as terms

`LawfulCompact` asks for hashes and commitments without collisions. Such an
algebra exists: a word is the term that says how it was made, so that two words are
equal only if they were made the same way. Over it every circuit can be run, and
the concrete runs of this development are runs over terms.

The second half sets those runs up: one deployment, three parties with a secret
each, and `reaches_of_check`, by which a list of calls that evaluates is a run.
-/

namespace Line

open Checked

/-- A word, by its making. -/
inductive Term where
  /-- A secret, a nonce or a salt. -/
  | atom (n : ℕ)
  /-- A padded text. -/
  | text (s : String)
  /-- An encoded number. -/
  | number (n : ℕ)
  /-- The end of a vector. -/
  | nil
  /-- An entry in front of a vector. -/
  | cons (a l : Term)
  /-- A field of bytes, as a commitment serialises it. -/
  | field (a : Term)
  /-- The hash of a vector. -/
  | hash (l : Term)
  /-- The commitment to a vector of fields under a salt. -/
  | commit (l salt : Term)
deriving DecidableEq, Repr

namespace Term

/-- A vector of words. -/
def vector : List Term → Term
  | [] => nil
  | a :: l => cons a (vector l)

/-- A field of a committed structure. -/
def ofValue : FieldValue Term → Term
  | .bytes b => field b
  | .u64 n => number n.val

instance : Compact Term where
  persistentHash l := hash (vector l)
  persistentCommit v salt := commit (vector (v.map ofValue)) salt
  pad := text
  ofU64 n := number n.val

theorem vector_inj {l l' : List Term} (h : vector l = vector l') : l = l' := by
  induction l generalizing l' with
  | nil =>
      cases l' with
      | nil => rfl
      | cons b l' => simp [vector] at h
  | cons a l ih =>
      cases l' with
      | nil => simp [vector] at h
      | cons b l' =>
          obtain ⟨rfl, hl⟩ := Term.cons.inj h
          rw [ih hl]

theorem ofValue_inj {v v' : FieldValue Term} (h : ofValue v = ofValue v') : v = v' := by
  cases v with
  | bytes b =>
      cases v' with
      | bytes b' => rw [Term.field.inj h]
      | u64 n' => simp [ofValue] at h
  | u64 n =>
      cases v' with
      | bytes b' => simp [ofValue] at h
      | u64 n' => rw [Uint.val_inj.mp (Term.number.inj h)]

/-- **Nothing collides among terms.** -/
instance : LawfulCompact Term where
  hash_inj := fun _ _ h => vector_inj (Term.hash.inj h)
  commit_inj := by
    intro v v' s s' h
    obtain ⟨hv, hs⟩ := Term.commit.inj h
    exact ⟨List.map_injective_iff.mpr (fun _ _ => ofValue_inj) (vector_inj hv), hs⟩
  pad_inj := fun _ _ _ _ h => Term.text.inj h
  ofU64_inj := fun _ _ h => Uint.val_inj.mp (Term.number.inj h)

end Term

/-! ## Running calls over terms -/

namespace Demo

/-- The issuer's secret. -/
def issuer : Term := .atom 1

/-- The merchant's secret. -/
def merchant : Term := .atom 2

/-- The borrower's secret. -/
def borrower : Term := .atom 3

def deployment : Deployment Term where
  issuerPk := issuerPublicKey issuer
  initialMerchantPk := merchantPublicKey merchant
  instanceNonce := .atom 4
  issuerRecipient := ⟨.atom 5⟩
  initialMerchantRecipient := ⟨.atom 6⟩
  assetColor := .atom 7

def domain : Term :=
  contractDomain deployment.issuerPk deployment.initialMerchantPk deployment.instanceNonce

def u64 (n : ℕ) : U64 := ⟨n % 2 ^ 64, mod_lt_u64 n⟩

/-- The quote number `n` of generation `g`: 100 until time 50, at a fee of 1 plus one percent. -/
def quote (n g : ℕ) : Term :=
  quoteCommit (merchantPublicKey merchant) (.atom 0) (u64 100) (u64 50) (.atom n) (u64 g) domain
    (u64 1) (u64 100)

/-- The note drawn on that quote. -/
def note (n g : ℕ) : Term :=
  drawNoteCommit ⟨domain, u64 g, agentId borrower, quote n g, merchantPublicKey merchant, u64 100,
    u64 2, .atom n, u64 50⟩ (.atom 0)

/-- A caller who holds the secret `sk` and knows the quote number `n` of generation `g` and a book
of limit 500. -/
def caller (sk : Term) (n g outstanding epoch amount : ℕ) : Witness Term where
  callerSecret := fun _ => sk
  agentSecret := fun _ => borrower
  salt := fun _ => .atom 0
  newSalt := fun _ => .atom 0
  invoiceId := fun _ => .atom 0
  quoteNonce := fun _ => .atom n
  receiptNonce := fun _ => .atom n
  paymentRef := fun _ => .atom n
  noteNonce := fun _ => .atom n
  noteSalt := fun _ => .atom 0
  noteIdentity := fun _ => agentId borrower
  noteQuoteCommit := fun _ => quote n g
  lineLimit := fun _ => u64 500
  lineOutstanding := fun _ => u64 outstanding
  lineEpoch := fun _ => u64 epoch
  quoteAmount := fun _ => u64 100
  drawAmount := fun _ => u64 100
  redeemAmount := fun _ => u64 100
  repayAmount := fun _ => u64 amount
  quoteMerchantPk := fun _ => merchantPublicKey merchant

def fund (a : ℕ) : Call Term := ⟨.fundReserve (u64 a), caller issuer 0 0 0 0 0, 0⟩

def disableMerchant : Call Term :=
  ⟨.disableMerchant (merchantPublicKey merchant), caller issuer 0 0 0 0 0, 1⟩

def withdrawFees : Call Term := ⟨.withdrawFees, caller issuer 0 0 0 0 0, 4⟩

def openLine : Call Term := ⟨.openLine (u64 100) (u64 1) (u64 100), caller issuer 0 0 0 0 0, 0⟩

def post (n g : ℕ) : Call Term := ⟨.postQuote (u64 50), caller merchant n g 0 0 0, 1⟩

def draw (n g outstanding epoch : ℕ) : Call Term :=
  ⟨.draw (quote n g) (u64 50) (u64 2), caller borrower n g outstanding epoch 0, 2⟩

def redeem (n g : ℕ) : Call Term :=
  ⟨.redeemDraw (note n g) (u64 50), caller merchant n g 0 0 0, 3⟩

def expire (n g : ℕ) : Call Term :=
  ⟨.cancelOrExpireNote (note n g) ⟨0, by decide⟩ (u64 0), caller issuer n g 0 0 0, 60⟩

def allocate (n g outstanding epoch : ℕ) : Call Term :=
  ⟨.cancelOrExpireNote (note n g) ⟨1, one_lt_u8⟩ (u64 0), caller issuer n g outstanding epoch 0, 60⟩

def refund (n g amount : ℕ) : Call Term :=
  ⟨.cancelOrExpireNote (note n g) ⟨2, two_lt_u8⟩ (u64 90), caller issuer n g 0 0 amount, 70⟩

def repay (n outstanding epoch amount : ℕ) : Call Term :=
  ⟨.acknowledgeRepayment (u64 90), caller issuer n 0 outstanding epoch amount, 60⟩

def setStatus (next : Status) (outstanding epoch : ℕ) : Call Term :=
  ⟨.setStatus next, caller issuer 0 0 outstanding epoch 0, 80⟩

/-- The calls are all accepted, and the run passes the test. -/
def check (p : Profile) (calls : List (Call Term)) (test : Trace Term → Ledger Term → Bool) :
    Bool :=
  match History.play (exec p) calls ([], constructor p deployment) with
  | .ok w => test w.1 w.2
  | .error _ => false

/-- **Calls that evaluate are a run.** -/
theorem reaches_of_check (p : Profile) (calls : List (Call Term))
    (test : Trace Term → Ledger Term → Bool) (hc : check p calls test = true) :
    ∃ h s, Reaches p h s ∧ test h s = true := by
  unfold check at hc
  split at hc
  · rename_i w hw
    exact ⟨w.1, w.2, History.play_run (.start ⟨deployment, rfl⟩) hw, hc⟩
  · cases hc

end Demo

end Line
