import Line.Contract.Step
import Line.Lib.Register

/-!
# Runs of the contract, and what one step does to each part of the ledger

A run starts at a deployed contract and makes successful calls, by anybody, with
any witnesses and arguments and at any block times. `Reaches p h s` says that the
calls `h`, newest first, lead to `s`.

Most results are about one part of the ledger only. The second half says what a
step can do to each part: the notes and the quotes are registers whose entries
move along a few edges, the nullifier set grows by what the call spends, the
registry never forgets a key, and a handful of fields never change.
-/

namespace Line

open Checked

variable {B : Type} [DecidableEq B] [Compact B]

/-! ## Runs -/

/-- A successful call, with the ledgers around it. -/
abbrev Tx (B : Type) := History.Event (Ledger B) (Call B)

/-- The successful calls of a run, newest first. -/
abbrev Trace (B : Type) := List (Tx B)

/-- A ledger straight from the constructor. -/
def Deployed (p : Profile) (s : Ledger B) : Prop :=
  ∃ d : Deployment B, s = constructor p d

/-- The call succeeds, and leaves `s'`. -/
def Calls (p : Profile) (c : Call B) (s s' : Ledger B) : Prop :=
  exec p c s = .ok s'

/-- From deployment, the calls `h` lead to `s`. -/
abbrev Reaches (p : Profile) (h : Trace B) (s : Ledger B) : Prop :=
  History.Run (Deployed p) (Calls p) h s

/-- From `s`, the calls `h` lead to `s'`. -/
abbrev Continues (p : Profile) (s : Ledger B) (h : Trace B) (s' : Ledger B) : Prop :=
  History.Run (· = s) (Calls p) h s'

variable {p : Profile} {h h' : Trace B} {s s' : Ledger B} {c : Call B}

theorem calls_iff : Calls p c s s' ↔ Step p c s s' := exec_ok_iff

/-- **The invariant rule of the contract**: one case for the constructor, one for a step. -/
theorem Reaches.invariant {I : Trace B → Ledger B → Prop} (h0 : ∀ d, I [] (constructor p d))
    (hs : ∀ h s c s', Reaches p h s → I h s → Step p c s s' → I (⟨c, s, s'⟩ :: h) s')
    (r : Reaches p h s) : I h s := by
  refine History.Run.invariant ?_ ?_ r
  · rintro s ⟨d, rfl⟩
    exact h0 d
  · intro h s c s' r hI st
    exact hs h s c s' r hI (calls_iff.mp st)

/-- The invariant rule for a property of states. -/
theorem Reaches.stateInvariant {I : Ledger B → Prop} (h0 : ∀ d, I (constructor p d))
    (hs : ∀ s c s', I s → Step p c s s' → I s') (r : Reaches p h s) : I s :=
  r.invariant (I := fun _ s => I s) h0 fun _ s c s' _ => hs s c s'

/-- A property that every step keeps is kept by a continuation. -/
theorem Continues.preserves {I : Ledger B → Prop} (hs : ∀ s c s', I s → Step p c s s' → I s')
    (r : Continues p s h s') (h0 : I s) : I s' :=
  History.Run.preserves (fun c s s' hI st => hs s c s' hI (calls_iff.mp st)) r h0

/-- A recorded call is a step, from a reached ledger, and the run continues it. -/
theorem Reaches.of_mem {e : Tx B} (r : Reaches p h s) (he : e ∈ h) :
    ∃ h₁ h₂, h = h₂ ++ e :: h₁ ∧ Reaches p h₁ e.pre ∧ Step p e.label e.pre e.post
      ∧ Continues p e.post h₂ s := by
  obtain ⟨h₁, h₂, rfl, r₁, st, r₂⟩ := History.Run.of_mem r he
  exact ⟨h₁, h₂, rfl, r₁, calls_iff.mp st, r₂⟩

/-- The exactly-once rule of the contract: calls that raise a flag which nothing lowers. -/
theorem Reaches.countP_le_one {K : Tx B → Bool} (flag : Ledger B → Prop)
    (hkeep : ∀ h s c s', Reaches p h s → Step p c s s' → flag s → flag s')
    (hK : ∀ h s c s', Reaches p h s → Step p c s s' → K ⟨c, s, s'⟩ = true → ¬ flag s ∧ flag s')
    (r : Reaches p h s) : h.countP K ≤ 1 :=
  (History.Run.countP_le_one flag (fun h s c s' r st => hkeep h s c s' r (calls_iff.mp st))
    (fun h s c s' r st => hK h s c s' r (calls_iff.mp st)) r).1

/-! ## What never changes -/

/-- The fields a deployed contract keeps for good. -/
structure SameInstance (s s' : Ledger B) : Prop where
  issuer : s'.issuer = s.issuer
  contractDomain : s'.contractDomain = s.contractDomain
  issuerPayoutRecipient : s'.issuerPayoutRecipient = s.issuerPayoutRecipient
  settlementTokenColor : s'.settlementTokenColor = s.settlementTokenColor
  settlementTokenInitialized : s'.settlementTokenInitialized = s.settlementTokenInitialized

omit [DecidableEq B] [Compact B] in
theorem SameInstance.refl (s : Ledger B) : SameInstance s s := ⟨rfl, rfl, rfl, rfl, rfl⟩

omit [DecidableEq B] [Compact B] in
theorem SameInstance.trans {s t u : Ledger B} (h₁ : SameInstance s t) (h₂ : SameInstance t u) :
    SameInstance s u where
  issuer := h₂.issuer.trans h₁.issuer
  contractDomain := h₂.contractDomain.trans h₁.contractDomain
  issuerPayoutRecipient := h₂.issuerPayoutRecipient.trans h₁.issuerPayoutRecipient
  settlementTokenColor := h₂.settlementTokenColor.trans h₁.settlementTokenColor
  settlementTokenInitialized := h₂.settlementTokenInitialized.trans h₁.settlementTokenInitialized

theorem Step.sameInstance (st : Step p c s s') : SameInstance s s' := by
  cases st <;> exact ⟨rfl, rfl, rfl, rfl, rfl⟩

theorem Continues.sameInstance (r : Continues p s h s') : SameInstance s s' :=
  r.preserves (fun _ _ _ hI st => hI.trans st.sameInstance) (.refl s)

/-- The issuer of every recorded ledger is the issuer now. -/
theorem Reaches.issuer_of_mem {e : Tx B} (r : Reaches p h s) (he : e ∈ h) :
    e.pre.issuer = s.issuer := by
  obtain ⟨_, _, -, _, st, r₂⟩ := r.of_mem he
  rw [r₂.sameInstance.issuer, st.sameInstance.issuer]

/-- The domain a recorded call saw is the contract's. -/
theorem Reaches.domain_of_mem {e : Tx B} (r : Reaches p h s) (he : e ∈ h) :
    e.pre.contractDomain = s.contractDomain := by
  obtain ⟨_, _, -, _, st, r₂⟩ := r.of_mem he
  rw [r₂.sameInstance.contractDomain, st.sameInstance.contractDomain]

theorem Reaches.tokenInitialized (r : Reaches p h s) : s.settlementTokenInitialized = true := by
  refine r.stateInvariant (I := fun s => s.settlementTokenInitialized = true) (fun _ => rfl) ?_
  intro s c s' hI st
  rw [st.sameInstance.settlementTokenInitialized, hI]

/-! ## Notes -/

/-- The note a call adds: only a draw does. -/
inductive NoteNew (p : Profile) (c : Call B) (s : Ledger B) : B → NoteMeta B → Prop
  | draw {Q noteExpiry fee quote} :
      c.op = .draw Q noteExpiry fee → DrawGuard p c.witness c.now Q noteExpiry fee s quote →
      NoteNew p c s (drawnNote c.witness Q noteExpiry fee s)
        (.drawn (c.witness.drawAmount 0) fee noteExpiry s.lineGeneration)

/-- What a call makes of the note `D`: the four edges of its life. -/
inductive NoteMove (c : Call B) (s : Ledger B) (D : B) : NoteMeta B → NoteMeta B → Prop
  | redeem {noteExpiry note} :
      c.op = .redeemDraw D noteExpiry → RedeemGuard c.witness c.now D noteExpiry s note →
      NoteMove c s D note note.redeem
  | expire {action receiptExpiry note} :
      c.op = .cancelOrExpireNote D action receiptExpiry → action.val = 0 →
      note.redeemed = false → note.cancelled = false → note.expiry.val ≤ c.now →
      NoteMove c s D note note.expire
  | allocate {action receiptExpiry note refund owed} :
      c.op = .cancelOrExpireNote D action receiptExpiry → action.val = 1 →
      AllocateGuard c.witness D s note → (note.cancelled = false → note.expiry.val ≤ c.now) →
      NoteMove c s D note (note.allocate refund owed)
  | acknowledge {action receiptExpiry note} :
      c.op = .cancelOrExpireNote D action receiptExpiry → action.val = 2 →
      RefundGuard c.witness c.now D receiptExpiry s note →
      NoteMove c s D note (note.acknowledge (witnessPayment c.witness s))

/-- **Notes are a register**: a draw adds one, and the four edges move one. -/
theorem Step.notes (st : Step p c s s') :
    Register.Change (NoteNew p c s) (NoteMove c s) s.notes s'.notes := by
  cases st with
  | draw g => exact .add (Finmap.lookup_eq_none.mpr g.free) (.draw rfl g)
  | redeemDraw g => exact .put g.found (.redeem rfl g)
  | expire h0 hn hr hc _ hR => exact .put hn (.expire rfl h0 hr hc (hR.expired hc))
  | allocateCurrent h1 g _ hR => exact .put g.found (.allocate rfl h1 g hR.expired)
  | allocateOlder h1 g _ hR => exact .put g.found (.allocate rfl h1 g hR.expired)
  | acknowledgeRefund h2 g => exact .put g.found (.acknowledge rfl h2 g)
  | _ => exact .same

/-! ## Quotes -/

/-- The quote a call adds: only its merchant posts one. -/
inductive QuoteNew (c : Call B) (s : Ledger B) : B → QuoteMeta → Prop
  | post {expiry} :
      c.op = .postQuote expiry → QuoteGuard c.witness c.now expiry s →
      QuoteNew c s (witnessQuote c.witness expiry s) ⟨expiry, s.lineGeneration, false⟩

/-- What a call makes of the quote `Q`: a draw uses it up. -/
inductive QuoteMove (p : Profile) (c : Call B) (s : Ledger B) (Q : B) :
    QuoteMeta → QuoteMeta → Prop
  | use {noteExpiry fee quote} :
      c.op = .draw Q noteExpiry fee → DrawGuard p c.witness c.now Q noteExpiry fee s quote →
      QuoteMove p c s Q quote ⟨quote.expiry, quote.lineGeneration, true⟩

theorem Step.quotes (st : Step p c s s') :
    Register.Change (QuoteNew c s) (QuoteMove p c s) s.quotes s'.quotes := by
  cases st with
  | postQuote g => exact .add (Finmap.lookup_eq_none.mpr g.fresh) (.post rfl g)
  | draw g => exact .put g.found (.use rfl g)
  | _ => exact .same

/-! ## Merchants -/

/-- A registered key is new, and starts enabled. -/
def MerchantNew (c : Call B) (s : Ledger B) (M : B) (enabled : Bool) : Prop :=
  (∃ recipient, c.op = .registerMerchant M recipient) ∧ IsIssuer c.witness s ∧ enabled = true

/-- A key that is there can only be disabled. -/
def MerchantMove (c : Call B) (s : Ledger B) (M : B) (_ enabled : Bool) : Prop :=
  c.op = .disableMerchant M ∧ IsIssuer c.witness s ∧ enabled = false

theorem Step.merchants (st : Step p c s s') :
    Register.Change (MerchantNew c s) (MerchantMove c s) s.registeredMerchants
      s'.registeredMerchants := by
  cases st with
  | registerMerchant hi hm => exact .add (Finmap.lookup_eq_none.mpr hm) ⟨⟨_, rfl⟩, hi, rfl⟩
  | disableMerchant hi hm =>
    obtain ⟨b, hb⟩ := Finmap.mem_iff.mp hm
    exact .put hb ⟨rfl, hi, rfl⟩
  | _ => exact .same

theorem Step.merchants_mono (st : Step p c s s') {M : B} (hM : M ∈ s.registeredMerchants) :
    M ∈ s'.registeredMerchants :=
  st.merchants.mem hM

/-- Every registered merchant has a payout recipient in the organization contract. -/
theorem Reaches.payoutRecipient (r : Reaches .organization h s) {M : B}
    (hM : M ∈ s.registeredMerchants) : M ∈ s.merchantPayoutRecipients := by
  revert M
  refine r.stateInvariant
    (I := fun s => ∀ {M}, M ∈ s.registeredMerchants → M ∈ s.merchantPayoutRecipients) ?_ ?_
  · intro d M hM
    rcases Finmap.mem_insert.mp hM with rfl | hM
    · exact Finmap.mem_insert.mpr (.inl rfl)
    · exact absurd hM Finmap.notMem_empty
  · intro s c s' hI st M hM
    cases st with
    | registerMerchant =>
      rcases Finmap.mem_insert.mp hM with rfl | hM
      · exact Finmap.mem_insert.mpr (.inl rfl)
      · exact Finmap.mem_insert.mpr (.inr (hI hM))
    | disableMerchant _ hm =>
      rcases Finmap.mem_insert.mp hM with rfl | hM
      · exact hI hm
      · exact hI hM
    | _ => exact hI hM

/-! ## Nullifiers -/

/-- The nullifiers a call spends. -/
def spent (c : Call B) (s : Ledger B) : List B :=
  match c.op with
  | .draw Q _ _ => [drawNullifier (c.witness.agentSecret 0) Q s.contractDomain]
  | .redeemDraw D _ => [redeemNullifier (c.witness.callerSecret 1) D s.contractDomain]
  | .cancelOrExpireNote _ action _ =>
      if action.val = 2 then [witnessPayment c.witness s] else []
  | .acknowledgeRepayment _ => [witnessPayment c.witness s, witnessReceipt c.witness s]
  | _ => []

/-- **A step adds to the nullifiers exactly what it spends.** -/
theorem Step.nullifiers (st : Step p c s s') {n : B} :
    n ∈ s'.nullifiers ↔ n ∈ s.nullifiers ∨ n ∈ spent c s := by
  cases st with
  | draw => simp [spent, or_comm]
  | redeemDraw => simp [spent, or_comm]
  | acknowledgeRepayment =>
    simp only [spent, Finset.mem_insert, List.mem_cons, List.not_mem_nil, or_false]
    tauto
  | acknowledgeRefund h2 => simp [spent, h2, or_comm]
  | expire h0 => simp [spent, h0]
  | allocateCurrent h1 => simp [spent, h1]
  | allocateOlder h1 => simp [spent, h1]
  | _ => simp [spent]

/-- What a step spends was not spent before. -/
theorem Step.spent_fresh (st : Step p c s s') {n : B} (hn : n ∈ spent c s) :
    n ∉ s.nullifiers := by
  cases st with
  | draw g =>
    simp only [spent, List.mem_singleton] at hn
    exact hn ▸ g.fresh
  | redeemDraw g =>
    simp only [spent, List.mem_singleton] at hn
    exact hn ▸ g.fresh
  | acknowledgeRepayment g =>
    simp only [spent, List.mem_cons, List.not_mem_nil, or_false] at hn
    rcases hn with rfl | rfl
    · exact g.freshPayment
    · exact g.freshReceipt
  | acknowledgeRefund h2 g =>
    simp only [spent, h2, ↓reduceIte, List.mem_singleton] at hn
    exact hn ▸ g.fresh
  | expire h0 => simp [spent, h0] at hn
  | allocateCurrent h1 => simp [spent, h1] at hn
  | allocateOlder h1 => simp [spent, h1] at hn
  | _ => simp [spent] at hn

theorem Step.nullifiers_mono (st : Step p c s s') : s.nullifiers ⊆ s'.nullifiers :=
  fun _ hn => st.nullifiers.mpr (.inl hn)

end Line
