import Line.Engine.Accounts
import Line.Engine.Refinement

/-!
# The engine counts without rounding

A run of the engine is any sequence of accepted calls, whoever makes them, with whatever
numbers and at whatever time. As long as no call of `fundReserve` takes the total beyond the
safe integers, every counter of every ledger in the run is the exact sum of what its history
and its notes say, every private book that a call takes or gives is one of safe integers, and
each call moves its book by exact amounts.
-/

namespace Line.Engine

open Checked Records

variable {B : Type}

/-! ## What a call pays -/

/-- What a call pays into the reserve. -/
def Input.funds : Input B → ℕ
  | .fundReserve i => i.amount.toNat
  | _ => 0

/-- What a call pays out of what is free. -/
def Input.withdraws : Input B → ℕ
  | .withdrawUnencumberedReserve i => i.amount.toNat
  | _ => 0

/-- The fees a call pays out: each time the whole fee reserve. -/
def Input.feesOf (e : Ledger B) : Input B → ℕ
  | .withdrawFees _ => e.feeReserve.toNat
  | _ => 0

def Input.opensLine : Input B → Bool
  | .openLine _ _ => true
  | _ => false

section Postings

variable [DecidableEq B] [Compact B]

omit [DecidableEq B] [Compact B] in
theorem reserve_ext {s : Reserve B} {e : Ledger B} (ht : e.totalReserve = s.total)
    (hc : ∀ k, e.counter k = s.counter k) (hn : e.notes = s.notes) : e.reserve = s := by
  cases s
  simp only [Ledger.reserve, Reserve.mk.injEq]
  exact ⟨ht, funext hc, hn⟩

omit [DecidableEq B] in
theorem drawnRecord_whole {D : B} {amount fee expiry generation : Number} (ha : amount.IsCount)
    (hf : fee.IsCount) (hc : (amount.add fee).IsCount) :
    (drawnRecord D amount fee expiry generation).Whole :=
  ⟨ha, hf, hc, fun _ => rfl, fun _ => rfl⟩

/-- What settles: how much stays owed, and whether the debt takes it all. -/
theorem settle_reserve {proof : Compensation B} {owner : B} {n : NoteRecord B} {next : Ledger B}
    {x : Settled B} (ha : n.amount.IsCount) (hf : n.fee.IsCount)
    (hcost : (n.amount.add n.fee).IsCount)
    (h : settle proof owner n (n.amount.add n.fee) next = .ok x) :
    ∃ all : Bool, x.ledger.reserve = (if all then next.reserve.released n else next.reserve)
      ∧ x.owed.IsCount ∧ (all = true → x.owed.toNat = 0)
      ∧ (all = false → x.owed.toNat = 0 → n.cost = 0) := by
  have hzero : (Number.ofNat 0).IsCount := Number.isCount_ofNat.mpr (Nat.zero_le _)
  rcases settle_ok h with ⟨-, books, -, hs⟩ | ⟨-, rfl⟩
  -- what stays owed is the cost less what the debt takes, both safe
  · have howed : x.owed.IsCount := by
      have hmin := hs.book.outstanding.min_eq hcost
      have hle : min books.B.toNat (n.amount.add n.fee).toNat ≤ (n.amount.add n.fee).toNat :=
        Nat.min_le_right _ _
      have hmincount := Number.IsCount.of_eq hmin (hle.trans hcost.2)
      have hsub := hcost.sub_eq hmincount (by rw [hmin, Number.toNat_ofNat]; exact hle)
      rw [hs.owed]
      exact Number.IsCount.of_eq hsub ((Nat.sub_le _ _).trans hcost.2)
    -- nothing is owed exactly if the debt takes it all
    have heq : x.owed.eq (.ofNat 0) = true ↔ x.owed.toNat = 0 := by
      rw [howed.eq_iff hzero, Number.toNat_ofNat]
    obtain ⟨C, hledger⟩ := hs.ledger
    refine ⟨x.owed.eq (.ofNat 0), ?_, howed, heq.mp, fun hno hz => ?_⟩
    · rw [hledger]
      refine reserve_ext ?_ (fun k => ?_) ?_ <;> cases x.owed.eq (.ofNat 0) <;>
        first | rfl | (cases k <;> rfl)
    · rw [heq.mpr hz] at hno
      cases hno
  -- without a book all of the cost is owed
  · have hsum := ha.add_eq hf ((ha.add_iff hf).mp hcost)
    refine ⟨false, rfl, hcost, by simp, fun _ hz => ?_⟩
    rw [hsum, Number.toNat_ofNat] at hz
    exact hz

omit [DecidableEq B] [Compact B] in
/-- The counters after the fees were withdrawn. -/
theorem fees_reserve (e : Ledger B) : (pushEvent { e with
    totalReserve := e.totalReserve.sub e.feeReserve, feeReserve := .ofNat 0 }).reserve =
      { total := e.reserve.total.sub (e.reserve.counter .fee)
        counter := fun
          | .fee => .ofNat 0
          | k => e.reserve.counter k
        notes := e.reserve.notes } :=
  reserve_ext rfl (fun k => by cases k <;> rfl) rfl

/-- The three modes of a note. -/
theorem handleNote_posting [Words B] {env : Env B} {i : NoteInput B} {mode : Number} {D : B}
    {n : NoteRecord B} {e : Ledger B} {x : NoteHandled B}
    (hn : find NoteRecord.commitment e.notes D = some n) (hr : n.redeemed = false)
    (ha : n.amount.IsCount) (hf : n.fee.IsCount) (hcost : (n.amount.add n.fee).IsCount)
    (h : handleNote env i mode D n (n.amount.add n.fee) e = .ok x) :
    Posting 0 0 0 e.reserve x.ledger.reserve := by
  unfold handleNote at h
  split at h
  -- mode 0
  · obtain ⟨hc, -, rfl⟩ := cancelNote_ok h
    have hsame : ({ e.expired n (n.amount.add n.fee) with
        notes := change NoteRecord.commitment (fun n => { n with cancelled := true }) D e.notes } :
          Ledger B).reserve
        = (e.reserve.expired n).rewritten (fun n => { n with cancelled := true }) D :=
      reserve_ext rfl (fun k => by cases k <;> rfl) rfl
    rw [hsame]
    exact .cancel hn hr hc
  · split at h
    · obtain ⟨hal, e₁, proof, y, refund, allocation, he₁, -, hy, -, -, rfl⟩ :=
        allocateCompensation_ok h
      obtain ⟨all, hall, howed, hzero, hrest⟩ := settle_reserve ha hf hcost hy
      -- mode 1: a live note is expired on the way
      have hexpired : n.cancelled = true ∧ e₁.reserve = e.reserve
          ∨ n.cancelled = false ∧ e₁.reserve = e.reserve.expired n := by
        rcases expireLive_ok he₁ with ⟨hc, rfl⟩ | ⟨hc, -, rfl⟩
        · exact .inl ⟨hc, rfl⟩
        · exact .inr ⟨hc, reserve_ext rfl (fun k => by cases k <;> rfl) rfl⟩
      have hsame : ({ y.ledger with
          notes := change NoteRecord.commitment (·.allocated refund y.owed) D y.ledger.notes } :
            Ledger B).reserve = y.ledger.reserve.rewritten (·.allocated refund y.owed) D :=
        reserve_ext rfl (fun k => by cases k <;> rfl) rfl
      rw [hsame, hall]
      exact .allocate hn hr hal hexpired howed hzero hrest
    -- mode 2
    · obtain ⟨hc, hal, ho, hk, -, -, N, rfl⟩ := acknowledgeRefund_ok h
      have hsame : ({ e with
          nullifiers := e.nullifiers ++ [N]
          notes := change NoteRecord.commitment (fun n => { n with
            refundAcknowledged := true
            refundPaymentNullifier := N }) D e.notes
          refundReserve := e.refundReserve.sub (n.amount.add n.fee)
          reportedRefundReserve := e.reportedRefundReserve.add (n.amount.add n.fee) } :
            Ledger B).reserve = (e.reserve.reported n).rewritten (fun n => { n with
              refundAcknowledged := true
              refundPaymentNullifier := N }) D :=
        reserve_ext rfl (fun k => by cases k <;> rfl) rfl
      rw [hsame]
      exact .acknowledge hn hr hc hal ho hk

/-- **Every accepted call is a posting.** -/
theorem run_posting [Words B] {env : Env B} {i : Input B} {e e' : Ledger B}
    (h : run env i e = .ok e') :
    Posting i.funds i.withdraws (i.feesOf e) e.reserve e'.reserve := by
  cases i with
  | registerMerchant i =>
    simp only [run, registerMerchant, bind_ok_iff, failIf_ok_iff, exists_const, pure_ok_iff] at h
    obtain ⟨-, -, rfl⟩ := h
    exact .aside
  | disableMerchant c M =>
    simp only [run, disableMerchant, bind_ok_iff, failIf_ok_iff, exists_const, pure_ok_iff] at h
    obtain ⟨-, -, rfl⟩ := h
    exact .aside
  | fundReserve i =>
    simp only [run, fundReserve, bind_ok_iff, failIf_ok_iff, exists_const, pure_ok_iff,
      positive_iff] at h
    obtain ⟨-, ⟨ha, -⟩, _, -, -, rfl⟩ := h
    exact .fund ha
  | withdrawUnencumberedReserve i =>
    simp only [run, withdrawUnencumberedReserve, bind_ok_iff, failIf_ok_iff, exists_const,
      pure_ok_iff, positive_iff] at h
    obtain ⟨-, ⟨ha, -⟩, hfree, rfl⟩ := h
    exact .withdraw ha hfree
  | withdrawFees c =>
    simp only [run, map_ok_iff, withdrawFees, bind_ok_iff, failIf_ok_iff, exists_const,
      pure_ok_iff] at h
    obtain ⟨_, ⟨-, -, -, rfl⟩, rfl⟩ := h
    rw [fees_reserve e]
    exact Posting.fees (s := e.reserve)
  -- neither a line nor a quote is in the reserve
  | openLine i limit =>
    obtain ⟨r, hr, rfl⟩ := map_ok_iff.mp h
    obtain ⟨-, -, -, -, -, I, C, hledger⟩ := openLine_ok hr
    rw [hledger]
    exact .aside
  | postQuote i amount =>
    obtain ⟨r, hr, rfl⟩ := map_ok_iff.mp h
    obtain ⟨-, -, -, -, hledger⟩ := postQuote_ok hr
    rw [hledger]
    exact .aside
  -- these three move what a note accounts for
  | draw i witness =>
    obtain ⟨r, hr, rfl⟩ := map_ok_iff.mp h
    obtain ⟨books, wq, live, cost, hd⟩ := draw_ok hr
    obtain ⟨Q, C, N, D, hledger⟩ := hd.ledger
    obtain ⟨rfl, hcost⟩ := hd.sum
    have hwhole : (drawnRecord D wq.amount i.charge (i.noteExpiry.getD live.expiry)
        e.lineGeneration).Whole := drawnRecord_whole hd.amount.1 hd.fee hcost
    have hsame : r.ledger.reserve = e.reserve.drawn (drawnRecord D wq.amount i.charge
        (i.noteExpiry.getD live.expiry) e.lineGeneration) := by
      rw [hledger]
      exact reserve_ext rfl (fun k => by cases k <;> rfl) rfl
    rw [hsame]
    exact .draw hwhole hd.reserve
  | redeemDraw i witnessNote =>
    obtain ⟨r, hr, rfl⟩ := map_ok_iff.mp h
    obtain ⟨D, live, hd⟩ := redeemDraw_ok hr
    obtain ⟨N, hledger⟩ := hd.ledger
    have hsame : r.ledger.reserve = (e.reserve.redeemed live).rewritten
        (fun n => { n with redeemed := true }) D := by
      rw [hledger]
      exact reserve_ext rfl (fun k => by cases k <;> rfl) rfl
    rw [hsame]
    exact .redeem hd.found hd.unredeemed hd.uncancelled
  | cancelOrExpireNote i =>
    obtain ⟨r, hr, rfl⟩ := map_ok_iff.mp h
    obtain ⟨D, live, x, -, hlive, hredeemed, ha, hf, hcost, -, hx, rfl⟩ := cancelOrExpireNote_ok hr
    have hp := handleNote_posting hlive hredeemed ha hf hcost hx
    exact hp
  -- a repayment is paid outside the ledger
  | acknowledgeRepayment i witness =>
    obtain ⟨r, hr, rfl⟩ := map_ok_iff.mp h
    obtain ⟨books, receipt, hd⟩ := acknowledgeRepayment_ok hr
    obtain ⟨C, Ns, hledger⟩ := hd.ledger
    rw [hledger]
    exact .aside
  | setStatus i =>
    obtain ⟨-, rfl⟩ := setStatus_ok (show setStatus e i = .ok e' from h)
    exact .aside

end Postings

/-! ## Runs -/

/-- An accepted call, and the ledger it was made on. -/
structure Step (B : Type) where
  env : Env B
  input : Input B
  pre : Ledger B

section Runs

variable [DecidableEq B] [Compact B] [Words B]

/-- A run of accepted calls, the last one first. -/
inductive Runs (start : Ledger B) : List (Step B) → Ledger B → Prop
  | start : Runs start [] start
  | call {h e e' env input} (r : Runs start h e) (hok : run env input e = .ok e') :
      Runs start (⟨env, input, e⟩ :: h) e'

omit [DecidableEq B] [Compact B] [Words B] in
/-- Everything that was paid into the reserve. -/
def funded (h : List (Step B)) : ℕ := (h.map fun c => c.input.funds).sum

/-- Everything that was withdrawn of what was free. -/
def withdrawn (h : List (Step B)) : ℕ := (h.map fun c => c.input.withdraws).sum

/-- All the fees that were paid out. -/
def feesPaid (h : List (Step B)) : ℕ := (h.map fun c => c.input.feesOf c.pre).sum

/-- How many lines were opened. -/
def openings (h : List (Step B)) : ℕ := h.countP fun c => c.input.opensLine

omit [DecidableEq B] [Compact B] [Words B] in
/-- A funding leaves a total that is a safe integer. -/
def Step.FundsSafe (c : Step B) : Prop :=
  match c.input with
  | .fundReserve i => c.pre.totalReserve.toNat + i.amount.toNat ≤ Number.maxSafe
  | _ => True

omit [Words B] in
theorem reserve_created (env : Env B) (params : LedgerParams B) :
    (createLedger env params).reserve.Exact 0 0 0 where
  notes n hn := by cases hn
  total := ⟨Number.isCount_ofNat.mpr (Nat.zero_le _), rfl⟩
  counter k := by cases k <;> exact Number.isCount_ofNat.mpr (Nat.zero_le _)
  books k := by cases k <;> rfl
  covered := Nat.le_refl _

/-- **Along a run whose fundings stay safe the accounts are exact.** -/
theorem Runs.exact {env : Env B} {params : LedgerParams B} {h : List (Step B)} {e : Ledger B}
    (r : Runs (createLedger env params) h e) (hf : ∀ c ∈ h, c.FundsSafe) :
    e.reserve.Exact (funded h) (withdrawn h) (feesPaid h) := by
  induction r with
  | start => exact reserve_created env params
  | @call h e e' env' input r hok ih =>
    have hx := ih fun c hc => hf c (List.mem_cons_of_mem _ hc)
    have hlast := hf _ List.mem_cons_self
    have hsafe : e.reserve.total.toNat + input.funds ≤ Number.maxSafe := by
      have hle := hx.total.1.2
      cases input <;> first | exact hlast | exact hle
    have hstep := (run_posting hok).exact hx hsafe
    simp only [funded, withdrawn, feesPaid, List.map_cons, List.sum_cons] at hstep ⊢
    rw [Nat.add_comm input.funds, Nat.add_comm input.withdraws, Nat.add_comm (input.feesOf e)]
    exact hstep

end Runs

/-! ## Clocks -/

section Clocks

variable [DecidableEq B] [Compact B] [Words B]

omit [DecidableEq B] [Compact B] [Words B] in
theorem expireLive_clocks {env : Env B} {n : NoteRecord B} {cost : Number} {e e' : Ledger B}
    (h : expireLive env n cost e = .ok e') :
    e'.actionClock = e.actionClock ∧ e'.lineGeneration = e.lineGeneration := by
  rcases expireLive_ok h with ⟨-, rfl⟩ | ⟨-, -, rfl⟩ <;> exact ⟨rfl, rfl⟩

omit [Words B] in
theorem settle_clocks {proof : Compensation B} {owner : B} {n : NoteRecord B} {cost : Number}
    {e : Ledger B} {x : Settled B} (h : settle proof owner n cost e = .ok x) :
    x.ledger.actionClock = e.actionClock ∧ x.ledger.lineGeneration = e.lineGeneration := by
  rcases settle_ok h with ⟨-, books, -, hs⟩ | ⟨-, rfl⟩
  · obtain ⟨C, hledger⟩ := hs.ledger
    rw [hledger]
    exact ⟨rfl, rfl⟩
  · exact ⟨rfl, rfl⟩

theorem handleNote_clocks {env : Env B} {i : NoteInput B} {mode : Number} {D : B}
    {n : NoteRecord B} {cost : Number} {e : Ledger B} {x : NoteHandled B}
    (h : handleNote env i mode D n cost e = .ok x) :
    x.ledger.actionClock = e.actionClock ∧ x.ledger.lineGeneration = e.lineGeneration := by
  unfold handleNote at h
  split at h
  · obtain ⟨-, -, rfl⟩ := cancelNote_ok h
    exact ⟨rfl, rfl⟩
  · split at h
    · obtain ⟨-, e₁, proof, y, refund, allocation, he₁, -, hy, -, -, rfl⟩ :=
        allocateCompensation_ok h
      obtain ⟨hc, hg⟩ := expireLive_clocks he₁
      obtain ⟨hc', hg'⟩ := settle_clocks hy
      exact ⟨hc'.trans hc, hg'.trans hg⟩
    · obtain ⟨-, -, -, -, -, -, N, rfl⟩ := acknowledgeRefund_ok h
      exact ⟨rfl, rfl⟩

/-- Every call ticks the clock; opening a line counts a generation. -/
theorem run_clocks {env : Env B} {i : Input B} {e e' : Ledger B} (h : run env i e = .ok e') :
    e'.actionClock = e.actionClock.add (.ofNat 1)
      ∧ e'.lineGeneration =
        (if i.opensLine then e.lineGeneration.add (.ofNat 1) else e.lineGeneration) := by
  cases i with
  | registerMerchant i =>
    simp only [run, registerMerchant, bind_ok_iff, failIf_ok_iff, exists_const, pure_ok_iff] at h
    obtain ⟨-, -, rfl⟩ := h
    exact ⟨rfl, rfl⟩
  | disableMerchant c M =>
    simp only [run, disableMerchant, bind_ok_iff, failIf_ok_iff, exists_const, pure_ok_iff] at h
    obtain ⟨-, -, rfl⟩ := h
    exact ⟨rfl, rfl⟩
  | fundReserve i =>
    simp only [run, fundReserve, bind_ok_iff, failIf_ok_iff, exists_const, pure_ok_iff] at h
    obtain ⟨-, -, _, -, -, rfl⟩ := h
    exact ⟨rfl, rfl⟩
  | withdrawUnencumberedReserve i =>
    simp only [run, withdrawUnencumberedReserve, bind_ok_iff, failIf_ok_iff, exists_const,
      pure_ok_iff] at h
    obtain ⟨-, -, -, rfl⟩ := h
    exact ⟨rfl, rfl⟩
  | withdrawFees c =>
    simp only [run, map_ok_iff, withdrawFees, bind_ok_iff, failIf_ok_iff, exists_const,
      pure_ok_iff] at h
    obtain ⟨_, ⟨-, -, -, rfl⟩, rfl⟩ := h
    exact ⟨rfl, rfl⟩
  -- the one operation that counts a generation
  | openLine i limit =>
    obtain ⟨r, hr, rfl⟩ := map_ok_iff.mp h
    obtain ⟨-, -, -, -, -, I, C, hledger⟩ := openLine_ok hr
    rw [hledger]
    exact ⟨rfl, rfl⟩
  | postQuote i amount =>
    obtain ⟨r, hr, rfl⟩ := map_ok_iff.mp h
    obtain ⟨-, -, -, -, hledger⟩ := postQuote_ok hr
    rw [hledger]
    exact ⟨rfl, rfl⟩
  | draw i witness =>
    obtain ⟨r, hr, rfl⟩ := map_ok_iff.mp h
    obtain ⟨books, wq, live, cost, hd⟩ := draw_ok hr
    obtain ⟨Q, C, N, D, hledger⟩ := hd.ledger
    rw [hledger]
    exact ⟨rfl, rfl⟩
  | redeemDraw i witnessNote =>
    obtain ⟨r, hr, rfl⟩ := map_ok_iff.mp h
    obtain ⟨D, live, hd⟩ := redeemDraw_ok hr
    obtain ⟨N, hledger⟩ := hd.ledger
    rw [hledger]
    exact ⟨rfl, rfl⟩
  | cancelOrExpireNote i =>
    obtain ⟨r, hr, rfl⟩ := map_ok_iff.mp h
    obtain ⟨D, live, x, -, -, -, -, -, -, -, hx, rfl⟩ := cancelOrExpireNote_ok hr
    obtain ⟨hc, hg⟩ := handleNote_clocks hx
    exact ⟨congrArg (·.add (.ofNat 1)) hc, hg⟩
  | acknowledgeRepayment i witness =>
    obtain ⟨r, hr, rfl⟩ := map_ok_iff.mp h
    obtain ⟨books, receipt, hd⟩ := acknowledgeRepayment_ok hr
    obtain ⟨C, Ns, hledger⟩ := hd.ledger
    rw [hledger]
    exact ⟨rfl, rfl⟩
  | setStatus i =>
    obtain ⟨-, rfl⟩ := setStatus_ok (show setStatus e i = .ok e' from h)
    exact ⟨rfl, rfl⟩

/-- The clock counts the calls, and the generation the openings, while they stay safe integers. -/
theorem Runs.clocks {env : Env B} {params : LedgerParams B} {h : List (Step B)} {e : Ledger B}
    (r : Runs (createLedger env params) h e) (hlen : h.length ≤ Number.maxSafe) :
    e.actionClock = .ofNat h.length ∧ e.lineGeneration = .ofNat (openings h)
      ∧ openings h ≤ h.length := by
  induction r with
  | start => exact ⟨rfl, rfl, Nat.le_refl _⟩
  | @call h e e' env' input r hok ih =>
    rw [List.length_cons] at hlen
    obtain ⟨hclock, hgen, hle⟩ := ih (by omega)
    obtain ⟨hclock', hgen'⟩ := run_clocks hok
    have htick := Number.add_ofNat (a := h.length) (b := 1) hlen
    have hnext := Number.add_ofNat (a := openings h) (b := 1) (by omega)
    refine ⟨by rw [hclock', hclock, htick, List.length_cons], ?_⟩
    rw [hgen', hgen, List.length_cons]
    unfold openings at hle hnext ⊢
    rw [List.countP_cons]
    cases input.opensLine with
    | true =>
      simp only [↓reduceIte]
      exact ⟨hnext, by omega⟩
    | false =>
      simp only [Bool.false_eq_true, ↓reduceIte, Nat.add_zero]
      exact ⟨trivial, by omega⟩

end Clocks

/-! ## Private books -/

/-- A book follows another at the next epoch, with a debt of `up` more and `down` less. -/
structure LineWitness.Follows (new old : LineWitness B) (up down : ℕ) : Prop where
  domain : old.InDomain ∧ new.InDomain
  limit : new.L = old.L
  debt : new.B.toNat + down = old.B.toNat + up
  epoch : new.e.toNat = old.e.toNat + 1

/-- A next epoch that is a count is exact. -/
theorem next_epoch {e : Number} (he : e.IsCount) (h : (e.add (.ofNat 1)).IsCount) :
    (e.add (.ofNat 1)).toNat = e.toNat + 1 := by
  have hone : (Number.ofNat 1).IsCount := Number.isCount_ofNat.mpr (by decide)
  rw [he.add_eq hone ((he.add_iff hone).mp h), Number.toNat_ofNat, Number.toNat_ofNat]

/-- **What the calls on a ledger make of private books**, whoever makes them. -/
structure BooksExact [DecidableEq B] [Compact B] [Words B] (e : Ledger B) : Prop where
  opened : ∀ env i limit r, openLine env e i limit = .ok r → ∃ new, r.agent.witness = some new
    ∧ new.InDomain ∧ new.B = .ofNat 0 ∧ new.e = .ofNat 0
  /-- A draw adds the amount and the fee, within the limit. -/
  drawn : ∀ env i witness r, draw env e i witness = .ok r → ∃ old new quote,
    i.books witness = some old ∧ r.agent.witness = some new ∧ i.opening witness = some quote
      ∧ new.Follows old (quote.amount.toNat + i.charge.toNat) 0 ∧ new.B.toNat ≤ new.L.toNat
  /-- A repayment takes its amount off. -/
  repaid : ∀ env i witness r, acknowledgeRepayment env e i witness = .ok r → ∃ old receipt,
    i.books witness = some old ∧ i.proof witness = some receipt
      ∧ r.witness.Follows old 0 receipt.amount.toNat
  /-- A compensation takes off what it credits, and owes the rest of the cost. -/
  compensated : ∀ env i r new, cancelOrExpireNote env e i = .ok r → r.witness = some new →
    ∃ proof old refund, ∃ n ∈ e.notes, i.compensation = some proof ∧ proof.books = some old
      ∧ r.refund = some refund ∧ new.Follows old 0 refund.allocatedCredit.toNat
      ∧ refund.allocatedCredit.toNat + refund.amount.toNat = n.cost

section Books

variable [DecidableEq B] [Compact B] [Words B] {e : Ledger B} {env : Env B}

omit [Words B] in
theorem draw_books {i : DrawInput B} {witness : Option (DrawWitness B)} {r : Drawn B}
    (h : draw env e i witness = .ok r) : ∃ old new quote,
      i.books witness = some old ∧ r.agent.witness = some new ∧ i.opening witness = some quote
        ∧ new.Follows old (quote.amount.toNat + i.charge.toNat) 0
        ∧ new.B.toNat ≤ new.L.toNat := by
  obtain ⟨books, wq, live, cost, hd⟩ := draw_ok h
  obtain ⟨C, salt, hw, hC⟩ := hd.witness
  obtain ⟨hsum, hcost⟩ := hd.sum
  have hnew := lineCommitment_ok hC
  have hadd := hd.amount.1.add_eq hd.fee ((hd.amount.1.add_iff hd.fee).mp (hsum ▸ hcost))
  have hdebt := hd.book.outstanding.add_eq hcost ((hd.book.outstanding.add_iff hcost).mp hd.debt)
  refine ⟨books, _, wq, hd.shown, hw, hd.opening, ⟨⟨hd.book, hnew⟩, rfl, ?_,
    next_epoch hd.book.epoch hnew.epoch⟩, (hd.book.limit.lt_iff hd.debt).mp hd.capacity⟩
  have hcost' : cost.toNat = wq.amount.toNat + i.charge.toNat := by
    rw [hsum, hadd, Number.toNat_ofNat]
  have hB : (books.B.add cost).toNat = books.B.toNat + cost.toNat := by
    rw [hdebt, Number.toNat_ofNat]
  show (books.B.add cost).toNat + 0 = _
  omega

theorem repay_books {i : RepayInput B} {witness : Option (RepayWitness B)} {r : Repaid B}
    (h : acknowledgeRepayment env e i witness = .ok r) : ∃ old receipt,
      i.books witness = some old ∧ i.proof witness = some receipt
        ∧ r.witness.Follows old 0 receipt.amount.toNat := by
  obtain ⟨books, receipt, hd⟩ := acknowledgeRepayment_ok h
  obtain ⟨C, hL, hB, he, hC⟩ := hd.witness
  have hnew := lineCommitment_ok hC
  have hle := (hd.book.outstanding.lt_iff hd.amount.1).mp hd.covered
  have hdebt := hd.book.outstanding.sub_eq hd.amount.1 hle
  refine ⟨books, receipt, hd.shown, hd.proof, ⟨⟨hd.book, hnew⟩, hL, ?_, ?_⟩⟩
  · rw [hB, hdebt, Number.toNat_ofNat]
    omega
  · rw [he]
    exact next_epoch hd.book.epoch (he ▸ hnew.epoch)

theorem compensate_books {i : NoteInput B} {r : NoteHandled B} {new : LineWitness B}
    (h : cancelOrExpireNote env e i = .ok r) (hw : r.witness = some new) :
    ∃ proof old refund, ∃ n ∈ e.notes, i.compensation = some proof ∧ proof.books = some old
      ∧ r.refund = some refund ∧ new.Follows old 0 refund.allocatedCredit.toNat
      ∧ refund.allocatedCredit.toNat + refund.amount.toNat = n.cost := by
  obtain ⟨D, n, x, -, hn, -, ha, hf, hcost, -, hx, rfl⟩ := cancelOrExpireNote_ok h
  unfold handleNote at hx
  split at hx
  · obtain ⟨-, -, rfl⟩ := cancelNote_ok hx
    cases hw
  · split at hx
    · obtain ⟨-, e₁, proof, y, refund, allocation, -, hproof, hy, hamount, hcredit, rfl⟩ :=
        allocateCompensation_ok hx
      rcases settle_ok hy with ⟨-, books, hbooks, hs⟩ | ⟨-, rfl⟩
      · obtain ⟨salt, hwitness⟩ := hs.witness
        obtain rfl := Option.some.inj (hwitness.symm.trans hw)
        have hout := hs.book.outstanding
        -- the credit is the smaller of the debt and the cost
        have hmin := hout.min_eq hcost
        have hsum := ha.add_eq hf ((ha.add_iff hf).mp hcost)
        have hleB := Nat.min_le_left books.B.toNat (n.amount.add n.fee).toNat
        have hleC := Nat.min_le_right books.B.toNat (n.amount.add n.fee).toNat
        have hminc := Number.IsCount.of_eq hmin (hleC.trans hcost.2)
        have hdebt := hout.sub_eq hminc (by rw [hmin, Number.toNat_ofNat]; exact hleB)
        have howed := hcost.sub_eq hminc (by rw [hmin, Number.toNat_ofNat]; exact hleC)
        rw [hmin, Number.toNat_ofNat] at hdebt howed
        rw [← hmin] at hdebt howed
        have hcredited : allocation.allocatedCredit.toNat
            = min books.B.toNat (n.amount.add n.fee).toNat := by
          rw [hcredit, hs.credited, hmin, Number.toNat_ofNat]
        have hleft : allocation.amount.toNat = (n.amount.add n.fee).toNat
            - min books.B.toNat (n.amount.add n.fee).toNat := by
          rw [hamount, hs.owed, howed, Number.toNat_ofNat]
        have hcosts : (n.amount.add n.fee).toNat = n.cost := by
          rw [hsum, Number.toNat_ofNat]
          rfl
        refine ⟨proof, books, allocation, n, (mem_of_find hn).1, hproof, hbooks, rfl, ⟨⟨hs.book,
          ⟨hs.book.limit, ?_, hs.epoch⟩⟩, rfl, ?_, next_epoch hs.book.epoch hs.epoch⟩, by omega⟩
        · rw [hs.credited, hdebt]
          exact Number.isCount_ofNat.mpr ((Nat.sub_le _ _).trans hout.2)
        · rw [hs.credited, hdebt, hcredited, Number.toNat_ofNat]
          omega
      · cases hw
    · obtain ⟨-, -, -, -, -, -, N, rfl⟩ := acknowledgeRefund_ok hx
      cases hw

theorem booksExact (e : Ledger B) : BooksExact e where
  opened env i limit r h := by
    obtain ⟨hL, -, -, -, ⟨I, salt, hw⟩, -⟩ := openLine_ok h
    have hzero : (Number.ofNat 0).IsCount := Number.isCount_ofNat.mpr (Nat.zero_le _)
    exact ⟨_, hw, ⟨hL, hzero, hzero⟩, rfl, rfl⟩
  drawn _ _ _ _ h := draw_books h
  repaid _ _ _ _ h := repay_books h
  compensated _ _ _ _ h hw := compensate_books h hw

end Books

/-! ## The whole run -/

/-- **The engine counts exactly** after the calls `h`. -/
structure CountsExactly [DecidableEq B] [Compact B] [Words B] (h : List (Step B)) (e : Ledger B) :
    Prop where
  reserve : e.reserve.Exact (funded h) (withdrawn h) (feesPaid h)
  locked : lockedReserve e = .ofNat e.reserve.held ∧ e.reserve.held ≤ e.totalReserve.toNat
  free : e.totalReserve.sub (lockedReserve e) = .ofNat (e.totalReserve.toNat - e.reserve.held)
  costs : ∀ n ∈ e.notes, n.amount.add n.fee = .ofNat n.cost ∧ n.cost ≤ Number.maxSafe
  books : BooksExact e
  clocks : h.length ≤ Number.maxSafe →
    e.actionClock = .ofNat h.length ∧ e.lineGeneration = .ofNat (openings h)

/-- **A run whose fundings stay safe is exact** in every ledger it reaches. -/
theorem engine_exact [DecidableEq B] [Compact B] [Words B] (env : Env B) (params : LedgerParams B)
    (h : List (Step B)) (e : Ledger B) (r : Runs (createLedger env params) h e)
    (hf : ∀ c ∈ h, c.FundsSafe) : CountsExactly h e := by
  have hx := r.exact hf
  refine ⟨hx, ⟨hx.locked_eq, hx.covered⟩, hx.free_eq, fun n hn => ?_, booksExact e, fun hlen => ?_⟩
  · obtain ⟨hle, hsum⟩ := (hx.notes n hn).cost_eq
    exact ⟨hsum, hle⟩
  · obtain ⟨hclock, hgen, -⟩ := r.clocks hlen
    exact ⟨hclock, hgen⟩

/-! ## Over terms -/

namespace Demo

open Line.Demo

/-- The calls one after the other, with the history they make. -/
def replay : List (Env Term × Input Term) → List (Step Term) → Ledger Term →
    Result (List (Step Term) × Ledger Term)
  | [], h, e => pure (h, e)
  | (env, input) :: calls, h, e => do
    let e' ← run env input e
    replay calls (⟨env, input, e⟩ :: h) e'

theorem replay_runs {start e e' : Ledger Term} {h h' : List (Step Term)}
    {calls : List (Env Term × Input Term)} (r : Runs start h e)
    (hok : replay calls h e = .ok (h', e')) : Runs start h' e' := by
  induction calls generalizing h e with
  | nil =>
    cases hok
    exact r
  | cons c calls ih =>
    simp only [replay, bind_ok_iff] at hok
    obtain ⟨e₁, he₁, hok⟩ := hok
    exact ih (r.call he₁) hok

/-- The book of the demo line, and the successor after a draw of 100 for a fee of 2. -/
def book : LineWitness Term := ⟨domain, agentId borrower, .ofNat 500, .ofNat 0, .ofNat 0, .atom 0⟩

def invoice : QuotePreimage Term :=
  ⟨Line.merchantPublicKey merchant, .ofNat 100, .atom 7, .ofNat 50, .atom 8, .ofNat 1, .ofNat 2,
    .ofNat 0⟩

/-- A line is funded, opened, drawn on and redeemed. -/
def purchase : List (Env Term × Input Term) :=
  let drawn : DrawInput Term :=
    { caller := none, callerSk := none, agentSecret := some borrower, agent := none
      witness := some book, quote := some invoice, invoice := none, quoteCommit := none
      newSalt := none, noteNonce := none, noteSalt := none, noteExpiry := none
      fee := some (.ofNat 2) }
  let note : DrawNotePreimage Term :=
    { domain := domain, lineGeneration := .ofNat 1, identity := agentId borrower
      quoteCommit := Line.quoteCommit (Line.merchantPublicKey merchant) (.atom 7)
        (Line.Demo.u64 100) (Line.Demo.u64 50) (.atom 8) (Line.Demo.u64 1) domain (Line.Demo.u64 2)
        (Line.Demo.u64 0)
      merchantPk := Line.merchantPublicKey merchant, amount := .ofNat 100, fee := .ofNat 2
      noteNonce := .atom 0, expiry := .ofNat 50 }
  let D : Term := Line.drawNoteCommit ⟨domain, Line.Demo.u64 1, agentId borrower,
    note.quoteCommit, Line.merchantPublicKey merchant, Line.Demo.u64 100, Line.Demo.u64 2, .atom 0,
    Line.Demo.u64 50⟩ (.atom 0)
  [(program 0, .fundReserve (amount 1000)),
    (program 0, .openLine ⟨some issuer, none, borrower, none, some (.atom 0), .ofNat 100,
      some (.ofNat 2), none⟩ (some (.ofNat 500))),
    (program 1, .postQuote ⟨none, none, some merchant, none, .atom 7, .ofNat 50, some (.atom 8)⟩
      (some (.ofNat 100))),
    (program 2, .draw drawn none),
    (program 3, .redeemDraw ⟨none, none, some merchant, none, some D, none, some note,
      some (.atom 0)⟩ none),
    (program 4, .withdrawFees issuer)]

/-- Two fundings: the first takes all the safe integers, the second two more. -/
def overfunding : List (Env Term × Input Term) :=
  [(program 0, .fundReserve (amount Number.maxSafe)), (program 0, .fundReserve (amount 2))]

example : ((replay purchase [] ledger).toOption.map fun r => (r.2.totalReserve,
    r.2.encumberedReserve, r.2.redeemedReserve, r.2.feeReserve))
      = some (.ofNat 998, .ofNat 0, .ofNat 100, .ofNat 0) := by decide +kernel

/-- The purchase is a run, and its funding is safe. -/
theorem purchase_runs : ∃ h e, Runs ledger h e ∧ h.length = 6 ∧ ∀ c ∈ h, c.FundsSafe := by
  have hok : (replay purchase [] ledger).isOk = true := by decide +kernel
  obtain ⟨⟨h, e⟩, hr⟩ := isOk_iff.mp hok
  have hlen : ((replay purchase [] ledger).toOption.map fun r => r.1.length) = some 6 := by
    decide +kernel
  have hsafe : ((replay purchase [] ledger).toOption.map fun r => r.1.all fun c =>
      match c.input with
      | .fundReserve i => decide (c.pre.totalReserve.toNat + i.amount.toNat ≤ Number.maxSafe)
      | _ => true) = some true := by decide +kernel
  rw [hr] at hlen hsafe
  refine ⟨h, e, replay_runs .start hr, Option.some.inj hlen, fun c hc => ?_⟩
  have hc' := List.all_eq_true.mp (Option.some.inj hsafe) c hc
  unfold Step.FundsSafe
  split at hc'
  · next hi =>
    rw [hi]
    exact of_decide_eq_true hc'
  · next hno =>
    split
    · next i hi => exact absurd hi (hno i)
    · trivial

end Demo

/-- A funded purchase, redeemed, and its fee withdrawn. -/
theorem engine_exact_run : ∃ h e, Runs Demo.ledger h e ∧ h.length = 6 ∧ CountsExactly h e := by
  obtain ⟨h, e, r, hlen, hsafe⟩ := Demo.purchase_runs
  exact ⟨h, e, r, hlen, engine_exact (Demo.program 0) Demo.params h e r hsafe⟩

/-- The second funding is accepted: the total is no safe integer, and not what was paid in. -/
theorem engine_exact_fails : ∃ h e, Runs Demo.ledger h e ∧ ¬ e.totalReserve.IsCount
    ∧ e.totalReserve.toNat + withdrawn h + feesPaid h ≠ funded h := by
  have hok : ((Demo.replay Demo.overfunding [] Demo.ledger).toOption.map fun r =>
      (r.2.totalReserve, withdrawn r.1, feesPaid r.1, funded r.1))
        = some (.finite 9007199254740992, 0, 0, 9007199254740993) := by decide +kernel
  cases hr : Demo.replay Demo.overfunding [] Demo.ledger with
  | error stop =>
    rw [hr] at hok
    cases hok
  | ok r =>
    rw [hr] at hok
    have hvalues := Option.some.inj hok
    simp only [Prod.mk.injEq] at hvalues
    obtain ⟨htotal, hw, hp, hf⟩ := hvalues
    refine ⟨r.1, r.2, Demo.replay_runs .start hr, ?_, ?_⟩
    · rw [htotal]
      decide +kernel
    · rw [htotal, hw, hp, hf]
      decide +kernel

end Line.Engine
