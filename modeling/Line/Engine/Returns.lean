import Line.Engine.Exactness

/-!
# How the engine refuses

A call of the engine that is given a number outside the safe integers is refused, and it is
refused with a `CircuitFail`: no exception leaves it. Two things are asked for. The trusted
clock has to be one, since the engine throws on an invalid clock; and the openings that an
operation encodes before it looks at their numbers have to be in the domain (`Encodable`).

That a bad number is refused is read off the accepted calls: whatever an accepted call used
was in the domain (`run_inDomain`). That the refusal is no exception takes the other way
round, operation by operation: every value that is encoded was tested before, was stored
(`Stored`), is a sum of safe parts of the reserve, or is one of the openings.
-/

namespace Line.Engine

open Checked Records

variable {B : Type}

/-! ## Returning -/

/-- The call came back with a failure, and threw nothing. -/
def Stop.Returned : Stop → Prop
  | .fail _ => True
  | .thrown _ => False

/-- A computation that throws nothing. -/
def Returns {α : Type} (x : Result α) : Prop := Meets Stop.Returned x

section Rules

variable {α β : Type}

theorem Returns.pure (a : α) : Returns (pure a : Result α) := Meets.pure a

theorem Returns.bind {x : Result α} {f : α → Result β} (hx : Returns x)
    (hf : ∀ a, x = .ok a → Returns (f a)) : Returns (x >>= f) := Meets.bind hx hf

theorem Returns.ite {c : Prop} [Decidable c] {x y : Result α} (hx : c → Returns x)
    (hy : ¬ c → Returns y) : Returns (if c then x else y) := Meets.ite hx hy

theorem Returns.fail (code reason : String) : Returns (Engine.fail (α := α) code reason) := by
  intro stop h
  cases h
  trivial

theorem Returns.failIf (bad : Bool) (code reason : String) :
    Returns (Engine.failIf bad code reason) := by
  cases bad with
  | true => exact .fail code reason
  | false =>
    intro stop h
    cases h

theorem Returns.present (x : Option α) (code reason : String) :
    Returns (Engine.present x code reason) := by
  cases x with
  | none => exact .fail code reason
  | some a =>
    intro stop h
    cases h

/-- Whatever is thrown inside is caught. -/
theorem Returns.catchFail (code reason : String) (x : Result α) :
    Returns (Engine.catchFail code reason x) := by
  cases x with
  | ok a =>
    intro stop h
    cases h
  | error stop =>
    cases stop with
    | thrown t => exact .fail code reason
    | fail f =>
      intro stop h
      cases h
      trivial

/-- A check in front of the rest, which may use that it passed. -/
theorem Returns.failIf_then {bad : Bool} {code reason : String} {f : Unit → Result β}
    (hf : bad = false → Returns (f ())) : Returns (Engine.failIf bad code reason >>= f) :=
  .bind (.failIf bad code reason) fun _ h => hf (failIf_ok_iff.mp h)

theorem Returns.present_then {x : Option α} {code reason : String} {f : α → Result β}
    (hf : ∀ a, x = some a → Returns (f a)) : Returns (Engine.present x code reason >>= f) :=
  .bind (.present x code reason) fun a h => hf a (present_ok_iff.mp h)

theorem Returns.catchFail_then {x : Result α} {code reason : String} {f : α → Result β}
    (hf : ∀ a, x = .ok a → Returns (f a)) : Returns (Engine.catchFail code reason x >>= f) :=
  .bind (.catchFail code reason x) fun a h => hf a (catchFail_ok_iff.mp h)

theorem Returns.map {x : Result α} (f : α → β) (h : Returns x) : Returns (x.map f) := by
  cases x with
  | ok a =>
    intro stop hs
    cases hs
  | error stop =>
    intro stop' hs
    cases hs
    exact h stop rfl

/-- The rest of a call after a count was encoded. -/
theorem Returns.u64_then {v : Number} {f : U64 → Result β} (hv : v.IsCount)
    (hf : ∀ n : U64, Returns (f n)) : Returns (u64 v >>= f) := by
  obtain ⟨n, hn⟩ := u64_count hv
  rw [hn]
  exact hf n

theorem Returns.clock_then {env : Env B} {f : Number → Result β} (hc : env.clock.IsCount)
    (hf : Returns (f env.clock)) : Returns (executionUnixSeconds env >>= f) := by
  rw [executionUnixSeconds_ok_iff.mpr ⟨hc, rfl⟩]
  exact hf

theorem Returns.deadline {env : Env B} (expiry : Number) (reason : String)
    (hc : env.clock.IsCount) : Returns (Engine.deadline env expiry reason) :=
  .failIf_then fun _ => .clock_then hc (.failIf _ _ _)

/-- A deadline in front of the rest. -/
theorem Returns.deadline_then {env : Env B} {expiry : Number} {reason : String}
    {f : Unit → Result β} (hc : env.clock.IsCount) (hf : expiry.IsCount → Returns (f ())) :
    Returns (Engine.deadline env expiry reason >>= f) :=
  .bind (.deadline expiry reason hc) fun _ h => hf (deadline_ok h).1

end Rules

section Commitments

variable [Compact B] {β : Type}

theorem LineWitness.InDomain.commits {w : LineWitness B} (h : w.InDomain) {f : B → Result β}
    (hf : ∀ C, Returns (f C)) : Returns (lineCommitment w >>= f) := by
  refine .bind ?_ fun C _ => hf C
  exact .u64_then h.limit fun _ => .u64_then h.outstanding fun _ => .u64_then h.epoch fun _ =>
    .pure _

theorem QuotePreimage.InDomain.commits {q : QuotePreimage B} {domain : B} (h : q.InDomain)
    {f : B → Result β} (hf : ∀ Q, quoteCommitment q domain = .ok Q → Returns (f Q)) :
    Returns (quoteCommitment q domain >>= f) := by
  refine .bind ?_ hf
  exact .u64_then h.amount fun _ => .u64_then h.expiry fun _ => .u64_then h.generation fun _ =>
    .u64_then h.feeFlat fun _ => .u64_then h.feeBps fun _ => .pure _

theorem DrawNotePreimage.InDomain.commits {np : DrawNotePreimage B} {salt : B} (h : np.InDomain)
    {f : B → Result β} (hf : ∀ D, Returns (f D)) : Returns (drawNoteCommitment np salt >>= f) := by
  refine .bind ?_ fun D _ => hf D
  exact .u64_then h.lineGeneration fun _ => .u64_then h.amount fun _ => .u64_then h.fee fun _ =>
    .u64_then h.expiry fun _ => .pure _

variable [DecidableEq B]

/-- A book in the domain is compared with the commitment. -/
theorem LineWitness.InDomain.opens_then {w : LineWitness B} {C : Option B} (h : w.InDomain)
    {f : Bool → Result β} (hf : ∀ opened, Returns (f opened)) : Returns (opens w C >>= f) := by
  refine .bind ?_ fun opened _ => hf opened
  cases C with
  | none => exact .pure _
  | some C => exact h.commits fun _ => .pure _

end Commitments

/-! ## What a ledger keeps -/

/-- The records of a ledger are in counts where they are encoded again. -/
structure Stored (e : Ledger B) : Prop where
  quotes : ∀ q ∈ e.quotes, q.expiry.IsCount ∧ q.lineGeneration.IsCount
  notes : ∀ n ∈ e.notes, n.amount.IsCount ∧ n.fee.IsCount ∧ n.lineGeneration.IsCount

section Stored

variable [DecidableEq B] [Compact B] {e e' : Ledger B} {env : Env B}

omit [Compact B] in
/-- Rewriting a note leaves its numbers. -/
theorem Stored.rewrite (hs : Stored e) {f : NoteRecord B → NoteRecord B} {D : B}
    {n : NoteRecord B} (hn : find NoteRecord.commitment e.notes D = some n)
    (hf : (f n).amount = n.amount ∧ (f n).fee = n.fee ∧ (f n).lineGeneration = n.lineGeneration)
    (hq : e'.quotes = e.quotes) (hl : e'.notes = change NoteRecord.commitment f D e.notes) :
    Stored e' := by
  refine ⟨hq ▸ hs.quotes, fun m hm => ?_⟩
  rw [hl] at hm
  rcases mem_change hn hm with hm | rfl
  · exact hs.notes m hm
  · rw [hf.1, hf.2.1, hf.2.2]
    exact hs.notes n (mem_of_find hn).1

theorem settle_lists {proof : Compensation B} {owner : B} {n : NoteRecord B} {cost : Number}
    {x : Settled B} (h : settle proof owner n cost e = .ok x) :
    x.ledger.quotes = e.quotes ∧ x.ledger.notes = e.notes := by
  rcases settle_ok h with ⟨-, books, -, hs⟩ | ⟨-, rfl⟩
  · obtain ⟨C, hledger⟩ := hs.ledger
    rw [hledger]
    exact ⟨rfl, rfl⟩
  · exact ⟨rfl, rfl⟩

omit [DecidableEq B] [Compact B] in
theorem expireLive_lists {n : NoteRecord B} {cost : Number}
    (h : expireLive env n cost e = .ok e') : e'.quotes = e.quotes ∧ e'.notes = e.notes := by
  rcases expireLive_ok h with ⟨-, rfl⟩ | ⟨-, -, rfl⟩ <;> exact ⟨rfl, rfl⟩

variable [Words B]

/-- **Every accepted call keeps the records in counts**, whatever it was given. -/
theorem Stored.run (hs : Stored e) {i : Input B} (h : run env i e = .ok e') : Stored e' := by
  cases i with
  | registerMerchant i =>
    simp only [Engine.run, registerMerchant, bind_ok_iff, failIf_ok_iff, exists_const,
      pure_ok_iff] at h
    obtain ⟨-, -, rfl⟩ := h
    exact ⟨hs.quotes, hs.notes⟩
  | disableMerchant c M =>
    simp only [Engine.run, disableMerchant, bind_ok_iff, failIf_ok_iff, exists_const,
      pure_ok_iff] at h
    obtain ⟨-, -, rfl⟩ := h
    exact ⟨hs.quotes, hs.notes⟩
  | fundReserve i =>
    simp only [Engine.run, fundReserve, bind_ok_iff, failIf_ok_iff, exists_const, pure_ok_iff] at h
    obtain ⟨-, -, _, -, -, rfl⟩ := h
    exact ⟨hs.quotes, hs.notes⟩
  | withdrawUnencumberedReserve i =>
    simp only [Engine.run, withdrawUnencumberedReserve, bind_ok_iff, failIf_ok_iff, exists_const,
      pure_ok_iff] at h
    obtain ⟨-, -, -, rfl⟩ := h
    exact ⟨hs.quotes, hs.notes⟩
  | withdrawFees c =>
    simp only [Engine.run, map_ok_iff, withdrawFees, bind_ok_iff, failIf_ok_iff, exists_const,
      pure_ok_iff] at h
    obtain ⟨_, ⟨-, -, -, rfl⟩, rfl⟩ := h
    exact ⟨hs.quotes, hs.notes⟩
  | openLine i limit =>
    obtain ⟨r, hr, rfl⟩ := map_ok_iff.mp h
    obtain ⟨-, -, -, -, -, I, C, hledger⟩ := openLine_ok hr
    rw [hledger]
    exact ⟨hs.quotes, hs.notes⟩
  -- a new quote is of counts that the call has tested
  | postQuote i amount =>
    obtain ⟨r, hr, rfl⟩ := map_ok_iff.mp h
    obtain ⟨-, hx, -, hg, hledger⟩ := postQuote_ok hr
    rw [hledger]
    refine ⟨fun q hq => ?_, hs.notes⟩
    rcases List.mem_append.mp hq with hq | hq
    · exact hs.quotes q hq
    · rw [List.mem_singleton.mp hq]
      exact ⟨hx, hg⟩
  -- a draw marks its quote, and adds a note of counts
  | draw i witness =>
    obtain ⟨r, hr, rfl⟩ := map_ok_iff.mp h
    obtain ⟨books, wq, live, cost, hd⟩ := draw_ok hr
    obtain ⟨Q, C, N, D, hledger⟩ := hd.ledger
    rw [hledger]
    refine ⟨fun q hq => ?_, fun n hn => ?_⟩
    · rcases exists_of_mem_change hq with hq | ⟨q₀, hq₀, rfl⟩
      · exact hs.quotes q hq
      · exact hs.quotes q₀ hq₀
    · rcases List.mem_append.mp hn with hn | hn
      · exact hs.notes n hn
      · rw [List.mem_singleton.mp hn]
        exact ⟨hd.amount.1, hd.fee, hd.generation.2⟩
  | redeemDraw i witnessNote =>
    obtain ⟨r, hr, rfl⟩ := map_ok_iff.mp h
    obtain ⟨D, live, hd⟩ := redeemDraw_ok hr
    obtain ⟨N, hledger⟩ := hd.ledger
    rw [hledger]
    exact hs.rewrite hd.found ⟨rfl, rfl, rfl⟩ rfl rfl
  -- the three modes change a record in fields that are no counts
  | cancelOrExpireNote i =>
    obtain ⟨r, hr, rfl⟩ := map_ok_iff.mp h
    obtain ⟨D, live, x, -, hlive, -, -, -, -, -, hx, rfl⟩ := cancelOrExpireNote_ok hr
    unfold handleNote at hx
    split at hx
    · obtain ⟨-, -, rfl⟩ := cancelNote_ok hx
      exact hs.rewrite hlive ⟨rfl, rfl, rfl⟩ rfl rfl
    · split at hx
      · obtain ⟨-, e₁, proof, y, refund, allocation, he₁, -, hy, -, -, rfl⟩ :=
          allocateCompensation_ok hx
        obtain ⟨hq, hn⟩ := settle_lists hy
        obtain ⟨hq₁, hn₁⟩ := expireLive_lists he₁
        refine hs.rewrite (f := (·.allocated refund y.owed)) hlive ⟨rfl, rfl, rfl⟩ (hq.trans hq₁) ?_
        rw [← hn₁, ← hn]
        rfl
      · obtain ⟨-, -, -, -, -, -, N, rfl⟩ := acknowledgeRefund_ok hx
        exact hs.rewrite hlive ⟨rfl, rfl, rfl⟩ rfl rfl
  | acknowledgeRepayment i witness =>
    obtain ⟨r, hr, rfl⟩ := map_ok_iff.mp h
    obtain ⟨books, receipt, hd⟩ := acknowledgeRepayment_ok hr
    obtain ⟨C, Ns, hledger⟩ := hd.ledger
    rw [hledger]
    exact ⟨hs.quotes, hs.notes⟩
  | setStatus i =>
    obtain ⟨-, rfl⟩ := setStatus_ok (show setStatus e i = .ok e' from h)
    exact ⟨hs.quotes, hs.notes⟩

theorem Runs.stored {params : LedgerParams B} {h : List (Step B)}
    (r : Runs (createLedger env params) h e) : Stored e := by
  induction r with
  | start => exact ⟨fun _ hq => (by cases hq), fun _ hn => (by cases hn)⟩
  | call r hok ih => exact ih.run hok

end Stored

/-! ## The operations -/

/-- The numbers that an operation encodes before it looks at them are in the domain: those of a
private book, with its next epoch; those of a quote that is not named; the expiry under which
a note is redeemed; and the generation of the ledger that is quoted for. -/
def Input.Encodable (e : Ledger B) : Input B → Prop
  | .postQuote _ _ => e.lineGeneration.IsCount
  | .draw i witness =>
      (∀ books, i.books witness = some books →
        books.InDomain ∧ (books.e.add (.ofNat 1)).IsCount)
      ∧ (i.quoteCommit = none → ∀ wq, i.opening witness = some wq → wq.InDomain)
  | .redeemDraw i witnessNote =>
      ∀ p, i.preimage witnessNote = some p → (i.noteExpiry.getD p.expiry).IsCount
  | .cancelOrExpireNote i =>
      ∀ proof books, i.compensation = some proof → proof.books = some books → books.InDomain
  | .acknowledgeRepayment i witness =>
      ∀ books, i.books witness = some books →
        books.InDomain ∧ (books.e.add (.ofNat 1)).IsCount
  | .setStatus i => ∀ books, i.witness = some books → books.InDomain
  | _ => True

section Operations

variable [DecidableEq B] [Compact B] {e : Ledger B} {env : Env B}

/-- The sum of two counts is tested as the integer it is. -/
theorem fundReserve_returns (ht : e.totalReserve.IsCount) (i : AmountInput B) :
    Returns (fundReserve e i) := by
  refine .failIf_then fun _ => .failIf_then fun hpos => ?_
  obtain ⟨m, hm⟩ := ht.add_nat (positive_iff.mp hpos).1
  simp only [hm, bigInt, Number.toBigInt_ofNat]
  exact .failIf_then fun _ => .pure _

theorem openLine_returns (hc : env.clock.IsCount) (i : OpenLineInput B) (limit : Option Number) :
    Returns (openLine env e i limit) := by
  refine .failIf_then fun _ => .failIf_then fun hpos => .deadline_then hc fun _ => ?_
  refine .failIf_then fun _ => .failIf_then fun _ => ?_
  have hzero : (Number.ofNat 0).IsCount := Number.isCount_ofNat.mpr (Nat.zero_le _)
  exact LineWitness.InDomain.commits ⟨(positive_iff.mp hpos).1, hzero, hzero⟩ fun _ => .pure _

theorem postQuote_returns (hc : env.clock.IsCount) (hg : e.lineGeneration.IsCount)
    (i : PostQuoteInput B) (amount : Option Number) : Returns (postQuote env e i amount) := by
  refine .failIf_then fun _ => .failIf_then fun _ => .failIf_then fun _ => ?_
  refine .failIf_then fun hpos => .deadline_then hc fun hx => .failIf_then fun hpolicy => ?_
  obtain ⟨hf, hb, -⟩ := badPolicy_iff.mp hpolicy
  exact QuotePreimage.InDomain.commits ⟨(positive_iff.mp hpos).1, hx, hg, hf, hb⟩ fun _ _ =>
    .failIf_then fun _ => .pure _

theorem draw_returns (hc : env.clock.IsCount) (hs : Stored e) {i : DrawInput B}
    {witness : Option (DrawWitness B)} (hi : (Input.draw i witness).Encodable e) :
    Returns (draw env e i witness) := by
  obtain ⟨hbooks, hopening⟩ := hi
  refine .clock_then hc (.failIf_then fun _ => .failIf_then fun _ => .failIf_then fun _ => ?_)
  refine .present_then fun secret _ => .present_then fun books hshown => .failIf_then fun _ => ?_
  obtain ⟨hbook, hnext⟩ := hbooks books hshown
  refine hbook.opens_then fun _ => .failIf_then fun _ => .present_then fun wq hwq => ?_
  refine .failIf_then fun hpolicy => ?_
  obtain ⟨hf, hb, -⟩ := badPolicy_iff.mp hpolicy
  -- the quote is named, or its own opening is encoded
  refine .bind ?_ fun Q _ => ?_
  · unfold DrawInput.commitment
    split
    · exact .pure _
    · next hnone =>
      have hcommits : Returns (quoteCommitment wq e.contractDomain >>= pure) :=
        (hopening hnone wq hwq).commits fun Q _ => .pure Q
      rwa [bind_pure] at hcommits
  refine .present_then fun live hlive => .failIf_then fun _ => .failIf_then fun _ => ?_
  obtain ⟨hqx, hqg⟩ := hs.quotes live (mem_of_find hlive).1
  refine .failIf_then fun hgen => .failIf_then fun hpos => ?_
  have hA := (positive_iff.mp hpos).1
  refine QuotePreimage.InDomain.commits ?_ fun _ _ => ?_
  · exact ⟨hA, hqx, hqg, hf, hb⟩
  refine .failIf_then fun _ => .failIf_then fun _ => .failIf_then fun hfee => ?_
  have hfee' := not_assertSafeUint_iff.mp hfee
  refine .catchFail_then fun _ _ => .failIf_then fun _ => .u64_then hfee' fun _ => ?_
  refine .failIf_then fun _ => .failIf_then fun _ => .failIf_then fun hdebt => ?_
  rw [Bool.or_eq_false_iff, not_assertSafeUint_iff] at hdebt
  refine .failIf_then fun _ => .failIf_then fun _ => .failIf_then fun _ => .failIf_then fun _ => ?_
  refine .failIf_then fun hnx => .failIf_then fun _ => ?_
  rw [Bool.or_eq_false_iff, not_assertSafeUint_iff] at hnx
  have hg : e.lineGeneration.IsCount := by
    rw [Bool.not_eq_false'] at hgen
    exact Number.eq_of_eq hgen ▸ hqg
  refine DrawNotePreimage.InDomain.commits ⟨hg, hA, hfee', hnx.1⟩ fun _ => ?_
  refine .failIf_then fun _ => ?_
  refine LineWitness.InDomain.commits ?_ fun _ => .pure _
  exact ⟨hbook.limit, hdebt.2, hnext⟩

theorem redeemDraw_returns (hc : env.clock.IsCount) (hs : Stored e) {i : RedeemInput B}
    {witnessNote : Option (DrawNotePreimage B)}
    (hi : (Input.redeemDraw i witnessNote).Encodable e) :
    Returns (redeemDraw env e i witnessNote) := by
  refine .present_then fun D _ => .present_then fun live hlive => ?_
  obtain ⟨hA, hf, hg⟩ := hs.notes live (mem_of_find hlive).1
  refine .failIf_then fun _ => .failIf_then fun _ => .clock_then hc (.failIf_then fun _ => ?_)
  refine .present_then fun p hp => .failIf_then fun _ => .failIf_then fun hsame => ?_
  rw [Bool.not_eq_false'] at hsame
  have hamount : p.amount.IsCount := Number.eq_of_eq hsame ▸ hA
  refine DrawNotePreimage.InDomain.commits ?_ fun _ => ?_
  · exact ⟨hg, hamount, hf, hi p hp⟩
  exact .failIf_then fun _ => .failIf_then fun _ => .pure _

omit [Compact B] [DecidableEq B] in
theorem expireLive_returns (hc : env.clock.IsCount) (n : NoteRecord B) (cost : Number) :
    Returns (expireLive env n cost e) :=
  .ite (fun _ => .pure _) fun _ => .clock_then hc (.failIf_then fun _ => .pure _)

theorem settle_returns {proof : Compensation B} {owner : B} {n : NoteRecord B} {cost : Number}
    (hcost : cost.IsCount) (hi : ∀ books, proof.books = some books → books.InDomain) :
    Returns (settle proof owner n cost e) := by
  refine .ite (fun _ => ?_) fun _ => .failIf_then fun _ => .pure _
  refine .failIf_then fun _ => .present_then fun books hbooks => .failIf_then fun _ => ?_
  have hbook := hi books hbooks
  refine hbook.opens_then fun _ => .failIf_then fun _ => .failIf_then fun hnext => ?_
  rw [Bool.or_eq_false_iff, not_assertSafeUint_iff, not_assertSafeUint_iff] at hnext
  have hmin := hbook.outstanding.min_eq hcost
  have hle := Nat.min_le_left books.B.toNat cost.toNat
  have hminc := Number.IsCount.of_eq hmin (hle.trans hbook.outstanding.2)
  have hsub := hbook.outstanding.sub_eq hminc (by rw [hmin, Number.toNat_ofNat]; exact hle)
  have hdebt := Number.IsCount.of_eq hsub ((Nat.sub_le _ _).trans hbook.outstanding.2)
  refine LineWitness.InDomain.commits ?_ fun _ => .pure _
  exact ⟨hbook.limit, hdebt, hnext.2⟩

omit [Compact B] [DecidableEq B] in
theorem cancelNote_returns [DecidableEq B] (hc : env.clock.IsCount) (D : B) (n : NoteRecord B)
    (cost : Number) : Returns (cancelNote env D n cost e) :=
  .failIf_then fun _ => .bind (expireLive_returns hc n cost) fun _ _ => .pure _

theorem allocateCompensation_returns (hc : env.clock.IsCount) {caller D : B} {n : NoteRecord B}
    (ha : n.amount.IsCount) (hf : n.fee.IsCount) (hcost : (n.amount.add n.fee).IsCount)
    (hg : n.lineGeneration.IsCount) {compensation : Option (Compensation B)}
    (hi : ∀ proof books, compensation = some proof → proof.books = some books → books.InDomain) :
    Returns (allocateCompensation env caller D n (n.amount.add n.fee) compensation e) := by
  refine .failIf_then fun _ => .bind (expireLive_returns hc _ _) fun e₁ _ => ?_
  refine .present_then fun proof hproof => .catchFail_then fun _ _ => .failIf_then fun _ => ?_
  refine .failIf_then fun _ =>
    .bind (settle_returns hcost fun b => hi proof b hproof) fun x hx => ?_
  obtain ⟨_, -, howed, -⟩ := settle_reserve ha hf hcost hx
  refine .bind ?_ fun _ _ => .pure _
  exact .u64_then hg fun _ => .u64_then howed fun _ => .pure _

theorem acknowledgeRefund_returns [Words B] (hc : env.clock.IsCount) (caller D : B)
    (n : NoteRecord B) (cost : Number) (receiptExpiry : Option Number)
    (refundAck : Option (RefundAck B)) :
    Returns (acknowledgeRefund env caller D n cost receiptExpiry refundAck e) := by
  refine .failIf_then fun _ => .failIf_then fun _ => .failIf_then fun _ => ?_
  refine .present_then fun _ _ => .deadline_then hc fun _ => .failIf_then fun _ => ?_
  exact .catchFail_then fun _ _ => .failIf_then fun _ => .failIf_then fun _ => .pure _

theorem cancelOrExpireNote_returns [Words B] (hc : env.clock.IsCount) (hs : Stored e)
    {i : NoteInput B} (hi : (Input.cancelOrExpireNote i).Encodable e) :
    Returns (cancelOrExpireNote env e i) := by
  refine .failIf_then fun _ => .present_then fun D _ => .present_then fun n hn => ?_
  obtain ⟨ha, hf, hg⟩ := hs.notes n (mem_of_find hn).1
  refine .failIf_then fun _ => .failIf_then fun hcost => ?_
  simp only [Bool.or_eq_false_iff, not_assertSafeUint_iff] at hcost
  refine .bind ?_ fun _ _ => .pure _
  refine .ite (fun _ => cancelNote_returns hc D n _) fun _ => ?_
  refine .ite (fun _ => ?_) fun _ => acknowledgeRefund_returns hc _ D n _ _ _
  exact allocateCompensation_returns hc ha hf hcost.2 hg hi

theorem acknowledgeRepayment_returns [Words B] (hc : env.clock.IsCount) {i : RepayInput B}
    {witness : Option (RepayWitness B)} (hi : (Input.acknowledgeRepayment i witness).Encodable e) :
    Returns (acknowledgeRepayment env e i witness) := by
  refine .failIf_then fun _ => .failIf_then fun _ => .present_then fun C _ => ?_
  refine .present_then fun books hshown => ?_
  obtain ⟨hbook, hnext⟩ := hi books hshown
  refine hbook.opens_then fun _ => .failIf_then fun _ => .present_then fun receipt _ => ?_
  refine .failIf_then fun _ => .failIf_then fun _ => .failIf_then fun _ => .deadline_then hc ?_
  intro _
  refine .failIf_then fun hR => .catchFail_then fun _ _ => ?_
  rw [Bool.or_eq_false_iff, positive_iff] at hR
  have hle := (hbook.outstanding.lt_iff hR.1.1).mp hR.2
  have hsub := hbook.outstanding.sub_eq hR.1.1 hle
  have hdebt := Number.IsCount.of_eq hsub ((Nat.sub_le _ _).trans hbook.outstanding.2)
  refine .u64_then hR.1.1 fun _ => .failIf_then fun _ => .failIf_then fun _ => ?_
  refine LineWitness.InDomain.commits ?_ fun _ => .pure _
  exact ⟨hbook.limit, hdebt, hnext⟩

theorem setStatus_returns {i : StatusInput B} (hi : (Input.setStatus i).Encodable e) :
    Returns (setStatus e i) := by
  refine .failIf_then fun _ => .failIf_then fun _ => .failIf_then fun _ => .failIf_then fun _ => ?_
  refine .failIf_then fun _ => .bind ?_ fun _ _ => .pure _
  refine .ite (fun _ => ?_) fun _ => .pure _
  refine .present_then fun books hbooks => .failIf_then fun _ => ?_
  exact (hi books hbooks).opens_then fun _ => .failIf_then fun _ => .failIf _ _ _

/-- **No call throws**, on a valid clock and openings that can be encoded. -/
theorem run_returns [Words B] (ht : e.totalReserve.IsCount) (hs : Stored e)
    (hc : env.clock.IsCount) {i : Input B} (hi : i.Encodable e) : Returns (run env i e) := by
  cases i with
  | registerMerchant i => exact .failIf_then fun _ => .failIf_then fun _ => .pure _
  | disableMerchant c M => exact .failIf_then fun _ => .failIf_then fun _ => .pure _
  | fundReserve i => exact fundReserve_returns ht i
  | withdrawUnencumberedReserve i =>
    exact .failIf_then fun _ => .failIf_then fun _ => .failIf_then fun _ => .pure _
  | withdrawFees c =>
    refine .map _ ?_
    exact .failIf_then fun _ => .failIf_then fun _ => .failIf_then fun _ => .pure _
  | openLine i limit => exact .map _ (openLine_returns hc i limit)
  | postQuote i amount => exact .map _ (postQuote_returns hc hi i amount)
  | draw i witness => exact .map _ (draw_returns hc hs hi)
  | redeemDraw i witnessNote => exact .map _ (redeemDraw_returns hc hs hi)
  | cancelOrExpireNote i => exact .map _ (cancelOrExpireNote_returns hc hs hi)
  | acknowledgeRepayment i witness => exact .map _ (acknowledgeRepayment_returns hc hi)
  | setStatus i => exact setStatus_returns hi

end Operations

/-! ## The numbers an operation uses -/

/-- **The domain of an operation**: each number it uses is a count, and so is the clock where it
is read. The copies it does not use are left out, as the terms that an opening repeats from
its record. -/
def Input.InDomain [DecidableEq B] (env : Env B) (e : Ledger B) : Input B → Prop
  | .fundReserve i => i.amount.IsCount
  | .withdrawUnencumberedReserve i => i.amount.IsCount
  | .openLine i limit => ((limit.or i.limit).getD (.ofNat 0)).IsCount ∧ i.expiry.IsCount
      ∧ env.clock.IsCount ∧ (i.feeFlat.getD (.ofNat 0)).IsCount
      ∧ (i.feeBps.getD (.ofNat 0)).IsCount
  | .postQuote i amount => ((amount.or i.amount).getD (.ofNat 0)).IsCount ∧ i.expiry.IsCount
      ∧ env.clock.IsCount
  | .draw i witness => env.clock.IsCount
      ∧ (∀ books, i.books witness = some books →
        books.InDomain ∧ (books.e.add (.ofNat 1)).IsCount)
      ∧ (∀ wq, i.opening witness = some wq → wq.amount.IsCount ∧
        (i.quoteCommit = none → wq.InDomain))
      ∧ i.charge.IsCount ∧ ∀ x, i.noteExpiry = some x → x.IsCount
  | .redeemDraw i witnessNote => env.clock.IsCount
      ∧ ∀ p, i.preimage witnessNote = some p →
        p.amount.IsCount ∧ (i.noteExpiry.getD p.expiry).IsCount
  | .cancelOrExpireNote i => (i.action.getD (.ofNat 0)).IsCount
      ∧ ∀ D n, i.commitment = some D → find NoteRecord.commitment e.notes D = some n →
        (i.action.getD (.ofNat 0) ≠ .ofNat 1 ∨ n.cancelled = false → env.clock.IsCount)
        ∧ (i.action.getD (.ofNat 0) = .ofNat 1 → n.lineGeneration.eq e.lineGeneration = true →
          ∀ proof books, i.compensation = some proof → proof.books = some books →
            books.InDomain ∧ (books.e.add (.ofNat 1)).IsCount)
        ∧ (i.action.getD (.ofNat 0) = .ofNat 2 → ∀ ack, i.refundAck = some ack →
          ack.amount.IsCount ∧ (i.receiptExpiry.getD ack.receiptExpiry).IsCount)
  | .acknowledgeRepayment i witness => env.clock.IsCount
      ∧ (∀ books, i.books witness = some books →
        books.InDomain ∧ (books.e.add (.ofNat 1)).IsCount)
      ∧ ∀ receipt, i.proof witness = some receipt →
        receipt.amount.IsCount ∧ (i.receiptExpiry.getD receipt.expiry).IsCount
  | .setStatus i => i.status = .CLOSED → ∀ books, i.witness = some books → books.InDomain
  | _ => True

section Domain

variable [DecidableEq B] [Compact B] [Words B] {e e' : Ledger B} {env : Env B}

omit [Words B] in
theorem draw_inDomain {i : DrawInput B} {witness : Option (DrawWitness B)} {r : Drawn B}
    (h : draw env e i witness = .ok r) : (Input.draw i witness).InDomain env e := by
  obtain ⟨books, wq, live, cost, hd⟩ := draw_ok h
  obtain ⟨C, salt, -, hC⟩ := hd.witness
  obtain ⟨Q, hQ, -⟩ := hd.quote
  refine ⟨hd.clock, fun b hb => ?_, fun q hq => ⟨?_, fun hnone => ?_⟩, hd.fee, fun x hx => ?_⟩
  · obtain rfl := Option.some.inj (hd.shown.symm.trans hb)
    exact ⟨hd.book, (lineCommitment_ok hC).epoch⟩
  · obtain rfl := Option.some.inj (hd.opening.symm.trans hq)
    exact hd.amount.1
  · obtain rfl := Option.some.inj (hd.opening.symm.trans hq)
    unfold DrawInput.commitment at hQ
    rw [hnone] at hQ
    exact quoteCommitment_ok hQ
  · have hterms := hd.noteExpiry.2
    rwa [hx] at hterms

theorem cancelOrExpireNote_inDomain {i : NoteInput B} {r : NoteHandled B}
    (h : cancelOrExpireNote env e i = .ok r) : (Input.cancelOrExpireNote i).InDomain env e := by
  obtain ⟨D, n, x, hD, hn, -, -, -, -, hmode, hx, rfl⟩ := cancelOrExpireNote_ok h
  -- the mode is one of three
  have hcount : (i.action.getD (.ofNat 0)).IsCount := by
    rcases hmode with h | h | h <;> rw [Number.eq_of_eq h] <;>
      exact Number.isCount_ofNat.mpr (by decide)
  refine ⟨hcount, fun D' n' hD' hn' => ?_⟩
  obtain rfl := Option.some.inj (hD.symm.trans hD')
  obtain rfl := Option.some.inj (hn.symm.trans hn')
  unfold handleNote at hx
  split at hx
  · next hzero =>
    -- a cancellation asks the clock only
    obtain ⟨-, hc, -⟩ := cancelNote_ok hx
    rw [Number.eq_of_eq hzero]
    exact ⟨fun _ => hc, fun h => absurd (Number.ofNat_inj.mp h) (by decide),
      fun h => absurd (Number.ofNat_inj.mp h) (by decide)⟩
  · split at hx
    · next hone =>
      obtain ⟨-, e₁, proof, y, refund, allocation, he₁, hproof, hy, -, -, -⟩ :=
        allocateCompensation_ok hx
      rw [Number.eq_of_eq hone]
      refine ⟨fun hor => ?_, fun _ hgen proof' books hproof' hbooks => ?_,
        fun h => absurd (Number.ofNat_inj.mp h) (by decide)⟩
      -- an allocation asks it if the note is live, and looks at the book if the line is the same
      · rcases expireLive_ok he₁ with ⟨hc, -⟩ | ⟨-, hclock, -⟩
        · rcases hor with hne | hlive
          · exact absurd rfl hne
          · rw [hc] at hlive
            cases hlive
        · exact hclock
      · obtain rfl := Option.some.inj (hproof.symm.trans hproof')
        rw [← (expireLive_clocks he₁).2] at hgen
        rcases settle_ok hy with ⟨-, b, hb, hs⟩ | ⟨hno, -⟩
        · obtain rfl := Option.some.inj (hb.symm.trans hbooks)
          exact ⟨hs.book, hs.epoch⟩
        · rw [hgen] at hno
          cases hno
    · next hone =>
      obtain ⟨-, -, -, -, hc, ⟨ack, hack, hamount, hexpiry⟩, -⟩ := acknowledgeRefund_ok hx
      refine ⟨fun _ => hc, fun h => ?_, fun _ ack' hack' => ?_⟩
      · rw [h] at hone
        exact absurd (by decide) hone
      · obtain rfl := Option.some.inj (hack.symm.trans hack')
        exact ⟨hamount, hexpiry⟩

/-- **Whatever an accepted call used was in the domain.** -/
theorem run_inDomain {i : Input B} (h : run env i e = .ok e') : i.InDomain env e := by
  cases i with
  | registerMerchant i => trivial
  | disableMerchant c M => trivial
  | withdrawFees c => trivial
  | fundReserve i =>
    simp only [run, fundReserve, bind_ok_iff, failIf_ok_iff, exists_const, positive_iff] at h
    exact h.2.1.1
  | withdrawUnencumberedReserve i =>
    simp only [run, withdrawUnencumberedReserve, bind_ok_iff, failIf_ok_iff, exists_const,
      positive_iff] at h
    exact h.2.1.1
  | openLine i limit =>
    obtain ⟨r, hr, -⟩ := map_ok_iff.mp h
    obtain ⟨hL, hx, hc, hpolicy, -⟩ := openLine_ok hr
    obtain ⟨hf, hb, -⟩ := badPolicy_iff.mp hpolicy
    exact ⟨hL, hx, hc, hf, hb⟩
  | postQuote i amount =>
    obtain ⟨r, hr, -⟩ := map_ok_iff.mp h
    obtain ⟨hA, hx, hc, -⟩ := postQuote_ok hr
    exact ⟨hA, hx, hc⟩
  | draw i witness =>
    obtain ⟨r, hr, -⟩ := map_ok_iff.mp h
    exact draw_inDomain hr
  | redeemDraw i witnessNote =>
    obtain ⟨r, hr, -⟩ := map_ok_iff.mp h
    obtain ⟨D, live, hd⟩ := redeemDraw_ok hr
    obtain ⟨p, hp, hamount, -, hx⟩ := hd.preimage
    refine ⟨hd.clock, fun p' hp' => ?_⟩
    obtain rfl := Option.some.inj (hp.symm.trans hp')
    exact ⟨hamount, hx⟩
  | cancelOrExpireNote i =>
    obtain ⟨r, hr, -⟩ := map_ok_iff.mp h
    exact cancelOrExpireNote_inDomain hr
  | acknowledgeRepayment i witness =>
    obtain ⟨r, hr, -⟩ := map_ok_iff.mp h
    obtain ⟨books, receipt, hd⟩ := acknowledgeRepayment_ok hr
    obtain ⟨C, -, -, he, hC⟩ := hd.witness
    refine ⟨hd.clock, fun b hb => ?_, fun receipt' hr' => ?_⟩
    · obtain rfl := Option.some.inj (hd.shown.symm.trans hb)
      exact ⟨hd.book, he ▸ (lineCommitment_ok hC).epoch⟩
    · obtain rfl := Option.some.inj (hd.proof.symm.trans hr')
      exact ⟨hd.amount.1, hd.expiry⟩
  | setStatus i =>
    obtain ⟨hclose, -⟩ := setStatus_ok (show setStatus e i = .ok e' from h)
    intro hs books hbooks
    obtain ⟨b, hb, hin⟩ := hclose hs
    obtain rfl := Option.some.inj (hb.symm.trans hbooks)
    exact hin

end Domain

/-- **The engine refuses what it cannot count.** In every ledger of a run whose fundings stay
safe, a call with a number outside the domain is refused and leaves the ledger as it was; on a
valid clock and openings that can be encoded no call throws, so that this refusal is a
`CircuitFail`; and what is accepted is exact. -/
theorem engine_refuses [DecidableEq B] [Compact B] [Words B] (env₀ : Env B)
    (params : LedgerParams B) (h : List (Step B)) (e : Ledger B)
    (r : Runs (createLedger env₀ params) h e) (hf : ∀ c ∈ h, c.FundsSafe) (env : Env B)
    (i : Input B) :
    (¬ i.InDomain env e → (run env i e).isOk = false ∧ held (run env i e) e = e
      ∧ (env.clock.IsCount → i.Encodable e → ∃ f, run env i e = .error (.fail f)))
    ∧ (env.clock.IsCount → i.Encodable e → ∀ error, run env i e ≠ .error (.thrown error))
    ∧ ∀ e', run env i e = .ok e' → Step.FundsSafe ⟨env, i, e⟩ →
        CountsExactly (⟨env, i, e⟩ :: h) e' := by
  -- the total of a run whose fundings stay safe is exact, so it is a count
  have ht := (r.exact hf).total.1
  have hreturns : env.clock.IsCount → i.Encodable e → Returns (run env i e) := fun hc hi =>
    run_returns ht r.stored hc hi
  refine ⟨fun hout => ?_, fun hc hi error hthrown => hreturns hc hi _ hthrown,
    fun e' hok hsafe => ?_⟩
  -- a call outside the domain is not accepted
  · cases hx : run env i e with
    | ok e' => exact absurd (run_inDomain hx) hout
    | error stop =>
      refine ⟨rfl, rfl, fun hc hi => ?_⟩
      have hstop := hreturns hc hi stop hx
      cases stop with
      | fail f => exact ⟨f, rfl⟩
      | thrown t => cases hstop
  -- and one that is accepted is one call more of such a run
  · refine engine_exact env₀ params _ e' (r.call hok) fun c hc => ?_
    rcases List.mem_cons.mp hc with rfl | hc
    · exact hsafe
    · exact hf c hc

/-- After a purchase the issuer withdraws an amount that is no number. -/
theorem engine_refuses_run : ∃ h e, Runs Demo.ledger h e ∧ h.length = 6
    ∧ ∃ f, run (Demo.program 5)
      (.withdrawUnencumberedReserve ⟨some Line.Demo.issuer, none, .nan⟩) e = .error (.fail f) := by
  obtain ⟨h, e, r, hlen, hsafe⟩ := Demo.purchase_runs
  have hout : ¬ (Input.withdrawUnencumberedReserve
      ⟨some Line.Demo.issuer, none, .nan⟩ : Input Line.Term).InDomain (Demo.program 5) e := by
    show ¬ Number.nan.IsCount
    decide
  have hclock : (Demo.program 5).clock.IsCount := by decide +kernel
  have hrefused := (engine_refuses (Demo.program 0) Demo.params h e r hsafe (Demo.program 5) _).1
    hout
  exact ⟨h, e, r, hlen, hrefused.2.2 hclock trivial⟩

/-- On a clock before 1970 the opening of a line throws. -/
theorem engine_refuses_fails : ∃ (e : Ledger Line.Term) (env : Env Line.Term)
    (i : Input Line.Term) (error : String), Runs Demo.ledger [] e
      ∧ run env i e = .error (.thrown error) := by
  have hthrown :
      (match run ⟨fun _ => .atom 0, .finite (-1)⟩ (.openLine ⟨some Line.Demo.issuer, none,
      Line.Demo.borrower, none, none, .ofNat 100, none, none⟩ (some (.ofNat 500))) Demo.ledger with
    | .error stop => decide (stop = .thrown "Invalid trusted model Unix-seconds clock")
    | .ok _ => false) = true := by decide +kernel
  split at hthrown
  · next hrun =>
    exact ⟨_, _, _, _, .start, hrun.trans (congrArg Except.error (of_decide_eq_true hthrown))⟩
  · cases hthrown

end Line.Engine
