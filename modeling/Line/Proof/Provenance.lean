import Line.Proof.Closing

/-!
# Where a note comes from

A note is a public commitment in a map. Behind every one there is a recorded draw,
behind the draw a recorded quote of an enabled merchant, and behind both the recorded
opening of the generation they belong to. The registers give the draw and the post
(`Register.origin`); injectivity of the commitments makes their terms agree.

A draw uses its quote up, and a used quote stays used. So a quote is drawn at most
once (`Reaches.draws_once`), and notes and used quotes correspond one to one.
-/

namespace Line

open Checked

variable {B : Type} [DecidableEq B]

/-- The call draws on the quote `Q`. -/
def Op.draws (Q : B) : Op B → Bool
  | .draw Q' _ _ => Q' = Q
  | _ => false

/-- What stays of a quote: its terms, and that it was used. -/
structure QuoteMeta.Evolves (q q' : QuoteMeta) : Prop where
  expiry : q'.expiry = q.expiry
  lineGeneration : q'.lineGeneration = q.lineGeneration
  used : q.used = true → q'.used = true

theorem QuoteMeta.Evolves.refl (q : QuoteMeta) : q.Evolves q := ⟨rfl, rfl, id⟩

theorem QuoteMeta.Evolves.trans {a b c : QuoteMeta} (h : a.Evolves b) (h' : b.Evolves c) :
    a.Evolves c :=
  ⟨h'.expiry.trans h.expiry, h'.lineGeneration.trans h.lineGeneration, h'.used ∘ h.used⟩

variable [Compact B] {p : Profile} {c : Call B} {s s' : Ledger B} {h h' : Trace B} {D Q : B}
  {n : NoteMeta B} {q q' : QuoteMeta} {e : Tx B}

theorem QuoteMove.evolves (hm : QuoteMove p c s Q q q') : q.Evolves q' := by
  cases hm
  exact ⟨rfl, rfl, fun _ => rfl⟩

/-! ## Following one quote -/

/-- **A quote is followed through any continuation.** -/
theorem Continues.quote (r : Continues p s h s') (hq : s.quotes.lookup Q = some q) :
    ∃ q', s'.quotes.lookup Q = some q' ∧ q.Evolves q' :=
  Register.evolves Ledger.quotes (R := fun _ => QuoteMeta.Evolves) (fun _ => .refl)
    (fun _ _ _ _ => .trans)
    (fun _ _ _ st => (calls_iff.mp st).quotes.mono (fun _ _ _ _ => trivial)
      (fun _ _ _ _ => QuoteMove.evolves)) r hq

theorem Continues.mem_notes (r : Continues p s h s') (hD : D ∈ s.notes) : D ∈ s'.notes :=
  r.preserves (I := fun s => D ∈ s.notes) (fun _ _ _ hI st => st.notes.mem hI) hD

/-- A successful post finds its quote new. -/
theorem Step.posts_fresh {x : U64} (st : Step p c s s') (hop : c.op = .postQuote x) :
    witnessQuote c.witness x s ∉ s.quotes := by
  cases st with
  | postQuote g =>
    obtain rfl := Op.postQuote.inj hop
    exact g.fresh
  | _ => cases hop

/-- A successful draw finds its quote unused, leaves it used and adds one note. -/
theorem Step.draws (st : Step p c s s') (hc : c.op.draws Q = true) :
    ∃ x f q, c.op = .draw Q x f ∧ DrawGuard p c.witness c.now Q x f s q
      ∧ s'.quotes.lookup Q = some ⟨q.expiry, q.lineGeneration, true⟩
      ∧ ∀ D, D ∈ s'.notes ↔ D = drawnNote c.witness Q x f s ∨ D ∈ s.notes := by
  cases st with
  | draw g =>
    obtain rfl := of_decide_eq_true hc
    exact ⟨_, _, _, rfl, g, Finmap.lookup_insert _, fun D => Finmap.mem_insert⟩
  | _ => cases hc

/-- **A quote is drawn at most once.** -/
theorem Reaches.draws_once (r : Reaches p h s) (Q : B) :
    h.countP (fun e => e.label.op.draws Q) ≤ 1 := by
  refine r.countP_le_one (fun s => ∃ q, s.quotes.lookup Q = some q ∧ q.used = true) ?_ ?_
  · rintro h s c s' _ st ⟨q, hq, hu⟩
    obtain ⟨q', hq', rfl | hm⟩ := st.quotes.lookup hq
    · exact ⟨q', hq', hu⟩
    · exact ⟨q', hq', hm.evolves.used hu⟩
  · intro h s c s' _ st hk
    obtain ⟨_, _, q, _, g, hq', _⟩ := st.draws hk
    refine ⟨?_, _, hq', rfl⟩
    rintro ⟨m, hm, hu⟩
    obtain rfl := Option.some.inj (g.found.symm.trans hm)
    rw [g.unused] at hu
    cases hu

/-! ## Origins -/

/-- **A note was drawn**, by a recorded call, on the terms it carries. -/
theorem Reaches.drawn (r : Reaches p h s) (hn : s.notes.lookup D = some n) :
    ∃ h₁ h₂ e Q q, h = h₂ ++ e :: h₁ ∧ Reaches p h₁ e.pre ∧ Continues p e.post h₂ s
      ∧ e.label.op = .draw Q n.expiry n.fee
      ∧ DrawGuard p e.label.witness e.label.now Q n.expiry n.fee e.pre q
      ∧ D = drawnNote e.label.witness Q n.expiry n.fee e.pre
      ∧ n.amount = e.label.witness.drawAmount 0 ∧ n.lineGeneration = e.pre.lineGeneration
      ∧ D ∈ e.post.notes := by
  obtain ⟨e, he, v, _, hnew, hv⟩ := Register.origin Ledger.notes
    (fun s hi => by obtain ⟨d, rfl⟩ := hi; rfl) (fun c s s' st => (calls_iff.mp st).notes) r hn
  obtain ⟨h₁, h₂, hh, r₁, st, r₂⟩ := r.of_mem he
  have hmem : D ∈ e.post.notes := Finmap.mem_iff.mpr ⟨v, hv⟩
  have hwf := hnew.wf
  cases hnew with
  | @draw Q x f q hop g =>
    obtain ⟨n', hn', _, hev⟩ := r₂.note hv hwf
    obtain rfl := Option.some.inj (hn.symm.trans hn')
    have hx : n.expiry = x := hev.expiry
    have hf : n.fee = f := hev.fee
    subst hx hf
    exact ⟨h₁, h₂, e, Q, q, hh, r₁, r₂, hop, g, rfl, hev.amount, hev.lineGeneration, hmem⟩

/-- **A quote was posted**, by a recorded call, on the terms it carries. -/
theorem Reaches.posted (r : Reaches p h s) (hq : s.quotes.lookup Q = some q) :
    ∃ e ∈ h, e.label.op = .postQuote q.expiry
      ∧ QuoteGuard e.label.witness e.label.now q.expiry e.pre
      ∧ Q = witnessQuote e.label.witness q.expiry e.pre
      ∧ q.lineGeneration = e.pre.lineGeneration := by
  obtain ⟨e, he, v, _, hnew, hv⟩ := Register.origin Ledger.quotes
    (fun s hi => by obtain ⟨d, rfl⟩ := hi; rfl) (fun c s s' st => (calls_iff.mp st).quotes) r hq
  obtain ⟨_, _, -, _, _, r₂⟩ := r.of_mem he
  cases hnew with
  | @post x hop g =>
    obtain ⟨q', hq', hev⟩ := r₂.quote hv
    obtain rfl := Option.some.inj (hq.symm.trans hq')
    have hx : q.expiry = x := hev.expiry
    subst hx
    exact ⟨e, he, hop, g, rfl, hev.lineGeneration⟩

/-- A used quote was drawn by a recorded call. -/
theorem Reaches.drawn_of_used (r : Reaches p h s) (hq : s.quotes.lookup Q = some q)
    (hu : q.used = true) : ∃ e ∈ h, e.label.op.draws Q = true := by
  refine r.invariant (I := fun h s => ∀ q, s.quotes.lookup Q = some q → q.used = true →
    ∃ e ∈ h, e.label.op.draws Q = true) ?_ ?_ q hq hu
  · intro d q hq
    simp [constructor] at hq
  · intro h s c s' _ hI st q' hq' hu'
    rcases st.quotes.lookup_back hq' with hq | ⟨_, hnew⟩ | ⟨q, _, hm⟩
    · obtain ⟨e, he, hk⟩ := hI q' hq hu'
      exact ⟨e, List.mem_cons_of_mem _ he, hk⟩
    · cases hnew
      cases hu'
    · cases hm with
      | use hop => exact ⟨_, List.mem_cons_self, by simp [hop, Op.draws]⟩

/-! ## Provenance -/

/--
Where the note `D` comes from: the quote `Q` of the merchant `M`, drawn with the
borrower's secret `k`.
-/
structure Provenance (h : Trace B) (s : Ledger B) (D : B) (n : NoteMeta B) (Q M k : B) : Prop where
  /-- `D` opens to exactly these terms. -/
  opening : ∃ nonce salt, D = drawNoteCommit ⟨s.contractDomain, n.lineGeneration, agentId k, Q, M,
    n.amount, n.fee, nonce, n.expiry⟩ salt
  /-- `Q` is there, used, with the note's expiry and generation. -/
  quote : s.quotes.lookup Q = some ⟨n.expiry, n.lineGeneration, true⟩
  /-- `Q` commits to the note's merchant, amount, expiry and generation. -/
  committed : ∃ inv nonce flat bps, Q = quoteCommit M inv n.amount n.expiry nonce n.lineGeneration
    s.contractDomain flat bps
  positive : 0 < n.amount.val
  /-- `Q` was posted with the merchant's secret, while `M` was enabled and the line open. -/
  posted : ∃ e ∈ h, e.label.op = .postQuote n.expiry
    ∧ Q = witnessQuote e.label.witness n.expiry e.pre
    ∧ merchantPublicKey (e.label.witness.callerSecret 0) = M
    ∧ e.pre.registeredMerchants.lookup M = some true ∧ e.pre.status = .OPEN
    ∧ e.pre.lineGeneration = n.lineGeneration
  /-- The generation was opened, for the borrower who holds `k` and under the policy the fee is
  due to. -/
  opened : ∃ e ∈ h, ∃ x flat bps, Opening e n.lineGeneration x flat bps
  priced : ∀ e ∈ h, ∀ x flat bps, Opening e n.lineGeneration x flat bps →
    e.label.witness.agentSecret 0 = k ∧ n.fee.val = requiredFee flat bps n.amount
  /-- Only the borrower's secret drew on `Q`, and it drew `D`. -/
  drawn : ∃ e ∈ h, e.label.op.draws Q = true ∧ D ∉ e.pre.notes ∧ D ∈ e.post.notes
  consumed : ∀ e ∈ h, e.label.op.draws Q = true → e.label.witness.agentSecret 0 = k

variable [LawfulCompact B]

/-- **Every note has a provenance.** -/
theorem Reaches.provenance (r : Reaches p h s) (hn : s.notes.lookup D = some n) :
    ∃ Q M k, Provenance h s D n Q M k := by
  obtain ⟨h₁, h₂, e, Q, q, hh, r₁, r₂, hop, g, hD, hamount, hgen, hmem⟩ := r.drawn hn
  have he : e ∈ h := by rw [hh]; exact List.mem_append_right _ List.mem_cons_self
  have hsub : ∀ e' ∈ h₁, e' ∈ h := fun e' he' => by
    rw [hh]; exact List.mem_append_right _ (List.mem_cons_of_mem _ he')
  have hdom := r.domain_of_mem he
  have hdraws : e.label.op.draws Q = true := by simp [hop, Op.draws]
  have hterms : n.expiry = q.expiry := g.terms
  have hrecon := g.recon
  -- the quote was posted in the same generation
  obtain ⟨ep, hep, hpop, gp, hQ, hqgen⟩ := r₁.posted g.found
  obtain ⟨hM, hinv, ha, hx, hnonce, hg', hdom', hflat, hbps⟩ :=
    quoteCommit_inj (hrecon.trans hQ)
  -- the generation was opened, and its terms stood when the note was drawn
  have hpos : 0 < e.pre.lineGeneration.val := by
    by_contra h0
    have hnone := r₁.status_none_iff.mpr (by omega)
    rw [g.status] at hnone
    cases hnone
  obtain ⟨eo, heo, x, flat, bps, ho, hsame⟩ := r₁.opened hpos
  have hI : agentId (e.label.witness.agentSecret 0) = agentId (eo.label.witness.agentSecret 0) := by
    rw [g.agent, hsame.identityCommit, ho.identity]
  have hk := agentId_inj hI
  rw [← hgen] at ho
  refine ⟨Q, e.label.witness.quoteMerchantPk 0, e.label.witness.agentSecret 0, ?_⟩
  refine ⟨⟨e.label.witness.noteNonce 0, e.label.witness.noteSalt 0, ?_⟩, ?_, ?_, ?_, ?_, ?_, ?_, ?_,
    ?_⟩
  · rw [hD, drawnNote, drawnPreimage, hdom, g.agent, hamount, hgen]
  · obtain ⟨_, _, -, _, st, _⟩ := r.of_mem he
    obtain ⟨_, _, q₁, _, g₁, hpost, _⟩ := st.draws hdraws
    obtain rfl := Option.some.inj (g.found.symm.trans g₁.found)
    obtain ⟨q', hq', hev⟩ := r₂.quote hpost
    have hq'' : q' = ⟨n.expiry, n.lineGeneration, true⟩ := by
      cases q'
      rw [QuoteMeta.mk.injEq]
      exact ⟨hev.expiry.trans hterms.symm, (hev.lineGeneration.trans g.generation).trans hgen.symm,
        hev.used rfl⟩
    rw [hq', hq'']
  · refine ⟨e.label.witness.invoiceId 0, e.label.witness.quoteNonce 0, e.pre.feeFlat,
      e.pre.feeBps, ?_⟩
    rw [hamount, hgen, ← hdom, hterms, hrecon]
  · rw [hamount]
    exact g.positive
  · refine ⟨ep, hsub ep hep, by rw [hterms]; exact hpop, by rw [hterms]; exact hQ, hM.symm, ?_,
      gp.status, ?_⟩
    · rw [hM]
      exact gp.enabled
    · rw [hgen, hg']
  · exact ⟨eo, hsub eo heo, x, flat, bps, ho⟩
  · intro e' he' x' flat' bps' ho'
    obtain rfl := r.opening_unique he' (hsub eo heo) ho' ho
    refine ⟨hk.symm, ?_⟩
    have hpriced := g.priced
    rw [hsame.feeFlat, hsame.feeBps, ho'.flat, ho'.bps, ← hamount] at hpriced
    exact hpriced
  · exact ⟨e, he, hdraws, by rw [hD]; exact g.free, hmem⟩
  · intro e' he' hk'
    obtain rfl := History.eq_of_countP_le_one (r.draws_once Q) he' he hk' hdraws
    rfl

omit [LawfulCompact B] in
/-- Two notes of one quote are one note. -/
theorem Reaches.note_of_quote {D' M M' k k' : B} {n' : NoteMeta B} (r : Reaches p h s)
    (hD : Provenance h s D n Q M k) (hD' : Provenance h s D' n' Q M' k') : D = D' := by
  obtain ⟨e, he, hk, hfree, hmem⟩ := hD.drawn
  obtain ⟨e', he', hk', hfree', hmem'⟩ := hD'.drawn
  obtain rfl := History.eq_of_countP_le_one (r.draws_once Q) he he' hk hk'
  obtain ⟨_, _, -, _, st, _⟩ := r.of_mem he
  obtain ⟨x, f, q, hop, _, _, honly⟩ := st.draws hk
  rw [((honly D).mp hmem).resolve_right hfree, ((honly D').mp hmem').resolve_right hfree']

/--
**Provenance of every note.** There is a map from notes to quotes under which every
note comes from its quote, different notes from different quotes, and every used
quote from exactly one note. Quotes and notes are never removed, a used quote stays
used, and no quote is posted a second time.
-/
theorem draw_provenance (r : Reaches p h s) :
    (∃ quoteOf : B → B,
      (∀ D n, s.notes.lookup D = some n → ∃ M k, Provenance h s D n (quoteOf D) M k)
      ∧ (∀ D D', D ∈ s.notes → D' ∈ s.notes → quoteOf D = quoteOf D' → D = D')
      ∧ ∀ Q q, s.quotes.lookup Q = some q → q.used = true →
          ∃! D, D ∈ s.notes ∧ quoteOf D = Q)
    ∧ ∀ h' s', Continues p s h' s' →
      (∀ D ∈ s.notes, D ∈ s'.notes)
      ∧ (∀ Q q, s.quotes.lookup Q = some q → ∃ q', s'.quotes.lookup Q = some q' ∧ q.Evolves q')
      ∧ ∀ e ∈ h', ∀ x, e.label.op = .postQuote x →
        witnessQuote e.label.witness x e.pre ∉ s.quotes := by
  refine ⟨?_, ?_⟩
  · -- choose a quote for every note
    have hchoice : ∀ D, ∃ Q, ∀ n, s.notes.lookup D = some n → ∃ M k, Provenance h s D n Q M k := by
      intro D
      cases hD : s.notes.lookup D with
      | none => exact ⟨D, fun n hn => by cases hn⟩
      | some n =>
        obtain ⟨Q, M, k, hp⟩ := r.provenance hD
        refine ⟨Q, fun n' hn' => ?_⟩
        obtain rfl := Option.some.inj hn'
        exact ⟨M, k, hp⟩
    choose quoteOf hof using hchoice
    have hinj : ∀ D D', D ∈ s.notes → D' ∈ s.notes → quoteOf D = quoteOf D' → D = D' := by
      intro D D' hD hD' heq
      obtain ⟨n, hn⟩ := Finmap.mem_iff.mp hD
      obtain ⟨n', hn'⟩ := Finmap.mem_iff.mp hD'
      obtain ⟨M, k, hp⟩ := hof D n hn
      obtain ⟨M', k', hp'⟩ := hof D' n' hn'
      rw [heq] at hp
      exact r.note_of_quote hp hp'
    refine ⟨quoteOf, hof, hinj, ?_⟩
    intro Q q hq hu
    -- the draw that used the quote added a note, and that note is still there
    obtain ⟨e, he, hk⟩ := r.drawn_of_used hq hu
    obtain ⟨_, _, -, r₁, st, r₂⟩ := r.of_mem he
    obtain ⟨x, f, q₁, _, g, _, hadd⟩ := st.draws hk
    have hD := r₂.mem_notes ((hadd _).mpr (.inl rfl))
    have hquote : quoteOf (drawnNote e.label.witness Q x f e.pre) = Q := by
      obtain ⟨n, hn⟩ := Finmap.mem_iff.mp hD
      obtain ⟨M, k, hp⟩ := hof _ n hn
      obtain ⟨nonce, salt, hopen⟩ := hp.opening
      exact (congrArg DrawNotePreimage.quoteCommit (drawNoteCommit_inj hopen).1).symm
    refine ⟨_, ⟨hD, hquote⟩, ?_⟩
    rintro D' ⟨hD', hquote'⟩
    exact hinj D' _ hD' hD (hquote'.trans hquote.symm)
  · intro h' s' r'
    refine ⟨fun D hD => r'.mem_notes hD, fun Q q hq => r'.quote hq, ?_⟩
    intro e he x hop hmem
    obtain ⟨h₁, _, -, r₁, st, _⟩ := History.Run.of_mem r' he
    have r₁ : Continues p s h₁ e.pre := r₁
    obtain ⟨q, hq⟩ := Finmap.mem_iff.mp hmem
    obtain ⟨q', hq', _⟩ := r₁.quote hq
    -- a post needs its quote to be new
    exact (calls_iff.mp st).posts_fresh hop (Finmap.mem_iff.mpr ⟨q', hq'⟩)

/-- Two quotes of two generations, drawn, one after the merchant was disabled. -/
theorem draw_provenance_run : ∃ (h : Trace Term) (s : Ledger Term),
    Reaches .canonical h s
      ∧ (∃ quoteOf : Term → Term, ∀ D n, s.notes.lookup D = some n →
          ∃ M k, Provenance h s D n (quoteOf D) M k)
      ∧ Demo.note 1 1 ∈ s.notes ∧ Demo.note 1 2 ∈ s.notes := by
  obtain ⟨h, s, r, ht⟩ := Demo.reaches_of_check .canonical
    [Demo.fund 1000, Demo.openLine, Demo.post 1 1, Demo.draw 1 1 0 0, Demo.repay 7 102 1 102,
      Demo.setStatus .CLOSED 0 2, Demo.openLine, Demo.post 1 2, Demo.disableMerchant,
      Demo.draw 1 2 0 0]
    (fun _ s => decide (Demo.note 1 1 ∈ s.notes) && decide (Demo.note 1 2 ∈ s.notes))
    (by decide +kernel)
  simp only [Bool.and_eq_true, decide_eq_true_eq] at ht
  obtain ⟨quoteOf, hof, _⟩ := (draw_provenance r).1
  exact ⟨h, s, r, ⟨quoteOf, hof⟩, ht.1, ht.2⟩

end Line
