import Line.Merchants.Steps

/-!
# The suppliers keep to their rules

Every call of the suppliers goes along the steps of the journal under their rules (`serve_runs`): an
order is created only where there is none, a service is delivered only after the redeeming of its
draw, and the after-state of an operation is the state with its order changed.

A call is a row of tests and then, at most, one operation of the journal. Where a test fails nothing
was changed and the state is as sound as before (`fail_runs`); where the call only answers, it shows
the order that it was asked for (`Reported`). In between other calls may have been made, so a call
that waits for the journal looks at the order again, and the lemmas here take it from the state in
which it is looked at and from no earlier one.
-/

namespace Line.Merchants

open Native Stateful Relation

variable {Res P : Type} {α : Type} {c : Supplier Res} {who : String → Prop}
  {s s₀ t : System (Orders Res) P}

/-- What goes along the steps in between goes along the steps. -/
theorem along_of_between (h : Along (between c who) s t) : Along (rules c who) s t := by
  have hv : ∀ v, ReflTransGen (Native.Step (between c who)) s.view v →
      ReflTransGen (Native.Step (rules c who)) s.view v := by
    intro v hv
    induction hv with
    | refl => exact .refl
    | tail _ hst ih =>
      refine ih.tail (hst.mono (fun _ _ _ _ _ hp => hp) ?_)
      intro d owned hc
      refine ⟨hc.1, ?_⟩
      rw [hc.2]
  exact hv _ h

theorem runs_of_between {r : EStateM.Result Failure (System (Orders Res) P) α}
    {Q : α → System (Orders Res) P → Prop} {E : Failure → System (Orders Res) P → Prop}
    (h₀ : Along (rules c who) s₀ s) (h : Runs (Along (between c who)) s r Q E) :
    Runs (Along (rules c who)) s₀ r Q E :=
  ⟨.single (h₀.trans (along_of_between (along_of_moves h.moves))), h.result, h.failure⟩

/-- The orders in memory are the stored ones. -/
theorem data_of_agrees {m d : Application (Orders Res)} (h : Agrees (between c who) m d) :
    m.owned.data = d.owned.data := by
  rcases h.owned with heq | hc
  · rw [heq]
  · exact hc.2

/-- The suppliers edit an order in memory; then it can be stored. -/
theorem edit_steps {owned : Owned (Orders Res)} (hs : Sound (between c who) s)
    (hp : s.state.pending = none) (he : Edit c who s.state.done s.state.owned.data owned.data)
    (hu : s.persistenceUncertain = false) :
    ReflTransGen (Native.Step (rules c who)) s.view
      { s.view with durable := { s.state with owned } } := by
  have ha := hs hu
  have hdone : s.state.done = s.durable.done := by
    rw [Application.done, ha.receipts]
    rfl
  have hd := ha.none_iff.mp hp
  have heq : ({ s.state with owned } : Application (Orders Res)) = { s.durable with owned } := by
    simp only [ha.receipts, hp, hd]
  rw [heq]
  rw [hdone, data_of_agrees ha] at he
  exact .single (.change ⟨hd, .single he⟩)

/-- The address is changed in memory. -/
theorem address_sound {address : Address} (hs : Sound (between c who) s)
    (hp : s.state.pending = none) :
    Sound (between c who) { s with state := { s.state with
      owned := { s.state.owned with contractAddress := some address } } } := by
  intro hu
  have ha := hs hu
  have hdata := data_of_agrees ha
  exact ⟨ha.receipts, .inr ⟨ha.none_iff.mp hp, hdata⟩, ha.pending⟩

/-! ## Queries -/

/-- What is shown is the order that was asked for, as it is in memory. -/
def Reported (s : System (Orders Res) P) (asked : Option String) (shown : Option (Shown Res)) :
    Prop :=
  ∀ a, shown = some a → s.persistenceUncertain = false
    ∧ ∃ x o, asked = some x ∧ find s.state.owned.data x = some o ∧ a = o.shown x s.state

/-- `order` only looks. -/
theorem order_still {id : String} (h₀ : Along (rules c who) s₀ s) (hs : Sound (between c who) s) :
    Runs (Along (rules c who)) s₀ ((order id : M (Orders Res) P _) s)
      (fun a t => Sound (between c who) t ∧ Reported t (some id) a) (Broken (between c who)) := by
  simp only [order]
  refine .seq ?_ ?_
  · intro e t h
    obtain ⟨rfl, -⟩ := assertJournalWritable_error h
    exact ⟨.single h₀, .inr hs⟩
  intro _ t h
  obtain ⟨rfl, hu⟩ := assertJournalWritable_ok h
  rw [state_bind]
  cases ho : find t.state.owned.data id with
  | none => exact .after (.single h₀) (.ok ⟨hs, fun a ha => nomatch ha⟩)
  | some order =>
    refine .after (.single h₀) (.ok ⟨hs, ?_⟩)
    intro a ha
    cases ha
    exact ⟨hu, id, order, rfl, ho, rfl⟩

theorem answer_seq {β : Type} {asked : Asked β} {k : β → M (Orders Res) P α}
    {Q : α → System (Orders Res) P → Prop} (h₀ : Along (rules c who) s₀ s)
    (hs : Sound (between c who) s)
    (hk : ∀ b t, Still s t → Runs (Along (rules c who)) s₀ (k b t) Q (Broken (between c who))) :
    Runs (Along (rules c who)) s₀ ((answer asked >>= k) s) Q (Broken (between c who)) := by
  refine .seq ?_ ?_
  · intro e t h
    have hst := ask_error h
    exact ⟨.single (h₀.trans hst.along), .inr (hst.sound hs)⟩
  · intro b t h
    exact hk b t (ask_ok h)

theorem lift_seq {β : Type} {result : Except String β} {k : β → M (Orders Res) P α}
    {Q : α → System (Orders Res) P → Prop} (h₀ : Along (rules c who) s₀ s)
    (hs : Sound (between c who) s)
    (hk : ∀ b, result = .ok b → Runs (Along (rules c who)) s₀ (k b s) Q (Broken (between c who))) :
    Runs (Along (rules c who)) s₀ ((lift result >>= k) s) Q (Broken (between c who)) := by
  cases hr : result with
  | error message => exact .after (.single h₀) (.error (.inr hs))
  | ok b => exact hk b hr

theorem fail_runs {message : String} {Q : α → System (Orders Res) P → Prop}
    (h₀ : Along (rules c who) s₀ s) (hs : Sound (between c who) s) :
    Runs (Along (rules c who)) s₀ ((fail message : M (Orders Res) P α) s) Q
      (Broken (between c who)) :=
  .after (.single h₀) (.error (.inr hs))

/-! ## Changes -/

theorem create_runs {service : Service} {id : String} {address : Address} {document : String}
    {context : QuoteContext} {book : Book} (hwho : who id) (h₀ : Along (rules c who) s₀ s)
    (hs : Sound (between c who) s)
    (hp : s.state.pending = none) (hnone : find s.state.owned.data id = none) :
    Runs (Along (rules c who)) s₀
      ((create c service id address document context book : M (Orders Res) P Unit) s)
      (fun _ t => Sound (between c who) t ∧ t.state.pending = none
        ∧ ∃ order, find t.state.owned.data id = some order ∧ order.status = .created)
      (Broken (between c who)) := by
  simp only [create]
  rw [state_bind]
  by_cases hfull : 1000 ≤ s.state.owned.data.length
  · rw [if_pos hfull]
    exact fail_runs h₀ hs
  rw [if_neg hfull]
  by_cases hrecent : 6 ≤ (s.state.owned.data.filter fun row =>
      row.ownerRecipient = book.issuerPayoutRecipient
        && context.createdAt < row.createdAt + 600000).length
  · rw [if_pos hrecent]
    exact fail_runs h₀ hs
  rw [if_neg hrecent]
  by_cases hfree : book.free < service.price
  · rw [if_pos hfree]
    exact fail_runs h₀ hs
  rw [if_neg hfree]
  refine lift_seq h₀ hs ?_
  intro quote _
  -- the new order, in memory first
  let order : Order Res := {
    id, address, service := service.id, inputDigest := c.digest document, document
    quote, status := .created, result := none
    createdAt := context.createdAt, ownerRecipient := book.issuerPayoutRecipient, claim := none }
  let t : System (Orders Res) P := { s with state := { s.state with
    owned := { s.state.owned with data := s.state.owned.data ++ [order] } } }
  have h₁ : Along (rules c who) s₀ t := h₀
  have he : Edit c who s.state.done s.state.owned.data t.state.owned.data :=
    .create hwho hnone ⟨rfl, rfl, rfl⟩
  have hst : t.persistenceUncertain = false →
      ReflTransGen (Native.Step (rules c who)) t.view (t.stored t.state fun _ => []) := by
    intro hu
    have h := edit_steps (s := s) hs hp he hu
    exact h
  refine (save_runs h₁ hst).mono ?_ fun _ _ h => h.broken
  intro _ u hu
  obtain ⟨hd, hstate⟩ := hu
  refine ⟨fun _ => ?_, ?_, order, ?_, rfl⟩
  · rw [hstate, hd]
    exact Agrees.refl _
  · rw [hstate, hp]
  · rw [hstate]
    exact find_append_new hnone rfl

/-- As its quote is refused, a new order is neither stored nor put in memory. -/
theorem create_refused {service : Service} {id : String} (hid : isRequestId id = true)
    (address : Address) (document : String) (context : QuoteContext) (book : Book) :
    ∃ message, (create c service id address document context book : M (Orders Res) P Unit) s
      = .error (.error message) s := by
  simp only [create]
  rw [state_bind]
  by_cases hfull : 1000 ≤ s.state.owned.data.length
  · rw [if_pos hfull]
    exact ⟨_, rfl⟩
  rw [if_neg hfull]
  by_cases hrecent : 6 ≤ (s.state.owned.data.filter fun row =>
      row.ownerRecipient = book.issuerPayoutRecipient
        && context.createdAt < row.createdAt + 600000).length
  · rw [if_pos hrecent]
    exact ⟨_, rfl⟩
  rw [if_neg hrecent]
  by_cases hfree : book.free < service.price
  · rw [if_pos hfree]
    exact ⟨_, rfl⟩
  rw [if_neg hfree, newQuote_refused c hid address context book]
  exact ⟨_, rfl⟩

/-- The receipt is there, or the order is redeemed. -/
theorem deliver_runs {id : String} (hwho : who id) (h₀ : Along (rules c who) s₀ s)
    (hs : Sound (between c who) s) (hp : s.state.pending = none)
    (hr : ∀ order, find s.state.owned.data id = some order →
      order.status = .redeemed ∨ redeemId id ∈ s.state.done) :
    Runs (Along (rules c who)) s₀ ((deliver c id : M (Orders Res) P Unit) s)
      (fun _ t => Sound (between c who) t) (Broken (between c who)) := by
  simp only [deliver]
  rw [state_bind]
  cases ho : find s.state.owned.data id with
  | none => exact fail_runs h₀ hs
  | some order =>
    -- computing the result may fail, and then the order stays redeemed
    refine lift_seq h₀ hs ?_
    intro result hf
    let delivered : Application (Orders Res) := { s.state with
      owned := withStatus s.state.owned id fun order =>
        { order with result := some result, status := .delivered } }
    -- only what is redeemed is delivered, here by the order or by the receipt
    have he : Edit c who s.state.done s.state.owned.data delivered.owned.data :=
      .deliver hwho ho (hr order ho) hf
    have hst : s.persistenceUncertain = false →
        ReflTransGen (Native.Step (rules c who)) s.view (s.stored delivered fun _ => []) :=
      fun hu => edit_steps hs hp he hu
    -- the result is stored first and put in memory after that
    refine .bind ((save_runs h₀ hst).mono (fun _ _ h => h) fun _ _ h => h.broken) ?_
    intro _ t ht
    let u : System (Orders Res) P := { t with state := delivered }
    have hu : Along (rules c who) t u := .refl
    refine .after (.single hu) (.ok fun _ => ?_)
    show Agrees (between c who) delivered t.durable
    rw [ht.1]
    exact Agrees.refl _

/-! ## Calls -/

/-- A pending operation is recovered first. -/
theorem settle_seq {k : M (Orders Res) P α} {Q : α → System (Orders Res) P → Prop}
    (hs : Sound (between c who) s) (hc : Consistent s.durable s.files)
    (hk : ∀ t, Sound (between c who) t → t.state.pending = none →
      Runs (Along (rules c who)) t (k t) Q (Broken (between c who))) :
    Runs (Along (rules c who)) s ((do
      if (← state).pending.isSome then
        let _ ← recoverPending
      k : M (Orders Res) P α) s) Q (Broken (between c who)) := by
  rw [state_bind]
  by_cases hp : s.state.pending.isSome = true
  · rw [if_pos hp]
    exact .bind (runs_of_between .refl (recoverPending_runs .refl hs hc)) fun _ t ht =>
      hk t ht.1 ht.2
  · rw [if_neg hp]
    exact hk s hs (Option.not_isSome_iff_eq_none.mp hp)

/-- The quote of an order that is there is posted. -/
theorem post_runs {id : String} {address : Address} {order₀ : Order Res}
    (hwho : who id) (h₀ : Along (rules c who) s₀ s) (hs : Sound (between c who) s)
    (hp : s.state.pending = none)
    (ho : find s.state.owned.data id = some order₀) (hcreated : order₀.status = .created) :
    Runs (Along (rules c who)) s₀ ((do
      setAddress address
      let after := withStatus (← state).owned id fun order => { order with status := .quoted }
      let _ ← operation (quoteId id) .call "postQuote" after
      order id : M (Orders Res) P (Option (Shown Res))) s)
      (fun a t => Sound (between c who) t ∧ Reported t (some id) a)
      (Broken (between c who)) := by
  let t : System (Orders Res) P := { s with state := { s.state with
    owned := { s.state.owned with contractAddress := some address } } }
  have ht : Sound (between c who) t := address_sound hs hp
  have h₁ : Along (rules c who) s₀ t := h₀
  show Runs _ s₀ ((operation (quoteId id) .call "postQuote"
    (withStatus t.state.owned id fun order => { order with status := .quoted })
    >>= fun _ => order id) t) _ _
  refine .bind (runs_of_between h₁ (operation_runs .refl ht ?_)) fun _ u hu =>
    order_still .refl hu.1
  intro _ _
  exact ⟨id, hwho, .inl ⟨rfl, rfl, rfl, ⟨order₀, ho, hcreated⟩, rfl⟩⟩

theorem quoteOrder_runs {id : String} {address : Address} {serviceId document : String}
    {context : QuoteContext} (hwho : who id) (hs : Sound (between c who) s)
    (hc : Consistent s.durable s.files) :
    Runs (Along (rules c who)) s
      ((quoteOrder c id address serviceId document context : M (Orders Res) P _) s)
      (fun a t => Sound (between c who) t ∧ Reported t (some id) a) (Broken (between c who)) := by
  have hstart : Along (rules c who) s s := .refl
  simp only [quoteOrder]
  by_cases hid : (!isRequestId id) = true
  · rw [if_pos hid]
    exact fail_runs hstart hs
  rw [if_neg hid]
  cases hservice : services.find? (·.id = serviceId) with
  | none => exact fail_runs hstart hs
  | some service =>
    refine lift_seq hstart hs ?_
    intro _ _
    -- what is pending is reconciled first; after it nothing is
    refine settle_seq hs hc ?_
    intro t ht hp
    have hat : Along (rules c who) t t := .refl
    rw [state_bind]
    -- an id that stands for another order, or for one beyond its quote
    by_cases hterms : (find t.state.owned.data id).any (fun order => order.address != address
        || order.service != serviceId || order.inputDigest != c.digest document) = true
    · rw [if_pos hterms]
      exact fail_runs hat ht
    rw [if_neg hterms]
    by_cases hstatus : (find t.state.owned.data id).any (·.status ≠ .created) = true
    · rw [if_pos hstatus]
      exact order_still hat ht
    rw [if_neg hstatus]
    -- the book on the ledger may have been disabled meanwhile
    refine answer_seq hat ht ?_
    intro book u hu
    have hsu : Sound (between c who) u := hu.sound ht
    have hau : Along (rules c who) t u := hu.along
    have hpu : u.state.pending = none := by rw [hu.state, hp]
    by_cases hbook : (!book.enabled) = true
    · rw [if_pos hbook]
      exact fail_runs hau hsu
    rw [if_neg hbook]
    cases hfound : find t.state.owned.data id with
    | none =>
      rw [if_pos Option.isNone_none]
      -- a new order is created, and then its quote is posted
      refine .bind (create_runs hwho hau hsu hpu (hu.state ▸ hfound)) ?_
      intro _ v hv
      obtain ⟨hsv, hpv, order, ho, hcreated⟩ := hv
      exact post_runs hwho .refl hsv hpv ho hcreated
    | some order =>
      -- one that was created by an earlier request is posted as it is
      rw [if_neg (by simp)]
      refine post_runs hwho hau hsu hpu (hu.state ▸ hfound) ?_
      rw [hfound] at hstatus
      simpa using hstatus

theorem redeemOrder_runs {id claim : String} {inspected : Asked Unit} (hwho : who id)
    (hs : Sound (between c who) s) (hc : Consistent s.durable s.files) :
    Runs (Along (rules c who)) s ((redeemOrder c id claim inspected : M (Orders Res) P _) s)
      (fun a t => Sound (between c who) t ∧ Reported t (some id) a) (Broken (between c who)) := by
  simp only [redeemOrder]
  refine settle_seq hs hc ?_
  intro t ht hp
  have hat : Along (rules c who) t t := .refl
  rw [state_bind]
  cases hfound : find t.state.owned.data id with
  | none => exact fail_runs hat ht
  | some found =>
    simp only
    by_cases hdelivered : found.status = .delivered
    · rw [if_pos hdelivered]
      exact order_still hat ht
    rw [if_neg hdelivered]
    refine lift_seq hat ht ?_
    intro note _
    by_cases hmatch : (!note.matches found) = true
    · rw [if_pos hmatch]
      exact fail_runs hat ht
    rw [if_neg hmatch]
    refine answer_seq hat ht ?_
    intro _ u hu
    have hsu : Sound (between c who) u := hu.sound ht
    have hau : Along (rules c who) t u := hu.along
    have hpu : u.state.pending = none := by rw [hu.state, hp]
    have hfu : find u.state.owned.data id = some found := hu.state ▸ hfound
    by_cases hred : found.status ≠ .redeemed
    · rw [if_pos hred]
      -- the draw is redeemed first
      have hopen : found.status = .created ∨ found.status = .quoted := by
        cases hst : found.status with
        | created => exact .inl rfl
        | quoted => exact .inr rfl
        | redeemed => exact absurd hst hred
        | delivered => exact absurd hst hdelivered
      let v : System (Orders Res) P := { u with state := { u.state with
        owned := { u.state.owned with contractAddress := some found.address } } }
      have hv : Sound (between c who) v := address_sound hsu hpu
      have h₁ : Along (rules c who) t v := hau
      show Runs _ t ((operation (redeemId id) .call "redeemDraw"
        (withStatus v.state.owned id fun order =>
          { order with status := .redeemed, claim := some note })
        >>= fun _ => do
          deliver c id
          order id) v) _ _
      refine .bind (runs_of_between h₁ (operation_runs .refl hv ?_)) ?_
      · intro _ _
        exact ⟨id, hwho, .inr ⟨rfl, rfl, rfl, found, note, hfu, hopen, by simpa using hmatch, rfl⟩⟩
      intro r w hw
      obtain ⟨hsw, receipt, -, hret⟩ := hw
      refine .bind (deliver_runs hwho .refl hsw hret.pending ?_) fun _ x hx => order_still .refl hx
      intro order _
      right
      rw [← hret.id_eq]
      exact List.mem_map_of_mem hret.receipts
    · rw [if_neg hred]
      refine .bind (deliver_runs hwho hau hsu hpu ?_) fun _ x hx => order_still .refl hx
      intro order ho
      rw [hfu] at ho
      cases ho
      exact .inl (not_not.mp hred)

/-- The order that a call is about. -/
def Call.about : Call → Option String
  | .quote id _ _ _ _ => some id
  | .redeem id _ _ => some id
  | _ => none

/-- The order that a call asks for. -/
def Call.asked : Call → Option String
  | .order id => some id
  | call => call.about

/-- **What a call does goes along the steps.** -/
theorem perform_runs {call : Call} (hwho : ∀ x, call.about = some x → who x)
    (hs : Sound (between c who) s) (hc : Consistent s.durable s.files) :
    Runs (Along (rules c who)) s (perform c call s)
      (fun a t => Sound (between c who) t ∧ Reported t call.asked a) (Broken (between c who)) := by
  have hstart : Along (rules c who) s s := .refl
  -- every call but two asks first whether the journal can be written
  have hassert : ∀ {k : M (Orders Res) P (Option (Shown Res))} {asked : Option String},
      Runs (Along (rules c who)) s (k s)
        (fun a t => Sound (between c who) t ∧ Reported t asked a) (Broken (between c who)) →
      Runs (Along (rules c who)) s ((do assertJournalWritable; k : M (Orders Res) P _) s)
        (fun a t => Sound (between c who) t ∧ Reported t asked a) (Broken (between c who)) := by
    intro k asked hk
    refine .seq ?_ ?_
    · intro e t h
      obtain ⟨rfl, -⟩ := assertJournalWritable_error h
      exact ⟨.refl, .inr hs⟩
    · intro _ t h
      obtain ⟨rfl, -⟩ := assertJournalWritable_ok h
      exact hk
  cases call with
  | quote id address serviceId document context =>
      exact hassert (quoteOrder_runs (hwho id rfl) hs hc)
  | redeem id claim inspected => exact hassert (redeemOrder_runs (hwho id rfl) hs hc)
  | recoverPending =>
    exact hassert (.bind (runs_of_between hstart (recoverPending_runs .refl hs hc)) fun _ _ h =>
      .ok ⟨h.1, fun a ha => nomatch ha⟩)
  | order id => exact order_still hstart hs
  -- the state is the stored one again
  | reopen =>
    have h₁ : Along (rules c who) s
        { s with state := s.durable, persistenceUncertain := false, running := true } := hstart
    exact .after (.single h₁) (.ok ⟨fun _ => Agrees.refl _, fun a ha => nomatch ha⟩)

theorem serve_perform {call : Call} (h : s.running = true) :
    serve c call s = perform c call s := by
  simp only [serve, get_bind, h]
  rfl

theorem serve_reopen (s : System (Orders Res) P) : serve c .reopen s = perform c .reopen s := by
  simp only [serve, get_bind]
  rw [if_neg (by simp)]

theorem serve_ended {call : Call} (h : s.running = false) (hr : call ≠ .reopen) :
    serve c call s = .error .crash s := by
  simp only [serve, get_bind, h]
  rw [if_pos]
  · rfl
  · cases call with
    | reopen => exact absurd rfl hr
    | quote _ _ _ _ _ => rfl
    | redeem _ _ _ => rfl
    | recoverPending => rfl
    | order _ => rfl

/-- **A call goes along the steps.** -/
theorem serve_runs {call : Call} (hwho : ∀ x, call.about = some x → who x)
    (hs : Ready (between c who) s) (hc : Consistent s.durable s.files) :
    Along (rules c who) s (final (serve c call s)) ∧
      Ready (between c who) (final (serve c call s)) := by
  by_cases hr : call = .reopen
  · rw [hr, serve_reopen]
    exact ⟨.refl, fun _ _ => .refl _⟩
  cases hrun : s.running with
  | false =>
    rw [serve_ended hrun hr]
    exact ⟨.refl, hs⟩
  | true =>
    rw [serve_perform hrun]
    have h : Runs _ s (perform c call s) _ _ := perform_runs hwho (hs hrun) hc
    refine ⟨along_of_moves h.moves, ?_⟩
    cases hres : perform c call s with
    | ok a t => exact fun _ => (h.result a t hres).1
    | error e t => exact (h.failure e t hres).ready

/-- What a call answers. -/
theorem serve_ok {call : Call} {a : Option (Shown Res)}
    (hwho : ∀ x, call.about = some x → who x) (hs : Ready (between c who) s)
    (hc : Consistent s.durable s.files) (h : serve c call s = .ok a t) :
    Along (rules c who) s t ∧ Sound (between c who) t ∧ Reported t call.asked a := by
  by_cases hr : call = .reopen
  · rw [hr, serve_reopen] at h
    cases h
    exact ⟨.refl, fun _ => Agrees.refl _, fun a ha => nomatch ha⟩
  cases hrun : s.running with
  | false =>
    rw [serve_ended hrun hr] at h
    cases h
  | true =>
    rw [serve_perform hrun] at h
    have hruns := perform_runs hwho (hs hrun) hc
    rw [h] at hruns
    exact ⟨along_of_moves hruns.moves, hruns.result a t rfl⟩

/-- **And so do calls one after another.** -/
theorem serveAll_along {calls : List Call}
    (hwho : ∀ call ∈ calls, ∀ x, call.about = some x → who x) (hs : Ready (between c who) s)
    (hc : Consistent s.durable s.files) :
    Along (rules c who) s (serveAll c calls s) ∧ Ready (between c who) (serveAll c calls s)
      ∧ Consistent (serveAll c calls s).durable (serveAll c calls s).files := by
  induction calls generalizing s with
  | nil => exact ⟨.refl, hs, hc⟩
  | cons call rest ih =>
    obtain ⟨halong, hready⟩ : Along (rules c who) s (final (serve c call s)) ∧ _ :=
      serve_runs (hwho call List.mem_cons_self) hs hc
    obtain ⟨h, hr, hc'⟩ :=
      ih (fun q hq => hwho q (List.mem_cons_of_mem _ hq)) hready (halong.consistent hc)
    exact ⟨halong.trans h, hr, hc'⟩

end Line.Merchants
