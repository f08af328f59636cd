import Line.Native.Step

/-!
# What happened

The invariants about the events: the calls of the node, and the adoptions of after-states. A call
of the node leaves its operation with a record that is past `prepared`, and such a record never goes
back; an adoption leaves a receipt, and a receipt stays. So neither happens twice.

Each invariant is about the events and the durable state together, and a step adds one event at
most. So it is carried by two facts of a step: which events it adds, and that it takes nothing back
of what earlier events have left (`Step.past`). For all but one or two kinds of steps the first is
empty, and these are treated at once (`hquiet` in `Step.posts`). `Based` is the odd one: it needs an
owner that changes nothing while an operation is pending, and is used for those only.
-/

namespace Line.Native

variable {A P : Type} {R : Rules A} {v v' : View A P}

/-- The operations for which the node was called. -/
def postedIds (events : List (Event A P)) : List String :=
  events.filterMap fun
    | .posted id _ _ => some id
    | _ => none

/-- The operations whose after-states were adopted. -/
def adoptedIds (events : List (Event A P)) : List String :=
  events.filterMap fun
    | .adopted p _ => some p.id
    | _ => none

/-! ## Calls of the node -/

/-- The operation is not to be sent any more. -/
def Past (d : Application A) (id : String) : Prop :=
  id ∈ d.done ∨ ∃ p row, d.pending = some p ∧ p.id = id ∧ p.record = some row
    ∧ row.disposition ≠ .prepared

/-- **What is true of the calls of the node.** -/
structure Posts (v : View A P) : Prop where
  once : ∀ id, (postedIds v.events).count id ≤ 1
  past : ∀ id ∈ postedIds v.events, Past v.durable id
  /-- At a call the file holds the transaction, and its attempt is durable. -/
  durable : ∀ id tx d, .posted id tx d ∈ v.events → v.files id = some (.whole tx)
    ∧ ∃ p row, d.pending = some p ∧ p.id = id ∧ p.record = some row
      ∧ row.disposition = .submissionAttempted ∧ RowOf p tx row

/-- A file that is there is kept. -/
theorem Step.files (st : Step R v v') {id : String} {f : File P} (h : v.files id = some f) :
    v'.files id = some f := by
  cases st with
  | @file p f' hp hrow hfile =>
    by_cases heq : id = p.id
    · rw [heq, hfile] at h
      cases h
    · simp only [Function.update_of_ne heq]
      exact h
  | _ => exact h

/-- What is past stays past. -/
theorem Step.past (st : Step R v v') (hc : Consistent v.durable v.files) {id : String}
    (h : Past v.durable id) : Past v'.durable id := by
  rcases h with hdone | ⟨q, row, hq, hid, hrow, hd⟩
  · -- receipts are kept
    left
    cases st with
    | @adopt p row receipt hp hrow _ hr =>
      rw [View.withEvent, hc.adopt_done hp hrow hr]
      exact List.mem_append_left _ hdone
    | _ => exact hdone
  · -- the record of the pending operation
    cases st with
    | change _ => exact .inr ⟨q, row, hq, hid, hrow, hd⟩
    -- a step that begins with no operation, or with none of its records, is not of this one
    | prepare hnone =>
      rw [hq] at hnone
      cases hnone
    | file hp hnone _ =>
      obtain rfl := Option.some.inj (hq.symm.trans hp)
      rw [hrow] at hnone
      cases hnone
    | readdress hp hnone _ =>
      obtain rfl := Option.some.inj (hq.symm.trans hp)
      rw [hrow] at hnone
      cases hnone
    | mark hp hnone _ _ _ =>
      obtain rfl := Option.some.inj (hq.symm.trans hp)
      rw [hrow] at hnone
      cases hnone
    -- and what is already past is not attempted or submitted again
    | attempt hp hrow' hd' =>
      obtain rfl := Option.some.inj (hq.symm.trans hp)
      obtain rfl := Option.some.inj (hrow.symm.trans hrow')
      exact absurd hd' hd
    | submit hp hrow' hd' _ =>
      obtain rfl := Option.some.inj (hq.symm.trans hp)
      obtain rfl := Option.some.inj (hrow.symm.trans hrow')
      exact absurd hd' hd
    | @respond p row' row'' hp hrow' _ _ hd'' =>
      obtain rfl := Option.some.inj (hq.symm.trans hp)
      exact .inr ⟨_, row'', rfl, hid, rfl, hd''⟩
    | clear hp hnone _ =>
      obtain rfl := Option.some.inj (hq.symm.trans hp)
      rw [hrow] at hnone
      cases hnone
    | observe _ _ => exact .inr ⟨q, row, hq, hid, hrow, hd⟩
    | @adopt p row' receipt hp hrow' _ hr =>
      obtain rfl := Option.some.inj (hq.symm.trans hp)
      left
      rw [View.withEvent, hc.adopt_done hp hrow' hr, ← hid]
      exact List.mem_append_right _ (List.mem_singleton_self _)

/-- Calls of the node are made by one step only. -/
theorem Step.posts (st : Step R v v') (hc : Consistent v.durable v.files) (h : Posts v) :
    Posts v' := by
  have hpast : ∀ id ∈ postedIds v.events, Past v'.durable id :=
    fun id hid => st.past hc (h.past id hid)
  -- a step that adds no call of the node
  have hquiet : v'.events = v.events ∨ (∃ e, v'.events = e :: v.events
      ∧ ∀ id tx d, e ≠ .posted id tx d) → Posts v' := by
    intro hev
    have hids : postedIds v'.events = postedIds v.events := by
      rcases hev with hev | ⟨e, hev, hne⟩
      · rw [hev]
      · rw [hev]
        cases e with
        | posted id tx d => exact absurd rfl (hne id tx d)
        | prepared _ _ => rfl
        | observed _ => rfl
        | adopted _ _ => rfl
    have hmem : ∀ id tx d, Event.posted id tx d ∈ v'.events → Event.posted id tx d ∈ v.events := by
      intro id tx d hin
      rcases hev with hev | ⟨e, hev, hne⟩
      · rwa [hev] at hin
      · rw [hev] at hin
        rcases List.mem_cons.mp hin with heq | hin
        · exact absurd heq.symm (hne id tx d)
        · exact hin
    refine ⟨fun id => hids ▸ h.once id, fun id hid => hpast id (hids ▸ hid), ?_⟩
    intro id tx d hin
    obtain ⟨hfile, hp⟩ := h.durable id tx d (hmem id tx d hin)
    exact ⟨st.files hfile, hp⟩
  cases st with
  -- the one that does: of an operation that was not called for yet
  | @submit p tx row hp hrow hd hfile =>
    obtain ⟨tx', hfile', htx⟩ := hc.row p row hp hrow
    obtain rfl : tx' = tx := by
      rw [hfile] at hfile'
      cases hfile'
      rfl
    -- a call before this one would have left the record past `prepared`
    have hnew : p.id ∉ postedIds v.events := by
      intro hin
      rcases h.past _ hin with hdone | ⟨q, row', hq, -, hrow', hd'⟩
      · exact hc.fresh p hp hdone
      · obtain rfl := Option.some.inj (hq.symm.trans hp)
        obtain rfl := Option.some.inj (hrow'.symm.trans hrow)
        exact hd' hd
    have hids : ∀ d, postedIds (.posted p.id tx' d :: v.events) = p.id :: postedIds v.events :=
      fun _ => rfl
    refine ⟨?_, ?_, ?_⟩
    · intro id
      simp only [View.withEvent, View.withPending, hids]
      by_cases heq : p.id = id
      · have hzero := List.count_eq_zero_of_not_mem hnew
        rw [← heq, List.count_cons_self]
        omega
      · rw [List.count_cons_of_ne (by simpa using heq)]
        exact h.once id
    · intro id hin
      simp only [View.withEvent, View.withPending, hids] at hin
      rcases List.mem_cons.mp hin with rfl | hin
      · exact .inr ⟨_, _, rfl, rfl, rfl, by simp⟩
      · exact hpast id hin
    -- the new call is of the durable transaction
    · intro id tx d hin
      rcases List.mem_cons.mp hin with heq | hin
      · cases heq
        refine ⟨hfile, _, _, rfl, rfl, rfl, rfl, ?_⟩
        exact (htx.same (row.same_disposition _)).congr rfl rfl rfl rfl
      · exact h.durable id tx d hin
  | prepare _ _ _ _ _ _ => exact hquiet (.inr ⟨_, rfl, by simp⟩)
  | observe _ _ => exact hquiet (.inr ⟨_, rfl, by simp⟩)
  | adopt _ _ _ _ => exact hquiet (.inr ⟨_, rfl, by simp⟩)
  | _ => exact hquiet (.inl rfl)

/-! ## Adoptions -/

/-- **What is true of the adoptions.** -/
structure Adoptions (v : View A P) : Prop where
  once : ∀ id, (adoptedIds v.events).count id ≤ 1
  done : ∀ id ∈ adoptedIds v.events, id ∈ v.durable.done
  /-- Before an adoption, the receipt reader confirmed the recorded transaction. -/
  confirmed : ∀ newer older p before, v.events = newer ++ .adopted p before :: older →
    before.pending = some p ∧ ∃ row, p.record = some row ∧ .observed row ∈ older
  /-- An operation is prepared while no other one is pending. -/
  alone : ∀ p before, .prepared p before ∈ v.events → before = none
  /-- A receipt is the record of a confirmed transaction. -/
  receipts : ∀ receipt ∈ v.durable.receipts, ∃ row, .observed row ∈ v.events
    ∧ receipt.record = { row with disposition := .confirmedSuccess }

/-- A step records one event at most. -/
theorem Step.events (st : Step R v v') :
    v'.events = v.events ∨ ∃ e, v'.events = e :: v.events := by
  cases st with
  | prepare _ _ _ _ _ _ => exact .inr ⟨_, rfl⟩
  | submit _ _ _ _ => exact .inr ⟨_, rfl⟩
  | observe _ _ => exact .inr ⟨_, rfl⟩
  | adopt _ _ _ _ => exact .inr ⟨_, rfl⟩
  | _ => exact .inl rfl

theorem Step.mem_events (st : Step R v v') {e : Event A P} (h : e ∈ v.events) : e ∈ v'.events := by
  rcases st.events with hev | ⟨e', hev⟩
  · rwa [hev]
  · rw [hev]
    exact List.mem_cons_of_mem _ h

theorem Step.adoptions (st : Step R v v') (hc : Consistent v.durable v.files)
    (h : Adoptions v) : Adoptions v' := by
  -- a step that neither adopts nor prepares
  have hquiet : v'.durable.receipts = v.durable.receipts →
      (v'.events = v.events ∨ ∃ e, v'.events = e :: v.events ∧ (∀ p d, e ≠ .adopted p d)
        ∧ ∀ p d, e = .prepared p d → d = none) → Adoptions v' := by
    intro hreceipts hev
    have hids : adoptedIds v'.events = adoptedIds v.events := by
      rcases hev with hev | ⟨e, hev, hne, -⟩
      · rw [hev]
      · rw [hev]
        cases e with
        | adopted p d => exact absurd rfl (hne p d)
        | prepared _ _ => rfl
        | observed _ => rfl
        | posted _ _ _ => rfl
    refine ⟨fun id => hids ▸ h.once id, ?_, ?_, ?_, ?_⟩
    · intro id hid
      rw [Application.done, hreceipts]
      exact h.done id (hids ▸ hid)
    · intro newer older p before heq
      rcases hev with hev | ⟨e, hev, hne, -⟩
      · exact h.confirmed newer older p before (hev ▸ heq)
      · rw [hev, List.cons_eq_append_iff] at heq
        rcases heq with ⟨-, heq⟩ | ⟨newer', -, heq⟩
        · cases heq
          exact absurd rfl (hne p before)
        · exact h.confirmed newer' older p before heq
    · intro p before hin
      rcases hev with hev | ⟨e, hev, -, hprep⟩
      · exact h.alone p before (hev ▸ hin)
      · rw [hev] at hin
        rcases List.mem_cons.mp hin with heq | hin
        · exact hprep p before heq.symm
        · exact h.alone p before hin
    · intro receipt hin
      rw [hreceipts] at hin
      obtain ⟨row, hrow, hr⟩ := h.receipts receipt hin
      exact ⟨row, st.mem_events hrow, hr⟩
  cases st with
  | @adopt p row receipt hp hrow hobs hr =>
    have hdone := hc.adopt_done hp hrow hr
    have hreceipts := (hc.adopt_receipts hp hrow hr).1
    have hnew : p.id ∉ adoptedIds v.events := fun hin => hc.fresh p hp (h.done _ hin)
    have hids : adoptedIds (.adopted p v.durable :: v.events) = p.id :: adoptedIds v.events := rfl
    refine ⟨?_, ?_, ?_, ?_, ?_⟩
    · intro id
      simp only [View.withEvent, hids]
      by_cases heq : p.id = id
      · have hzero := List.count_eq_zero_of_not_mem hnew
        rw [← heq, List.count_cons_self]
        omega
      · rw [List.count_cons_of_ne (by simpa using heq)]
        exact h.once id
    · intro id hin
      simp only [View.withEvent, hids] at hin
      simp only [View.withEvent]
      rw [hdone]
      rcases List.mem_cons.mp hin with rfl | hin
      · exact List.mem_append_right _ (List.mem_singleton_self _)
      · exact List.mem_append_left _ (h.done id hin)
    · intro newer older q before heq
      simp only [View.withEvent, List.cons_eq_append_iff] at heq
      rcases heq with ⟨-, heq⟩ | ⟨newer', -, heq⟩
      · cases heq
        exact ⟨hp, row, hrow, hobs⟩
      · exact h.confirmed newer' older q before heq
    · intro q before hin
      rcases List.mem_cons.mp hin with heq | hin
      · cases heq
      · exact h.alone q before hin
    · intro receipt' hin
      simp only [View.withEvent] at hin
      rw [hreceipts] at hin
      rcases List.mem_append.mp hin with hin | hin
      · obtain ⟨row', hrow', hr'⟩ := h.receipts receipt' hin
        exact ⟨row', List.mem_cons_of_mem _ hrow', hr'⟩
      · rw [List.mem_singleton] at hin
        subst hin
        exact ⟨row, List.mem_cons_of_mem _ hobs, hr⟩
  | prepare hnone _ _ _ _ _ =>
    refine hquiet rfl (.inr ⟨_, rfl, by simp, ?_⟩)
    intro p d heq
    cases heq
    exact hnone
  | submit _ _ _ _ => exact hquiet rfl (.inr ⟨_, rfl, by simp, by simp⟩)
  | observe _ _ => exact hquiet rfl (.inr ⟨_, rfl, by simp, by simp⟩)
  | _ => exact hquiet rfl (.inl rfl)

/-! ## What an after-state was computed from -/

/-- While an operation is pending, the owner's part is the one that the after-state was computed
from; so an adoption replaces nothing else. -/
structure Based (v : View A P) : Prop where
  pending : ∀ p, v.durable.pending = some p → v.durable.owned = p.base
  adopted : ∀ p before, .adopted p before ∈ v.events → before.owned = p.base

/-- It is kept by an owner that changes nothing while an operation is pending. -/
theorem Step.based (hR : ∀ d owned, R.changes d owned → d.pending = none) (st : Step R v v')
    (h : Based v) : Based v' := by
  -- the owner's part is as it was, and so is what the operation is based on
  have hkeep : ∀ {p q : Pending A}, v.durable.pending = some p → q.base = p.base →
      ∀ q', some q = some q' → v.durable.owned = q'.base := by
    intro p q hp hbase q' hq
    cases hq
    exact (h.pending p hp).trans hbase.symm
  cases st with
  -- such an owner changes its part only when nothing is pending
  | change hchange =>
    refine ⟨?_, h.adopted⟩
    intro p hp
    rw [hR _ _ hchange] at hp
    cases hp
  | prepare _ _ _ _ hbase _ =>
    refine ⟨?_, ?_⟩
    · intro q hq
      cases hq
      exact hbase.symm
    · intro q before hin
      rcases List.mem_cons.mp hin with heq | hin
      · cases heq
      · exact h.adopted q before hin
  | file _ _ _ => exact ⟨h.pending, h.adopted⟩
  | readdress hp _ _ => exact ⟨hkeep hp rfl, h.adopted⟩
  | mark hp _ _ _ _ => exact ⟨hkeep hp rfl, h.adopted⟩
  | attempt hp _ _ => exact ⟨hkeep hp rfl, h.adopted⟩
  | submit hp _ _ _ =>
    refine ⟨hkeep hp rfl, ?_⟩
    intro q before hin
    rcases List.mem_cons.mp hin with heq | hin
    · cases heq
    · exact h.adopted q before hin
  | respond hp _ _ _ _ => exact ⟨hkeep hp rfl, h.adopted⟩
  | clear _ _ _ => exact ⟨fun _ hq => absurd hq (by simp [View.withPending]), h.adopted⟩
  | observe _ _ =>
    refine ⟨h.pending, ?_⟩
    intro q before hin
    rcases List.mem_cons.mp hin with heq | hin
    · cases heq
    · exact h.adopted q before hin
  -- what is adopted replaces the part that the operation was based on
  | @adopt p row receipt hp _ _ _ =>
    refine ⟨fun _ hq => absurd hq (by simp [View.withEvent, Application.adopt]), ?_⟩
    intro q before hin
    rcases List.mem_cons.mp hin with heq | hin
    · cases heq
      exact h.pending p hp
    · exact h.adopted q before hin

end Line.Native
