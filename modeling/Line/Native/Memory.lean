import Line.Native.Events

/-!
# Memory and the store

What the primitives do, one lemma for a result and one for an exception; and what the state in
memory is to the stored one. Between two operations they are the same, but for changes of the
owner's part that are not stored yet, and for the address of a deployment whose transaction was not
written down (`Agrees`). Memory as it is can always be stored then, by steps (`Agrees.steps`).

A primitive that throws may still have taken effect. A write of the state is all or nothing; a file
can also be left in part. Whether the caller goes on after that is decided by what it knows: after a
failed write of the state the journal is shut, after a failed file the operation is still there
without a record, and nothing was sent.
-/

namespace Line.Native

open Stateful Relation

variable {A P : Type} {R : Rules A} {α β : Type} {s t : System A P}

/-- What the process does to what outlives it. -/
def Along (R : Rules A) (s t : System A P) : Prop := ReflTransGen (Step R) s.view t.view

/-! ## Primitives -/

/-- Only the world moved on, or the process ended. -/
structure Still (s t : System A P) : Prop where
  view : t.view = s.view
  state : t.state = s.state
  uncertain : t.persistenceUncertain = s.persistenceUncertain
  running : t.running = true → s.running = true

theorem Still.durable (h : Still s t) : t.durable = s.durable := congrArg View.durable h.view

theorem Still.files (h : Still s t) : t.files = s.files := congrArg View.files h.view

theorem Still.events (h : Still s t) : t.events = s.events := congrArg View.events h.view

theorem Still.along (h : Still s t) : Along R s t := by
  rw [Along, h.view]

theorem ask_ok {question : World P → Asked α} {rest : World P → World P} {a : α}
    (h : (ask question rest : M A P α) s = .ok a t) : Still s t := by
  simp only [ask, get_bind] at h
  cases hq : question s.world with
  | answer b =>
    rw [hq] at h
    cases h
    exact ⟨rfl, rfl, rfl, id⟩
  | failed message =>
    rw [hq] at h
    cases h
  | crashed =>
    rw [hq] at h
    cases h

theorem ask_error {question : World P → Asked α} {rest : World P → World P} {e : Failure}
    (h : (ask question rest : M A P α) s = .error e t) : Still s t := by
  simp only [ask, get_bind] at h
  cases hq : question s.world with
  | answer b =>
    rw [hq] at h
    cases h
  | failed message =>
    rw [hq] at h
    cases h
    exact ⟨rfl, rfl, rfl, id⟩
  | crashed =>
    rw [hq] at h
    cases h
    exact ⟨rfl, rfl, rfl, nofun⟩

/-- The process has ended, or does nothing any more. -/
def Shut (e : Failure) (s : System A P) : Prop :=
  e = .crash ∧ s.running = false ∨ s.persistenceUncertain = true

/-- The candidate is stored, with its note. -/
def System.stored (s : System A P) (candidate : Application A)
    (note : Application A → List (Event A P)) : View A P :=
  ⟨candidate, s.files, note s.durable ++ s.events⟩

theorem controlSet_ok {candidate : Application A} {note : Application A → List (Event A P)}
    {u : Unit} (h : controlSet candidate note s = .ok u t) : t.view = s.stored candidate note
    ∧ t.state = s.state ∧ t.persistenceUncertain = s.persistenceUncertain
    ∧ t.running = s.running := by
  simp only [controlSet, get_bind, modify_bind] at h
  cases hw : s.world.sets.head with
  | saved =>
    rw [hw] at h
    cases h
    exact ⟨rfl, rfl, rfl, rfl⟩
  | failed effective message =>
    rw [hw] at h
    cases effective <;> cases h
  | crashed effective =>
    rw [hw] at h
    cases effective <;> cases h

theorem controlSet_error {candidate : Application A} {note : Application A → List (Event A P)}
    {e : Failure} (h : controlSet candidate note s = .error e t) :
    (t.view = s.view ∨ t.view = s.stored candidate note) ∧ (e = .crash → t.running = false) := by
  simp only [controlSet, get_bind, modify_bind] at h
  cases hw : s.world.sets.head with
  | saved =>
    rw [hw] at h
    cases h
  -- a write that failed may have reached the store
  | failed effective message =>
    rw [hw] at h
    cases effective with
    | true =>
      cases h
      exact ⟨.inr rfl, nofun⟩
    | false =>
      cases h
      exact ⟨.inl rfl, nofun⟩
  -- and so may one during which the process ended
  | crashed effective =>
    rw [hw] at h
    cases effective with
    | true =>
      cases h
      exact ⟨.inr rfl, fun _ => rfl⟩
    | false =>
      cases h
      exact ⟨.inl rfl, fun _ => rfl⟩

theorem assertJournalWritable_ok {u : Unit} (h : (assertJournalWritable : M A P Unit) s = .ok u t) :
    t = s ∧ s.persistenceUncertain = false := by
  simp only [assertJournalWritable, get_bind] at h
  cases hu : s.persistenceUncertain with
  | true =>
    rw [hu] at h
    cases h
  | false =>
    rw [hu] at h
    cases h
    exact ⟨rfl, rfl⟩

theorem assertJournalWritable_error {e : Failure}
    (h : (assertJournalWritable : M A P Unit) s = .error e t) :
    t = s ∧ s.persistenceUncertain = true := by
  simp only [assertJournalWritable, get_bind] at h
  cases hu : s.persistenceUncertain with
  | true =>
    rw [hu] at h
    cases h
    exact ⟨rfl, rfl⟩
  | false =>
    rw [hu] at h
    cases h

theorem assertJournalWritable_refused (hu : s.persistenceUncertain = true) :
    ∃ message, (assertJournalWritable : M A P Unit) s = .error (.error message) s := by
  simp only [assertJournalWritable, get_bind, hu]
  exact ⟨_, rfl⟩

/-- Once a store has failed, none is made. -/
theorem save_refused {candidate : Application A} {note : Application A → List (Event A P)}
    (hu : s.persistenceUncertain = true) :
    ∃ message, save candidate note s = .error (.error message) s := by
  obtain ⟨message, h⟩ := assertJournalWritable_refused hu
  exact ⟨message, bind_of_error h⟩

/-- A save that returns has stored the candidate. -/
theorem save_ok {candidate : Application A} {note : Application A → List (Event A P)} {u : Unit}
    (h : save candidate note s = .ok u t) : t.view = s.stored candidate note
    ∧ t.state = s.state ∧ s.persistenceUncertain = false ∧ t.persistenceUncertain = false
    ∧ t.running = s.running := by
  simp only [save, bind_ok_iff] at h
  obtain ⟨⟨⟩, s', ha, h⟩ := h
  obtain ⟨rfl, hu⟩ := assertJournalWritable_ok ha
  simp only [rescue] at h
  cases hc : controlSet candidate note s' with
  | ok u' t' =>
    rw [hc] at h
    cases h
    obtain ⟨hview, hstate, hunc, hrun⟩ := controlSet_ok hc
    exact ⟨hview, hstate, hu, hunc.trans hu, hrun⟩
  | error e t' =>
    rw [hc] at h
    cases e <;> cases h

/-- After one that does not return the journal is shut. -/
theorem save_error {candidate : Application A} {note : Application A → List (Event A P)}
    {e : Failure} (h : save candidate note s = .error e t) :
    (t.view = s.view ∨ t.view = s.stored candidate note) ∧ Shut e t := by
  simp only [save, bind_error_iff] at h
  -- refused before the write, as the journal was shut already
  rcases h with ha | ⟨⟨⟩, s', ha, h⟩
  · obtain ⟨rfl, hu⟩ := assertJournalWritable_error ha
    exact ⟨.inl rfl, .inr hu⟩
  -- or thrown by the write, which shuts it
  · obtain ⟨rfl, -⟩ := assertJournalWritable_ok ha
    simp only [rescue] at h
    cases hc : controlSet candidate note s' with
    | ok u' t' =>
      rw [hc] at h
      cases h
    | error e' t' =>
      rw [hc] at h
      obtain ⟨hview, hcrash⟩ := controlSet_error hc
      cases e' with
      | error message =>
        cases h
        exact ⟨hview, .inr rfl⟩
      | crash =>
        cases h
        exact ⟨hview, .inl ⟨rfl, hcrash rfl⟩⟩

/-- What a write can leave of a file. -/
theorem writeBin_ok {id : String} {tx : Transaction P} {u : Unit}
    (h : (writeBin id tx : M A P Unit) s = .ok u t) : s.files id = none
    ∧ t.view = { s.view with files := Function.update s.files id (some (.whole tx)) }
    ∧ t.state = s.state ∧ t.persistenceUncertain = s.persistenceUncertain
    ∧ t.running = s.running := by
  simp only [writeBin, get_bind] at h
  cases hf : s.files id with
  -- a file is never overwritten
  | some f =>
    rw [hf] at h
    cases h
  | none =>
    rw [hf] at h
    simp only [Option.isSome_none, Bool.false_eq_true, if_false, get_bind,
      modify_bind] at h
    cases hw : s.world.bins.head with
    | written =>
      rw [hw] at h
      cases h
      exact ⟨rfl, rfl, rfl, rfl, rfl⟩
    | failed left message =>
      rw [hw] at h
      cases left <;> cases h
    | crashed left =>
      rw [hw] at h
      cases left <;> cases h

theorem writeBin_error {id : String} {tx : Transaction P} {e : Failure}
    (h : (writeBin id tx : M A P Unit) s = .error e t) :
    (t.view = s.view ∨ s.files id = none
      ∧ ∃ f, t.view = { s.view with files := Function.update s.files id (some f) })
    ∧ t.state = s.state ∧ t.persistenceUncertain = s.persistenceUncertain
    ∧ (t.running = true → s.running = true) := by
  simp only [writeBin, get_bind] at h
  cases hf : s.files id with
  | some f =>
    rw [hf] at h
    cases h
    exact ⟨.inl rfl, rfl, rfl, fun hr => hr⟩
  | none =>
    rw [hf] at h
    simp only [Option.isSome_none, Bool.false_eq_true, if_false, get_bind,
      modify_bind] at h
    cases hw : s.world.bins.head with
    | written =>
      rw [hw] at h
      cases h
    -- what is left is nothing, a part, or the whole file
    | failed left message =>
      rw [hw] at h
      cases left with
      | nothing =>
        cases h
        exact ⟨.inl rfl, rfl, rfl, fun hr => hr⟩
      | part =>
        cases h
        exact ⟨.inr ⟨rfl, _, rfl⟩, rfl, rfl, fun hr => hr⟩
      | whole =>
        cases h
        exact ⟨.inr ⟨rfl, _, rfl⟩, rfl, rfl, fun hr => hr⟩
    -- the same, and the process is gone
    | crashed left =>
      rw [hw] at h
      cases left with
      | nothing =>
        cases h
        exact ⟨.inl rfl, rfl, rfl, nofun⟩
      | part =>
        cases h
        exact ⟨.inr ⟨rfl, _, rfl⟩, rfl, rfl, nofun⟩
      | whole =>
        cases h
        exact ⟨.inr ⟨rfl, _, rfl⟩, rfl, rfl, nofun⟩

theorem readBin_ok {id : String} {tx : Transaction P} (h : (readBin id : M A P _) s = .ok tx t) :
    Still s t ∧ s.files id = some (.whole tx) := by
  simp only [readBin, bind_ok_iff] at h
  obtain ⟨⟨⟩, s', ha, v, s'', hg, h⟩ := h
  have hs := ask_ok ha
  cases hg
  cases hf : s'.files id with
  | none =>
    rw [hf] at h
    cases h
  | some f =>
    rw [hf] at h
    cases f with
    | damaged => cases h
    | whole tx' =>
      cases h
      exact ⟨hs, by rw [← hs.files, hf]⟩

theorem readBin_error {id : String} {e : Failure} (h : (readBin id : M A P _) s = .error e t) :
    Still s t := by
  simp only [readBin, bind_error_iff] at h
  rcases h with ha | ⟨⟨⟩, s', ha, h⟩
  · exact ask_error ha
  · have hs := ask_ok ha
    rcases h with hg | ⟨v, s'', hg, h⟩
    · cases hg
    · cases hg
      cases hf : s'.files id with
      | none =>
        rw [hf] at h
        cases h
        exact hs
      | some f =>
        rw [hf] at h
        cases f with
        | damaged =>
          cases h
          exact hs
        | whole tx' => cases h

theorem Still.trans {u : System A P} (h : Still s t) (h' : Still t u) : Still s u :=
  ⟨h'.view.trans h.view, h'.state.trans h.state, h'.uncertain.trans h.uncertain,
    fun hr => h.running (h'.running hr)⟩

/-! ## Memory and store -/

/-- The pending operation in memory and the stored one. -/
def Pending.Like (p q : Pending A) : Prop :=
  p = q ∨ q.record = none ∧ q.kind = .deploy ∧ ∃ address, p = q.withAddress address

/-- **What memory is to the store between two operations.** -/
structure Agrees (R : Rules A) (m d : Application A) : Prop where
  receipts : m.receipts = d.receipts
  owned : m.owned = d.owned ∨ R.changes d m.owned
  pending : Option.Rel Pending.Like m.pending d.pending

theorem Agrees.refl (d : Application A) : Agrees R d d where
  receipts := rfl
  owned := .inl rfl
  pending := by
    cases d.pending with
    | none => exact .none
    | some p => exact .some (.inl rfl)

theorem Agrees.none_iff {m d : Application A} (h : Agrees R m d) :
    m.pending = none ↔ d.pending = none := by
  have hp := h.pending
  generalize m.pending = x at hp ⊢
  generalize d.pending = y at hp ⊢
  cases hp with
  | none => exact Iff.rfl
  | some _ => simp

theorem Agrees.pending_some {m d : Application A} (h : Agrees R m d) {p : Pending A}
    (hp : m.pending = some p) : ∃ q, d.pending = some q ∧ p.Like q := by
  have hr := h.pending
  rw [hp] at hr
  generalize d.pending = y at hr ⊢
  cases hr with
  | some hl => exact ⟨_, rfl, hl⟩

theorem Pending.Like.id_eq {p q : Pending A} (h : p.Like q) : p.id = q.id := by
  rcases h with rfl | ⟨-, -, address, rfl⟩
  · rfl
  · rfl

theorem Pending.Like.record_eq {p q : Pending A} (h : p.Like q) : p.record = q.record := by
  rcases h with rfl | ⟨-, -, address, rfl⟩
  · rfl
  · rfl

/-- What was written down is not changed in memory. -/
theorem Pending.Like.eq_of_record {p q : Pending A} {row : Record} (h : p.Like q)
    (hrow : p.record = .some row) : p = q := by
  rcases h with rfl | ⟨hnone, -, address, rfl⟩
  · rfl
  · rw [Pending.withAddress, hnone] at hrow
    cases hrow

/-- Memory can be stored as it is. -/
theorem Agrees.steps {m : Application A} {v : View A P} (h : Agrees R m v.durable) :
    ReflTransGen (Step R) v { v with durable := m } := by
  -- first what the owner changed
  have hchange : ReflTransGen (Step R) v
      { v with durable := { v.durable with owned := m.owned } } := by
    rcases h.owned with heq | hc
    · rw [heq]
    · exact .single (.change hc)
  refine hchange.trans ?_
  cases hm : m.pending with
  -- then memory and store differ in nothing else
  | none =>
    have hd := h.none_iff.mp hm
    have heq : m = { v.durable with owned := m.owned } := by
      cases m
      cases hv : v.durable
      rw [hv] at hd
      have hr := h.receipts
      rw [hv] at hr
      cases hm
      cases hd
      cases hr
      rfl
    rw [← heq]
  | some p =>
    obtain ⟨q, hq, hl⟩ := h.pending_some hm
    -- or in the address of the deployment, which is a step of its own
    rcases hl with rfl | ⟨hnone, hkind, address, rfl⟩
    · have heq : m = { v.durable with owned := m.owned } := by
        cases m
        cases hv : v.durable
        rw [hv] at hq
        have hr := h.receipts
        rw [hv] at hr
        cases hm
        cases hq
        cases hr
        rfl
      rw [← heq]
    · have heq : m = { v.durable with
          owned := m.owned, pending := some (q.withAddress address) } := by
        cases m
        have hr := h.receipts
        cases hm
        cases hr
        rfl
      refine .single ?_
      rw [heq]
      exact Step.readdress (v := { v with durable := { v.durable with owned := m.owned } })
        hq hnone hkind

/-! ## States between two operations -/

/-- Unless the store is uncertain, memory agrees with it, and no other operation is pending. -/
def Settled (R : Rules A) (id : String) (s : System A P) : Prop :=
  s.persistenceUncertain = false →
    Agrees R s.state s.durable ∧ ∀ p, s.state.pending = some p → p.id = id

/-- The process has ended, or the state is settled. -/
def Failed (R : Rules A) (id : String) (e : Failure) (s : System A P) : Prop :=
  e = .crash ∧ s.running = false ∨ Settled R id s

theorem Shut.failed {id : String} {e : Failure} (h : Shut e s) : Failed R id e s := by
  rcases h with h | h
  · exact .inl h
  · right
    intro hu
    rw [h] at hu
    cases hu

theorem Still.settled {id : String} (h : Still s t) (hs : Settled R id s) : Settled R id t := by
  intro hu
  rw [h.state, h.durable]
  exact hs (h.uncertain ▸ hu)

/-- Something else is pending in memory. -/
def System.setPending (s : System A P) (p : Pending A) : System A P :=
  { s with state := { s.state with pending := some p } }

@[simp] theorem System.setPending_pending (s : System A P) (p : Pending A) :
    (s.setPending p).state.pending = some p := rfl

@[simp] theorem System.setPending_view (s : System A P) (p : Pending A) :
    (s.setPending p).view = s.view := rfl

theorem System.setPending_self {p : Pending A} (h : s.state.pending = some p) :
    s.setPending p = s := by
  cases s with
  | mk state =>
    cases state
    cases h
    rfl

theorem state_bind {f : Application A → M A P α} : (state >>= f) s = f s.state s := rfl

theorem assignPending_bind {p : Pending A} {f : Pending A → Pending A}
    {k : Unit → M A P α} (hp : s.state.pending = some p) :
    (assignPending f >>= k) s = k ⟨⟩ (s.setPending (f p)) := by
  show k ⟨⟩ { s with state := { s.state with pending := s.state.pending.map f } } = _
  rw [hp]
  rfl

theorem assignRow_bind {p : Pending A} {row : Record} {f : Record → Record} {k : Unit → M A P α}
    (hp : s.state.pending = some p) (hrow : p.record = some row) :
    (assignRow f >>= k) s = k ⟨⟩ (s.setPending (p.withRow (f row))) := by
  rw [assignRow, assignPending_bind hp, hrow]
  rfl

/-- The pending operation `q` may have the address of the transaction. -/
def Addressed (p q : Pending A) (tx : Transaction P) : Prop :=
  q = p ∨ p.kind = .deploy ∧ ∃ action, tx.actions = [action] ∧ q = p.withAddress action.address

/-- What `transactionRecord` does: it may enter the address, and the record describes the
transaction. -/
theorem transactionRecord_cases {p : Pending A} (tx : Transaction P)
    (hp : s.state.pending = some p) : ∃ q, Addressed p q tx
      ∧ ((∃ message, transactionRecord p tx s = .error (.error message) (s.setPending q))
        ∨ ∃ row, transactionRecord p tx s = .ok row (s.setPending q) ∧ RowOf q tx row
          ∧ row.disposition = .prepared) := by
  have hself : s.setPending p = s := s.setPending_self hp
  have hkeep : Addressed p p tx := Or.inl rfl
  unfold transactionRecord
  -- one action, of the operation's kind and entry point, or an exception
  match ha : tx.actions with
  | [] => exact ⟨p, hkeep, .inl ⟨_, by rw [hself]; rfl⟩⟩
  | _ :: _ :: _ => exact ⟨p, hkeep, .inl ⟨_, by rw [hself]; rfl⟩⟩
  | [action] =>
    simp only
    by_cases hk : action.kind ≠ p.kind
    · rw [if_pos hk]
      exact ⟨p, hkeep, .inl ⟨_, by rw [hself]; rfl⟩⟩
    rw [if_neg hk]
    by_cases hc : p.kind = .call ∧ action.entryPoint ≠ p.name
    · rw [if_pos hc]
      exact ⟨p, hkeep, .inl ⟨_, by rw [hself]; rfl⟩⟩
    rw [if_neg hc]
    have haction : ∃ action', tx.actions = [action'] ∧ action'.kind = p.kind
        ∧ (p.kind = .call → action'.entryPoint = p.name) ∧ action'.address = action.address := by
      refine ⟨action, ha, not_not.mp hk, ?_, rfl⟩
      intro hcall
      by_contra hne
      exact hc ⟨hcall, hne⟩
    -- a deployment learns its address from the transaction
    by_cases hd : p.kind = .deploy
    · rw [if_pos hd, assignPending_bind hp]
      have hq : Addressed p (p.withAddress action.address) tx :=
        .inr ⟨hd, action, ha, rfl⟩
      cases hid : tx.identifiers.getLast? with
      | none => exact ⟨_, hq, .inl ⟨_, rfl⟩⟩
      | some txId =>
        exact ⟨_, hq, .inr ⟨_, rfl, ⟨rfl, rfl, rfl, haction, hid, rfl, fun _ => rfl⟩, rfl⟩⟩
    · rw [if_neg hd]
      rw [state_bind]
      -- a call must be for the address that the owner has
      by_cases ht : s.state.owned.contractAddress ≠ some action.address
      · rw [if_pos ht]
        exact ⟨p, hkeep, .inl ⟨_, by rw [hself]; rfl⟩⟩
      rw [if_neg ht]
      cases hid : tx.identifiers.getLast? with
      | none => exact ⟨p, hkeep, .inl ⟨_, by rw [hself]; rfl⟩⟩
      | some txId =>
        refine ⟨p, hkeep, .inr ⟨_, by rw [hself]; rfl, ⟨rfl, rfl, rfl, haction, hid, rfl, ?_⟩, rfl⟩⟩
        exact fun hdeploy => absurd hdeploy hd

end Line.Native
