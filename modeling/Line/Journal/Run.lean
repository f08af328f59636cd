import Line.Journal.Closure

/-!
# Leases on one store

Any number of sessions share the store of a journal. Only one of them holds the lease at
a time; it calls the methods in any order and may end, or crash, between any two of them.
A crash inside a write is a write that failed, or one that succeeded followed by the end
of the lease.

A run records what was called and answered. Whatever is stored was written by a lease, so
it is the text of a valid journal (`World.Sound`), and what a lease keeps is what is
stored.
-/

namespace Line.Journal

open Vault Checked History

/-- A lease that is held. -/
structure OpenLease where
  scope : Scope
  cached : Option OperationJournalRecord
  submittedInLease : List String

structure World where
  store : Option Json.Text
  lease : Option OpenLease

/-- What a session does. -/
inductive Label where
  | acquire (scope : Scope)
  /-- The end of a lease, or a crash. -/
  | release
  | call (env : Env) (c : Call) (result : Except Error Answer)

/-- What a lease holds of the world. -/
def OpenLease.held (lease : OpenLease) (w : World) : Held :=
  ⟨w.store, lease.cached, lease.submittedInLease⟩

/-- The world after a call of the lease. -/
def OpenLease.world (lease : OpenLease) (held : Held) : World :=
  ⟨held.store, some ⟨lease.scope, held.cached, held.submittedInLease⟩⟩

inductive Step : Label → World → World → Prop
  | acquire {w : World} {scope : Scope} :
      w.lease = none → Step (.acquire scope) w ⟨w.store, some ⟨scope, none, []⟩⟩
  | release {w : World} {lease : OpenLease} :
      w.lease = some lease → Step .release w ⟨w.store, none⟩
  | answered {w : World} {lease : OpenLease} {env : Env} {c : Call} {answer : Answer}
      {held : Held} :
      w.lease = some lease → perform lease.scope env c (lease.held w) = .ok answer held →
      Step (.call env c (.ok answer)) w (lease.world held)
  | failed {w : World} {lease : OpenLease} {env : Env} {c : Call} {e : Error} {held : Held} :
      w.lease = some lease → perform lease.scope env c (lease.held w) = .error e held →
      Step (.call env c (.error e)) w (lease.world held)

/-- Before anything was stored. -/
def Fresh (w : World) : Prop := w.store = none ∧ w.lease = none

abbrev Trace := List (Event World Label)

/-- The worlds that sessions reach, with all that they did. -/
abbrev Reaches (h : Trace) (w : World) : Prop := Run Fresh Step h w

/-- `operationJournalStorageKey`: the release, `sourceFingerprint`, is in the document only, so that
an upgrade finds the pending work of the release before it. -/
def operationJournalStorageKey (scope : JournalScope) : String :=
  "line:journal:v1:" ++ scope.networkId ++ ":" ++ scope.contractAddress

/-- Every session is of this scope: one network, one contract and one release. -/
def InScope (scope : Scope) (h : Trace) : Prop :=
  ∀ e ∈ h, ∀ s, e.label = .acquire s → s = scope

/-- The operations that a store holds. -/
def operations : Option Json.Text → List JournalOperation
  | none => []
  | some text =>
    match decodeVaultJson text with
    | .error _ => []
    | .ok value =>
      match scopeOf (value.get "scope") with
      | none => []
      | some scope => ((checkedRecord value scope).map (·.operations)).getD []

/-! ## What is stored -/

/-- The journal that a lease of the scope finds in a store. -/
def Holds (store : Option Json.Text) (scope : Scope) (record : OperationJournalRecord) : Prop :=
  store = none ∧ record = ⟨scope.val, 0, []⟩ ∨
    ∃ text, store = some text ∧ record.Valid scope ∧ encodeVaultJson record.toValue = .ok text

theorem Holds.valid {store : Option Json.Text} {scope : Scope} {record : OperationJournalRecord}
    (h : Holds store scope record) : record.Valid scope := by
  rcases h with ⟨-, rfl⟩ | ⟨_, -, h, -⟩
  · exact valid_empty scope
  · exact h

/-- The scope of a record is read back. -/
theorem scopeOf_record (record : OperationJournalRecord) :
    scopeOf (record.toValue.get "scope") = some record.scope := by
  simp [OperationJournalRecord.toValue, JournalScope.toValue, Value.get, List.lookup_cons, scopeOf]

theorem Holds.operations {store : Option Json.Text} {scope : Scope}
    {record : OperationJournalRecord} (h : Holds store scope record) :
    operations store = record.operations := by
  rcases h with ⟨rfl, rfl⟩ | ⟨text, rfl, hr, ht⟩
  · rfl
  · obtain ⟨hdec, hval⟩ := read_back hr ht
    have hchecked : checkedRecord record.toValue scope.val = some record := by
      unfold validateRecord at hval
      split at hval
      · next r hr' => rw [hr', Except.ok.inj hval]
      · cases hval
    have hs := scopeOf_record record
    rw [hr.scope] at hs
    simp only [Journal.operations, hdec, hs, hchecked]
    rfl

/-- A journal is read only in its own scope. -/
theorem validateRecord_scope {scope scope' : Scope} {record r : OperationJournalRecord}
    (hr : record.Valid scope') (h : validateRecord record.toValue scope.val = .ok r) :
    scope' = scope := by
  unfold validateRecord at h
  split at h
  · next x hx =>
      simp only [checkedRecord, Option.bind_eq_bind, Option.bind_eq_some_iff, scopeOf_record,
        hr.scope, Option.some.injEq, toOption_eq_some_iff, Option.guard_eq_some'] at hx
      obtain ⟨_, -, _, -, _, rfl, normalized, hn, _, hscope, -⟩ := hx
      rw [scope'.property] at hn
      cases hn
      exact Subtype.ext hscope
  · cases h

/-- The world holds only journals that leases wrote. -/
structure World.Sound (w : World) : Prop where
  store : ∀ text, w.store = some text → ∃ (scope : Scope) (record : OperationJournalRecord),
    record.Valid scope ∧ encodeVaultJson record.toValue = .ok text
  lease : ∀ lease, w.lease = some lease → ∀ record, lease.cached = some record →
    Holds w.store lease.scope record

/-- What a lease reads is what the store holds. -/
theorem World.Sound.holds {w : World} (hs : w.Sound) {lease : OpenLease}
    (hl : w.lease = some lease) {record : OperationJournalRecord}
    (h : Reads lease.scope (lease.held w) record) : Holds w.store lease.scope record := by
  cases h with
  | kept hc => exact hs.lease lease hl record hc
  | empty hstore => exact .inl ⟨hstore, rfl⟩
  | stored hstore hdec hval =>
      obtain ⟨scope, r, hr, ht⟩ := hs.store _ hstore
      obtain ⟨hdec', hval'⟩ := read_back hr ht
      rw [hdec'] at hdec
      cases hdec
      obtain rfl := validateRecord_scope hr hval
      rw [hval'] at hval
      cases hval
      exact .inr ⟨_, hstore, hr, ht⟩

/-- **What a step does to the store**: nothing, or a call that succeeded wrote its change of the
journal that was stored. -/
inductive Stores (w w' : World) : Label → Prop
  | same {l : Label} : w'.store = w.store → Stores w w' l
  | wrote {lease : OpenLease} {env : Env} {c : Call} {record next : OperationJournalRecord}
      {id : String} {text : Json.Text} :
      w.lease = some lease → Holds w.store lease.scope record →
      change lease.scope lease.submittedInLease env.now record c = .ok (some (.next next id)) →
      encodeVaultJson (compact next).toValue = .ok text →
      w' = ⟨some text, some ⟨lease.scope, some (compact next),
        submittedAfter lease.submittedInLease c⟩⟩ →
      Stores w w' (.call env c
        (.ok (.operation ((compact next).operations.find? fun op => op.id = id))))

theorem Step.stores {w w' : World} {l : Label} (hs : w.Sound) (st : Step l w w') :
    Stores w w' l := by
  cases st with
  | acquire _ => exact .same rfl
  | release _ => exact .same rfl
  | answered hl h =>
      cases perform_ok h with
      | looked _ => exact .same rfl
      | repeated _ _ => exact .same rfl
      | wrote hr hc ht => exact .wrote hl (hs.holds hl hr) hc ht rfl
  | failed hl h =>
      rcases (perform_error h).1 with rfl | ⟨_, _, rfl⟩
      · exact .same rfl
      · exact .same rfl

/-- What is written is valid, so it is found again. -/
theorem Holds.change {store : Option Json.Text} {scope : Scope} {submitted : List String}
    {now : Time} {c : Call} {record next : OperationJournalRecord} {id : String} {text : Json.Text}
    (h : Holds store scope record)
    (hc : Journal.change scope submitted now record c = .ok (some (.next next id)))
    (ht : encodeVaultJson (compact next).toValue = .ok text) :
    Holds (some text) scope (compact next) :=
  .inr ⟨text, rfl, valid_compact ((change_writes h.valid.operations hc).valid h.valid), ht⟩

theorem Step.sound {w w' : World} {l : Label} (hs : w.Sound) (st : Step l w w') : w'.Sound := by
  cases st with
  | acquire _ => exact ⟨hs.store, fun _ hl r hc => by cases hl; cases hc⟩
  | release _ => exact ⟨hs.store, fun _ hl => by cases hl⟩
  | answered hl h =>
      cases perform_ok h with
      | looked hr | repeated hr _ =>
          refine ⟨hs.store, fun _ hl' r hc => ?_⟩
          cases hl'
          cases hc
          exact hs.holds hl hr
      | wrote hr hc ht =>
          -- what is written is the valid record that the method made
          have hnew := (hs.holds hl hr).change hc ht
          refine ⟨fun _ he => ?_, fun _ hl' r hk => ?_⟩
          · cases he
            exact ⟨_, _, hnew.valid, ht⟩
          · cases hl'
            cases hk
            exact hnew
  | failed hl h =>
      -- a refused call may have read the record, and then keeps what it read
      have hkept := (perform_error h).1
      refine ⟨?_, fun _ hl' r hc => ?_⟩
      · rcases hkept with rfl | ⟨_, _, rfl⟩
        · exact hs.store
        · exact hs.store
      · cases hl'
        rcases hkept with rfl | ⟨_, hr, rfl⟩
        · exact hs.lease _ hl r hc
        · cases hc
          exact hs.holds hl hr

/-- **Every world that is reached is sound.** -/
theorem Reaches.sound {h : Trace} {w : World} (r : Reaches h w) : w.Sound := by
  refine Run.invariant (I := fun _ w => w.Sound) ?_ ?_ r
  · intro w hw
    refine ⟨fun _ ht => ?_, fun _ hl => ?_⟩
    · rw [hw.1] at ht
      cases ht
    · rw [hw.2] at hl
      cases hl
  · intro h s l s' _ hs st
    exact st.sound hs

end Line.Journal
