import Line.Native.Journal
import Mathlib.Data.List.Count
import Mathlib.Data.List.Nodup
import Mathlib.Tactic.Common

/-!
# What becomes durable

Of a process only the stored state, the files and the record of what happened outlive it
(`View`). `Step` lists what can happen to these, one step for each thing that becomes durable, with
what was tested before. The rules of an owner say which operations it prepares, and how it
changes its own part of the state.

Everything that is proved of the journal is an invariant of `Step`. The first one is here
(`Consistent`): ids of receipts are different, the pending id is not among them, a file belongs to a
receipt or to what is pending, and a record of a transaction has the file it describes. The steps
that write a file or a record are the ones that ask for it; the rest only carry it along.
-/

namespace Line.Native

variable {A P : Type}

/-- What outlives a process. -/
structure View (A P : Type) where
  durable : Application A
  files : String → Option (File P)
  events : List (Event A P)

def System.view (s : System A P) : View A P := ⟨s.durable, s.files, s.events⟩

/-- What an owner does. -/
structure Rules (A : Type) where
  /-- In this state the owner prepares the operation with the after-state. -/
  prepares : Application A → String → Kind → String → Owned A → Prop
  /-- In this state the owner changes its part. -/
  changes : Application A → Owned A → Prop

/-- The record describes the transaction, for the operation. -/
structure RowOf (p : Pending A) (tx : Transaction P) (row : Record) : Prop where
  id : row.id = p.id
  kind : row.kind = p.kind
  name : row.name = p.name
  action : ∃ action, tx.actions = [action] ∧ action.kind = p.kind
    ∧ (p.kind = .call → action.entryPoint = p.name) ∧ action.address = row.contractAddress
  txId : tx.identifiers.getLast? = some row.txId
  txHash : tx.transactionHash = row.txHash
  /-- The after-state of a deployment has its address. -/
  address : p.kind = .deploy → p.after.contractAddress = some row.contractAddress

namespace View

/-- The view with another operation pending. -/
def withPending (v : View A P) (pending : Option (Pending A)) : View A P :=
  { v with durable := { v.durable with pending } }

def withEvent (v : View A P) (event : Event A P) : View A P :=
  { v with events := event :: v.events }

end View

/-- What is pending, with the record `row`. -/
def Pending.withRow (p : Pending A) (row : Record) : Pending A := { p with record := some row }

/-- The receipt in place of the pending operation, which is adopted. -/
def Application.adopt (d : Application A) (p : Pending A) (receipt : Receipt) : Application A where
  owned := p.after
  receipts := d.receipts.filter (·.record.id ≠ receipt.record.id) ++ [receipt]
  pending := none

/-- One thing becomes durable. -/
inductive Step (R : Rules A) : View A P → View A P → Prop
  | change {v : View A P} {owned : Owned A} : R.changes v.durable owned →
      Step R v { v with durable := { v.durable with owned } }
  | prepare {v : View A P} {p : Pending A} : v.durable.pending = none → isOperationId p.id = true →
      (∀ r ∈ v.durable.receipts, r.record.id ≠ p.id) → p.record = none →
      p.base = v.durable.owned → R.prepares v.durable p.id p.kind p.name p.after →
      Step R v ((v.withPending (some p)).withEvent (.prepared p v.durable.pending))
  | file {v : View A P} {p : Pending A} {f : File P} : v.durable.pending = some p →
      p.record = none → v.files p.id = none →
      Step R v { v with files := Function.update v.files p.id (some f) }
  | readdress {v : View A P} {p : Pending A} {address : Address} :
      v.durable.pending = some p → p.record = none → p.kind = .deploy →
      Step R v (v.withPending (some (p.withAddress address)))
  | mark {v : View A P} {p : Pending A} {tx : Transaction P} {row : Record} :
      v.durable.pending = some p → p.record = none → v.files p.id = some (.whole tx) →
      RowOf p tx row → row.disposition = .prepared →
      Step R v (v.withPending (some (p.withRow row)))
  | attempt {v : View A P} {p : Pending A} {row : Record} :
      v.durable.pending = some p → p.record = some row → row.disposition = .prepared →
      Step R v (v.withPending
        (some (p.withRow { row with disposition := .submissionAttempted })))
  | submit {v : View A P} {p : Pending A} {tx : Transaction P} {row : Record} :
      v.durable.pending = some p → p.record = some row → row.disposition = .prepared →
      v.files p.id = some (.whole tx) →
      Step R v ((v.withPending
          (some (p.withRow { row with disposition := .submissionAttempted }))).withEvent
        (.posted p.id tx { v.durable with
          pending := some (p.withRow { row with disposition := .submissionAttempted }) }))
  | respond {v : View A P} {p : Pending A} {row row' : Record} :
      v.durable.pending = some p → p.record = some row → row.disposition ≠ .prepared →
      row.same row' = true → row'.disposition ≠ .prepared →
      Step R v (v.withPending (some (p.withRow row')))
  | clear {v : View A P} {p : Pending A} : v.durable.pending = some p → p.record = none →
      v.files p.id = none → Step R v (v.withPending none)
  | observe {v : View A P} {p : Pending A} {row : Record} : v.durable.pending = some p →
      p.record = some row → Step R v (v.withEvent (.observed row))
  | adopt {v : View A P} {p : Pending A} {row : Record} {receipt : Receipt} :
      v.durable.pending = some p → p.record = some row → .observed row ∈ v.events →
      receipt.record = { row with disposition := .confirmedSuccess } →
      Step R v ({ v with durable := v.durable.adopt p receipt }.withEvent
        (.adopted p v.durable))

/-- An owner that does less. -/
theorem Step.mono {R R' : Rules A} {v v' : View A P} (st : Step R v v')
    (hp : ∀ d id kind name after, R.prepares d id kind name after →
      R'.prepares d id kind name after)
    (hc : ∀ d owned, R.changes d owned → R'.changes d owned) : Step R' v v' := by
  cases st with
  | change h => exact .change (hc _ _ h)
  | prepare hnone hid hfresh hrow hbase h =>
      exact .prepare hnone hid hfresh hrow hbase (hp _ _ _ _ _ h)
  | file hp hrow hf => exact .file hp hrow hf
  | readdress hp hrow hk => exact .readdress hp hrow hk
  | mark hp hrow hf htx hd => exact .mark hp hrow hf htx hd
  | attempt hp hrow hd => exact .attempt hp hrow hd
  | submit hp hrow hd hf => exact .submit hp hrow hd hf
  | respond hp hrow hd hs hd' => exact .respond hp hrow hd hs hd'
  | clear hp hrow hf => exact .clear hp hrow hf
  | observe hp hrow => exact .observe hp hrow
  | adopt hp hrow hobs hr => exact .adopt hp hrow hobs hr

/-! ## The stored state -/

/-- The ids of the receipts. -/
def Application.done (d : Application A) : List String := d.receipts.map (·.record.id)

/-- **What is true of a stored state and its files.** -/
structure Consistent (d : Application A) (files : String → Option (File P)) : Prop where
  nodup : d.done.Nodup
  /-- A pending operation has no receipt. -/
  fresh : ∀ p, d.pending = some p → p.id ∉ d.done
  /-- A file belongs to an operation that is pending or done. -/
  owner : ∀ id, files id ≠ none → id ∈ d.done ∨ ∃ p, d.pending = some p ∧ p.id = id
  /-- A recorded transaction is in its file. -/
  row : ∀ p row, d.pending = some p → p.record = some row →
    ∃ tx, files p.id = some (.whole tx) ∧ RowOf p tx row

theorem Record.same_iff {row row' : Record} : row.same row' = true ↔
    row'.id = row.id ∧ row'.kind = row.kind ∧ row'.name = row.name
      ∧ row'.contractAddress = row.contractAddress ∧ row'.txId = row.txId
      ∧ row'.txHash = row.txHash := by
  simp [Record.same, and_assoc]

theorem RowOf.congr {p q : Pending A} {tx : Transaction P} {row : Record} (h : RowOf p tx row)
    (hid : q.id = p.id) (hkind : q.kind = p.kind) (hname : q.name = p.name)
    (hafter : q.after = p.after) : RowOf q tx row := by
  refine ⟨h.id.trans hid.symm, h.kind.trans hkind.symm, h.name.trans hname.symm, ?_, h.txId,
    h.txHash, ?_⟩
  · rw [hkind, hname]
    exact h.action
  · rw [hkind, hafter]
    exact h.address

/-- A record stays one of its transaction. -/
theorem RowOf.same {p : Pending A} {tx : Transaction P} {row row' : Record} (h : RowOf p tx row)
    (hs : row.same row' = true) : RowOf p tx row' := by
  obtain ⟨hid, hkind, hname, haddress, htxId, htxHash⟩ := Record.same_iff.mp hs
  refine ⟨hid.trans h.id, hkind.trans h.kind, hname.trans h.name, ?_, ?_, ?_, ?_⟩
  · rw [haddress]
    exact h.action
  · rw [htxId]
    exact h.txId
  · rw [htxHash]
    exact h.txHash
  · rw [haddress]
    exact h.address

theorem Record.same_disposition (row : Record) (d : Disposition) :
    row.same { row with disposition := d } = true := by
  simp [Record.same]

section Adopt

variable {d : Application A} {files : String → Option (File P)} {p : Pending A} {row : Record}
  {receipt : Receipt}

/-- Nothing is removed when a receipt is added. -/
theorem Consistent.adopt_receipts (h : Consistent d files) (hp : d.pending = some p)
    (hrow : p.record = some row)
    (hr : receipt.record = { row with disposition := .confirmedSuccess }) :
    (d.adopt p receipt).receipts = d.receipts ++ [receipt] ∧ receipt.record.id = p.id := by
  obtain ⟨tx, -, htx⟩ := h.row p row hp hrow
  have hid : receipt.record.id = p.id := by
    rw [hr]
    exact htx.id
  refine ⟨?_, hid⟩
  rw [Application.adopt, List.filter_eq_self.mpr]
  intro r hmem
  have hne : r.record.id ≠ p.id := by
    intro heq
    exact h.fresh p hp (heq ▸ List.mem_map_of_mem hmem)
  rw [hid]
  exact decide_eq_true hne

theorem Consistent.adopt_done (h : Consistent d files) (hp : d.pending = some p)
    (hrow : p.record = some row)
    (hr : receipt.record = { row with disposition := .confirmedSuccess }) :
    (d.adopt p receipt).done = d.done ++ [p.id] := by
  obtain ⟨hreceipts, hid⟩ := h.adopt_receipts hp hrow hr
  rw [Application.done, hreceipts, List.map_append, List.map_singleton, hid]
  rfl

end Adopt

/-- The pending operation in a new state. -/
theorem Consistent.replace {d : Application A} {files : String → Option (File P)} {p q : Pending A}
    (h : Consistent d files) (hp : d.pending = some p) (hid : q.id = p.id)
    (hrow : ∀ row, q.record = some row → ∃ tx, files q.id = some (.whole tx) ∧ RowOf q tx row) :
    Consistent { d with pending := some q } files where
  nodup := h.nodup
  fresh := by
    intro q' hq
    cases hq
    rw [hid]
    exact h.fresh p hp
  owner := by
    intro id hne
    rcases h.owner id hne with hdone | ⟨p', hp', hid'⟩
    · exact .inl hdone
    · have heq : p' = p := Option.some.inj (hp'.symm.trans hp)
      exact .inr ⟨q, rfl, hid.trans (heq ▸ hid')⟩
  row := by
    intro q' row hq hr
    cases hq
    exact hrow row hr

/-- **Every step keeps it.** -/
theorem Step.consistent {R : Rules A} {v v' : View A P} (st : Step R v v')
    (h : Consistent v.durable v.files) : Consistent v'.durable v'.files := by
  cases st with
  | change _ => exact ⟨h.nodup, h.fresh, h.owner, h.row⟩
  -- the id is fresh, and nothing was written down under it
  | @prepare p hnone _ hfresh hrow _ _ =>
    refine ⟨h.nodup, ?_, ?_, ?_⟩
    · intro q hq hmem
      cases hq
      obtain ⟨r, hr, hid⟩ := List.mem_map.mp hmem
      exact hfresh r hr hid
    · intro id hid
      rcases h.owner id hid with hdone | ⟨q, hq, -⟩
      · exact .inl hdone
      · rw [hnone] at hq
        cases hq
    · intro q row hq hr
      cases hq
      rw [hrow] at hr
      cases hr
  -- the file is of the pending operation, which has no record yet
  | @file p f hp hrow hfile =>
    refine ⟨h.nodup, h.fresh, ?_, ?_⟩
    · intro id hid
      by_cases heq : id = p.id
      · exact .inr ⟨p, hp, heq.symm⟩
      · refine h.owner id ?_
        rw [← Function.update_of_ne heq (some f) v.files]
        exact hid
    · intro q row hq hr
      have hqp : q = p := Option.some.inj (hq.symm.trans hp)
      rw [hqp, hrow] at hr
      cases hr
  -- a record would name the address, and there is none
  | @readdress p address hp hnone hkind =>
    refine h.replace hp rfl fun row hr => ?_
    rw [Pending.withAddress, hnone] at hr
    cases hr
  -- the one step that needs the file to be there and to fit
  | @mark p tx row hp hnone hfile htx _ =>
    refine h.replace hp rfl fun row' hr => ?_
    cases hr
    exact ⟨tx, hfile, htx.congr rfl rfl rfl rfl⟩
  -- from here on the record changes in its disposition only
  | @attempt p row hp hrow _ =>
    refine h.replace hp rfl fun row' hr => ?_
    cases hr
    obtain ⟨tx, hfile, htx⟩ := h.row p row hp hrow
    exact ⟨tx, hfile, (htx.same (row.same_disposition _)).congr rfl rfl rfl rfl⟩
  | @submit p tx row hp hrow _ hfile =>
    refine h.replace hp rfl fun row' hr => ?_
    cases hr
    obtain ⟨tx, hfile, htx⟩ := h.row p row hp hrow
    exact ⟨tx, hfile, (htx.same (row.same_disposition _)).congr rfl rfl rfl rfl⟩
  | @respond p row row' hp hrow _ hsame _ =>
    refine h.replace hp rfl fun row'' hr => ?_
    cases hr
    obtain ⟨tx, hfile, htx⟩ := h.row p row hp hrow
    exact ⟨tx, hfile, (htx.same hsame).congr rfl rfl rfl rfl⟩
  -- no file is left without an owner, since none was written
  | @clear p hp hrow hfile =>
    refine ⟨h.nodup, ?_, ?_, ?_⟩
    · intro q hq
      cases hq
    · intro id hid
      rcases h.owner id hid with hdone | ⟨q, hq, hqid⟩
      · exact .inl hdone
      · have hqp : q = p := Option.some.inj (hq.symm.trans hp)
        rw [← hqid, hqp] at hid
        exact absurd hfile hid
    · intro q row hq
      cases hq
  | observe _ _ => exact h
  -- the pending id moves to the receipts, with its file
  | @adopt p row receipt hp hrow _ hr =>
    have hdone := h.adopt_done hp hrow hr
    refine ⟨?_, ?_, ?_, ?_⟩
    · rw [View.withEvent, hdone, List.nodup_append]
      refine ⟨h.nodup, List.nodup_singleton _, ?_⟩
      intro a ha b hb heq
      rw [List.mem_singleton] at hb
      exact h.fresh p hp (hb ▸ heq ▸ ha)
    · intro q hq
      cases hq
    · intro id hid
      left
      rw [View.withEvent, hdone]
      rcases h.owner id hid with hmem | ⟨q, hq, hqid⟩
      · exact List.mem_append_left _ hmem
      · have hqp : q = p := Option.some.inj (hq.symm.trans hp)
        rw [← hqid, hqp]
        exact List.mem_append_right _ (List.mem_singleton_self _)
    · intro q row hq
      cases hq

end Line.Native
