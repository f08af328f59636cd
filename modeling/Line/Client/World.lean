import Line.Client.Notes

/-!
# The account and its contracts

One organization's account, the contracts on the chain, and everybody else. A request is planned
from what the chain shows, saved, signed and sent, and is applied or not. The tab may stop at any
point, and other people call the same contracts in between.

`Good` is what holds throughout. The snapshot agrees with the chain until the transaction of the
saved operation is applied, and then its candidate does. In between, the saved operation is a plan
that keeps its promise: it was when it was saved, and a promise is about every chain that agrees
with the snapshot, so what strangers do to the chain does not matter to it. Applying the transaction
is what cashes the promise in; adopting the candidate then only gives a name to what holds already.
-/

namespace Line.Client

open Checked JsonText
open Organization (isHex64)

variable {B : Type} [DecidableEq B] [Compact B]

/-- The chain, and what the organization has of it. -/
structure World (B : Type) where
  /-- The release that the account's tabs load. -/
  release : Release
  chain : Chain B
  operations : Address → Operations
  record : Record B (Transaction B)
  /-- What the tab holds that planned an operation. It holds the account's lock. -/
  running : Option (Plan B)
  /-- The transaction of the saved operation was applied. -/
  applied : Bool

variable {w w' : World B} {chain chain' : Chain B} {S S' : Snapshot B} {a : Address}
  {r r' : Record B (Transaction B)} {p : Pending B (Transaction B)}

/-- An edit that changes nothing but the orders, and these notes. -/
def EditsNotes (action : Snapshot B → Result (Snapshot B)) (f : List (Note B) → List (Note B)) :
    Prop :=
  ∀ S S', action S = .ok S' → S'.issuerSecret = S.issuerSecret ∧ S'.facilities = S.facilities ∧
    S'.notes = f S.notes

/-- What a transaction does to the operations of the contracts. -/
def Transaction.registers (release : Release) (a : Address) (tx : Transaction B)
    (operations : Address → Operations) : Address → Operations :=
  match tx with
  | .deploy _ => Function.update operations a (initialOperations release)
  | .key circuit => Function.update operations a (registerKey release circuit (operations a))
  | .call _ _ => operations

/-- The steps. Only what changes the account or the chain is one; reading is not. -/
inductive World.Step : World B → World B → Prop
  /-- A request is planned, with the account's lock. -/
  | request {w : World B} {now : ℤ} {receivingAddress : UserAddress B} {request : Request B}
      {plan : Plan B} :
      w.running = none → w.record.pending = none → request.Fresh w.record.snapshot →
      request.plan ⟨w.chain, w.operations, w.release, now, receivingAddress⟩ w.record.snapshot =
        .ok (some plan) → Step w { w with running := some plan }
  | prepare {w : World B} {plan id r} : w.running = some plan →
      prepare (plan.pending id w.release.sourceFingerprint) w.record = .ok r →
      Step w { w with record := r }
  /-- `submitTx`: the signed bytes are saved before they are sent. A contract is deployed at a new
  address. -/
  | submit {w : World B} {plan tx txId a r} : w.running = some plan → plan.intent.Signs tx →
      txId ≠ "" → (plan.kind = .deploy → w.chain a = none) →
      submitted txId tx a w.record = .ok r → Step w { w with record := r }
  | stop {w : World B} : Step w { w with running := none }
  | discard {w : World B} {r} : discardUnsubmitted w.record = .ok r →
      Step w { w with record := r, running := none }
  /-- The saved transaction is applied. -/
  | land {w : World B} {p tx a now chain} : w.record.pending = some p → p.transaction = some tx →
      p.contractAddress = some a → w.applied = false → Lands now a tx w.chain chain →
      Step w { w with chain, operations := tx.registers w.release a w.operations, applied := true }
  /-- `finish`, with the receipt of a transaction that succeeded. -/
  | complete {w : World B} {receipt r} : w.applied = true → complete receipt w.record = .ok r →
      Step w { w with record := r, running := none, applied := false }
  /-- `finish`, with the receipt of one that failed: it never will be applied. -/
  | reject {w : World B} {receipt r} : w.applied = false →
      rejectFinalized receipt w.record = .ok r → Step w { w with record := r, running := none }
  | edit {w : World B} {action r} : w.running = none → EditsNotes action (fun notes => notes) →
      edit action w.record = .ok r → Step w { w with record := r }
  /-- The end of `continueService`: the claim was seen to be redeemed. -/
  | deliver {w : World B} {action r n L m} : w.running = none → n ∈ w.record.snapshot.notes →
      w.chain n.contractAddress = some L → L.notes.lookup n.noteCommitment = some m →
      m.redeemed = true →
      EditsNotes action (Records.change Note.noteCommitment (fun n => { n with redeemed := true })
        n.noteCommitment) →
      edit action w.record = .ok r → Step w { w with record := r }
  /-- Somebody else calls a contract. -/
  | stranger {w : World B} {a L L' c} : w.chain a = some L → Calls .organization c L L' →
      (∀ S ∈ w.record.snapshots, Stranger S c) →
      Step w { w with chain := Function.update w.chain a (some L') }
  /-- Somebody else deploys one, with any operations. -/
  | deploy {w : World B} {a d operations} : w.chain a = none → isHex64 a = true →
      (∀ p, w.record.pending = some p → p.contractAddress ≠ some a) →
      Step w { w with
        chain := Function.update w.chain a (some (constructor .organization d))
        operations := Function.update w.operations a operations }
  /-- Somebody else replaces the operations of a contract that is not the account's. -/
  | maintain {w : World B} {a operations} : (∀ S ∈ w.record.snapshots, ¬ S.Has a) →
      Step w { w with operations := Function.update w.operations a operations }

/-- A fresh account: nobody ever had its secret. -/
structure World.Starts (w : World B) : Prop where
  facilities : w.record.snapshot.facilities = []
  notes : w.record.snapshot.notes = []
  pending : w.record.pending = none
  running : w.running = none
  applied : w.applied = false
  genuine : Genuine w.chain w.record.snapshot

/-- What a run leads to. -/
inductive World.Reachable : World B → Prop
  | start {w : World B} : w.Starts → Reachable w
  | next {w w' : World B} : Reachable w → World.Step w w' → Reachable w'

/-! ## What the account does to its record -/

omit [DecidableEq B] [Compact B] in
theorem prepare_ok_iff : prepare p r = .ok r' ↔
    r.pending = none ∧ r' = { r with pending := some p } := by
  unfold prepare
  cases hp : r.pending with
  | none => simp only [Option.isSome_none, Bool.false_eq_true, if_false, Except.ok.injEq, true_and,
      eq_comm]
  | some q => exact iff_of_false (fun h => by cases h) (fun h => by cases h.1)

omit [DecidableEq B] [Compact B] in
theorem submitted_ok {txId : String} {tx : Transaction B} (h : submitted txId tx a r = .ok r') :
    ∃ p after, r.pending = some p ∧ truthy p.txId = false ∧ isHex64 a = true ∧
      (∀ b, p.contractAddress = some b → b = a) ∧ p.deployedAt a = .ok after ∧
      r' = { r with pending := some { p with
        txId := some txId, transaction := some tx, contractAddress := some a, after } } := by
  unfold submitted at h
  cases hp : r.pending with
  | none =>
    rw [hp] at h
    cases h
  | some p =>
    rw [hp] at h
    simp only at h
    -- an operation that was sent already, or an address that is none
    split at h
    · cases h
    · next hstate =>
      split at h
      · cases h
      -- a plan for a contract is sent to that contract
      · next haddress =>
        simp only [bind_ok_iff, pure_ok_iff] at h
        obtain ⟨after, hafter, rfl⟩ := h
        rw [Bool.or_eq_true, not_or, Bool.not_eq_true, Bool.not_eq_true', Bool.not_eq_false]
          at hstate
        refine ⟨p, after, rfl, hstate.1, hstate.2, fun b hb => ?_, hafter, rfl⟩
        rw [hb, Option.any_some, decide_eq_true_eq, not_not] at haddress
        exact haddress

omit [DecidableEq B] [Compact B] in
theorem complete_ok {receipt : Receipt} (h : complete receipt r = .ok r') :
    ∃ p, r.pending = some p ∧ r' = { snapshot := { p.after with
      receipts := p.after.receipts ++ [receipt] }, pending := none } := by
  unfold complete at h
  split at h
  · cases h
  · next p hp => exact ⟨p, (Option.filter_eq_some_iff.mp hp).1, (Except.ok.inj h).symm⟩

omit [DecidableEq B] [Compact B] in
theorem rejectFinalized_ok {receipt : Receipt} (h : rejectFinalized receipt r = .ok r') :
    r'.pending = none ∧ r'.snapshot.issuerSecret = r.snapshot.issuerSecret ∧
      r'.snapshot.facilities = r.snapshot.facilities ∧ r'.snapshot.notes = r.snapshot.notes := by
  unfold rejectFinalized at h
  split at h
  · cases h
  · obtain rfl := Except.ok.inj h
    exact ⟨rfl, rfl, rfl, rfl⟩

omit [DecidableEq B] [Compact B] in
theorem discardUnsubmitted_ok (h : discardUnsubmitted r = .ok r') :
    (∀ p, r.pending = some p → truthy p.txId = false) ∧ r' = { r with pending := none } := by
  unfold discardUnsubmitted at h
  split at h
  · cases h
  · next hsent =>
    refine ⟨fun p hp => ?_, (Except.ok.inj h).symm⟩
    rw [hp, Option.any_some, Bool.not_eq_true] at hsent
    exact hsent

omit [DecidableEq B] [Compact B] in
theorem edit_ok {action : Snapshot B → Result (Snapshot B)} (h : edit action r = .ok r') :
    r.pending = none ∧
      ∃ S, action r.snapshot = .ok S ∧ r' = { snapshot := S, pending := none } := by
  unfold edit at h
  split at h
  · cases h
  · next hp =>
    simp only [bind_ok_iff, pure_ok_iff] at h
    obtain ⟨S, hS, rfl⟩ := h
    refine ⟨?_, S, hS, rfl⟩
    rw [Bool.not_eq_true, Option.isSome_eq_false_iff, Option.isNone_iff_eq_none] at hp
    exact hp

omit [DecidableEq B] [Compact B] in
/-- What a candidate learns when it is sent. -/
theorem deployedAt_ok {after : Snapshot B} (h : p.deployedAt a = .ok after) :
    after.notes = p.after.notes ∧
      ∀ b, after.Has b → p.after.Has b ∨ p.kind = .deploy ∧ b = a := by
  unfold Pending.deployedAt at h
  split at h
  · next hkind =>
    split at h
    · cases h
    · next f hf =>
      obtain rfl := Except.ok.inj h
      refine ⟨rfl, ?_⟩
      rintro b ⟨f', hf', hb⟩
      rcases Records.exists_of_mem_change hf' with hold | ⟨g, -, rfl⟩
      · exact .inl ⟨f', hold, hb⟩
      · exact .inr ⟨hkind, (Option.some.inj hb).symm⟩
  · obtain rfl := Except.ok.inj h
    exact ⟨rfl, fun b hb => .inl hb⟩

/-! ## When the chain moves -/

/-- No contract goes away. -/
def Stays (chain chain' : Chain B) : Prop :=
  ∀ a L, chain a = some L → ∃ L', chain' a = some L'

omit [Compact B] [DecidableEq B] in
theorem Stays.update (chain : Chain B) (a : Address) (L : Ledger B) :
    Stays chain (Function.update chain a (some L)) := by
  intro b M hM
  by_cases hb : b = a
  · subst hb
    exact ⟨L, Function.update_self ..⟩
  · exact ⟨M, by rw [Function.update_of_ne hb, hM]⟩

theorem Lands.stays {now : ℕ} {tx : Transaction B} (h : Lands now a tx chain chain') :
    Stays chain chain' := by
  cases h with
  | deploy => exact Stays.update _ _ _
  | key => exact fun b M hM => ⟨M, hM⟩
  | call => exact Stays.update _ _ _

/-- Agreement is about the secret, the facilities and the notes. -/
theorem Sound.congr (hs : Sound chain S) (hsecret : S'.issuerSecret = S.issuerSecret)
    (hfacilities : S'.facilities = S.facilities) (hnotes : S'.notes = S.notes) :
    Sound chain S' := by
  have hcores : S'.facilities.map Facility.core = S.facilities.map Facility.core := by
    rw [hfacilities]
  refine ⟨?_, ?_, ?_, ?_, ?_, ?_, ?_⟩
  · rw [hfacilities, hsecret]
    exact hs.facilities
  · rw [hnotes]
    exact hs.notes
  · rw [hnotes]
    exact fun n hn => (hs.owned n hn).imp_right (Snapshot.Owns.of_cores hcores)
  · rw [hfacilities]
    exact hs.ids
  · rw [hfacilities]
    exact hs.places
  · rw [hfacilities]
    exact hs.nonces
  · rw [hnotes]
    exact hs.keys

theorem Genuine.congr (hg : Genuine chain S) (hsecret : S'.issuerSecret = S.issuerSecret)
    (hhas : ∀ b, S.Has b → S'.Has b) : Genuine chain S' := by
  refine ⟨hg.address, hg.reached, fun b L hL hissuer => ?_⟩
  rw [hsecret] at hissuer
  exact (hg.ours b L hL hissuer).imp_left (hhas b)

/-- **Other people's calls leave the account in agreement.** -/
theorem Sound.stranger [LawfulCompact B] {c : Call B} {L L' : Ledger B} (hs : Sound chain S)
    (hg : Genuine chain S) (hL : chain a = some L) (st : Line.Step .organization c L L')
    (hc : Stranger S c) :
    Sound (Function.update chain a (some L')) S ∧
      Genuine (Function.update chain a (some L')) S := by
  obtain ⟨h, r⟩ := hg.reached a L hL
  constructor
  · refine hs.moved rfl rfl hs.keys ?_ ?_ hs.owned
    · exact facilities_kept fun f hf ha => (hs.agrees hf ha hL).stranger hf hc r st
    · intro n hn
      by_cases ha : n.contractAddress = a
      · refine .inl ⟨ha, (hs.note_agrees hn (by rw [ha, hL])).stranger ?_ hc r st⟩
        refine (hs.owned n hn).imp_right fun hown => ⟨hown, ?_⟩
        obtain ⟨f, hf, hplace, -⟩ := hown
        rw [ha] at hplace
        exact (hs.agrees hf hplace hL).issuer
      · exact .inr ⟨hn, ha⟩
  · exact hg.moved hL st rfl (fun b hb => hb) fun hissuer => .inr
      (hc.not_opens hissuer st).lineGeneration

/-- New contracts of other people do not matter. -/
theorem Sound.extends (hs : Sound chain S) {L : Ledger B} (hfree : chain a = none) :
    Sound (Function.update chain a (some L)) S := by
  have hother : ∀ b M, chain b = some M → Function.update chain a (some L) b = some M := by
    intro b M hM
    have hne : b ≠ a := by
      rintro rfl
      rw [hfree] at hM
      cases hM
    rw [Function.update_of_ne hne, hM]
  refine ⟨fun f hf => ?_, fun n hn => ?_, hs.owned, hs.ids, hs.places, hs.nonces, hs.keys⟩
  · obtain ⟨b, M, hb, hM, hagrees⟩ := hs.facilities f hf
    exact ⟨b, M, hb, hother b M hM, hagrees⟩
  · obtain ⟨M, hM, hagrees⟩ := hs.notes n hn
    exact ⟨M, hother _ M hM, hagrees⟩

/-! ## What holds throughout -/

/-- The candidate of an operation that was not applied. -/
structure Waiting (chain : Chain B) (S : Snapshot B) (p : Pending B (Transaction B)) : Prop where
  has : ∀ b, p.after.Has b →
    S.Has b ∨ p.kind = .deploy ∧ p.contractAddress = some b ∧ chain b = none
  notes : ∀ n ∈ p.after.notes, ∃ L, chain n.contractAddress = some L
  promises : ∀ tx a, p.transaction = some tx → p.contractAddress = some a →
    Promises S p.after tx a
  unsent : truthy p.txId = false → p.transaction = none

/-- The candidate of an operation that was applied. -/
structure Applied (chain : Chain B) (S : Snapshot B) (p : Pending B (Transaction B)) : Prop where
  sound : Sound chain p.after
  genuine : Genuine chain p.after
  secret : p.after.issuerSecret = S.issuerSecret
  has : ∀ b, S.Has b → p.after.Has b
  notes : ∀ n ∈ S.notes, ∃ L, chain n.contractAddress = some L
  sent : truthy p.txId = true

/-- What holds of every world that is reached. -/
structure Good (w : World B) : Prop where
  saved : w.applied = false →
    Sound w.chain w.record.snapshot ∧ Genuine w.chain w.record.snapshot
  waiting : w.applied = false → ∀ p, w.record.pending = some p →
    Waiting w.chain w.record.snapshot p
  candidate : w.applied = true →
    ∃ p, w.record.pending = some p ∧ Applied w.chain w.record.snapshot p
  /-- Until something is sent, the plan is the one that was saved, if any was. -/
  planned : ∀ plan, w.running = some plan →
    (∀ p, w.record.pending = some p → truthy p.txId = false) →
    Planned w.chain w.record.snapshot plan ∧
      ∀ p, w.record.pending = some p → ∃ id sourceFingerprint, p = plan.pending id sourceFingerprint

theorem Waiting.mono (h : Waiting chain S p) (hstays : Stays chain chain')
    (hfree : ∀ b, chain b = none → p.contractAddress = some b → chain' b = none) :
    Waiting chain' S p := by
  refine ⟨fun b hb => ?_, fun n hn => ?_, h.promises, h.unsent⟩
  · refine (h.has b hb).imp_right ?_
    rintro ⟨hkind, haddress, hnone⟩
    exact ⟨hkind, haddress, hfree b hnone haddress⟩
  · obtain ⟨L, hL⟩ := h.notes n hn
    exact hstays _ L hL

theorem Planned.mono {plan : Plan B} (h : Planned chain S plan) (hstays : Stays chain chain') :
    Planned chain' S plan := by
  refine ⟨h.has, fun n hn => ?_, h.keeps⟩
  obtain ⟨L, hL⟩ := h.notes n hn
  exact hstays _ L hL

/-- Nothing is under way. -/
theorem Good.idle (hs : Sound w.chain w.record.snapshot) (hg : Genuine w.chain w.record.snapshot)
    (hpending : w.record.pending = none) (hrunning : w.running = none)
    (happlied : w.applied = false) : Good w := by
  refine ⟨fun _ => ⟨hs, hg⟩, ?_, ?_, ?_⟩
  · intro _ p hp
    rw [hpending] at hp
    cases hp
  · intro h
    rw [happlied] at h
    cases h
  · intro plan hplan
    rw [hrunning] at hplan
    cases hplan

theorem World.Starts.good (h : w.Starts) : Good w := by
  refine Good.idle ⟨?_, ?_, ?_, ?_, ?_, ?_, ?_⟩ h.genuine h.pending h.running h.applied
  · rw [h.facilities]
    exact fun f hf => absurd hf List.not_mem_nil
  · rw [h.notes]
    exact fun n hn => absurd hn List.not_mem_nil
  · rw [h.notes]
    exact fun n hn => absurd hn List.not_mem_nil
  all_goals
    first
    | rw [h.facilities]
    | rw [h.notes]
    exact List.nodup_nil

/-- An operation that nothing is under way of was not applied. -/
theorem Good.applied_false (h : Good w) (hpending : w.record.pending = none) :
    w.applied = false := by
  rw [← Bool.not_eq_true]
  intro ha
  obtain ⟨p, hp, -⟩ := h.candidate ha
  rw [hpending] at hp
  cases hp

theorem Good.request [LawfulCompact B] {env : Env B} {request : Request B} {plan : Plan B}
    (h : Good w) (hpending : w.record.pending = none) (hchain : env.chain = w.chain)
    (hfresh : request.Fresh w.record.snapshot)
    (hplan : request.plan env w.record.snapshot = .ok (some plan)) :
    Good { w with running := some plan } := by
  refine ⟨h.saved, h.waiting, h.candidate, fun plan' hplan' _ => ⟨?_, fun p hp => ?_⟩⟩
  · obtain rfl := Option.some.inj hplan'
    have hs := (h.saved (h.applied_false hpending)).1
    rw [← hchain] at hs
    have hplanned := Client.planned hs hfresh hplan
    rw [hchain] at hplanned
    exact hplanned
  · replace hp : w.record.pending = some p := hp
    rw [hpending] at hp
    cases hp

theorem Good.prepare {plan : Plan B} {id fingerprint : String} (h : Good w)
    (hrunning : w.running = some plan)
    (hr : Client.prepare (plan.pending id fingerprint) w.record = .ok r) :
    Good { w with record := r } := by
  obtain ⟨hpending, rfl⟩ := prepare_ok_iff.mp hr
  have hfalse := h.applied_false hpending
  obtain ⟨hplanned, -⟩ := h.planned plan hrunning fun p hp => by
    rw [hpending] at hp
    cases hp
  refine ⟨h.saved, fun _ p hp => ?_, fun ha => ?_, fun plan' hplan' _ => ⟨?_, fun p hp => ?_⟩⟩
  · obtain rfl := Option.some.inj hp
    refine ⟨fun b hb => .inl (hplanned.has b hb), hplanned.notes, fun tx a htx _ => ?_,
      fun _ => rfl⟩
    cases htx
  · replace ha : w.applied = true := ha
    rw [hfalse] at ha
    cases ha
  · obtain rfl := Option.some.inj (hrunning.symm.trans hplan')
    exact hplanned
  · obtain rfl := Option.some.inj (hrunning.symm.trans hplan')
    exact ⟨id, fingerprint, (Option.some.inj hp).symm⟩

theorem Good.submit {plan : Plan B} {tx : Transaction B} {txId : String} (h : Good w)
    (hrunning : w.running = some plan) (hsigns : plan.intent.Signs tx) (hid : txId ≠ "")
    (hfree : plan.kind = .deploy → w.chain a = none)
    (hr : submitted txId tx a w.record = .ok r) : Good { w with record := r } := by
  obtain ⟨p, after, hp, hunsent, hhex, haddress, hafter, rfl⟩ := submitted_ok hr
  -- what is applied was sent before, and this one was not
  have hfalse : w.applied = false := by
    rw [← Bool.not_eq_true]
    intro ha
    obtain ⟨q, hq, happlied⟩ := h.candidate ha
    obtain rfl := Option.some.inj (hp.symm.trans hq)
    rw [happlied.sent] at hunsent
    cases hunsent
  -- the operation that waits is the plan that is running
  obtain ⟨hplanned, heq⟩ := h.planned plan hrunning fun q hq => by
    obtain rfl := Option.some.inj (hp.symm.trans hq)
    exact hunsent
  obtain ⟨id, fingerprint, rfl⟩ := heq p hp
  have hsent : truthy (some txId) = true := by
    rw [truthy, Option.any_some, Bool.not_eq_true', String.isEmpty_eq_false_iff]
    exact hid
  obtain ⟨hnotes, hhas⟩ := deployedAt_ok hafter
  -- the promise of the plan becomes that of the transaction
  refine ⟨h.saved, fun _ q hq => ?_, fun ha => ?_, fun plan' _ hq => ?_⟩
  · obtain rfl := Option.some.inj hq
    refine ⟨fun b hb => ?_, ?_, fun tx' a' htx ha => ?_, fun hnot => ?_⟩
    · rcases hhas b hb with hb | ⟨hkind, rfl⟩
      · exact .inl (hplanned.has b hb)
      · exact .inr ⟨hkind, rfl, hfree hkind⟩
    · show ∀ n ∈ after.notes, _
      rw [hnotes]
      exact hplanned.notes
    · obtain rfl := Option.some.inj htx
      obtain rfl := Option.some.inj ha
      exact hplanned.keeps id fingerprint _ _ after hsigns hhex haddress hafter
    · rw [hsent] at hnot
      cases hnot
  · replace ha : w.applied = true := ha
    rw [hfalse] at ha
    cases ha
  · have hnot := hq _ rfl
    rw [hsent] at hnot
    cases hnot

/-- **The transaction is applied**, and the candidate agrees. -/
theorem Good.land {tx : Transaction B} {now : ℕ} {operations : Address → Operations} (h : Good w)
    (hp : w.record.pending = some p) (htx : p.transaction = some tx)
    (ha : p.contractAddress = some a) (hfalse : w.applied = false)
    (hlands : Lands now a tx w.chain chain) :
    Good { w with chain, operations, applied := true } := by
  have hwaiting := h.waiting hfalse p hp
  have hpromises := hwaiting.promises tx a htx ha
  obtain ⟨hs, hg⟩ := h.saved hfalse
  obtain ⟨hs', hg'⟩ := hpromises.lands _ _ now hs hg hlands
  have hsent : truthy p.txId = true := by
    rw [← Bool.not_eq_false]
    intro hunsent
    rw [hwaiting.unsent hunsent] at htx
    cases htx
  refine ⟨fun hf => ?_, fun hf => ?_, fun _ => ⟨p, hp, hs', hg', hpromises.secret, hpromises.has,
    fun n hn => ?_, hsent⟩, fun plan _ hq => ?_⟩
  · cases hf
  · cases hf
  · obtain ⟨L, hL⟩ := hs.notes_there n hn
    exact hlands.stays _ L hL
  · have hnot := hq p hp
    rw [hsent] at hnot
    cases hnot

theorem Good.complete {receipt : Receipt} (h : Good w) (ha : w.applied = true)
    (hr : Client.complete receipt w.record = .ok r) :
    Good { w with record := r, running := none, applied := false } := by
  obtain ⟨p, hp, rfl⟩ := complete_ok hr
  obtain ⟨q, hq, happlied⟩ := h.candidate ha
  obtain rfl := Option.some.inj (hp.symm.trans hq)
  exact .idle (happlied.sound.congr rfl rfl rfl) (happlied.genuine.congr rfl fun b hb => hb) rfl rfl
    rfl

theorem Good.reject {receipt : Receipt} (h : Good w) (hfalse : w.applied = false)
    (hr : rejectFinalized receipt w.record = .ok r) :
    Good { w with record := r, running := none } := by
  obtain ⟨hpending, hsecret, hfacilities, hnotes⟩ := rejectFinalized_ok hr
  obtain ⟨hs, hg⟩ := h.saved hfalse
  refine .idle (hs.congr hsecret hfacilities hnotes) (hg.congr hsecret fun b hb => ?_) hpending rfl
    hfalse
  rw [Snapshot.Has, hfacilities]
  exact hb

theorem Good.discard (h : Good w) (hr : discardUnsubmitted w.record = .ok r) :
    Good { w with record := r, running := none } := by
  obtain ⟨hunsent, rfl⟩ := discardUnsubmitted_ok hr
  have hfalse : w.applied = false := by
    rw [← Bool.not_eq_true]
    intro ha
    obtain ⟨q, hq, happlied⟩ := h.candidate ha
    have hnot := hunsent q hq
    rw [happlied.sent] at hnot
    cases hnot
  obtain ⟨hs, hg⟩ := h.saved hfalse
  exact .idle hs hg rfl rfl hfalse

theorem Good.stop (h : Good w) : Good { w with running := none } :=
  ⟨h.saved, h.waiting, h.candidate, fun plan hplan => by cases hplan⟩

theorem Good.edit {action : Snapshot B → Result (Snapshot B)} (h : Good w)
    (hrunning : w.running = none) (haction : EditsNotes action fun notes => notes)
    (hr : Client.edit action w.record = .ok r) : Good { w with record := r } := by
  obtain ⟨hpending, S, hS, rfl⟩ := edit_ok hr
  have hfalse := h.applied_false hpending
  obtain ⟨hs, hg⟩ := h.saved hfalse
  obtain ⟨hsecret, hfacilities, hnotes⟩ := haction _ _ hS
  refine .idle (hs.congr hsecret hfacilities hnotes) (hg.congr hsecret fun b hb => ?_) rfl hrunning
    hfalse
  show S.Has b
  rw [Snapshot.Has, hfacilities]
  exact hb

/-- A delivered order marks its claim, which was redeemed. -/
theorem Good.deliver [LawfulCompact B] {action : Snapshot B → Result (Snapshot B)} {n : Note B}
    {L : Ledger B} {m : NoteMeta B} (h : Good w) (hrunning : w.running = none)
    (hn : n ∈ w.record.snapshot.notes) (hL : w.chain n.contractAddress = some L)
    (hm : L.notes.lookup n.noteCommitment = some m) (hredeemed : m.redeemed = true)
    (haction : EditsNotes action (Records.change Note.noteCommitment
      (fun n => { n with redeemed := true }) n.noteCommitment))
    (hr : Client.edit action w.record = .ok r) : Good { w with record := r } := by
  obtain ⟨hpending, S, hS, rfl⟩ := edit_ok hr
  have hfalse := h.applied_false hpending
  obtain ⟨hs, hg⟩ := h.saved hfalse
  obtain ⟨hsecret, hfacilities, hnotes⟩ := haction _ _ hS
  obtain ⟨n₀, hfind⟩ : ∃ n₀, Records.find Note.noteCommitment w.record.snapshot.notes
      n.noteCommitment = some n₀ := by
    rw [← Option.isSome_iff_exists, ← Option.not_isNone, Bool.not_eq_true',
      ← Bool.not_eq_true, Option.isNone_iff_eq_none, Records.find_eq_none_iff, not_not]
    exact List.mem_map_of_mem hn
  refine .idle (hs.marked hg hL hm hredeemed hfind hsecret hfacilities hnotes)
    (hg.congr hsecret fun b hb => ?_) rfl hrunning hfalse
  show S.Has b
  rw [Snapshot.Has, hfacilities]
  exact hb

omit [DecidableEq B] [Compact B] in
theorem Record.snapshot_mem (r : Record B (Transaction B)) : r.snapshot ∈ r.snapshots :=
  List.mem_cons_self

omit [DecidableEq B] [Compact B] in
theorem Record.candidate_mem (hp : r.pending = some p) : p.after ∈ r.snapshots := by
  rw [Record.snapshots, hp]
  exact List.mem_cons_of_mem _ List.mem_cons_self

theorem Good.stranger [LawfulCompact B] {c : Call B} {L L' : Ledger B} (h : Good w)
    (hL : w.chain a = some L) (hcall : Calls .organization c L L')
    (hc : ∀ S ∈ w.record.snapshots, Stranger S c) :
    Good { w with chain := Function.update w.chain a (some L') } := by
  have st := calls_iff.mp hcall
  have hstays := Stays.update w.chain a L'
  have hfree : ∀ b, w.chain b = none → Function.update w.chain a (some L') b = none := by
    intro b hb
    have hne : b ≠ a := by
      rintro rfl
      rw [hL] at hb
      cases hb
    rw [Function.update_of_ne hne, hb]
  refine ⟨fun hf => ?_, fun hf p hp => ?_, fun ha => ?_, fun plan hplan hq => ?_⟩
  · obtain ⟨hs, hg⟩ := h.saved hf
    exact hs.stranger hg hL st (hc _ (Record.snapshot_mem _))
  · exact (h.waiting hf p hp).mono hstays fun b hb _ => hfree b hb
  · obtain ⟨p, hp, happlied⟩ := h.candidate ha
    obtain ⟨hs, hg⟩ := happlied.sound.stranger happlied.genuine hL st
      (hc _ (Record.candidate_mem hp))
    refine ⟨p, hp, hs, hg, happlied.secret, happlied.has, fun n hn => ?_, happlied.sent⟩
    obtain ⟨M, hM⟩ := happlied.notes n hn
    exact hstays _ M hM
  · exact (h.planned plan hplan hq).imp_left fun hplanned => hplanned.mono hstays

theorem Good.deploy {d : Deployment B} {operations : Address → Operations} (h : Good w)
    (hfree : w.chain a = none) (hhex : isHex64 a = true)
    (hother : ∀ p, w.record.pending = some p → p.contractAddress ≠ some a) :
    Good { w with
      chain := Function.update w.chain a (some (constructor .organization d)), operations } := by
  have hstays := Stays.update w.chain a (constructor .organization d)
  refine ⟨fun hf => ?_, fun hf p hp => ?_, fun ha => ?_, fun plan hplan hq => ?_⟩
  · obtain ⟨hs, hg⟩ := h.saved hf
    exact ⟨hs.extends hfree, hg.deployed hhex rfl fun b hb => hb⟩
  · refine (h.waiting hf p hp).mono hstays fun b hb haddress => ?_
    have hne : b ≠ a := by
      rintro rfl
      exact hother p hp haddress
    show Function.update w.chain a _ b = none
    rw [Function.update_of_ne hne, hb]
  · obtain ⟨p, hp, happlied⟩ := h.candidate ha
    refine ⟨p, hp, happlied.sound.extends hfree, happlied.genuine.deployed hhex rfl fun b hb => hb,
      happlied.secret, happlied.has, fun n hn => ?_, happlied.sent⟩
    obtain ⟨M, hM⟩ := happlied.notes n hn
    exact hstays _ M hM
  · exact (h.planned plan hplan hq).imp_left fun hplanned => hplanned.mono hstays

/-- **Every step keeps what holds.** -/
theorem Good.step [LawfulCompact B] (h : Good w) (hstep : w.Step w') : Good w' := by
  cases hstep with
  | request _ hpending hfresh hplan => exact h.request hpending rfl hfresh hplan
  | prepare hrunning hr => exact h.prepare hrunning hr
  | submit hrunning hsigns hid hfree hr => exact h.submit hrunning hsigns hid hfree hr
  | stop => exact h.stop
  | discard hr => exact h.discard hr
  | land hp htx ha hfalse hlands => exact h.land hp htx ha hfalse hlands
  | complete ha hr => exact h.complete ha hr
  | reject hfalse hr => exact h.reject hfalse hr
  | edit hrunning haction hr => exact h.edit hrunning haction hr
  | deliver hrunning hn hL hm hredeemed haction hr =>
    exact h.deliver hrunning hn hL hm hredeemed haction hr
  | stranger hL hcall hc => exact h.stranger hL hcall hc
  | deploy hfree hhex hother => exact h.deploy hfree hhex hother
  | maintain => exact ⟨h.saved, h.waiting, h.candidate, h.planned⟩

theorem World.Reachable.good [LawfulCompact B] (h : w.Reachable) : Good w := by
  induction h with
  | start h => exact h.good
  | next _ hstep ih => exact ih.step hstep

end Line.Client
