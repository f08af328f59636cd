import Line.Client.World

/-!
# The latest backup

A backup is checked against the chain before it replaces anything: the saved operation has to be of
the release that is loaded, and each contract that is named has to carry that release's keys, the
account's issuer key, its book and its claims.

What `Good` says of the book and the claims holds of every world that is reached. `Maintained` says
that only keys of the release are registered where the account has the maintenance key. So the
latest backup is accepted exactly if the other contracts that it names, those of the claims it
holds, are of the release as well (`restorable_always`): their owners may replace the keys.
-/

namespace Line.Client

open Checked JsonText
open Organization (isHex64 require_ok_iff)

section Worlds

variable {B : Type} [DecidableEq B] [Compact B] {w w' : World B} {chain chain' : Chain B}
  {S S' : Snapshot B} {a : Address} {r r' : Record B (Transaction B)}
  {p : Pending B (Transaction B)} {release : Release} {operations : Address → Operations}

/-! ## The account's own contracts -/

/-- The saved operation is of the release, and so is what is registered at the account's own
contracts. -/
structure Maintained (w : World B) : Prop where
  release : ∀ p, w.record.pending = some p → p.sourceFingerprint = w.release.sourceFingerprint
  published : ∀ S ∈ w.record.snapshots, ∀ b, S.Has b → ∀ L, w.chain b = some L →
    Published w.release (w.operations b)

omit [DecidableEq B] [Compact B] in
/-- A record whose snapshots have nothing new, or only what is not on the chain. -/
theorem Maintained.record (h : Maintained w) {running : Option (Plan B)} {applied : Bool}
    (hrelease : ∀ p, r.pending = some p → p.sourceFingerprint = w.release.sourceFingerprint)
    (hhas : ∀ S ∈ r.snapshots, ∀ b, S.Has b →
      w.chain b = none ∨ ∃ S' ∈ w.record.snapshots, S'.Has b) :
    Maintained { w with record := r, running, applied } := by
  refine ⟨hrelease, fun S hS b hb L hL => ?_⟩
  rcases hhas S hS b hb with hnone | ⟨S', hS', hb'⟩
  · exact absurd (hnone.symm.trans hL) (by nofun)
  · exact h.published S' hS' b hb' L hL

omit [DecidableEq B] [Compact B] in
theorem Record.snapshots_of_none (hp : r.pending = none) : r.snapshots = [r.snapshot] := by
  rw [Record.snapshots, hp]
  rfl

omit [DecidableEq B] [Compact B] in
/-- A record with nothing under way, and the facilities of a snapshot that was there. -/
theorem Maintained.settled (h : Maintained w) {running : Option (Plan B)} {applied : Bool}
    (hp : r.pending = none) (hS : S ∈ w.record.snapshots)
    (hfacilities : r.snapshot.facilities = S.facilities) :
    Maintained { w with record := r, running, applied } := by
  refine h.record (fun p hq => ?_) fun S' hS' b hb => .inr ⟨S, hS, ?_⟩
  · rw [hp] at hq
    cases hq
  · rw [Record.snapshots_of_none hp, List.mem_singleton] at hS'
    subst hS'
    rw [Snapshot.Has, hfacilities] at hb
    exact hb

/-- What the account names, but for a contract that it is to deploy, is there. -/
theorem Good.there (h : Good w) (hS : S ∈ w.record.snapshots) (hb : S.Has a)
    (hother : ∀ p, w.record.pending = some p → p.contractAddress ≠ some a) :
    w.chain a ≠ none := by
  -- a facility in agreement has its contract
  have hsound : ∀ S', Sound w.chain S' → S'.Has a → w.chain a ≠ none := by
    rintro S' hs ⟨f, hf, hplace⟩ hnone
    obtain ⟨b, L, hb, hL, -⟩ := hs.facilities f hf
    obtain rfl := Option.some.inj (hplace.symm.trans hb)
    cases hnone.symm.trans hL
  -- a record holds the snapshot, and the candidate of an operation under way
  have hcases : S = w.record.snapshot ∨ ∃ p, w.record.pending = some p ∧ S = p.after := by
    rcases List.mem_cons.mp hS with hS | hS
    · exact .inl hS
    · rw [Option.mem_toList, Option.map_eq_some_iff] at hS
      obtain ⟨p, hp, rfl⟩ := hS
      exact .inr ⟨p, hp, rfl⟩
  cases happlied : w.applied with
  -- before the transaction is applied the candidate names what the snapshot does, or a contract
  -- to deploy
  | false =>
    have hs := (h.saved happlied).1
    rcases hcases with rfl | ⟨p, hp, rfl⟩
    · exact hsound _ hs hb
    · rcases (h.waiting happlied p hp).has a hb with hb | ⟨-, haddress, -⟩
      · exact hsound _ hs hb
      · exact absurd haddress (hother p hp)
  -- after it the candidate is the one in agreement
  | true =>
    obtain ⟨p, hp, hafter⟩ := h.candidate happlied
    rcases hcases with rfl | ⟨q, hq, rfl⟩
    · exact hsound _ hafter.sound (hafter.has a hb)
    · obtain rfl := Option.some.inj (hp.symm.trans hq)
      exact hsound _ hafter.sound hb

/-- A transaction of the account registers what the release has. -/
theorem Maintained.land {tx : Transaction B} {now : ℕ} (h : Maintained w)
    (hlands : Lands now a tx w.chain chain) :
    Maintained { w with
      chain, operations := tx.registers w.release a w.operations, applied := true } := by
  refine ⟨h.release, fun S hS b hb L hL => ?_⟩
  have hold := h.published S hS b hb
  cases hlands with
  -- a deployment starts with the first key
  | deploy hfree =>
    by_cases hab : b = a
    · subst hab
      show Published _ (Function.update w.operations b _ b)
      rw [Function.update_self]
      exact published_initial
    · replace hL : Function.update w.chain a _ b = some L := hL
      rw [Function.update_of_ne hab] at hL
      show Published _ (Function.update w.operations a _ b)
      rw [Function.update_of_ne hab]
      exact hold L hL
  -- a maintenance update adds the next one
  | key =>
    by_cases hab : b = a
    · subst hab
      show Published _ (Function.update w.operations b _ b)
      rw [Function.update_self]
      exact (hold L hL).registerKey _
    · show Published _ (Function.update w.operations a _ b)
      rw [Function.update_of_ne hab]
      exact hold L hL
  -- and a call registers nothing
  | call hfound =>
    by_cases hab : b = a
    · subst hab
      exact hold _ hfound
    · replace hL : Function.update w.chain a _ b = some L := hL
      rw [Function.update_of_ne hab] at hL
      exact hold L hL

/-- **Every step keeps the account's contracts in the release.** -/
theorem Maintained.step [LawfulCompact B] (h : Maintained w) (hgood : Good w)
    (hstep : w.Step w') : Maintained w' := by
  cases hstep with
  | request => exact ⟨h.release, h.published⟩
  | stop => exact ⟨h.release, h.published⟩
  | prepare hrunning hr =>
    obtain ⟨hpending, rfl⟩ := prepare_ok_iff.mp hr
    obtain ⟨hplanned, -⟩ := hgood.planned _ hrunning fun p hp => by
      rw [hpending] at hp
      cases hp
    refine h.record (fun p hp => ?_) fun S hS b hb => .inr ⟨_, Record.snapshot_mem _, ?_⟩
    · obtain rfl := Option.some.inj hp
      rfl
    · rcases List.mem_cons.mp hS with rfl | hS
      · exact hb
      · obtain rfl := List.mem_singleton.mp hS
        exact hplanned.has b hb
  | submit hrunning hsigns hid hfree hr =>
    rename_i plan tx txId a r
    obtain ⟨p, after, hp, hunsent, hhex, haddress, hafter, rfl⟩ := submitted_ok hr
    obtain ⟨-, heq⟩ := hgood.planned _ hrunning fun q hq => by
      obtain rfl := Option.some.inj (hp.symm.trans hq)
      exact hunsent
    obtain ⟨id, fingerprint, rfl⟩ := heq p hp
    refine h.record (fun q hq => ?_) fun S hS b hb => ?_
    · obtain rfl := Option.some.inj hq
      have hfingerprint := h.release _ hp
      exact hfingerprint
    · rcases List.mem_cons.mp hS with rfl | hS
      · exact .inr ⟨_, Record.snapshot_mem _, hb⟩
      · obtain rfl := List.mem_singleton.mp hS
        -- the address of a deployment is free, the others were in the candidate before
        rcases (deployedAt_ok hafter).2 b hb with hb | ⟨hkind, rfl⟩
        · exact .inr ⟨_, Record.candidate_mem hp, hb⟩
        · exact .inl (hfree hkind)
  | discard hr =>
    obtain ⟨-, rfl⟩ := discardUnsubmitted_ok hr
    exact h.settled rfl (Record.snapshot_mem _) rfl
  | land hp htx ha hfalse hlands => exact h.land hlands
  | complete ha hr =>
    obtain ⟨p, hp, rfl⟩ := complete_ok hr
    exact h.settled rfl (Record.candidate_mem hp) rfl
  | reject hfalse hr =>
    obtain ⟨hpending, -, hfacilities, -⟩ := rejectFinalized_ok hr
    exact h.settled hpending (Record.snapshot_mem _) hfacilities
  | edit hrunning haction hr =>
    obtain ⟨hpending, S, hS, rfl⟩ := edit_ok hr
    exact h.settled rfl (Record.snapshot_mem _) (haction _ _ hS).2.1
  | deliver hrunning hn hL hm hredeemed haction hr =>
    obtain ⟨hpending, S, hS, rfl⟩ := edit_ok hr
    exact h.settled rfl (Record.snapshot_mem _) (haction _ _ hS).2.1
  | stranger hfound hcall hc =>
    rename_i a M M' c
    refine ⟨h.release, fun S hS b hb L hL => ?_⟩
    by_cases hab : b = a
    · subst hab
      exact h.published S hS b hb M hfound
    · replace hL : Function.update w.chain a _ b = some L := hL
      rw [Function.update_of_ne hab] at hL
      exact h.published S hS b hb L hL
  | deploy hfree hhex hother =>
    rename_i a d operations
    refine ⟨h.release, fun S hS b hb L hL => ?_⟩
    have hab : b ≠ a := by
      rintro rfl
      exact hgood.there hS hb hother hfree
    replace hL : Function.update w.chain a _ b = some L := hL
    rw [Function.update_of_ne hab] at hL
    show Published _ (Function.update w.operations a _ b)
    rw [Function.update_of_ne hab]
    exact h.published S hS b hb L hL
  | maintain hnot =>
    rename_i a operations
    refine ⟨h.release, fun S hS b hb L hL => ?_⟩
    have hab : b ≠ a := by
      rintro rfl
      exact hnot S hS hb
    show Published _ (Function.update w.operations a _ b)
    rw [Function.update_of_ne hab]
    exact h.published S hS b hb L hL

theorem World.Reachable.maintained [LawfulCompact B] (h : w.Reachable) : Maintained w := by
  induction h with
  | start h =>
    refine ⟨fun p hp => ?_, fun S hS b hb => ?_⟩
    · rw [h.pending] at hp
      cases hp
    · rw [Record.snapshots_of_none h.pending, List.mem_singleton] at hS
      subst hS
      rw [Snapshot.Has, h.facilities] at hb
      obtain ⟨f, hf, -⟩ := hb
      exact absurd hf List.not_mem_nil
  | next hw hstep ih => exact ih.step hw.good hstep

/-! ## Backups -/

theorem passes_iff {x : Result Unit} : passes x = true ↔ x = .ok () := by
  cases x with
  | error e => exact iff_of_false (fun h => by cases h) (fun h => by cases h)
  | ok u => exact iff_of_true rfl rfl

/-- What is asked of the operations of a contract that a backup names. -/
theorem restorable_published (hok : restorable release chain operations r = true)
    (ha : a ∈ r.addresses) {L : Ledger B} (hL : chain a = some L) :
    Published release (operations a) := by
  rw [restorable, Bool.and_eq_true] at hok
  have hat := List.all_eq_true.mp hok.2 a ha
  rw [hL] at hat
  simp only [Bool.and_eq_true] at hat
  exact requireRelease_ok_iff.mp (passes_iff.mp hat.1.1.2)

/-- A record that names no other contracts than those of a snapshot in agreement is accepted, if the
operations are of the release everywhere. -/
theorem restorable_of (hs : Sound chain S) (hg : Genuine chain S) (hmem : S ∈ r.snapshots)
    (hsecret : S.issuerSecret = r.snapshot.issuerSecret)
    (hhas : ∀ S' ∈ r.snapshots, ∀ b, S'.Has b → S.Has b ∨ chain b = none ∧
      ∃ p, r.pending = some p ∧ p.kind = .deploy ∧ p.contractAddress = some b)
    (hnotes : ∀ S' ∈ r.snapshots, ∀ n ∈ S'.notes, ∃ L, chain n.contractAddress = some L)
    (hrelease : ∀ p, r.pending = some p → p.sourceFingerprint = release.sourceFingerprint)
    (hpublished : ∀ b ∈ r.addresses, ∀ L, chain b = some L → Published release (operations b)) :
    restorable release chain operations r = true := by
  -- a contract that is there and is named by any snapshot is named by the one in agreement
  have hours : ∀ b L, chain b = some L → (∃ S' ∈ r.snapshots, S'.Has b) → S.Has b := by
    rintro b L hL ⟨S', hS', hb⟩
    refine (hhas S' hS' b hb).resolve_right ?_
    rintro ⟨hnone, -⟩
    rw [hL] at hnone
    cases hnone
  unfold restorable
  rw [Bool.and_eq_true, List.all_eq_true]
  refine ⟨?_, fun a ha => ?_⟩
  · cases hp : r.pending with
    | none => rfl
    | some p => exact decide_eq_true (hrelease p hp)
  have hnamed := ha
  rw [Record.addresses, List.mem_append, List.mem_filterMap, List.mem_map] at ha
  split
  · -- only a contract that is still to be deployed is not there
    next hnone =>
    rcases ha with ⟨f, hf, hplace⟩ | ⟨n, hn, rfl⟩
    · obtain ⟨S', hS', hf⟩ := List.mem_flatMap.mp hf
      rcases hhas S' hS' a ⟨f, hf, hplace⟩ with ⟨f', hf', hplace'⟩ | ⟨-, p, hp, hkind, haddress⟩
      · obtain ⟨b, L, hb, hL, -⟩ := hs.facilities f' hf'
        obtain rfl := Option.some.inj (hplace'.symm.trans hb)
        rw [hnone] at hL
        cases hL
      · rw [hp, Option.any_some, hkind, haddress]
        simp only [decide_true, Bool.and_self]
    · obtain ⟨S', hS', hn⟩ := List.mem_flatMap.mp hn
      obtain ⟨L, hL⟩ := hnotes S' hS' n hn
      rw [hnone] at hL
      cases hL
  · next L hL =>
    -- the checks of the facility are made for contracts of the account only
    have howned : ((r.snapshots.flatMap Snapshot.facilities).any fun f =>
        decide (f.address = some a)) = true → S.Has a := by
      intro h
      obtain ⟨f, hf, hplace⟩ := List.any_eq_true.mp h
      obtain ⟨S', hS', hf⟩ := List.mem_flatMap.mp hf
      exact hours a L hL ⟨S', hS', f, hf, of_decide_eq_true hplace⟩
    simp only [Bool.and_eq_true, Bool.or_eq_true, Bool.not_eq_true', decide_eq_true_eq,
      List.any_eq_true, List.all_eq_true]
    -- address, keys, issuer, and then the book and the claims of the snapshot
    refine ⟨⟨⟨hg.address a L hL, ?_⟩, ?_⟩, S, hmem, ?_, ?_⟩
    · rw [passes_iff, requireRelease_ok_iff]
      exact hpublished a hnamed L hL
    · rw [← Bool.not_eq_true, ← imp_iff_not_or]
      intro h
      obtain ⟨f, hf, hplace⟩ := howned h
      rw [← hsecret]
      exact (hs.agrees hf hplace hL).issuer
    · rw [← Bool.not_eq_true, ← imp_iff_not_or]
      intro h
      obtain ⟨f, hf, hplace⟩ := howned h
      obtain ⟨f', hfind⟩ : ∃ f', S.facilityAt a = some f' := by
        rw [← Option.isSome_iff_exists, ← Option.not_isNone, Bool.not_eq_true', ← Bool.not_eq_true,
          Option.isNone_iff_eq_none, Snapshot.facilityAt, Records.find_eq_none_iff, not_not]
        exact List.mem_map.mpr ⟨f, hf, hplace⟩
      obtain ⟨hf', hplace'⟩ := Records.mem_of_find hfind
      rw [hfind, Option.any_some, matchesRestoredFacility_iff]
      exact hs.agrees hf' hplace' hL
    · intro n hn
      obtain ⟨hn, hplace⟩ := List.mem_filter.mp hn
      rw [matchesRestoredNote_iff]
      exact hs.note_agrees hn (by rw [of_decide_eq_true hplace, hL])

omit [DecidableEq B] [Compact B] in
/-- Where no claims are held, only the account's own contracts are named. -/
theorem Record.owns_named (hnotes : r.snapshots.flatMap Snapshot.notes = [])
    (ha : a ∈ r.addresses) : ∃ S ∈ r.snapshots, S.Has a := by
  rw [Record.addresses, hnotes, List.map_nil, List.append_nil, List.mem_filterMap] at ha
  obtain ⟨f, hf, hplace⟩ := ha
  obtain ⟨S, hS, hf⟩ := List.mem_flatMap.mp hf
  exact ⟨S, hS, f, hf, hplace⟩

/-- The latest backup is accepted where all contracts are of the release. The snapshot agrees with
the chain until the saved operation is applied, and then its candidate does. -/
theorem World.Reachable.restorable [LawfulCompact B] (h : w.Reachable)
    (hpublished : ∀ b ∈ w.record.addresses, ∀ L, w.chain b = some L →
      Published w.release (w.operations b)) :
    restorable w.release w.chain w.operations w.record = true := by
  have hgood := h.good
  have hrelease := h.maintained.release
  have hsnapshots : ∀ S' ∈ w.record.snapshots, S' = w.record.snapshot ∨
      ∃ p, w.record.pending = some p ∧ S' = p.after := by
    intro S' hS'
    rcases List.mem_cons.mp hS' with hS' | hS'
    · exact .inl hS'
    · rw [Option.mem_toList, Option.map_eq_some_iff] at hS'
      obtain ⟨p, hp, rfl⟩ := hS'
      exact .inr ⟨p, hp, rfl⟩
  cases ha : w.applied with
  -- the snapshot is the one in agreement
  | false =>
    obtain ⟨hs, hg⟩ := hgood.saved ha
    refine restorable_of hs hg (Record.snapshot_mem _) rfl ?_ ?_ hrelease hpublished
    · intro S' hS' b hb
      rcases hsnapshots S' hS' with rfl | ⟨p, hp, rfl⟩
      · exact .inl hb
      · refine ((hgood.waiting ha p hp).has b hb).imp_right ?_
        rintro ⟨hkind, haddress, hnone⟩
        exact ⟨hnone, p, hp, hkind, haddress⟩
    · intro S' hS'
      rcases hsnapshots S' hS' with rfl | ⟨p, hp, rfl⟩
      · exact hs.notes_there
      · exact (hgood.waiting ha p hp).notes
  -- the candidate is
  | true =>
    obtain ⟨p, hp, happlied⟩ := hgood.candidate ha
    refine restorable_of happlied.sound happlied.genuine (Record.candidate_mem hp) happlied.secret
      ?_ ?_ hrelease hpublished
    · intro S' hS' b hb
      rcases hsnapshots S' hS' with rfl | ⟨q, hq, rfl⟩
      · exact .inl (happlied.has b hb)
      · obtain rfl := Option.some.inj (hp.symm.trans hq)
        exact .inl hb
    · intro S' hS'
      rcases hsnapshots S' hS' with rfl | ⟨q, hq, rfl⟩
      · exact happlied.notes
      · obtain rfl := Option.some.inj (hp.symm.trans hq)
        exact happlied.sound.notes_there

/-- **The latest backup is accepted exactly if the other contracts that it names are of the
release.** The snapshot agrees with the chain until the saved operation is applied, and then its
candidate does. -/
theorem restorable_always [LawfulCompact B] (h : w.Reachable) :
    (restorable w.release w.chain w.operations w.record = true ↔
      ∀ a ∈ w.record.addresses, (∀ S ∈ w.record.snapshots, ¬ S.Has a) → ∀ L,
        w.chain a = some L → Published w.release (w.operations a)) ∧
      (w.applied = false → Sound w.chain w.record.snapshot) ∧
      (w.applied = true → ∃ p, w.record.pending = some p ∧ Sound w.chain p.after) := by
  refine ⟨⟨fun hok a ha _ L hL => restorable_published hok ha hL, fun hothers => ?_⟩,
    fun happlied => (h.good.saved happlied).1, fun happlied => ?_⟩
  · refine h.restorable fun b hb L hL => ?_
    by_cases hown : ∃ S ∈ w.record.snapshots, S.Has b
    · obtain ⟨S, hS, hhas⟩ := hown
      exact h.maintained.published S hS b hhas L hL
    · exact hothers b hb (fun S hS hhas => hown ⟨S, hS, hhas⟩) L hL
  · obtain ⟨p, hp, hafter⟩ := h.good.candidate happlied
    exact ⟨p, hp, hafter.sound⟩

end Worlds

/-! A facility is deployed, its keys are registered one by one, and its allowance is opened; the tab
stops before the receipt arrives. -/

namespace Sample

def account : Snapshot Term where
  issuerSecret := Demo.issuer
  merchantSecret := Demo.merchant
  facilities := []
  quotes := []
  notes := []
  receipts := []
  serviceOrders := none
  failures := none

def release : Release where
  sourceFingerprint := "0123456789abcdef0123456789abcdef0123456789abcdef0123456789abcdef"
  verifierKey c := [(circuits.idxOf c).toUInt8]

def start : World Term where
  release
  chain := fun _ => none
  operations := fun _ => .empty
  record := ⟨account, none⟩
  running := none
  applied := false

def address : Address := List.replicate 64 48

def merchant : MerchantBinding Term where
  publicKey := merchantPublicKey Demo.merchant
  address := ⟨.atom 6⟩
  name := [77]
  disabled := none

def receipt (kind : Kind) (circuit txId : String) : Receipt where
  kind
  circuit
  contractAddress := address
  txId
  txHash := "1"
  blockHeight := 1
  recordedAt := ""

theorem starts : start.Starts := by
  refine ⟨rfl, rfl, rfl, rfl, rfl, ⟨?_, ?_, ?_⟩⟩ <;> intro a L hL <;> cases hL

def create : Request Term :=
  .createFacility "f" [70] (.atom 7) merchant (.atom 4) Demo.borrower (.atom 0) ""

def openLine : Request Term := .openAllowance "f" 500 100 1 100 (.atom 0)

/-- The account with its facility, after these receipts. -/
def deployed (receipts : List Receipt) : Snapshot Term :=
  { account with
    facilities := [{
      id := "f", name := [70], address := some address, instanceNonce := .atom 4
      maintenanceKey := "", assetColor := .atom 7, issuerRecipient := ⟨.atom 5⟩
      merchants := [merchant], agentSecret := Demo.borrower, salt := .atom 0
      limit := 0, outstanding := 0, epoch := 0, generation := 0 }]
    receipts }

/-- The facility is deployed, and has these keys. -/
def keyed (receipts : List Receipt) (operations : Operations) : World Term where
  release
  chain := Function.update start.chain address (some (constructor .organization Demo.deployment))
  operations := Function.update start.operations address operations
  record := ⟨deployed receipts, none⟩
  running := none
  applied := false

def keyReceipt (c : Circuit) : Receipt := receipt .key c.name c.name

variable {receipts : List Receipt} {operations : Operations} {c : Circuit}

/-- What the account's tabs see. -/
def seen (receipts : List Receipt) (operations : Operations) : Env Term where
  chain := (keyed receipts operations).chain
  operations := (keyed receipts operations).operations
  release
  now := 0
  receivingAddress := ⟨.atom 5⟩

theorem inspect_seen {all : Bool} (hops : requireRelease release operations all = .ok ()) :
    inspect (seen receipts operations) (deployed receipts) address all =
      .ok (constructor .organization Demo.deployment) := by
  have hat : (seen receipts operations).operations address = operations := by
    show Function.update start.operations address operations address = operations
    exact Function.update_self ..
  have hL : (seen receipts operations).chain address =
      some (constructor .organization Demo.deployment) := by
    show Function.update start.chain address _ address = _
    exact Function.update_self ..
  refine bind_ok_iff.mpr ⟨(), require_ok_iff.mpr (by decide), bind_ok_iff.mpr
    ⟨_, found_ok_iff.mpr hL, bind_ok_iff.mpr ⟨(), ?_, bind_ok_iff.mpr ⟨(), rfl, rfl⟩⟩⟩⟩
  rw [hat]
  exact hops

theorem register_plan (hpublished : Published release operations)
    (hnew : operations.get c.name = none) :
    (Request.registerVerifierKey "f" c).plan (seen receipts operations) (deployed receipts) =
      .ok (some ⟨.key, c.name, some "f", some address, deployed receipts, .key c⟩) := by
  have hat : (seen receipts operations).operations address = operations := by
    show Function.update start.operations address operations address = operations
    exact Function.update_self ..
  refine bind_ok_iff.mpr ⟨(_, address), rfl, bind_ok_iff.mpr
    ⟨_, inspect_seen (requireRelease_ok_iff.mpr hpublished), ?_⟩⟩
  rw [hat, hnew]
  rfl

/-- One key is registered. -/
theorem keyed_next (h : (keyed receipts operations).Reachable)
    (hpublished : Published release operations) (hnew : operations.get c.name = none) :
    (keyed (receipts ++ [keyReceipt c]) (registerKey release c operations)).Reachable := by
  have hid : c.name ≠ "" := by cases c <;> decide
  have hfresh : (Request.registerVerifierKey "f" c).Fresh (deployed receipts) := trivial
  -- the request, then saving, sending, applying and completing it
  have h₁ := h.next (.request rfl rfl hfresh (register_plan hpublished hnew))
  have h₂ := h₁.next (@World.Step.prepare Term _ _ _ _ c.name _ rfl rfl)
  have hsubmitted : submitted c.name (Transaction.key c) address
      ⟨deployed receipts, some ((Plan.pending ⟨.key, c.name, some "f", some address,
        deployed receipts, .key c⟩ c.name release.sourceFingerprint))⟩ = .ok _ := rfl
  have h₃ := h₂.next (.submit rfl .key hid (fun hkind => by cases hkind) hsubmitted)
  have h₄ := h₃.next (@World.Step.land Term _ _ _ _ _ _ 0 _ rfl rfl rfl rfl .key)
  have hcomplete : complete (keyReceipt c) ⟨deployed receipts, some
      { (Plan.pending ⟨.key, c.name, some "f", some address, deployed receipts, .key c⟩ c.name
          release.sourceFingerprint) with
        txId := some c.name, transaction := some (Transaction.key c)
        contractAddress := some address, after := deployed receipts }⟩ =
      .ok (⟨deployed (receipts ++ [keyReceipt c]), none⟩ : Record Term (Transaction Term)) := by
    cases c <;> rfl
  have h₅ := h₄.next (.complete rfl hcomplete)
  -- the operations end as those with one key more
  have hops : Transaction.registers (B := Term) release address (.key c)
      (keyed receipts operations).operations =
      Function.update start.operations address (registerKey release c operations) := by
    show Function.update (Function.update start.operations address operations) address
      (registerKey release c (Function.update start.operations address operations address)) = _
    rw [Function.update_idem, Function.update_self]
  have heq : keyed (receipts ++ [keyReceipt c]) (registerKey release c operations) =
      { keyed receipts operations with
        operations := Transaction.registers (B := Term) release address (.key c)
          (keyed receipts operations).operations
        record := ⟨deployed (receipts ++ [keyReceipt c]), none⟩ } := by
    rw [hops]
    rfl
  rw [heq]
  exact h₅

/-- All of these keys are registered, one after the other. -/
theorem keyed_all (cs : List Circuit) (h : (keyed receipts operations).Reachable)
    (hpublished : Published release operations) (hdistinct : cs.Nodup)
    (hnew : ∀ c ∈ cs, operations.get c.name = none) :
    (keyed (receipts ++ cs.map keyReceipt)
      (cs.foldl (fun operations c => registerKey release c operations) operations)).Reachable := by
  induction cs generalizing receipts operations with
  | nil =>
    rw [List.map_nil, List.append_nil]
    exact h
  | cons c cs ih =>
    obtain ⟨hc, hdistinct⟩ := List.nodup_cons.mp hdistinct
    have hnext := ih (keyed_next h hpublished (hnew c List.mem_cons_self))
      (hpublished.registerKey c) hdistinct fun c' hc' => by
        have hne : c.name ≠ c'.name := fun heq => hc (Circuit.name_inj heq ▸ hc')
        rw [registerKey, OrderedMap.get_set_ne hne]
        exact hnew c' (List.mem_cons_of_mem _ hc')
    rwa [List.append_assoc] at hnext

def allKeys : Operations :=
  circuits.foldl (fun operations c => registerKey release c operations) .empty

def registered : List Receipt :=
  receipt .deploy "deploy" "1" :: circuits.tail.map keyReceipt

theorem requireRelease_allKeys : requireRelease release allKeys true = .ok () := rfl

/-- The facility is deployed with all its keys. -/
theorem keyed_reachable : (keyed registered allKeys).Reachable := by
  have hcreate : create.plan ⟨start.chain, start.operations, release, 0, ⟨.atom 5⟩⟩ account =
      .ok (some _) := rfl
  have hfresh : create.Fresh account := ⟨List.not_mem_nil, List.not_mem_nil⟩
  have h₁ := World.Reachable.next (.start starts) (.request rfl rfl hfresh hcreate)
  have h₂ := h₁.next (@World.Step.prepare Term _ _ _ _ "1" _ rfl rfl)
  have h₃ := h₂.next (@World.Step.submit Term _ _ _ _ (.deploy Demo.deployment) "1" address _
    rfl .deploy (by decide) (fun _ => rfl) rfl)
  have h₄ := h₃.next (@World.Step.land Term _ _ _ _ _ _ 0 _ rfl rfl rfl rfl (.deploy rfl))
  have h₅ := h₄.next (@World.Step.complete Term _ _ _ (receipt .deploy "deploy" "1") _ rfl rfl)
  have hdeployed :
      (keyed [receipt .deploy "deploy" "1"] (initialOperations release)).Reachable := h₅
  exact keyed_all circuits.tail hdeployed published_initial (by decide) (by decide)

theorem proves : Input.Proves { callerSecret := some Demo.issuer, agentSecret := some Demo.borrower
                                salt := some (.atom 0), lineLimit := some 500 }
    Demo.openLine.witness := by
  constructor <;> intro b hb k <;> cases hb <;> rfl

/-- The allowance was opened, and the receipt is still to arrive. -/
theorem opened : ∃ (w : World Term) (p : Pending Term (Transaction Term)), w.Reachable ∧
    w.applied = true ∧ w.record.snapshot.facilities.map Facility.generation = [0] ∧
    w.record.pending = some p ∧
    p.after.facilities.map (fun f => (f.address, f.generation, f.limit)) =
      [(some address, 1, 500)] ∧ w.record.snapshots.flatMap Snapshot.notes = [] ∧
    ∃ r, complete (receipt .call "openLine" "2") w.record = .ok r := by
  have hopen : openLine.plan (seen registered allKeys) (deployed registered) = .ok (some _) := rfl
  have hnothing : openLine.Fresh (deployed registered) := trivial
  have h₁ := keyed_reachable.next (.request rfl rfl hnothing hopen)
  have h₂ := h₁.next (@World.Step.prepare Term _ _ _ _ "2" _ rfl rfl)
  have h₃ := h₂.next (@World.Step.submit Term _ _ _ _
    (.call Demo.openLine.op Demo.openLine.witness) "2" address _ rfl (.call proves)
    (by decide) (fun h => by cases h) rfl)
  have h₄ := h₃.next (@World.Step.land Term _ _ _ _ _ _ 0 _ rfl rfl rfl rfl (.call rfl rfl))
  exact ⟨_, _, h₄, rfl, rfl, rfl, rfl, rfl, _, rfl⟩

end Sample

theorem restorable_always_sample : ∃ w : World Term, w.Reachable ∧ w.applied = true ∧
    w.record.snapshot.facilities.map Facility.generation = [0] ∧
    (w.record.pending.map fun p => p.after.facilities.map Facility.generation) = some [1] ∧
    w.record.pending.map Pending.sourceFingerprint = some w.release.sourceFingerprint ∧
    restorable w.release w.chain w.operations w.record = true := by
  obtain ⟨w, p, hw, happlied, hsaved, hp, hfacilities, hnotes, -⟩ := Sample.opened
  refine ⟨w, hw, happlied, hsaved, ?_, ?_, (restorable_always hw).1.mpr fun a ha hnot => ?_⟩
  · have hgenerations := congrArg (List.map fun f => f.2.1) hfacilities
    rw [List.map_map] at hgenerations
    rw [hp]
    exact congrArg some hgenerations
  · rw [hp]
    exact congrArg some (hw.maintained.release p hp)
  · obtain ⟨S, hS, hhas⟩ := Record.owns_named hnotes ha
    exact absurd hhas (hnot S hS)

end Line.Client
