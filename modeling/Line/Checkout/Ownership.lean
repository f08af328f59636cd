import Line.Checkout.Directory
import Mathlib.Logic.Relation

/-!
# One owner of the directory

What a store may rely on is `Phase.Fits`: who holds the lease finds it in place, who made the
recovery directory finds that, and who is about to remove a lease finds the lease of a dead
process. `next_fits` says that a store's own step keeps this, and what the step does to the
lock as the others see it; `Sound` is the same for all stores at once, and every action
keeps it.

From it follow the lock's guarantees. Checkpoint files come after it: what is in the
directory is what was published last, a load reads it so, and who publishes is the owner.
The last needs that a store is not closed while it still saves or removes: `close` does not
wait for the calls under way, and these do not look at the lease again.
-/

namespace Line.Checkout.Directory

open History

/-- The store's lease is in the directory, written or about to be. -/
def Phase.holds : Phase → Bool
  | .writing | .rewriting | .leaving true | .owning | .releasing | .unlinking => true
  | _ => false

/-- The store made the recovery directory. -/
def Phase.guards : Phase → Bool
  | .checking | .reading | .probing _ | .rereading _ | .removing | .republishing | .rewriting
  | .leaving _ => true
  | _ => false

/-- What was read of a lease that is being probed. -/
def Phase.raw : Phase → Option Lease
  | .probing raw | .rereading raw => some raw
  | _ => none

section Lock

variable {crashed : List Pid} {u : Uuid} {pid : Pid} {p p' : Phase} {k k' : Lock}

/-- What the lock is like while the live store `u` stands in the phase. -/
structure Phase.Fits (crashed : List Pid) (u : Uuid) (k : Lock) (p : Phase) : Prop where
  holder : p.holds = true → ∃ l, k.lease = some l ∧ l.lease = u ∧ l.written = !p.acquires
  guard : p.guards = true → k.recovery = some u
  /-- Only a lease that is written is probed. -/
  read : ∀ raw, p.raw = some raw → raw.written = true
  probed : ∀ raw, p = .rereading raw → raw.pid ∈ crashed
  dead : p = .removing → ∃ l, k.lease = some l ∧ l.pid ∈ crashed ∧ l.written = true

/-- What the step of store `u` does to the lock, as other stores see it. -/
structure Shift (crashed : List Pid) (u : Uuid) (pid : Pid) (p' : Phase) (k k' : Lock) : Prop where
  named : ∀ l, k'.lease = some l →
    (∃ l₀, k.lease = some l₀ ∧ l₀.lease = l.lease ∧ l₀.pid = l.pid) ∨ (l.lease = u ∧ l.pid = pid)
  keep : ∀ l, k.lease = some l → l.lease ≠ u →
    k'.lease = some l ∨ (l.pid ∈ crashed ∧ l.written = true ∧ k.recovery = some u)
  /-- A lease of another store that is there was there, as it is. -/
  others : ∀ l, k'.lease = some l → l.lease ≠ u → k.lease = some l
  /-- Where its own lease is, the store holds it. -/
  mine : ∀ l, k'.lease = some l → l.lease = u → p'.holds = true
  guards : ∀ g, g ≠ u → (k'.recovery = some g ↔ k.recovery = some g)
  own : k'.recovery = some u → p'.guards = true

/-- A step that leaves the lock alone. -/
theorem Shift.same (hown : k.recovery = some u → p'.guards = true)
    (hmine : ∀ l, k.lease = some l → l.lease = u → p'.holds = true) :
    Shift crashed u pid p' k k where
  named l hl := .inl ⟨l, hl, by simp⟩
  keep l hl _ := .inl hl
  others l hl _ := hl
  mine := hmine
  guards g _ := Iff.rfl
  own := hown

/-- A step that creates the lease. -/
theorem Shift.create (hk : k.lease = none) (hown : k.recovery = some u → p'.guards = true)
    (hp : p'.holds = true) :
    Shift crashed u pid p' k { k with lease := some ⟨pid, u, false⟩ } where
  named l hl := by
    cases hl
    exact .inr ⟨rfl, rfl⟩
  keep l hl _ := by rw [hk] at hl; cases hl
  others l hl hne := by
    cases hl
    exact absurd rfl hne
  mine _ _ _ := hp
  guards g _ := Iff.rfl
  own := hown

/-- A lease that is written names the same store and process as before. -/
theorem writeLease_eq {o : Option Lease} {l : Lease} (h : writeLease u o = some l) :
    ∃ l₀, o = some l₀ ∧ l₀.lease = l.lease ∧ l₀.pid = l.pid := by
  cases o with
  | none => cases h
  | some l₀ =>
      refine ⟨l₀, rfl, ?_⟩
      simp only [writeLease] at h
      split at h
      · cases h
        exact ⟨rfl, rfl⟩
      · cases h
        exact ⟨rfl, rfl⟩

/-- A step that writes the store's lease. -/
theorem Shift.write (hown : k.recovery = some u → p'.guards = true) (hp : p'.holds = true) :
    Shift crashed u pid p' k { k with lease := writeLease u k.lease } where
  named l hl := .inl (writeLease_eq hl)
  keep l hl hne := by
    left
    show writeLease u k.lease = some l
    rw [hl, writeLease, if_neg hne]
  others l hl hne := by
    obtain ⟨l₀, hl₀, hle, -⟩ := writeLease_eq hl
    have hsame : writeLease u k.lease = some l₀ := by
      rw [hl₀, writeLease, if_neg (by rw [hle]; exact hne)]
    rw [hl₀, ← Option.some.inj (hsame.symm.trans hl)]
  mine _ _ _ := hp
  guards g _ := Iff.rfl
  own := hown

/-- A step that removes a lease, the store's own or a dead one under the recovery directory. -/
theorem Shift.remove (hown : k.recovery = some u → p'.guards = true)
    (hk : ∀ l, k.lease = some l → l.lease ≠ u →
      l.pid ∈ crashed ∧ l.written = true ∧ k.recovery = some u) :
    Shift crashed u pid p' k { k with lease := none } where
  named l hl := by cases hl
  keep l hl hne := .inr (hk l hl hne)
  others l hl _ := by cases hl
  mine l hl _ := by cases hl
  guards g _ := Iff.rfl
  own := hown

/-- A phase without lease and without recovery directory. -/
theorem Phase.Fits.outside (hh : p.holds = false) (hg : p.guards = false) :
    p.Fits crashed u k where
  holder hp := by rw [hh] at hp; cases hp
  guard hp := by rw [hg] at hp; cases hp
  read raw hp := by
    cases p with
    | probing | rereading => cases hg
    | _ => cases hp
  probed raw hp := by rw [hp] at hg; cases hg
  dead hp := by rw [hp] at hg; cases hg

/-- A phase with the recovery directory that has not found a dead lease yet, or gave up. -/
theorem Phase.Fits.watching (hr : k.recovery = some u) (hh : p.holds = false)
    (hread : ∀ raw, p.raw = some raw → raw.written = true) (hraw : ∀ raw, p ≠ .rereading raw)
    (hrm : p ≠ .removing) : p.Fits crashed u k where
  holder hp := by rw [hh] at hp; cases hp
  guard _ := hr
  read := hread
  probed raw hp := absurd hp (hraw raw)
  dead hp := absurd hp hrm

/-- A phase with the lease. -/
theorem Phase.Fits.having {l : Lease} (hl : k.lease = some l) (hu : l.lease = u)
    (hw : l.written = !p.acquires) (hp : p.holds = true)
    (hg : p.guards = true → k.recovery = some u) : p.Fits crashed u k where
  holder _ := ⟨l, hl, hu, hw⟩
  guard := hg
  read raw he := by
    cases p with
    | probing | rereading => cases hp
    | _ => cases he
  probed raw he := by rw [he] at hp; cases hp
  dead he := by rw [he] at hp; cases hp

/-- **A store's own step**: it keeps what the store relies on, and is a `Shift` for the others. -/
theorem next_fits (hf : p.Fits crashed u k) (hown : k.recovery = some u → p.guards = true)
    (hmine : ∀ l, k.lease = some l → l.lease = u → p.holds = true)
    (h : p.next crashed u pid k = some (p', k')) :
    p'.Fits crashed u k' ∧ Shift crashed u pid p' k k' := by
  have hguard := hf.guard
  -- a store that does not hold the lease finds none of its own
  have hnone : p.holds = false → ∀ l, k.lease = some l → l.lease = u → p'.holds = true := by
    intro hp l hl hu
    rw [hmine l hl hu] at hp
    cases hp
  -- outside the recovery section the recovery directory is not this store's
  have hout : p.guards = false → k.recovery = some u → p'.guards = true := by
    intro hp hr
    rw [hown hr] at hp
    cases hp
  cases p with
  | creating =>
      simp only [Phase.next] at h
      split at h
      · next hk =>
          cases h
          exact ⟨.having rfl rfl rfl rfl nofun, .create hk (hout rfl) rfl⟩
      · cases h
        exact ⟨.outside rfl rfl, .same (hout rfl) (hnone rfl)⟩
  | writing =>
      obtain ⟨l, hl, hlu, -⟩ := hf.holder rfl
      cases h
      have hw : writeLease u k.lease = some { l with written := true } := by
        rw [hl, writeLease, if_pos hlu]
      exact ⟨.having hw hlu rfl rfl nofun, .write (hout rfl) rfl⟩
  | guarding =>
      simp only [Phase.next] at h
      split at h
      · next hk =>
          cases h
          refine ⟨.watching rfl rfl nofun nofun nofun, ?_⟩
          refine ⟨fun l hl => .inl ⟨l, hl, rfl, rfl⟩, fun l hl _ => .inl hl, fun l hl _ => hl,
            hnone rfl, ?_, fun _ => rfl⟩
          intro g hg
          rw [hk]
          exact ⟨fun he => absurd (Option.some.inj he).symm hg, nofun⟩
      · cases h
        exact ⟨.outside rfl rfl, .same (hout rfl) (hnone rfl)⟩
  | checking =>
      simp only [Phase.next] at h
      split at h
      · cases h
        exact ⟨.watching (hguard rfl) rfl nofun nofun nofun, .same (fun _ => rfl) (hnone rfl)⟩
      · cases h
        exact ⟨.watching (hguard rfl) rfl nofun nofun nofun, .same (fun _ => rfl) (hnone rfl)⟩
  | reading =>
      simp only [Phase.next] at h
      split at h
      · cases h
        exact ⟨.watching (hguard rfl) rfl nofun nofun nofun, .same (fun _ => rfl) (hnone rfl)⟩
      · split at h
        · next hw =>
            -- an empty file is not probed
            cases h
            refine ⟨.watching (hguard rfl) rfl ?_ nofun nofun, .same (fun _ => rfl) (hnone rfl)⟩
            intro raw hraw
            cases hraw
            exact hw
        · cases h
          exact ⟨.watching (hguard rfl) rfl nofun nofun nofun, .same (fun _ => rfl) (hnone rfl)⟩
  | probing raw =>
      simp only [Phase.next] at h
      split at h
      · next hc =>
          cases h
          refine ⟨⟨nofun, fun _ => hguard rfl, hf.read, ?_, nofun⟩,
            .same (fun _ => rfl) (hnone rfl)⟩
          intro raw' hp
          cases hp
          exact hc
      · cases h
        exact ⟨.watching (hguard rfl) rfl nofun nofun nofun, .same (fun _ => rfl) (hnone rfl)⟩
  | rereading raw =>
      have hc := hf.probed raw rfl
      simp only [Phase.next] at h
      split at h
      · next hl =>
          -- the lease is still the one whose process was found dead
          cases h
          exact ⟨⟨nofun, fun _ => hguard rfl, nofun, nofun,
            fun _ => ⟨raw, hl, hc, hf.read raw rfl⟩⟩, .same (fun _ => rfl) (hnone rfl)⟩
      · cases h
        exact ⟨.watching (hguard rfl) rfl nofun nofun nofun, .same (fun _ => rfl) (hnone rfl)⟩
  | removing =>
      obtain ⟨l, hl, hc, hw⟩ := hf.dead rfl
      simp only [Phase.next, hl] at h
      cases h
      refine ⟨.watching (hguard rfl) rfl nofun nofun nofun, .remove (fun _ => rfl) ?_⟩
      intro l' hl' _
      rw [hl] at hl'
      cases hl'
      exact ⟨hc, hw, hguard rfl⟩
  | republishing =>
      simp only [Phase.next] at h
      split at h
      · next hk =>
          cases h
          exact ⟨.having rfl rfl rfl rfl fun _ => hguard rfl, .create hk (fun _ => rfl) rfl⟩
      · cases h
        exact ⟨.watching (hguard rfl) rfl nofun nofun nofun, .same (fun _ => rfl) (hnone rfl)⟩
  | rewriting =>
      obtain ⟨l, hl, hlu, -⟩ := hf.holder rfl
      cases h
      have hw : writeLease u k.lease = some { l with written := true } := by
        rw [hl, writeLease, if_pos hlu]
      exact ⟨.having hw hlu rfl rfl fun _ => hguard rfl, .write (fun _ => rfl) rfl⟩
  | leaving acquired =>
      simp only [Phase.next, hguard rfl] at h
      cases h
      refine ⟨?_, fun l hl => .inl ⟨l, hl, rfl, rfl⟩, fun l hl _ => .inl hl, fun l hl _ => hl,
        ?_, ?_, nofun⟩
      · cases acquired with
        | true =>
            obtain ⟨l, hl, hlu, hw⟩ := hf.holder rfl
            exact .having hl hlu hw rfl nofun
        | false => exact .outside rfl rfl
      · cases acquired with
        | true => exact fun _ _ _ => rfl
        | false => exact hnone rfl
      · intro g hg
        rw [hguard rfl]
        exact ⟨nofun, fun he => absurd (Option.some.inj he).symm hg⟩
  | releasing =>
      obtain ⟨l, hl, hlu, hw⟩ := hf.holder rfl
      have hw' : l.written = true := hw
      simp only [Phase.next, hl] at h
      rw [if_pos ⟨hw', hlu⟩] at h
      cases h
      exact ⟨.having hl hlu hw rfl nofun, .same (hout rfl) fun _ _ _ => rfl⟩
  | unlinking =>
      obtain ⟨l, hl, hlu, -⟩ := hf.holder rfl
      cases h
      refine ⟨.outside rfl rfl, .remove (hout rfl) ?_⟩
      intro l' hl' hne
      rw [hl] at hl'
      cases hl'
      exact absurd hlu hne
  | owning => cases h
  | refused => cases h
  | closed => cases h

end Lock

section Runs

variable {ι κ γ : Type} {w w' : World ι κ γ} {u v : Uuid} {s t : Store κ}

theorem live_eq_some : w.live u = some s ↔ w.stores u = some s ∧ s.pid ∉ w.crashed := by
  simp [World.live, Option.filter_eq_some_iff]

/-- Every live store's phase fits the lock, and lease and recovery directory have their stores. -/
structure Sound (w : World ι κ γ) : Prop where
  fits : ∀ u s, w.live u = some s → s.phase.Fits w.crashed u w.lock
  named : ∀ l, w.lock.lease = some l → ∃ s, w.stores l.lease = some s ∧ s.pid = l.pid
  /-- A live store whose lease is there holds it. -/
  held : ∀ l s, w.lock.lease = some l → w.live l.lease = some s → s.phase.holds = true
  guarded : ∀ g, w.lock.recovery = some g → ∃ s, w.stores g = some s ∧ s.phase.guards = true

/-- A lease of a dead process is not that of a live store. -/
theorem Sound.lease_ne (h : Sound w) {l : Lease} (hl : w.lock.lease = some l)
    (hc : l.pid ∈ w.crashed) (hu : w.live u = some s) : l.lease ≠ u := by
  intro he
  obtain ⟨t, ht, hp⟩ := h.named l hl
  obtain ⟨hs, ha⟩ := live_eq_some.mp hu
  rw [he, hs] at ht
  cases ht
  rw [hp] at ha
  exact ha hc

/-- While a lease of a dead process is there, no live store holds one. -/
theorem Sound.unheld (h : Sound w) (hl : w.lock.lease = some l) (hc : l.pid ∈ w.crashed)
    (hu : w.live u = some s) : s.phase.holds = false := by
  by_contra hh
  obtain ⟨l', hl', hlu, -⟩ := (h.fits u s hu).holder (by simpa using hh)
  rw [hl] at hl'
  cases hl'
  exact h.lease_ne hl hc hu hlu

/-- The recovery directory of a live store is there exactly in its recovery phases. -/
theorem Sound.own (h : Sound w) (hu : w.live u = some s) (hr : w.lock.recovery = some u) :
    s.phase.guards = true := by
  obtain ⟨t, ht, hg⟩ := h.guarded u hr
  rw [(live_eq_some.mp hu).1] at ht
  cases ht
  exact hg

/-- A step of a live store, as the invariant has it. -/
theorem Sound.next_fits (h : Sound w) (hu : w.live u = some s) {p' : Phase} {k' : Lock}
    (hn : s.phase.next w.crashed u s.pid w.lock = some (p', k')) :
    p'.Fits w.crashed u k' ∧ Shift w.crashed u s.pid p' w.lock k' :=
  Directory.next_fits (h.fits u s hu) (h.own hu)
    (fun l hl he => h.held l s hl (by rw [he]; exact hu)) hn

/-- **Mutual exclusion**, as far as the lock goes. -/
theorem Sound.unique (h : Sound w) (hu : w.live u = some s) (hv : w.live v = some t)
    (hs : s.phase.holds = true) (ht : t.phase.holds = true) : u = v := by
  obtain ⟨l, hl, hlu, -⟩ := (h.fits u s hu).holder hs
  obtain ⟨m, hm, hmv, -⟩ := (h.fits v t hv).holder ht
  rw [hl] at hm
  cases hm
  rw [← hlu, hmv]

/-- What another live store relies on survives a step of store `u`. -/
theorem Sound.other (h : Sound w) (hu : w.live u = some s) (hv : w.live v = some t) (hne : v ≠ u)
    {p' : Phase} {k' : Lock} (hk : Shift w.crashed u s.pid p' w.lock k') :
    t.phase.Fits w.crashed v k' := by
  have hf := h.fits v t hv
  refine ⟨fun ht => ?_, fun hg => (hk.guards v hne).mpr (hf.guard hg), hf.read, hf.probed,
    fun hd => ?_⟩
  · obtain ⟨l, hl, hlv, hw⟩ := hf.holder ht
    rcases hk.keep l hl (by rw [hlv]; exact hne) with hl' | ⟨hc, -⟩
    · exact ⟨l, hl', hlv, hw⟩
    · exact absurd hlv (h.lease_ne hl hc hv)
  · obtain ⟨l, hl, hc, hw⟩ := hf.dead hd
    rcases hk.keep l hl (h.lease_ne hl hc hu) with hl' | ⟨-, -, hr⟩
    · exact ⟨l, hl', hc, hw⟩
    · -- only one store has the recovery directory
      rw [hf.guard (by rw [hd]; rfl)] at hr
      exact absurd (Option.some.inj hr) hne

/-- The live stores after one of them moved. -/
theorem live_move {p : Phase} (hs : s.pid ∉ w.crashed) :
    (w.move u s p).live v = if v = u then some { s with phase := p } else w.live v := by
  by_cases he : v = u
  · subst he
    rw [if_pos rfl, live_eq_some]
    exact ⟨Function.update_self .., hs⟩
  · rw [if_neg he]
    simp only [World.live, World.move, Function.update_of_ne he]
    rfl

/-- **A step of one store** keeps what all of them rely on. -/
theorem Sound.move (h : Sound w) (hu : w.live u = some s) {p' : Phase} {k' : Lock}
    (hf : p'.Fits w.crashed u k') (hk : Shift w.crashed u s.pid p' w.lock k')
    (hst : w'.stores = (w.move u s p').stores) (hc : w'.crashed = w.crashed)
    (hl : w'.lock = k') : Sound w' := by
  have hsu := (live_eq_some.mp hu).2
  -- only the one store changed
  have hlive : ∀ v, w'.live v = (w.move u s p').live v := by
    intro v
    simp only [World.live, hst, hc]
    rfl
  have hstore : ∀ v, w'.stores v = if v = u then some { s with phase := p' } else w.stores v := by
    intro v
    rw [hst]
    simp only [World.move, Function.update_apply]
  refine ⟨fun v t hv => ?_, fun l hll => ?_, fun l t hll hv => ?_, fun g hg => ?_⟩
  · rw [hlive, live_move hsu] at hv
    rw [hc, hl]
    split at hv
    -- the store itself fits its new phase, and any other fits by what the shift says of the lock
    · next he =>
        cases hv
        rw [he]
        exact hf
    · next he => exact h.other hu hv he hk
  · rw [hl] at hll
    rw [hstore]
    -- the lease is the old one, or the store wrote it just now
    rcases hk.named l hll with ⟨l₀, hl₀, hle, hpid⟩ | ⟨hle, hpid⟩
    · obtain ⟨t, ht, hp⟩ := h.named l₀ hl₀
      rw [hle] at ht
      split
      · next he =>
          rw [he, (live_eq_some.mp hu).1] at ht
          cases ht
          exact ⟨_, rfl, by rw [← hpid, ← hp]⟩
      · exact ⟨t, ht, by rw [hp, hpid]⟩
    · rw [if_pos hle]
      exact ⟨_, rfl, hpid.symm⟩
  · rw [hlive, live_move hsu] at hv
    rw [hl] at hll
    split at hv
    · next he =>
        cases hv
        exact hk.mine l hll he
    · next he => exact h.held l t (hk.others l hll he) hv
  · rw [hl] at hg
    rw [hstore]
    -- and the recovery directory likewise
    by_cases he : g = u
    · rw [if_pos he]
      rw [he] at hg
      exact ⟨_, rfl, hk.own hg⟩
    · rw [if_neg he]
      exact h.guarded g ((hk.guards g he).mp hg)

/-- Actions on checkpoint files leave the lock, the stores and the processes alone. -/
theorem Sound.files (h : Sound w) (hst : w'.stores = w.stores) (hc : w'.crashed = w.crashed)
    (hl : w'.lock = w.lock) : Sound w' := by
  have hlive : ∀ v, w'.live v = w.live v := by
    intro v
    simp only [World.live, hst, hc]
  refine ⟨fun v t hv => ?_, fun l hll => ?_, fun l t hll hv => ?_, fun g hg => ?_⟩
  · rw [hlive] at hv
    rw [hc, hl]
    exact h.fits v t hv
  · rw [hl] at hll
    rw [hst]
    exact h.named l hll
  · rw [hl] at hll
    rw [hlive] at hv
    exact h.held l t hll hv
  · rw [hl] at hg
    rw [hst]
    exact h.guarded g hg

theorem Sound.empty : Sound (World.empty : World ι κ γ) where
  fits u s hu := by cases hu
  named l hl := by cases hl
  held l s hl := by cases hl
  guarded g hg := by cases hg

theorem call_eq_some {f : Store κ → World ι κ γ} (h : w.call u f = some w') :
    ∃ s, w.live u = some s ∧ s.phase = .owning ∧ w' = f s := by
  unfold World.call at h
  split at h
  · next s hs =>
      split at h
      · next hp =>
          cases h
          exact ⟨s, hs, hp, rfl⟩
      · cases h
  · cases h

variable [DecidableEq ι] [DecidableEq κ] {a : Action ι κ γ}

/-- The transition relation. -/
def Step (a : Action ι κ γ) (w w' : World ι κ γ) : Prop := w.exec a = some w'

/-- What a step of a call leaves alone. -/
theorem run_frame (rest : List (Task ι κ γ)) (x : Task ι κ γ) :
    (w.run s rest x).stores = w.stores ∧ (w.run s rest x).crashed = w.crashed
      ∧ (w.run s rest x).lock = w.lock := by
  fun_cases World.run <;> exact ⟨rfl, rfl, rfl⟩

/-- **What an action can do.** -/
inductive Did (w w' : World ι κ γ) : Action ι κ γ → Prop
  | start {u : Uuid} {pid : Pid} {key : κ} : w.stores u = none → pid ∉ w.crashed →
      w' = w.move u ⟨pid, key, .creating⟩ .creating → Did w w' (.start u pid key)
  | step {u : Uuid} {s : Store κ} {p : Phase} {k : Lock} : w.live u = some s →
      s.phase.next w.crashed u s.pid w.lock = some (p, k) →
      w' = { w.move u s p with
        lock := k
        trace := if s.phase.acquires then .acquired u :: w.trace else w.trace } →
      Did w w' (.step u)
  | save {u : Uuid} {s : Store κ} {id : ι} {snapshot : γ} : w.live u = some s → s.phase = .owning →
      w' = { w with tasks := w.tasks ++ [.saving u ⟨id, s.key, snapshot⟩] } →
      Did w w' (.save u id snapshot)
  | remove {u : Uuid} {s : Store κ} {id : ι} : w.live u = some s → s.phase = .owning →
      w' = { w with tasks := w.tasks ++ [.removing u id] } → Did w w' (.remove u id)
  | loadAll {u : Uuid} {s : Store κ} : w.live u = some s → s.phase = .owning →
      w' = { w with tasks := w.tasks ++ [.listing u w.trace] } → Did w w' (.loadAll u)
  | close {u : Uuid} {s : Store κ} : w.live u = some s → s.phase = .owning →
      w' = w.move u s .releasing → Did w w' (.close u)
  | work {n : ℕ} {t : Task ι κ γ} {s : Store κ} : w.tasks[n]? = some t → w.stores t.lease = some s →
      w' = w.run s (w.tasks.eraseIdx n) t → Did w w' (.work n)
  | crash {pid : Pid} : pid ∉ w.crashed →
      w' = { w with
        crashed := pid :: w.crashed
        tasks := w.tasks.filter fun t => ((w.stores t.lease).any fun s => s.pid ≠ pid) } →
      Did w w' (.crash pid)

theorem Step.did (h : Step a w w') : Did w w' a := by
  cases a with
  | start u pid key =>
      simp only [Step, World.exec] at h
      split at h
      · next hc =>
          cases h
          exact .start (Option.isNone_iff_eq_none.mp hc.1) hc.2 rfl
      · cases h
  -- of the actions these go through the store that makes them
  | step u =>
      obtain ⟨s, hs, hadv⟩ := Option.bind_eq_some_iff.mp h
      obtain ⟨⟨p, k⟩, hn, rfl⟩ := Option.map_eq_some_iff.mp hadv
      exact .step hs hn rfl
  | save u id snapshot =>
      obtain ⟨s, hs, hp, he⟩ := call_eq_some h
      exact .save hs hp he
  | remove u id =>
      obtain ⟨s, hs, hp, he⟩ := call_eq_some h
      exact .remove hs hp he
  | loadAll u =>
      obtain ⟨s, hs, hp, he⟩ := call_eq_some h
      exact .loadAll hs hp he
  | close u =>
      obtain ⟨s, hs, hp, he⟩ := call_eq_some h
      exact .close hs hp he
  -- a call goes on by itself
  | work n =>
      simp only [Step, World.exec] at h
      split at h
      · cases h
      · next t ht =>
          obtain ⟨s, hs, rfl⟩ := Option.map_eq_some_iff.mp h
          exact .work ht hs rfl
  | crash pid =>
      simp only [Step, World.exec] at h
      split at h
      · cases h
      · next hc =>
          cases h
          exact .crash hc rfl

/-- **Every action keeps the protocol's invariant.** -/
theorem Sound.step (h : Sound w) (hs : Step a w w') : Sound w' := by
  cases hs.did with
  | @start u pid key hu hp he =>
      subst he
      -- nobody knows the new store yet
      have hnew : ∀ l, w.lock.lease = some l → l.lease ≠ u := by
        intro l hl he
        obtain ⟨t, ht, -⟩ := h.named l hl
        rw [he, hu] at ht
        cases ht
      refine ⟨fun v t hv => ?_, fun l hl => ?_, fun l t hl hv => ?_, fun g hg => ?_⟩
      · rw [live_move hp] at hv
        split at hv
        · cases hv
          exact .outside rfl rfl
        · exact h.fits v t hv
      · obtain ⟨t, ht, hpid⟩ := h.named l hl
        exact ⟨t, by rw [← ht]; exact Function.update_of_ne (hnew l hl) .., hpid⟩
      · rw [live_move hp, if_neg (hnew l hl)] at hv
        exact h.held l t hl hv
      · obtain ⟨t, ht, hgt⟩ := h.guarded g hg
        have hne : g ≠ u := fun he => by rw [he, hu] at ht; cases ht
        exact ⟨t, by rw [← ht]; exact Function.update_of_ne hne .., hgt⟩
  | step hu hn he =>
      obtain ⟨hf, hk⟩ := h.next_fits hu hn
      exact h.move hu hf hk (by rw [he]) (by rw [he]; rfl) (by rw [he])
  | save _ _ he => exact h.files (by rw [he]) (by rw [he]) (by rw [he])
  | remove _ _ he => exact h.files (by rw [he]) (by rw [he]) (by rw [he])
  | loadAll _ _ he => exact h.files (by rw [he]) (by rw [he]) (by rw [he])
  | @close u s hu hp he =>
      obtain ⟨l, hl, hlu, hw⟩ := (h.fits u s hu).holder (by rw [hp]; rfl)
      rw [hp] at hw
      have hno : w.lock.recovery ≠ some u := fun hr => by
        have hg := h.own hu hr
        rw [hp] at hg
        cases hg
      have hf : Phase.releasing.Fits w.crashed u w.lock := .having hl hlu hw rfl nofun
      exact h.move hu hf (.same (fun hr => absurd hr hno) fun _ _ _ => rfl) (by rw [he])
        (by rw [he]; rfl) (by rw [he]; rfl)
  | @work n t s _ _ he =>
      obtain ⟨hst, hc, hl⟩ := run_frame (w := w) (s := s) (w.tasks.eraseIdx n) t
      rw [he]
      exact h.files hst hc hl
  | @crash pid _ he =>
      subst he
      -- a store that still lives lived before, and fewer processes do
      have hmem : ∀ q, q ∈ w.crashed → q ∈ pid :: w.crashed := fun q => List.mem_cons_of_mem _
      have hbefore : ∀ v t, World.live { w with
          crashed := pid :: w.crashed
          tasks := w.tasks.filter fun t => ((w.stores t.lease).any fun s => s.pid ≠ pid) } v
            = some t →
          w.live v = some t := by
        intro v t hv
        obtain ⟨hst, hp⟩ := live_eq_some.mp hv
        exact live_eq_some.mpr ⟨hst, fun hq => hp (hmem _ hq)⟩
      refine ⟨fun v t hv => ?_, h.named, fun l t hl hv => h.held l t hl (hbefore _ t hv), h.guarded⟩
      have hf := h.fits v t (hbefore v t hv)
      refine ⟨hf.holder, hf.guard, hf.read, fun raw hr => hmem _ (hf.probed raw hr), fun hd => ?_⟩
      obtain ⟨l, hl, hc, hw⟩ := hf.dead hd
      exact ⟨l, hl, hmem _ hc, hw⟩

/-- **And so does every run.** -/
theorem Sound.reached {h : List (Event (World ι κ γ) (Action ι κ γ))}
    (r : Run (· = World.empty) Step h w) : Sound w :=
  r.invariant (I := fun _ w => Sound w) (fun _ he => by rw [he]; exact .empty)
    fun _ _ _ _ _ hi hs => hi.step hs

end Runs
end Line.Checkout.Directory
