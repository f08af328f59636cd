import Line.Checkout.Ownership

/-!
# Taking over the lease of a dead process

Nobody but its store removes the lease of a live process. The lease a crashed process left
behind can be taken over: a store opened later gets there by its own steps, if need be after
a store that is in its recovery phases has come to the end of them. Two things are in the
way. One is a recovery directory whose own process is dead: then every open refuses and
nothing changes. The other is a lease that is empty, because its process died between
creating the file and writing it: recovery takes it for malformed, so it stays, and nobody
owns the directory any more.

`Complete` excludes the second. The invariant behind it is `Claimable`: what a crash leaves
is a written lease, or an empty one beside a stale recovery directory.
-/

namespace Line.Checkout.Directory

open History

section Lock

variable {crashed : List Pid} {u g : Uuid} {pid : Pid} {p p' : Phase} {k k' : Lock} {l : Lease}

/-- Steps of one store alone. -/
def Solo (crashed : List Pid) (u : Uuid) (pid : Pid) : Phase × Lock → Phase × Lock → Prop :=
  Relation.ReflTransGen fun a b => a.1.next crashed u pid a.2 = some b

/-- The lock once store `u` of process `pid` owns the directory. -/
def Lock.ownedBy (u : Uuid) (pid : Pid) : Lock := ⟨some ⟨pid, u, true⟩, none⟩

/-- A free lease is taken, whatever the recovery directory. -/
theorem solo_free {r : Option Uuid} :
    Solo crashed u pid (.creating, ⟨none, r⟩) (.owning, ⟨some ⟨pid, u, true⟩, r⟩) := by
  refine .head (b := (.writing, ⟨some ⟨pid, u, false⟩, r⟩)) rfl (.single ?_)
  simp [Phase.next, writeLease]

/-- Before the lease is removed: it is, and the store's own takes its place. -/
theorem solo_removing :
    Solo crashed u pid (.removing, ⟨some l, some g⟩) (.owning, .ownedBy u pid) := by
  refine .head (b := (.republishing, ⟨none, some g⟩)) rfl ?_
  refine .head (b := (.rewriting, ⟨some ⟨pid, u, false⟩, some g⟩)) rfl ?_
  refine .head (b := (.leaving true, ⟨some ⟨pid, u, true⟩, some g⟩)) ?_ (.single rfl)
  simp [Phase.next, writeLease]

/-- Giving up: the recovery directory goes and the lease stays. -/
theorem solo_leaving :
    Solo crashed u pid (.leaving false, ⟨some l, some g⟩) (.refused, ⟨some l, none⟩) :=
  .single rfl

/-- Where a store ends that is in its recovery phases while a dead lease is in place. -/
def Settles (crashed : List Pid) (u : Uuid) (pid : Pid) (l : Lease) (a : Phase × Lock) : Prop :=
  Solo crashed u pid a (.owning, .ownedBy u pid) ∨ Solo crashed u pid a (.refused, ⟨some l, none⟩)

theorem Settles.head {a b : Phase × Lock} (h : a.1.next crashed u pid a.2 = some b)
    (hs : Settles crashed u pid l b) : Settles crashed u pid l a :=
  hs.imp (.head h) (.head h)

/-- The second reading decides. -/
theorem settles_rereading (raw : Lease) :
    Settles crashed u pid l (.rereading raw, ⟨some l, some g⟩) := by
  by_cases he : some l = some raw
  · refine .head (b := (.removing, ⟨some l, some g⟩)) ?_ (.inl solo_removing)
    exact if_pos he
  · refine .head (b := (.leaving false, ⟨some l, some g⟩)) ?_ (.inr solo_leaving)
    exact if_neg he

/-- So does the probe before it. -/
theorem settles_probing (raw : Lease) :
    Settles crashed u pid l (.probing raw, ⟨some l, some g⟩) := by
  by_cases hc : raw.pid ∈ crashed
  · refine .head (b := (.rereading raw, ⟨some l, some g⟩)) ?_ (settles_rereading raw)
    exact if_pos hc
  · refine .head (b := (.leaving false, ⟨some l, some g⟩)) ?_ (.inr solo_leaving)
    exact if_neg hc

/-- A store that finds the lease of a dead process, complete, owns the directory in the end. -/
theorem solo_checking (hw : l.written = true) (hc : l.pid ∈ crashed) :
    Solo crashed u pid (.checking, ⟨some l, some g⟩) (.owning, .ownedBy u pid) := by
  refine .head (b := (.reading, ⟨some l, some g⟩)) rfl ?_
  refine .head (b := (.probing l, ⟨some l, some g⟩)) ?_ ?_
  · exact if_pos hw
  refine .head (b := (.rereading l, ⟨some l, some g⟩)) ?_ ?_
  · exact if_pos hc
  refine .head (b := (.removing, ⟨some l, some g⟩)) ?_ ?_
  · exact if_pos rfl
  exact solo_removing

/-- A store opened while the lease of a dead process is in place, and nothing else. -/
theorem solo_creating (hw : l.written = true) (hc : l.pid ∈ crashed) :
    Solo crashed u pid (.creating, ⟨some l, none⟩) (.owning, .ownedBy u pid) := by
  refine .head (b := (.guarding, ⟨some l, none⟩)) rfl ?_
  refine .head (b := (.checking, ⟨some l, some u⟩)) rfl ?_
  exact solo_checking hw hc

/-- **Recovery ends**, in each of its phases, while a dead lease is in place. -/
theorem settles (hf : p.Fits crashed u ⟨some l, some g⟩) (hg : p.guards = true)
    (hw : l.written = true) (hc : l.pid ∈ crashed) (hne : l.lease ≠ u) :
    Settles crashed u pid l (p, ⟨some l, some g⟩) := by
  -- the lease is that of a dead process, so this store does not have it
  have hno : p.holds = false := by
    by_contra hh
    obtain ⟨l', hl', hlu, -⟩ := hf.holder (by simpa using hh)
    cases hl'
    exact hne hlu
  cases p with
  | checking => exact .inl (solo_checking hw hc)
  -- the phases of the recovery, each with the steps that are left
  | reading =>
      refine .head (b := (.probing l, ⟨some l, some g⟩)) ?_ (settles_probing l)
      exact if_pos hw
  | probing raw => exact settles_probing raw
  | rereading raw => exact settles_rereading raw
  | removing => exact .inl solo_removing
  | republishing =>
      exact .head (b := (.leaving false, ⟨some l, some g⟩)) rfl (.inr solo_leaving)
  -- at the end the recovery directory is removed
  | leaving acquired =>
      cases acquired with
      | true => cases hno
      | false => exact .inr solo_leaving
  -- no other phase has a recovery directory
  | rewriting => cases hno
  | creating | writing | guarding | owning | refused | releasing | unlinking | closed => cases hg

/-- A store without lease and recovery directory of its own cannot pass those of others. -/
theorem next_idle (hh : p.holds = false) (hg : p.guards = false) (hl : k.lease = some l)
    (hr : k.recovery = some g) (h : p.next crashed u pid k = some (p', k')) : k' = k := by
  cases p with
  | creating =>
      simp only [Phase.next, hl] at h
      cases h
      rfl
  | guarding =>
      simp only [Phase.next, hr] at h
      cases h
      rfl
  | owning | refused | closed => cases h
  | writing | releasing | unlinking => cases hh
  | checking | reading | probing | rereading | removing | republishing | rewriting | leaving =>
      cases hg

end Lock

section Runs

variable {ι κ γ : Type} [DecidableEq ι] [DecidableEq κ] {w w' : World ι κ γ} {u v g : Uuid}
  {s t : Store κ} {a : Action ι κ γ} {l : Lease}

/-- **A live owner's lease** is in the directory, and no step but the store's own changes it. -/
theorem Sound.lease_kept (h : Sound w) (hu : w.live u = some s) (hs : s.phase.holds = true) :
    ∃ l, w.lock.lease = some l ∧ l.lease = u ∧ l.pid = s.pid ∧ l.written = !s.phase.acquires
      ∧ ∀ a w', Step a w w' → w'.lock.lease = some l ∨ a = .step u := by
  obtain ⟨l, hl, hlu, hlw⟩ := (h.fits u s hu).holder hs
  -- the lease names the process of the store that wrote it
  have hpid : l.pid = s.pid := by
    obtain ⟨t, ht, hp⟩ := h.named l hl
    rw [hlu, (live_eq_some.mp hu).1] at ht
    cases ht
    exact hp.symm
  refine ⟨l, hl, hlu, hpid, hlw, fun a w' hst => ?_⟩
  cases hst.did with
  | start _ _ he => exact .inl (by rw [he]; exact hl)
  | @step v t p k hv hn he =>
      -- another store removes a lease only of a dead process
      by_cases hne : v = u
      · exact .inr (by rw [hne])
      · obtain ⟨-, hk⟩ := h.next_fits hv hn
        rw [he]
        rcases hk.keep l hl (by rw [hlu]; exact fun hq => hne hq.symm) with hl' | ⟨hc, -⟩
        · exact .inl hl'
        · exact absurd hlu (h.lease_ne hl hc hu)
  | save _ _ he => exact .inl (by rw [he]; exact hl)
  | remove _ _ he => exact .inl (by rw [he]; exact hl)
  | loadAll _ _ he => exact .inl (by rw [he]; exact hl)
  | close _ _ he => exact .inl (by rw [he]; exact hl)
  | @work n t s _ _ he =>
      rw [he, (run_frame (w := w) (s := s) (w.tasks.eraseIdx n) t).2.2]
      exact .inl hl
  | crash _ he => exact .inl (by rw [he]; exact hl)

/-- A store of a crashed process stays as it was. -/
theorem dead_stays (hg : w.stores g = some t) (hc : t.pid ∈ w.crashed) (hst : Step a w w') :
    w'.stores g = some t ∧ t.pid ∈ w'.crashed := by
  -- a store that makes a step is alive, so it is not this one
  have hlive : ∀ u s p, w.live u = some s → (w.move u s p).stores g = some t := by
    intro u s p hu
    obtain ⟨hs, ha⟩ := live_eq_some.mp hu
    have hne : g ≠ u := by
      intro he
      rw [he, hs] at hg
      cases hg
      exact ha hc
    rw [← hg]
    exact Function.update_of_ne hne ..
  cases hst.did with
  | @start u pid key hu _ he =>
      -- a new store has a new name
      have hne : g ≠ u := fun hq => by rw [hq, hu] at hg; cases hg
      rw [he, ← hg]
      exact ⟨Function.update_of_ne hne .., hc⟩
  | step hu _ he => exact ⟨by rw [he]; exact hlive _ _ _ hu, by rw [he]; exact hc⟩
  | save _ _ he => exact ⟨by rw [he]; exact hg, by rw [he]; exact hc⟩
  | remove _ _ he => exact ⟨by rw [he]; exact hg, by rw [he]; exact hc⟩
  | loadAll _ _ he => exact ⟨by rw [he]; exact hg, by rw [he]; exact hc⟩
  | close hu _ he => exact ⟨by rw [he]; exact hlive _ _ _ hu, by rw [he]; exact hc⟩
  | @work n x s _ _ he =>
      obtain ⟨hs, hcr, -⟩ := run_frame (w := w) (s := s) (w.tasks.eraseIdx n) x
      rw [he, hs, hcr]
      exact ⟨hg, hc⟩
  | crash _ he => exact ⟨by rw [he]; exact hg, by rw [he]; exact List.mem_cons_of_mem _ hc⟩

/-- The lease and the recovery directory are both those of dead processes. -/
structure Stale (w : World ι κ γ) (l : Lease) (g : Uuid) : Prop where
  sound : Sound w
  lease : w.lock.lease = some l
  dead : l.pid ∈ w.crashed
  recovery : w.lock.recovery = some g
  gone : ∃ t, w.stores g = some t ∧ t.pid ∈ w.crashed

/-- No step gets past a stale recovery directory. -/
theorem Stale.step (h : Stale w l g) (hst : Step a w w') : Stale w' l g ∧ w'.lock = w.lock := by
  obtain ⟨t, ht, htc⟩ := h.gone
  obtain ⟨ht', htc'⟩ := dead_stays ht htc hst
  -- whose lease it is was a store of a process that crashed
  obtain ⟨m, hm, hmp⟩ := h.sound.named l h.lease
  have hdead := (dead_stays hm (by rw [hmp]; exact h.dead) hst).2
  rw [hmp] at hdead
  have hlock : w'.lock = w.lock := by
    cases hst.did with
    | start _ _ he => rw [he]; rfl
    | @step v s p k hv hn he =>
        have hf := h.sound.fits v s hv
        -- no live store has the lease
        have hh : s.phase.holds = false := h.sound.unheld h.lease h.dead hv
        -- nor the recovery directory, whose process is dead as well
        have hg : s.phase.guards = false := by
          by_contra hg
          have hr := hf.guard (by simpa using hg)
          rw [h.recovery] at hr
          cases hr
          obtain ⟨hs, ha⟩ := live_eq_some.mp hv
          rw [ht] at hs
          cases hs
          exact ha htc
        rw [he]
        exact next_idle hh hg h.lease h.recovery hn
    | save _ _ he => rw [he]
    | remove _ _ he => rw [he]
    | loadAll _ _ he => rw [he]
    | close _ _ he => rw [he]; rfl
    | @work n x s _ _ he => rw [he, (run_frame (w := w) (s := s) (w.tasks.eraseIdx n) x).2.2]
    | crash _ he => rw [he]
  exact ⟨⟨h.sound.step hst, by rw [hlock]; exact h.lease, hdead, by rw [hlock]; exact h.recovery,
    t, ht', htc'⟩, hlock⟩

/-- **A stale recovery directory only refuses**: whatever is done, the lock stays as it is. -/
theorem Stale.run (h : Stale w l g) {h' : List (Event (World ι κ γ) (Action ι κ γ))}
    (r : Run (· = w) Step h' w') : w'.lock = w.lock := by
  have hinv : Stale w' l g ∧ w'.lock = w.lock := by
    refine r.preserves (P := fun x => Stale x l g ∧ x.lock = w.lock) ?_ ⟨h, rfl⟩
    intro a x x' hx hst
    obtain ⟨hs, hk⟩ := hx.1.step hst
    exact ⟨hs, by rw [hk]; exact hx.2⟩
  exact hinv.2

omit [DecidableEq ι] [DecidableEq κ] in
/-- A recovery directory that no live store made is stale. -/
theorem Sound.stale (h : Sound w) (hl : w.lock.lease = some l) (hc : l.pid ∈ w.crashed)
    (hr : w.lock.recovery = some g) (hg : w.live g = none) : Stale w l g := by
  obtain ⟨t, ht, -⟩ := h.guarded g hr
  refine ⟨h, hl, hc, hr, t, ht, ?_⟩
  by_contra hp
  rw [live_eq_some.mpr ⟨ht, hp⟩] at hg
  cases hg

omit [DecidableEq ι] [DecidableEq κ] in
/-- And the other way round. -/
theorem Stale.nobody (h : Stale w l g) : w.live g = none := by
  obtain ⟨t, ht, hc⟩ := h.gone
  cases hv : w.live g with
  | none => rfl
  | some s =>
      obtain ⟨hs, ha⟩ := live_eq_some.mp hv
      rw [ht] at hs
      cases hs
      exact absurd hc ha

/-! ## The lease a crash leaves -/

/-- Processes die by crashing. -/
theorem crashed_step {q : Pid} (hst : Step a w w') (hq : q ∈ w'.crashed) :
    q ∈ w.crashed ∨ a = .crash q := by
  cases hst.did with
  | start _ _ he | step _ _ he | save _ _ he | remove _ _ he | loadAll _ _ he | close _ _ he =>
      rw [he] at hq
      exact .inl hq
  | @work n x s _ _ he =>
      rw [he, (run_frame (w := w) (s := s) (w.tasks.eraseIdx n) x).2.1] at hq
      exact .inl hq
  | crash _ he =>
      rw [he] at hq
      rcases List.mem_cons.mp hq with rfl | hq
      · exact .inr rfl
      · exact .inl hq

/-- A lease of a process that is dead already was there before. -/
theorem Sound.lease_before (h : Sound w) (hst : Step a w w') (hl : w'.lock.lease = some l)
    (hc : l.pid ∈ w.crashed) : w.lock.lease = some l := by
  cases hst.did with
  | start _ _ he | save _ _ he | remove _ _ he | loadAll _ _ he | close _ _ he | crash _ he =>
      rw [he] at hl
      exact hl
  | @step v s p k hv hn he =>
      obtain ⟨-, hk⟩ := h.next_fits hv hn
      rw [he] at hl
      refine hk.others l hl fun hlv => ?_
      -- the store that moves is alive, and what it creates is in its own name
      rcases hk.named l hl with ⟨l₀, hl₀, hle, hpid⟩ | ⟨-, hpid⟩
      · exact h.lease_ne hl₀ (by rw [hpid]; exact hc) hv (by rw [hle, hlv])
      · rw [hpid] at hc
        exact (live_eq_some.mp hv).2 hc
  | @work n x s _ _ he =>
      rw [he, (run_frame (w := w) (s := s) (w.tasks.eraseIdx n) x).2.2] at hl
      exact hl

/-- **An empty lease of a dead process stays**: recovery reads it and gives up. -/
theorem Sound.empty_stays (h : Sound w) (hl : w.lock.lease = some l) (hw : l.written = false)
    (hc : l.pid ∈ w.crashed) (hst : Step a w w') :
    w'.lock.lease = some l ∧ l.pid ∈ w'.crashed := by
  obtain ⟨m, hm, hmp⟩ := h.named l hl
  have hdead := (dead_stays hm (by rw [hmp]; exact hc) hst).2
  rw [hmp] at hdead
  refine ⟨?_, hdead⟩
  cases hst.did with
  | start _ _ he | save _ _ he | remove _ _ he | loadAll _ _ he | close _ _ he | crash _ he =>
      rw [he]
      exact hl
  | @step v s p k hv hn he =>
      obtain ⟨-, hk⟩ := h.next_fits hv hn
      rw [he]
      rcases hk.keep l hl (h.lease_ne hl hc hv) with hl' | ⟨-, hw', -⟩
      · exact hl'
      · rw [hw] at hw'
        cases hw'
  | @work n x s _ _ he =>
      rw [he, (run_frame (w := w) (s := s) (w.tasks.eraseIdx n) x).2.2]
      exact hl

/--
No process crashes between creating its lease and writing it. (In recovery it may: then its
recovery directory is left as well.)
-/
def Complete (e : Event (World ι κ γ) (Action ι κ γ)) : Prop :=
  ∀ pid, e.label = .crash pid → ∀ u s, e.pre.live u = some s → s.pid = pid → s.phase ≠ .writing

omit [DecidableEq ι] [DecidableEq κ] in
/-- While the lease that is there is written, no process is about to write one. -/
theorem Sound.complete_of_written (h : Sound w)
    (hw : ∀ l, w.lock.lease = some l → l.written = true) : Complete ⟨a, w, w'⟩ := by
  intro pid _ u s hu _ hp
  obtain ⟨l, hl, -, hlw⟩ := (h.fits u s hu).holder (by rw [hp]; rfl)
  rw [hw l hl, hp] at hlw
  cases hlw

/-- The lease of a dead process is written, or a recovery directory is left besides. -/
def Claimable (w : World ι κ γ) : Prop :=
  ∀ l, w.lock.lease = some l → l.pid ∈ w.crashed →
    l.written = true ∨ ∃ g, w.lock.recovery = some g ∧ w.live g = none

theorem Claimable.step (hi : Claimable w) (h : Sound w) (hst : Step a w w')
    (hq : Complete ⟨a, w, w'⟩) : Claimable w' := by
  intro l hl hc
  by_cases hd : l.pid ∈ w.crashed
  · have hb := h.lease_before hst hl hd
    rcases hi l hb hd with hw | ⟨g, hr, hg⟩
    · exact .inl hw
    · obtain ⟨hs, hk⟩ := (h.stale hb hd hr hg).step hst
      exact .inr ⟨g, by rw [hk]; exact hr, hs.nobody⟩
  · obtain rfl := (crashed_step hst hc).resolve_left hd
    cases hst.did with
    | crash _ he =>
        subst he
        obtain ⟨s, hs, hp⟩ := h.named l hl
        have hv : w.live l.lease = some s := live_eq_some.mpr ⟨hs, by rw [hp]; exact hd⟩
        have hf := h.fits _ s hv
        have hh := h.held l s hl hv
        obtain ⟨l', hl', -, hw⟩ := hf.holder hh
        rw [show w.lock.lease = some l from hl] at hl'
        cases hl'
        cases ha : s.phase.acquires with
        | false => exact .inl (by rw [hw, ha]; rfl)
        | true =>
            -- it was about to write the lease, so it was in recovery
            have hg : s.phase.guards = true := by
              cases hphase : s.phase with
              | writing => exact absurd hphase (hq l.pid rfl _ s hv hp)
              | rewriting => rfl
              | _ =>
                  rw [hphase] at ha
                  cases ha
            have hstale : Stale _ l l.lease :=
              ⟨h.step hst, hl, hc, hf.guard hg, s, hs, by rw [hp]; exact hc⟩
            exact .inr ⟨l.lease, hf.guard hg, hstale.nobody⟩

theorem Claimable.reached {h : List (Event (World ι κ γ) (Action ι κ γ))}
    (r : Run (· = World.empty) Step h w) (hq : ∀ e ∈ h, Complete e) : Claimable w := by
  induction r with
  | start he =>
      subst he
      intro l hl
      cases hl
  | next r hs ih =>
      have hi := ih fun e he => hq e (List.mem_cons_of_mem _ he)
      exact hi.step (.reached r) hs (hq _ (List.mem_cons_self ..))

/-! ## Opening again -/

/-- Some actions lead from one world to the other. -/
def Leads (w w' : World ι κ γ) : Prop :=
  ∃ h : List (Event (World ι κ γ) (Action ι κ γ)), Run (· = w) Step h w'

theorem Leads.refl (w : World ι κ γ) : Leads w w := ⟨[], .start rfl⟩

theorem Leads.tail {x : World ι κ γ} (h : Leads w w') (hs : Step a w' x) : Leads w x :=
  let ⟨_, r⟩ := h
  ⟨_, .next r hs⟩

theorem Leads.trans {x : World ι κ γ} (h : Leads w w') (h' : Leads w' x) : Leads w x :=
  let ⟨_, r⟩ := h
  let ⟨_, r'⟩ := h'
  ⟨_, r.append r'⟩

/-- **A crash that leaves an empty lease leaves nobody who could own the directory.** -/
theorem Sound.empty_blocks (h : Sound w) (hl : w.lock.lease = some l) (hw : l.written = false)
    (hc : l.pid ∈ w.crashed) (hlead : Leads w w') (hu : w'.live u = some s) :
    s.phase.holds = false := by
  obtain ⟨_, r⟩ := hlead
  have hinv : Sound w' ∧ w'.lock.lease = some l ∧ l.pid ∈ w'.crashed := by
    refine r.preserves
      (P := fun x : World ι κ γ => Sound x ∧ x.lock.lease = some l ∧ l.pid ∈ x.crashed) ?_
      ⟨h, hl, hc⟩
    intro a x x' ⟨hx, hxl, hxc⟩ hst
    exact ⟨hx.step hst, hx.empty_stays hxl hw hxc hst⟩
  exact hinv.1.unheld hinv.2.1 hinv.2.2 hu

/-- The steps of one store alone, in the world of all. -/
theorem Solo.leads {p : Phase} {k : Lock} (hu : w.live u = some s)
    (h : Solo w.crashed u s.pid (s.phase, w.lock) (p, k)) :
    ∃ w', Leads w w' ∧ w'.live u = some { s with phase := p } ∧ w'.lock = k
      ∧ w'.crashed = w.crashed ∧ ∀ v, v ≠ u → w'.stores v = w.stores v := by
  suffices hs : ∀ b, Solo w.crashed u s.pid (s.phase, w.lock) b →
      ∃ w', Leads w w' ∧ w'.live u = some { s with phase := b.1 } ∧ w'.lock = b.2
        ∧ w'.crashed = w.crashed ∧ ∀ v, v ≠ u → w'.stores v = w.stores v from hs _ h
  intro b hb
  -- step by step, where the world has just the other stores besides
  induction hb with
  | refl => exact ⟨w, .refl w, hu, rfl, rfl, fun _ _ => rfl⟩
  | @tail b c _ hn ih =>
      obtain ⟨x, hx, hxu, hxl, hxc, hxs⟩ := ih
      have hstep : Step (.step u) x
          { x.move u { s with phase := b.1 } c.1 with
            lock := c.2
            trace := if b.1.acquires then .acquired u :: x.trace else x.trace } := by
        simp only [Step, World.exec, hxu, Option.bind_some, World.advance, hxc, hxl, hn,
          Option.map_some]
      refine ⟨_, hx.tail hstep, ?_, rfl, hxc, fun v hv => ?_⟩
      · have ha : s.pid ∉ x.crashed := by
          rw [hxc]
          exact (live_eq_some.mp hu).2
        rw [live_eq_some]
        exact ⟨Function.update_self .., ha⟩
      · rw [← hxs v hv]
        exact Function.update_of_ne hv ..

/-- A process opens a store. -/
theorem leads_start {pid : Pid} (key : κ) (hu : w.stores u = none) (hp : pid ∉ w.crashed) :
    Step (.start u pid key) w (w.move u ⟨pid, key, .creating⟩ .creating) := by
  simp only [Step, World.exec]
  exact if_pos ⟨Option.isNone_iff_eq_none.mpr hu, hp⟩

/-- Where a new store gets by its own steps, it gets in the world. -/
theorem opens {pid : Pid} {k : Lock} (key : κ) (hu : w.stores u = none) (hp : pid ∉ w.crashed)
    (h : Solo w.crashed u pid (.creating, w.lock) (.owning, k)) :
    ∃ w', Leads w w' ∧ ∃ s, w'.live u = some s ∧ s.phase = .owning := by
  have hlive : (w.move u ⟨pid, key, .creating⟩ .creating).live u
      = some (⟨pid, key, .creating⟩ : Store κ) := by
    rw [live_move hp, if_pos rfl]
  obtain ⟨w', hw', hs, -⟩ := Solo.leads hlive h
  exact ⟨w', .trans (.tail (.refl w) (leads_start key hu hp)) hw', _, hs, rfl⟩

/-- **A directory without lease** can be opened. -/
theorem opens_free {pid : Pid} (key : κ) (hl : w.lock.lease = none) (hu : w.stores u = none)
    (hp : pid ∉ w.crashed) :
    ∃ w', Leads w w' ∧ ∃ s, w'.live u = some s ∧ s.phase = .owning := by
  have hk : w.lock = ⟨none, w.lock.recovery⟩ := by rw [← hl]
  exact opens key hu hp (by rw [hk]; exact solo_free)

/-- An owner closes its store. -/
theorem closes (hu : w.live u = some s) (hp : s.phase = .owning)
    (hk : w.lock = .ownedBy u s.pid) :
    ∃ w', Leads w w' ∧ w'.lock = ⟨none, none⟩ ∧ w'.crashed = w.crashed
      ∧ ∀ v, v ≠ u → w'.stores v = w.stores v := by
  have hclose : Step (.close u) w (w.move u s .releasing) := by
    simp only [Step, World.exec, World.call, hu]
    exact if_pos hp
  have hlive : (w.move u s .releasing).live u = some { s with phase := .releasing } := by
    rw [live_move (live_eq_some.mp hu).2, if_pos rfl]
  have hsolo : Solo w.crashed u s.pid (.releasing, w.lock) (.closed, ⟨none, none⟩) := by
    rw [hk]
    refine .head (b := (.unlinking, .ownedBy u s.pid)) ?_ (.single rfl)
    exact if_pos ⟨rfl, rfl⟩
  obtain ⟨w', hw', -, hl, hc, hs⟩ := Solo.leads hlive hsolo
  refine ⟨w', .trans (.tail (.refl w) hclose) hw', hl, hc, fun v hv => ?_⟩
  rw [hs v hv]
  exact Function.update_of_ne hv ..

/--
**The lease of a crashed process is taken over.** A store opened later can come to own the
directory, unless a dead process left its recovery directory.
-/
theorem Sound.reopens (h : Sound w) (hl : w.lock.lease = some l) (hw : l.written = true)
    (hc : l.pid ∈ w.crashed) (hg : ∀ g, w.lock.recovery = some g → ∃ t, w.live g = some t)
    {pid : Pid} (key : κ) (hu : w.stores u = none) (hp : pid ∉ w.crashed) :
    ∃ w', Leads w w' ∧ ∃ s, w'.live u = some s ∧ s.phase = .owning := by
  cases hr : w.lock.recovery with
  | none =>
      have hk : w.lock = ⟨some l, none⟩ := by rw [← hl, ← hr]
      exact opens key hu hp (by rw [hk]; exact solo_creating hw hc)
  | some g =>
      obtain ⟨t, ht⟩ := hg g hr
      have hk : w.lock = ⟨some l, some g⟩ := by rw [← hl, ← hr]
      have hgu : u ≠ g := fun he => by
        rw [he, (live_eq_some.mp ht).1] at hu
        cases hu
      have hf := h.fits g t ht
      rw [hk] at hf
      -- the store in recovery comes to its end first
      have hsettles : Settles w.crashed g t.pid l (t.phase, ⟨some l, some g⟩) :=
        settles hf (h.own ht hr) hw hc (h.lease_ne hl hc ht)
      rcases hsettles with hs | hs
      · rw [← hk] at hs
        obtain ⟨x, hx, hxg, hxl, hxc, hxs⟩ := Solo.leads ht hs
        obtain ⟨y, hy, hyl, hyc, hys⟩ := closes hxg rfl hxl
        have hyu : y.stores u = none := by rw [hys u hgu, hxs u hgu, hu]
        obtain ⟨z, hz, hzu⟩ := opens_free key (by rw [hyl]) hyu (by rw [hyc, hxc]; exact hp)
        exact ⟨z, hx.trans (hy.trans hz), hzu⟩
      · rw [← hk] at hs
        obtain ⟨x, hx, -, hxl, hxc, hxs⟩ := Solo.leads ht hs
        have hxu : x.stores u = none := by rw [hxs u hgu, hu]
        have hsolo : Solo x.crashed u pid (.creating, x.lock) (.owning, .ownedBy u pid) := by
          rw [hxl]
          exact solo_creating hw (by rw [hxc]; exact hc)
        obtain ⟨z, hz, hzu⟩ := opens key hxu (by rw [hxc]; exact hp) hsolo
        exact ⟨z, hx.trans hz, hzu⟩

end Runs
end Line.Checkout.Directory
