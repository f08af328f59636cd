import Line.Vault.Calls

/-!
# A register for each slot

Calls one after the other, without a lock of the vault: what a `get` returns is what the last
change of its slot that resolved has left. The ephemeral record counts where there is one,
the durable one otherwise, and between the commit of a change and the return of its method
only the slots it covers are in between.

Calls in any interleaving, with locks and disposals: a step of a call changes the slots it
covers and no others, and a call whose authorization is gone returns no value and writes
nothing.

Two things are the caller's. A `get` whose durable read fails must not find the fallback
empty while a value is stored durably, since it then returns null. And a provider must not be
disposed while a transaction of its is under way: the guard of a transaction hears of locks
and not of disposals.
-/

namespace Line.Vault.Provider

open Vault History

/-! ## Steps -/

/-- An authorization given by the session, if by any, is not newer than it. -/
def Issued (w : World) (c : Call) : Prop :=
  c.auth.revision ≤ w.session.revision ∧
    (c.auth.sessionBound = true → c.auth.revision = w.session.revision →
      w.session.passphrase ≠ none)

/-- The authorization of a call is gone for good. -/
def Gone (w : World) (c : Call) : Prop :=
  (w.instances c.owner).disposed = true ∨
    c.auth.sessionBound = true ∧ c.auth.revision < w.session.revision

variable {host : Host} {cfg : Namespace → Config} {w w' : World} {c c' : Call} {act : Action}
  {i : ℕ}

theorem authorized_iff : w.authorized c ↔ (w.instances c.owner).disposed = false
    ∧ (c.auth.sessionBound = true →
      w.session.passphrase ≠ none ∧ w.session.revision = c.auth.revision) := by
  unfold World.authorized World.assertAuthorized
  by_cases hd : (w.instances c.owner).disposed = true
  · rw [if_pos hd, hd]
    exact ⟨nofun, fun h => by cases h.1⟩
  · rw [if_neg hd]
    by_cases hb : c.auth.sessionBound = true ∧
        (w.session.passphrase = none ∨ w.session.revision ≠ c.auth.revision)
    · rw [if_pos hb]
      refine ⟨nofun, fun h => ?_⟩
      obtain ⟨hp, hr⟩ := h.2 hb.1
      rcases hb.2 with h' | h'
      · exact absurd h' hp
      · exact absurd hr h'
    · rw [if_neg hb]
      refine ⟨fun _ => ⟨by simpa using hd, fun hsb => ?_⟩, fun _ => rfl⟩
      rw [not_and, not_or, not_not] at hb
      exact hb hsb

theorem Issued.gone_iff (hi : Issued w c) : Gone w c ↔ ¬ w.authorized c := by
  rw [authorized_iff, Gone]
  constructor
  · rintro (hd | ⟨hb, hr⟩) ⟨hd', hs⟩
    · rw [hd] at hd'
      cases hd'
    · exact absurd (hs hb).2 (Nat.ne_of_gt hr)
  · intro h
    by_cases hd : (w.instances c.owner).disposed = true
    · exact .inl hd
    · right
      by_cases hb : c.auth.sessionBound = true
      · refine ⟨hb, lt_of_le_of_ne hi.1 fun he => ?_⟩
        exact h ⟨by simpa using hd, fun _ => ⟨hi.2 hb he, he.symm⟩⟩
      · exact absurd ⟨by simpa using hd, fun hb' => absurd hb' hb⟩ h

/-- What a call does by itself leaves the session, the other calls and the record of events. -/
theorem Went.frame {p : Phase} {a : Answer} {x : Next} (h : Went cfg w c p a w' x) :
    w'.session = w.session ∧ w'.calls = w.calls ∧ w'.trace = w.trace
      ∧ ∀ n, (w'.instances n).disposed = (w.instances n).disposed := by
  have hset : ∀ s, ∀ n, ((w.setEphemeral c.owner s).instances n).disposed
      = (w.instances n).disposed := by
    intro s n
    simp only [World.setEphemeral, Function.update_apply]
    split
    · next he => rw [he]
    · rfl
  cases h with
  | rejected _ => exact ⟨rfl, rfl, rfl, fun _ => rfl⟩
  | waits _ _ _ _ _ _ => exact ⟨rfl, rfl, rfl, fun _ => rfl⟩
  | stored _ _ _ _ => exact ⟨rfl, rfl, rfl, fun _ => rfl⟩
  | returned _ _ => exact ⟨rfl, rfl, rfl, fun _ => rfl⟩
  | sheltered _ _ _ _ => exact ⟨rfl, rfl, rfl, hset _⟩
  | committed _ _ _ => exact ⟨rfl, rfl, rfl, hset _⟩

/-- What a call knows that begins to wait. -/
structure Waiting (w : World) (c : Call) : Prop where
  answer : c.answer = none ∨ ∃ e, c.answer = some (.error e)
  unsealing : ∀ e, c.phase = .unsealing e →
    Table.get (c.op.key c.owner) (w.ephemeral c.owner) = some e
  committing : ∀ change, c.phase = .committing change → c.answer = none → w.authorized c

/-- **What an action can do.** -/
inductive Did (cfg : Namespace → Config) (w : World) : Action → World → Prop
  | request {n : Namespace} {op : Op} {c : Call} : Shaped c.owner c.op c.phase → Issued w c →
      Waiting w c → Did cfg w (.request n op) { w with calls := w.calls ++ [c] }
  | refused {n : Namespace} {op : Op} : Did cfg w (.request n op) w
  | land {i : ℕ} {o : Outcome} {c : Call} {a : Answer} {d : Store} : w.calls[i]? = some c →
      c.answer = none → Landed w c a d →
      Did cfg w (.land i o)
        { w with durable := d, calls := w.calls.set i { c with answer := some a } }
  | resume {i : ℕ} {c : Call} {a : Answer} {w' : World} {x : Next} : w.calls[i]? = some c →
      c.answer = some a → Went cfg w c c.phase a w' x → Did cfg w (.resume i) (w'.next i c x)
  | lock : Did cfg w .lock (w.lock cfg)
  | unlock {p : String} : Did cfg w (.unlock p)
      { w.lock cfg with session := ⟨some p, (w.lock cfg).session.revision + 1⟩ }
  | dispose {n : Namespace} : Did cfg w (.dispose n)
      { w with instances := Function.update w.instances n ⟨[], true⟩ }

/-- The transition relation. -/
def Step (host : Host) (cfg : Namespace → Config) (act : Action) (w w' : World) : Prop :=
  w.exec host cfg act = some w'

variable {p : Phase} {a : Answer} {x : Next}

/-- The call goes on waiting, or its change was applied at once. -/
theorem Went.shaped (h : Went cfg w c p a w' (.wait c')) :
    Same c c' ∧ Shaped c'.owner c'.op c'.phase := by
  cases h with
  | waits hs hsh _ _ _ _ => exact ⟨hs, by rw [hs.owner, hs.op]; exact hsh⟩
  | stored hm _ _ _ => exact ⟨⟨rfl, rfl, rfl, rfl⟩, .committing hm⟩

/-- Every method begins in a phase of its own. -/
theorem request_did {n : Namespace} {op : Op} (h : w.request host cfg n op = (w', x)) :
    w' = w ∧ ∀ c', x = .wait c' →
      Shaped c'.owner c'.op c'.phase ∧ Issued w c' ∧ Waiting w c' := by
  simp only [World.request] at h
  split at h
  · obtain ⟨rfl, rfl⟩ := Prod.mk.inj h
    exact ⟨rfl, fun _ hc => by cases hc⟩
  split at h
  · obtain ⟨rfl, rfl⟩ := Prod.mk.inj h
    exact ⟨rfl, fun _ hc => by cases hc⟩
  · split at h
    · obtain ⟨rfl, rfl⟩ := Prod.mk.inj h
      exact ⟨rfl, fun _ hc => by cases hc⟩
    · next hw =>
        -- an authorization that is bound to the session is one of a session
        have hbound : (w.session.passphrase.isSome || host.window) = true →
            w.session.passphrase ≠ none := by
          intro hb hn
          rw [hn] at hb hw
          exact hw ⟨by simpa using hb, rfl⟩
        split at h
        · obtain ⟨rfl, rfl⟩ := Prod.mk.inj h
          refine ⟨rfl, fun c' hc' => ?_⟩
          cases hc'
          exact ⟨.authorizing, ⟨le_rfl, fun hb _ => hbound hb⟩, .inl rfl, nofun, nofun⟩
        · split at h
          · obtain ⟨rfl, rfl⟩ := Prod.mk.inj h
            exact ⟨rfl, fun _ hc => by cases hc⟩
          · next q hq =>
              let c₀ : Call := ⟨n, op, ⟨q, w.session.revision,
                w.session.passphrase.isSome || host.window⟩, .authorizing, none⟩
              have hwent : Went cfg w c₀ .authorizing .done (w.checked c₀ (w.begin c₀)).1
                  (w.checked c₀ (w.begin c₀)).2 :=
                .checked fun _ => went_begin (.refl c₀) nofun
              have hx : w.checked c₀ (w.begin c₀) = (w', x) := h
              rw [hx] at hwent
              cases hwent with
              | rejected _ => exact ⟨rfl, fun _ hc => by cases hc⟩
              | returned _ hr => cases hr
              | sheltered hp _ _ _ => cases hp
              | committed hp _ _ => cases hp
              | stored _ _ hp _ => exact absurd rfl hp
              | waits hs hsh _ han hu hc =>
                  refine ⟨rfl, fun c' hc' => ?_⟩
                  cases hc'
                  refine ⟨by rw [hs.owner, hs.op]; exact hsh, ⟨?_, ?_⟩, han, ?_, ?_⟩
                  · rw [hs.revision]
                  · rw [hs.sessionBound]
                    exact fun hb _ => hbound hb
                  · rw [hs.owner, hs.op]
                    exact hu
                  · intro change hcp hcn
                    exact hs.authorized.mpr (hc change hcp hcn)

theorem Step.did (hs : ∀ c ∈ w.calls, Shaped c.owner c.op c.phase)
    (h : Step host cfg act w w') : Did cfg w act w' := by
  cases act with
  -- a request that is refused leaves no call
  | request n op =>
      simp only [Step, World.exec] at h
      split at h
      · next w₁ c hr =>
          obtain ⟨rfl, hc⟩ := request_did hr
          obtain ⟨h1, h2, h3⟩ := hc c rfl
          cases h
          exact .request h1 h2 h3
      · next w₁ y _ hr =>
          obtain ⟨rfl, -⟩ := request_did hr
          cases h
          exact .refused
  -- what a call waits for ends once
  | land i o =>
      simp only [Step, World.exec] at h
      split at h
      · cases h
      · next c hc =>
          split at h
          · cases h
          · next hn =>
              obtain ⟨⟨a, d⟩, had, he⟩ := Option.map_eq_some_iff.mp h
              subst he
              exact .land hc (by simpa using hn) (landed had)
  -- and then the method goes on, by one of the things it can do
  | resume i =>
      simp only [Step, World.exec] at h
      split at h
      · cases h
      · next c hc =>
          split at h
          · cases h
          · next a ha =>
              obtain ⟨⟨w₁, y⟩, hr, he⟩ := Option.map_eq_some_iff.mp h
              subst he
              exact .resume hc ha (went (hs c (List.mem_of_getElem? hc)) hr)
  | lock =>
      cases h
      exact .lock
  | unlock q =>
      simp only [Step, World.exec] at h
      split at h
      · cases h
      · cases h
        exact .unlock
  | dispose n =>
      cases h
      exact .dispose

/-! ## Every interleaving -/

/-- Every call stands in a phase of its method, under an authorization that was issued. -/
def Formed (w : World) : Prop :=
  ∀ c ∈ w.calls, Shaped c.owner c.op c.phase ∧ Issued w c

theorem Issued.later (h : Issued w c) (hs : w'.session = w.session ∨
    w.session.revision < w'.session.revision) (hc : Same c c') : Issued w' c' := by
  unfold Issued
  rw [hc.revision, hc.sessionBound]
  rcases hs with hs | hs
  · rw [hs]
    exact h
  · refine ⟨h.1.trans hs.le, fun _ he => ?_⟩
    have := h.1
    omega

theorem Gone.later (h : Gone w c) (hs : w'.session = w.session ∨
    w.session.revision < w'.session.revision)
    (hd : ∀ n, (w.instances n).disposed = true → (w'.instances n).disposed = true)
    (hc : Same c c') : Gone w' c' := by
  unfold Gone
  rw [hc.owner, hc.revision, hc.sessionBound]
  rcases h with h | ⟨hb, hr⟩
  · exact .inl (hd _ h)
  · refine .inr ⟨hb, ?_⟩
    rcases hs with hs | hs
    · rw [hs]
      exact hr
    · exact hr.trans hs

/-- How the session and the disposals of a world can move. -/
theorem Did.later (h : Did cfg w act w') :
    (w'.session = w.session ∨ w.session.revision < w'.session.revision)
      ∧ ∀ n, (w.instances n).disposed = true → (w'.instances n).disposed = true := by
  -- a lock ends calls, and disposes of nobody
  have hlock : ∀ n, ((w.lock cfg).instances n).disposed = (w.instances n).disposed := by
    intro n
    simp only [World.lock]
    split <;> rfl
  cases h with
  | request _ _ _ => exact ⟨.inl rfl, fun _ => id⟩
  | refused => exact ⟨.inl rfl, fun _ => id⟩
  | land _ _ _ => exact ⟨.inl rfl, fun _ => id⟩
  | @resume i c a w₁ x _ _ hw =>
      obtain ⟨hs, -, -, hd⟩ := hw.frame
      -- what a call returns is no matter of sessions
      have hnext : (w₁.next i c x).session = w₁.session
          ∧ (w₁.next i c x).instances = w₁.instances := by
        unfold World.next
        repeat' split
        all_goals exact ⟨rfl, rfl⟩
      rw [hnext.1, hnext.2]
      exact ⟨.inl hs, fun n hn => by rw [hd n]; exact hn⟩
  | lock => exact ⟨.inr (Nat.lt_succ_self _), fun n hn => by rw [hlock n]; exact hn⟩
  | unlock =>
      refine ⟨.inr ?_, fun n hn => by rw [hlock n]; exact hn⟩
      exact Nat.lt_succ_of_lt (Nat.lt_succ_self _)
  | @dispose m =>
      refine ⟨.inl rfl, fun n hn => ?_⟩
      show (Function.update w.instances m ⟨[], true⟩ n).disposed = true
      -- a disposal is for good
      by_cases he : n = m
      · rw [he, Function.update_self]
      · rw [Function.update_of_ne he]
        exact hn

theorem guarded_same (c : Call) : Same c (w.guarded c) ∧ (w.guarded c).phase = c.phase := by
  unfold World.guarded
  split
  · split
    · exact ⟨⟨rfl, rfl, rfl, rfl⟩, rfl⟩
    · exact ⟨.refl c, rfl⟩
  · exact ⟨.refl c, rfl⟩

/-- The calls after a step: those of before, in the same phase or gone on, and a new one. -/
theorem Did.calls (h : Did cfg w act w') : ∀ c' ∈ w'.calls,
    (∃ c ∈ w.calls, Same c c' ∧ (c'.phase = c.phase ∨ Shaped c'.owner c'.op c'.phase))
      ∨ (Shaped c'.owner c'.op c'.phase ∧ Issued w c') := by
  have hold : ∀ c' ∈ w.calls,
      ∃ c ∈ w.calls, Same c c' ∧ (c'.phase = c.phase ∨ Shaped c'.owner c'.op c'.phase) :=
    fun c' hc' => ⟨c', hc', .refl c', .inl rfl⟩
  cases h with
  -- the new call is at the beginning of its method
  | request hsh hi _ =>
      intro c' hc'
      rcases List.mem_append.mp hc' with hc' | hc'
      · exact .inl (hold c' hc')
      · rw [List.mem_singleton.mp hc']
        exact .inr ⟨hsh, hi⟩
  | refused => exact fun c' hc' => .inl (hold c' hc')
  | @land i o c a d hc _ _ =>
      intro c' hc'
      rcases List.mem_or_eq_of_mem_set hc' with hc' | rfl
      · exact .inl (hold c' hc')
      · exact .inl ⟨c, List.mem_of_getElem? hc, ⟨rfl, rfl, rfl, rfl⟩, .inl rfl⟩
  | @resume i c a w₁ x hc _ hw =>
      have hcalls := hw.frame.2.1
      have hrest : ∀ c' ∈ w₁.calls.eraseIdx i, c' ∈ w.calls := by
        intro c' hc'
        rw [hcalls] at hc'
        exact List.mem_of_mem_eraseIdx hc'
      intro c' hc'
      left
      cases x with
      -- a call that waits again is in a phase of its method
      | wait c₁ =>
          rcases List.mem_or_eq_of_mem_set hc' with hc' | rfl
          · rw [hcalls] at hc'
            exact hold c' hc'
          · obtain ⟨hs, hsh⟩ := hw.shaped
            exact ⟨c, List.mem_of_getElem? hc, hs, .inr hsh⟩
      -- and one that has ended is not there any more
      | returned v =>
          simp only [World.next] at hc'
          split at hc' <;> exact hold c' (hrest c' hc')
      | resolved => exact hold c' (hrest c' hc')
      | rejected e => exact hold c' (hrest c' hc')
  | lock =>
      intro c' hc'
      obtain ⟨c, hc, rfl⟩ := List.mem_map.mp hc'
      exact .inl ⟨c, hc, (guarded_same c).1, .inl (guarded_same c).2⟩
  | unlock =>
      intro c' hc'
      obtain ⟨c, hc, rfl⟩ := List.mem_map.mp hc'
      exact .inl ⟨c, hc, (guarded_same c).1, .inl (guarded_same c).2⟩
  | dispose => exact fun c' hc' => .inl (hold c' hc')

theorem Formed.step (hf : Formed w) (h : Step host cfg act w w') : Formed w' := by
  have hd := Step.did (fun c hc => (hf c hc).1) h
  have hi : ∀ c c', Same c c' → Issued w c → Issued w' c' :=
    fun c c' hs hi => hi.later hd.later.1 hs
  intro c' hc'
  rcases hd.calls c' hc' with ⟨c, hc, hs, hp⟩ | ⟨hsh, his⟩
  · refine ⟨?_, hi c c' hs (hf c hc).2⟩
    rcases hp with hp | hp
    · rw [hp, hs.owner, hs.op]
      exact (hf c hc).1
    · exact hp
  · exact ⟨hsh, hi c' c' (.refl c') his⟩

/-- No provider is disposed while a transaction of its is under way. -/
def Undisturbed (e : Event World Action) : Prop :=
  ∀ n, e.label = .dispose n → ∀ c ∈ e.pre.calls, c.owner = n →
    ∀ change, c.phase = .committing change → c.answer ≠ none

/-- A transaction that is under way is one of a call that is still authorized. -/
def Guarded (w : World) : Prop :=
  ∀ c ∈ w.calls, ∀ change, c.phase = .committing change → c.answer = none → w.authorized c

/-- Where nothing is locked or disposed, authorizations stay. -/
theorem Went.authorized (h : Went cfg w c p a w' x) {c₁ : Call} :
    w'.authorized c₁ ↔ w.authorized c₁ := by
  obtain ⟨hs, -, -, hd⟩ := h.frame
  rw [authorized_iff, authorized_iff, hs, hd]

theorem next_authorized {c₁ : Call} : (w.next i c x).authorized c₁ ↔ w.authorized c₁ := by
  have hnext : (w.next i c x).session = w.session
      ∧ (w.next i c x).instances = w.instances := by
    unfold World.next
    repeat' split
    all_goals exact ⟨rfl, rfl⟩
  rw [authorized_iff, authorized_iff, hnext.1, hnext.2]

/-- A transaction that is still under way after a lock is one the lock does not concern. -/
theorem guarded_none {change : Change} (hp : c.phase = .committing change)
    (ha : (w.guarded c).answer = none) : w.authorized c := by
  unfold World.guarded at ha
  split at ha
  · split at ha
    · cases ha
    · next he => exact he
  · next hno => exact absurd ha (hno change hp)

theorem Guarded.step (hf : Formed w) (hg : Guarded w) (h : Step host cfg act w w')
    (hu : Undisturbed ⟨act, w, w'⟩) : Guarded w' := by
  cases Step.did (fun c hc => (hf c hc).1) h with
  | request _ _ hw =>
      intro c' hc' change hp ha
      rcases List.mem_append.mp hc' with hc' | hc'
      · exact hg c' hc' change hp ha
      · rw [List.mem_singleton] at hc'
        subst hc'
        exact hw.committing change hp ha
  | refused => exact hg
  | land _ _ _ =>
      intro c' hc' change hp ha
      rcases List.mem_or_eq_of_mem_set hc' with hc' | rfl
      · exact hg c' hc' change hp ha
      · cases ha
  | @resume i c a w₁ x hc _ hw =>
      intro c' hc' change hp ha
      rw [next_authorized, hw.authorized]
      have hcalls := hw.frame.2.1
      have hrest : c' ∈ w₁.calls.eraseIdx i → w.authorized c' := by
        intro hm
        rw [hcalls] at hm
        exact hg c' (List.mem_of_mem_eraseIdx hm) change hp ha
      cases x with
      | wait c₁ =>
          rcases List.mem_or_eq_of_mem_set hc' with hc' | rfl
          · rw [hcalls] at hc'
            exact hg c' hc' change hp ha
          · cases hw with
            | waits hs _ _ _ _ hcm => exact hs.authorized.mpr (hcm change hp ha)
            | stored _ _ _ _ => cases ha
      | returned v =>
          simp only [World.next] at hc'
          split at hc' <;> exact hrest hc'
      | resolved => exact hrest hc'
      | rejected e => exact hrest hc'
  | lock =>
      intro c' hc' change hp ha
      obtain ⟨c, hc, rfl⟩ := List.mem_map.mp hc'
      have hauth := guarded_none (by rw [← (guarded_same c).2]; exact hp) ha
      exact (guarded_same c).1.authorized.mpr hauth
  | unlock =>
      intro c' hc' change hp ha
      obtain ⟨c, hc, rfl⟩ := List.mem_map.mp hc'
      have hauth := guarded_none (by rw [← (guarded_same c).2]; exact hp) ha
      -- while the session is locked, only a call that is not bound to it is authorized
      obtain ⟨hd, hs⟩ := authorized_iff.mp hauth
      refine (guarded_same c).1.authorized.mpr (authorized_iff.mpr ⟨hd, fun hb => ?_⟩)
      exact absurd rfl (hs hb).1
  | @dispose n =>
      intro c' hc' change hp ha
      have hne : c'.owner ≠ n := fun he => hu n rfl c' hc' he change hp ha
      obtain ⟨hd, hs⟩ := authorized_iff.mp (hg c' hc' change hp ha)
      refine authorized_iff.mpr ⟨?_, hs⟩
      rw [← hd]
      exact congrArg Instance.disposed (Function.update_of_ne hne ..)

/-- The records a world holds of a slot: the durable one, and the ephemeral one. -/
def World.records (w : World) (n : Namespace) (s : Slot) : Option Envelope × Option Envelope :=
  (Table.get (n.key s) w.durable, Table.get (n.key s) (w.ephemeral n))

variable {n m : Namespace} {s t : Slot}

/-- A change of a method leaves the durable records of other slots alone. -/
theorem apply_frame {op : Op} {change : Change} {d : Store} (hm : op.makes n change)
    (hno : ¬ (n = m ∧ op.covers t)) :
    Table.get (m.key t) (change.apply d) = Table.get (m.key t) d := by
  rw [Change.get_apply, if_neg fun h => hno ((makes_touches hm).mp h)]

theorem ephemeral_set {l : Store} : (w.setEphemeral n l).ephemeral m
    = if m = n then l else w.ephemeral m := by
  simp only [World.ephemeral, World.setEphemeral, Function.update_apply]
  split <;> rfl

/-- **What a call does by itself** leaves the records of other slots alone. -/
theorem Went.records (h : Went cfg w c p a w' x) (hsh : Shaped c.owner c.op p)
    (hno : ¬ (c.owner = m ∧ c.op.covers t)) : w'.records m t = w.records m t := by
  cases h with
  | rejected _ => rfl
  | waits _ _ _ _ _ _ => rfl
  | returned _ _ => rfl
  | stored hm _ _ _ => exact Prod.ext (apply_frame hm hno) rfl
  -- an ephemeral record is put under the key of the slot
  | @sheltered s value text _ hop _ _ =>
      refine Prod.ext rfl ?_
      simp only [World.records, ephemeral_set]
      split
      · next he =>
          rw [Table.get_put, if_neg, he]
          intro hk
          rw [he] at hk
          refine hno ⟨he.symm, ?_⟩
          rw [hop]
          exact (key_inj.mp hk).2
      · rfl
  -- and a change that was committed takes the ephemeral ones with it
  | @committed change hp _ _ =>
      subst hp
      generalize hop : c.op = op at hsh
      cases hsh with
      | committing hm =>
          rw [← hop] at hm
          refine Prod.ext rfl ?_
          simp only [World.records, ephemeral_set]
          split
          · next he => rw [Table.get_eraseIf, if_neg fun h => hno ((makes_touches hm).mp h), he]
          · rfl

/-- The next step of a call, in a step of the world. -/
inductive Steps (i : ℕ) : Action → Prop
  | land {o : Outcome} : Steps i (.land i o)
  | resume : Steps i (.resume i)

/-- **A step of a call** changes no record outside the slots of its method. -/
theorem Step.records (hf : Formed w) (h : Step host cfg act w w') (hi : Steps i act)
    (hc : w.calls[i]? = some c) (hno : ¬ (c.owner = m ∧ c.op.covers t)) :
    w'.records m t = w.records m t := by
  have hsh := (hf c (List.mem_of_getElem? hc)).1
  have hd := Step.did (fun c hc => (hf c hc).1) h
  cases hi with
  | land =>
      cases hd with
      | land hc' _ hl =>
          rw [hc] at hc'
          cases hc'
          cases hl with
          | answered _ _ _ => rfl
          -- a commit changes the durable store, under the keys of its method
          | commits hp =>
              rw [hp] at hsh
              generalize hop : c.op = op at hsh
              cases hsh with
              | committing hm => exact Prod.ext (apply_frame (hop ▸ hm) hno) rfl
  | resume =>
      cases hd with
      | @resume _ _ _ w₁ x hc' _ hw =>
          rw [hc] at hc'
          cases hc'
          -- what is recorded in the trace is no record
          have hnext : (w₁.next i c x).records m t = w₁.records m t := by
            unfold World.next
            repeat' split
            all_goals rfl
          rw [hnext]
          exact hw.records hsh hno

/-- **A call whose authorization is gone** returns no value and writes nothing. -/
theorem Step.silent (hf : Formed w) (hg : Guarded w) (h : Step host cfg act w w')
    (hi : Steps i act) (hc : w.calls[i]? = some c) (hn : ¬ w.authorized c) :
    w'.durable = w.durable ∧ w'.instances = w.instances
      ∧ ∀ m t v, w'.trace ≠ .got m t v :: w.trace := by
  have hd := Step.did (fun c hc => (hf c hc).1) h
  have hne : ∀ (e : Entry) (l : List Entry), l ≠ e :: l := fun e l he => by
    have := congrArg List.length he
    simp at this
  cases hi with
  | land =>
      cases hd with
      | land hc' ha hl =>
          rw [hc] at hc'
          cases hc'
          cases hl with
          | answered _ _ _ => exact ⟨rfl, rfl, fun _ _ _ => hne _ _⟩
          -- a transaction that is guarded commits with its authorization only
          | commits hp => exact absurd (hg c (List.mem_of_getElem? hc) _ hp ha) hn
  | resume =>
      cases hd with
      | resume hc' _ hw =>
          rw [hc] at hc'
          cases hc'
          cases hw with
          | rejected _ => exact ⟨rfl, rfl, fun _ _ _ => hne _ _⟩
          | waits _ _ _ _ _ _ => exact ⟨rfl, rfl, fun _ _ _ => hne _ _⟩
          -- these ask for the authorization before they do anything
          | stored _ ha _ _ => exact absurd ha hn
          | returned ha _ => exact absurd ha hn
          | sheltered _ _ _ ha => exact absurd ha hn
          | committed _ _ ha => exact absurd ha hn

/-! ## One call after the other -/

/-- What the last change of a slot that resolved has left there. -/
def latest (n : Namespace) (s : Slot) : List Entry → Option Value
  | [] => none
  | .got _ _ _ :: trace => latest n s trace
  | .resolved m op :: trace => if m = n ∧ op.covers s then op.leaves else latest n s trace

/-- Every `get` returned what the last change before it had left. -/
def Answers : List Entry → Prop
  | [] => True
  | .got n s value :: trace => value = latest n s trace ∧ Answers trace
  | .resolved _ _ :: trace => Answers trace

theorem Answers.got {newer older : List Entry} {value : Option Value}
    (h : Answers (newer ++ .got n s value :: older)) : value = latest n s older := by
  induction newer with
  | nil => exact h.1
  | cons e newer ih =>
      cases e with
      | got _ _ _ => exact ih h.2
      | resolved _ _ => exact ih h

/-- The text stored in a slot: the ephemeral record hides the durable one. -/
def World.stored (w : World) (n : Namespace) (s : Slot) : Option Json.Text :=
  ((w.records n s).2.or (w.records n s).1).map Envelope.plaintext

/-- The slot holds what it should. -/
def Holds (w : World) (n : Namespace) (s : Slot) : Prop :=
  Related (w.stored n s) (latest n s w.trace)

/-- Where the records and the last change are as before, so is what a slot holds. -/
theorem Holds.congr (h : Holds w n s) (hr : w'.records n s = w.records n s)
    (hl : latest n s w'.trace = latest n s w.trace) : Holds w' n s := by
  unfold Holds World.stored
  rw [hr, hl]
  exact h

theorem Related.none_left {v : Option Value} (h : Related none v) : v = none := by
  cases v with
  | none => rfl
  | some v => cases h

/-- What is stored is read back. -/
theorem Related.decode {text : Json.Text} {v : Option Value} {u : Value}
    (h : Related (some text) v) (hu : decodeVaultJson text = .ok u) : v = some u := by
  cases v with
  | none => cases h
  | some v =>
      obtain ⟨hp, he⟩ := h
      rw [decodeVaultJson_encode hp he] at hu
      rw [Except.ok.inj hu]

/-- **One call is under way.** -/
inductive Pending (w : World) (c : Call) : Prop
  /-- Its change is not made yet. -/
  | before : (∀ m t, Holds w m t) →
      (∀ t, c.phase = .reading → c.answer = some (.text t) →
        (Table.get (c.op.key c.owner) w.durable).map Envelope.plaintext = t) →
      (∀ e, c.phase = .unsealing e →
        Table.get (c.op.key c.owner) (w.ephemeral c.owner) = some e
          ∧ ∀ t, c.answer = some (.text t) → t = some e.plaintext) →
      (∀ change, c.phase = .committing change → c.answer ≠ some .done) → Pending w c
  /-- Its change is made, and the method has not returned. -/
  | after {change : Change} : c.phase = .committing change → c.answer = some .done →
      w.authorized c → (∀ m t, ¬ (c.owner = m ∧ c.op.covers t) → Holds w m t) →
      (∀ k, change.touches k = true → Table.get k w.durable = change.value) → Pending w c

/-- The provider is a register, as far as the calls have come. -/
structure Kept (w : World) : Prop where
  calls : (w.calls = [] ∧ ∀ m t, Holds w m t) ∨ ∃ c, w.calls = [c] ∧ Pending w c
  answers : Answers w.trace

/-- The calls come one after the other, and nothing is locked or disposed. -/
structure Quiet (e : Event World Action) : Prop where
  alone : ∀ n op, e.label = .request n op → e.pre.calls = []
  lock : e.label ≠ .lock
  unlock : ∀ p, e.label ≠ .unlock p
  dispose : ∀ n, e.label ≠ .dispose n

/-- A `get` that fails over to the ephemeral records finds one, or nothing is stored durably. -/
def Sheltered (cfg : Namespace → Config) (e : Event World Action) : Prop :=
  ∀ i c f, e.label = .resume i → e.pre.calls[i]? = some c → c.phase = .reading →
    c.answer = some (.error f) → canFallback (cfg c.owner) f = true →
    Table.get (c.op.key c.owner) (e.pre.ephemeral c.owner) = none →
    Table.get (c.op.key c.owner) e.pre.durable = none

/-- A call that waits anew has not made a change. -/
theorem Pending.waits {w : World} (hw : ∀ m t, Holds w m t)
    (ha : c.answer = none ∨ ∃ e, c.answer = some (.error e))
    (hu : ∀ e, c.phase = .unsealing e →
      Table.get (c.op.key c.owner) (w.ephemeral c.owner) = some e) : Pending w c := by
  have hno : ∀ b, (∀ e, b ≠ .error e) → c.answer ≠ some b := by
    intro b hb he
    rcases ha with ha | ⟨e, ha⟩
    · rw [ha] at he
      cases he
    · rw [ha] at he
      exact hb e (Option.some.inj he).symm
  refine .before hw (fun t _ ht => absurd ht (hno _ nofun)) (fun e he => ⟨hu e he, ?_⟩)
    fun _ _ => hno _ nofun
  exact fun t ht => absurd ht (hno _ nofun)

/-- The place of the only call. -/
theorem alone_eq {c₀ : Call} (hc₀ : w.calls = [c₀]) (hc : w.calls[i]? = some c) :
    i = 0 ∧ c = c₀ := by
  rw [hc₀] at hc
  cases i with
  | zero => exact ⟨rfl, (Option.some.inj hc).symm⟩
  | succ i => cases hc

/-- What `get` returns is what its slot holds. -/
theorem Reads.latest {value : Option Value} (h : Reads cfg w c p a value) (hop : c.op = .get s)
    (hk : Holds w c.owner s)
    (hr : ∀ t, p = .reading → a = .text t →
      (Table.get (c.op.key c.owner) w.durable).map Envelope.plaintext = t)
    (hu : ∀ e, p = .unsealing e → Table.get (c.op.key c.owner) (w.ephemeral c.owner) = some e
      ∧ ∀ t, a = .text t → t = some e.plaintext)
    (hf : ∀ f, p = .reading → a = .error f → canFallback (cfg c.owner) f = true →
      Table.get (c.op.key c.owner) (w.ephemeral c.owner) = none →
      Table.get (c.op.key c.owner) w.durable = none) :
    value = Provider.latest c.owner s w.trace := by
  have hkey : c.op.key c.owner = c.owner.key s := by rw [hop]; rfl
  rw [hkey] at hr hu hf
  unfold Holds World.stored World.records at hk
  cases h with
  -- nothing is stored, durably or not
  | absent hn =>
      rw [hkey] at hn
      rw [hn, Option.none_or, hr none rfl rfl] at hk
      exact hk.none_left.symm
  | durable hn hv =>
      rw [hkey] at hn
      rw [hn, Option.none_or, hr _ rfl rfl] at hk
      exact (hk.decode hv).symm
  -- the read failed, and the fallback has nothing: then neither has the store
  | failed hn hfb =>
      rw [hkey] at hn
      rw [hn, Option.none_or, hf _ rfl rfl hfb hn] at hk
      exact hk.none_left.symm
  -- where there is an ephemeral record, it is the one that counts
  | ephemeral hv =>
      obtain ⟨he, ht⟩ := hu _ rfl
      rw [he, Option.some_or, Option.map_some, ← ht _ rfl] at hk
      exact (hk.decode hv).symm

/-- **A call goes on**, alone. -/
theorem Kept.resume {c : Call} (hk : Pending w c) (ha : Answers w.trace)
    (hsh : Shaped c.owner c.op c.phase) (hc : w.calls = [c]) (han : c.answer = some a)
    (hw : Went cfg w c c.phase a w' x)
    (hf : ∀ f, c.phase = .reading → c.answer = some (.error f) →
      canFallback (cfg c.owner) f = true →
      Table.get (c.op.key c.owner) (w.ephemeral c.owner) = none →
      Table.get (c.op.key c.owner) w.durable = none) : Kept (w'.next 0 c x) := by
  -- what the slots hold that the call does not cover
  have hother : ∀ m t, ¬ (c.owner = m ∧ c.op.covers t) → Holds w m t := by
    cases hk with
    | before hw _ _ _ => exact fun m t _ => hw m t
    | after _ _ _ hw _ => exact hw
  have hresolved : ∀ w₁ : World, w₁.trace = w.trace →
      (∀ m t, ¬ (c.owner = m ∧ c.op.covers t) → w₁.records m t = w.records m t) →
      (∀ m t, c.owner = m ∧ c.op.covers t → Related (w₁.stored m t) c.op.leaves) →
      ∀ m t, Holds (w₁.next 0 c .resolved) m t := by
    intro w₁ htr hrec hcov m t
    have hl : Provider.latest m t (w₁.next 0 c .resolved).trace
        = if c.owner = m ∧ c.op.covers t then c.op.leaves else Provider.latest m t w.trace := by
      simp only [World.next, Provider.latest, htr]
    by_cases hct : c.owner = m ∧ c.op.covers t
    · unfold Holds
      rw [hl, if_pos hct]
      exact hcov m t hct
    · rw [if_neg hct] at hl
      exact (hother m t hct).congr (hrec m t hct) hl
  cases hw with
  | rejected hno =>
      cases hk with
      | before hw _ _ _ => exact ⟨.inl ⟨by simp [World.next, hc], hw⟩, ha⟩
      | after hp hd hau _ _ =>
          rw [hd] at han
          exact absurd hau (hno _ hp (Option.some.inj han).symm)
  | @waits c' hs _ hno hna hu _ =>
      cases hk with
      | before hw _ _ _ =>
          refine ⟨.inr ⟨c', by simp [World.next, hc], ?_⟩, ha⟩
          refine Pending.waits hw hna ?_
          rw [hs.owner, hs.op]
          exact hu
      | after hp hd _ _ _ =>
          rw [hd] at han
          exact absurd (Option.some.inj han).symm (hno _ hp)
  | @stored change hm hau _ hno =>
      cases hk with
      | before hw _ _ _ =>
          refine ⟨.inr ⟨_, by simp [World.next, hc]; rfl, ?_⟩, ha⟩
          refine .after rfl rfl ?_ ?_ ?_
          · exact hau
          · intro m t hct
            exact (hw m t).congr (Prod.ext (apply_frame hm hct) rfl) rfl
          · intro k hkt
            show Table.get k (change.apply w.durable) = _
            rw [Change.get_apply, if_pos hkt]
      | after hp hd _ _ _ =>
          rw [hd] at han
          exact absurd (Option.some.inj han).symm (hno _ hp)
  | @returned value hau hr =>
      cases hk with
      | after hp _ _ _ _ =>
          rw [hp] at hr
          cases hr
      | before hw h1 h2 _ =>
          obtain ⟨s, hop⟩ : ∃ s, c.op = .get s := by
            generalize c.phase = q at hr hsh
            generalize c.op = op at hsh
            cases hr <;> cases hsh <;> exact ⟨_, rfl⟩
          have hv := hr.latest hop (hw c.owner s)
            (fun t hp hat => h1 t hp (by rw [han, hat]))
            (fun e hp => ⟨(h2 e hp).1, fun t hat => (h2 e hp).2 t (by rw [han, hat])⟩)
            (fun f hp haf => hf f hp (by rw [han, haf]))
          have hnext : w.next 0 c (.returned value) = { w with
              calls := w.calls.eraseIdx 0
              trace := .got c.owner s value :: w.trace } := by
            simp only [World.next, hop]
          rw [hnext]
          exact ⟨.inl ⟨by simp [hc], fun m t => (hw m t).congr rfl rfl⟩, hv, ha⟩
  | @sheltered s value text hp hop htext hau =>
      have hwent : Went cfg w c c.phase a _ .resolved := .sheltered hp hop htext hau
      have hrec := fun m t => hwent.records (m := m) (t := t) hsh
      refine ⟨.inl ⟨by simp [World.next, World.setEphemeral, hc], ?_⟩, ha⟩
      refine hresolved _ rfl hrec ?_
      rintro m t ⟨rfl, hct⟩
      rw [hop] at hct ⊢
      have hst : s = t := hct
      subst hst
      unfold World.stored World.records
      rw [ephemeral_set, if_pos rfl, Table.get_put, if_pos rfl, Option.some_or]
      exact ⟨value.2, htext⟩
  | @committed change hp hd hau =>
      cases hk with
      | before _ _ _ hno =>
          rw [hd] at han
          exact absurd han (hno _ hp)
      | @after change' hp' _ _ _ hval =>
          rw [hp] at hp'
          cases hp'
          have hm : c.op.makes c.owner change := by
            rw [hp] at hsh
            generalize hop : c.op = op at hsh
            cases hsh with
            | committing hm => exact hm
          have hwent : Went cfg w c c.phase a _ .resolved := .committed hp hd hau
          have hrec := fun m t => hwent.records (m := m) (t := t) hsh
          refine ⟨.inl ⟨by simp [World.next, World.setEphemeral, hc], ?_⟩, ha⟩
          refine hresolved _ rfl hrec ?_
          rintro m t ⟨rfl, hct⟩
          have htouch := (makes_touches (m := c.owner) (t := t) hm).mpr ⟨rfl, hct⟩
          unfold World.stored World.records
          rw [ephemeral_set, if_pos rfl, Table.get_eraseIf, if_pos htouch, Option.none_or]
          show Related ((Table.get (c.owner.key t) w.durable).map Envelope.plaintext) _
          rw [hval _ htouch]
          exact makes_leaves hm

theorem Kept.step (hf : Formed w) (hg : Guarded w) (hk : Kept w) (h : Step host cfg act w w')
    (hq : Quiet ⟨act, w, w'⟩) (hs : Sheltered cfg ⟨act, w, w'⟩) : Kept w' := by
  cases Step.did (fun c hc => (hf c hc).1) h with
  | @request n op c _ _ hw =>
      -- there is no other call
      have hnil : w.calls = [] := hq.alone n op rfl
      obtain ⟨-, hall⟩ | ⟨c₀, hc₀, -⟩ := hk.calls
      · refine ⟨.inr ⟨c, by rw [hnil]; rfl, ?_⟩, hk.answers⟩
        exact Pending.waits hall hw.answer hw.unsealing
      · rw [hnil] at hc₀
        cases hc₀
  | refused => exact hk
  | @land i o c a d hc hn hl =>
      obtain ⟨hnil, -⟩ | ⟨c₀, hc₀, hp⟩ := hk.calls
      · rw [hnil] at hc
        cases hc
      · obtain ⟨rfl, rfl⟩ := alone_eq hc₀ hc
        refine ⟨.inr ⟨{ c with answer := some a }, by rw [hc₀]; rfl, ?_⟩, hk.answers⟩
        cases hp with
        -- a call whose change was committed has its answer already
        | after _ hd _ _ _ =>
            rw [hn] at hd
            cases hd
        | before hw _ h2 _ =>
            cases hl with
            | answered hcm hr hu =>
                refine .before hw ?_ ?_ ?_
                · intro t hp ht
                  exact hr t hp (Option.some.inj ht)
                · intro e hp
                  exact ⟨(h2 e hp).1, fun t ht => hu e t hp (Option.some.inj ht)⟩
                · intro change hp hd
                  exact hcm change hp (Option.some.inj hd)
            -- the commit, which is under the slots of the call
            | @commits change hp =>
                have hmem := List.mem_of_getElem? hc
                have hm : c.op.makes c.owner change := by
                  have hsh := (hf c hmem).1
                  rw [hp] at hsh
                  generalize hop : c.op = op at hsh
                  cases hsh with
                  | committing hm => exact hm
                refine .after hp rfl (hg c hmem change hp hn) ?_ ?_
                · intro m t hct
                  exact (hw m t).congr (Prod.ext (apply_frame hm hct) rfl) rfl
                · intro k hkt
                  show Table.get k (change.apply w.durable) = _
                  rw [Change.get_apply, if_pos hkt]
  | @resume i c a w₁ x hc han hw =>
      obtain ⟨hnil, -⟩ | ⟨c₀, hc₀, hp⟩ := hk.calls
      · rw [hnil] at hc
        cases hc
      · obtain ⟨rfl, rfl⟩ := alone_eq hc₀ hc
        exact Kept.resume hp hk.answers (hf c (List.mem_of_getElem? hc)).1 hc₀ han hw
          fun f => hs 0 c f rfl hc
  | lock => exact absurd rfl hq.lock
  | unlock => exact absurd rfl (hq.unlock _)
  | dispose => exact absurd rfl (hq.dispose _)

/-! ## Runs -/

/-- Nothing is stored and nothing was called; the vault may be unlocked. -/
def Initial (w : World) : Prop :=
  w.durable = [] ∧ w.calls = [] ∧ w.trace = [] ∧ ∀ n, w.instances n = ⟨[], false⟩

variable {h : List (Event World Action)}

theorem Formed.reached (r : Run Initial (Step host cfg) h w) : Formed w :=
  r.invariant (I := fun _ w => Formed w) (fun w hi c hc => by rw [hi.2.1] at hc; cases hc)
    fun _ _ _ _ _ hf hs => hf.step hs

theorem Guarded.reached (r : Run Initial (Step host cfg) h w) (hu : ∀ e ∈ h, Undisturbed e) :
    Guarded w := by
  induction r with
  | start hi =>
      intro c hc
      rw [hi.2.1] at hc
      cases hc
  | next r hs ih =>
      have hg := ih fun e he => hu e (List.mem_cons_of_mem _ he)
      exact hg.step (.reached r) hs (hu _ (List.mem_cons_self ..))

theorem Initial.kept (hi : Initial w) : Kept w := by
  refine ⟨.inl ⟨hi.2.1, fun m t => ?_⟩, by rw [hi.2.2.1]; trivial⟩
  have heph : w.ephemeral m = [] := by rw [World.ephemeral, hi.2.2.2 m]
  unfold Holds World.stored World.records
  rw [hi.1, heph, hi.2.2.1]
  exact trivial

theorem Kept.reached (r : Run Initial (Step host cfg) h w)
    (hq : ∀ e ∈ h, Quiet e ∧ Sheltered cfg e) : Kept w := by
  induction r with
  | start hi => exact hi.kept
  | @next h s s' act r hs ih =>
      have hq' : ∀ e ∈ h, Quiet e ∧ Sheltered cfg e :=
        fun e he => hq e (List.mem_cons_of_mem _ he)
      obtain ⟨hqe, hse⟩ := hq _ (List.mem_cons_self ..)
      have hg : Guarded s := .reached r fun e he n hn => absurd hn ((hq' e he).1.dispose n)
      exact (ih hq').step (.reached r) hg hs hqe hse

/-- An authorization that is gone stays so. -/
theorem Gone.run {h' : List (Event World Action)} (hf : Formed w)
    (r : Run (· = w) (Step host cfg) h' w') (hg : Gone w c) (hc : Same c c') : Gone w' c' := by
  have hinv : Formed w' ∧ Gone w' c' := by
    refine r.preserves (P := fun x => Formed x ∧ Gone x c') ?_ ⟨hf, ?_⟩
    · intro act x x' hx hs
      have hd := Step.did (fun c hc => (hx.1 c hc).1) hs
      exact ⟨hx.1.step hs, hx.2.later hd.later.1 hd.later.2 (.refl c')⟩
    · exact hg.later (.inl rfl) (fun _ => id) hc
  exact hinv.2

/-- A lock of the vault, an unlock over it and a disposal take authorizations away. -/
theorem revokes (hf : Formed w) (hc : c ∈ w.calls) (hs : Step host cfg act w w')
    (ha : (act = .lock ∨ ∃ p, act = .unlock p) ∧ c.auth.sessionBound = true
      ∨ act = .dispose c.owner) : Gone w' c := by
  have hi := (hf c hc).2.1
  rcases ha with ⟨rfl | ⟨q, rfl⟩, hb⟩ | rfl
  · cases hs
    exact .inr ⟨hb, Nat.lt_succ_of_le hi⟩
  · cases Step.did (fun c hc => (hf c hc).1) hs with
    | unlock => exact .inr ⟨hb, Nat.lt_succ_of_lt (Nat.lt_succ_of_le hi)⟩
  · cases hs
    refine .inl ?_
    show (Function.update w.instances c.owner ⟨[], true⟩ c.owner).disposed = true
    rw [Function.update_self]

/--
**The provider is a register for each slot.** Where the calls come one after the other
without lock or disposal, and no failing `get` misses a value that is stored durably, each
`get` that returns gives what the last change of its slot that resolved has left. In every
run a step of a call touches no record outside the slots its method covers, and an
authorization that is gone, by a lock or a disposal, stays gone. While no provider is disposed
with a transaction under way, a call whose authorization is gone returns nothing and writes
nothing.
-/
theorem provider_register (r : Run Initial (Step host cfg) h w) :
    ((∀ e ∈ h, Quiet e ∧ Sheltered cfg e) → ∀ newer n s value older,
      w.trace = newer ++ .got n s value :: older → value = latest n s older)
    ∧ (∀ i c act w', w.calls[i]? = some c → Steps i act → Step host cfg act w w' →
      ∀ m t, ¬ (c.owner = m ∧ c.op.covers t) → w'.records m t = w.records m t)
    ∧ (∀ c ∈ w.calls, ∀ act w', Step host cfg act w w' →
      ((act = .lock ∨ ∃ p, act = .unlock p) ∧ c.auth.sessionBound = true
        ∨ act = .dispose c.owner) → ¬ w'.authorized c)
    ∧ (∀ c ∈ w.calls, ¬ w.authorized c → ∀ h' w', Run (· = w) (Step host cfg) h' w' →
      ∀ c', Same c c' → ¬ w'.authorized c')
    ∧ ((∀ e ∈ h, Undisturbed e) → ∀ i c act w', w.calls[i]? = some c → Steps i act →
      Step host cfg act w w' → ¬ w.authorized c →
        w'.durable = w.durable ∧ w'.instances = w.instances
          ∧ ∀ m t value, w'.trace ≠ .got m t value :: w.trace) := by
  have hf := Formed.reached r
  have hgone : ∀ {w : World} {c : Call}, Gone w c → ¬ w.authorized c := by
    rintro w c (hd | ⟨hb, hr⟩) ha
    · rw [(authorized_iff.mp ha).1] at hd
      cases hd
    · exact absurd ((authorized_iff.mp ha).2 hb).2 (Nat.ne_of_gt hr)
  refine ⟨fun hq newer n s value older he => ?_, fun i c act w' hc hi hs m t hno => ?_,
    fun c hc act w' hs ha => hgone (revokes hf hc hs ha), fun c hc hn h' w' r' c' hs => ?_,
    fun hu i c act w' hc hi hs hn => hs.silent hf (.reached r hu) hi hc hn⟩
  · have hk := (Kept.reached r hq).answers
    rw [he] at hk
    exact hk.got
  · exact hs.records hf hi hc hno
  · exact hgone (Gone.run hf r' ((hf c hc).2.gone_iff.mpr hn) hs)

/-! ## Runs that can be played -/

/-- Actions one after the other, each of which passes the test. -/
def World.execs (host : Host) (cfg : Namespace → Config) (ok : World → Action → Bool) :
    List Action → World → Option World
  | [], w => some w
  | act :: acts, w =>
      if ok w act then (w.exec host cfg act).bind (execs host cfg ok acts) else none

theorem execs_run {ok : World → Action → Bool} {P : Event World Action → Prop}
    (hok : ∀ act w w', ok w act = true → P ⟨act, w, w'⟩) {acts : List Action}
    (r : Run Initial (Step host cfg) h w) (hp : ∀ e ∈ h, P e)
    (he : World.execs host cfg ok acts w = some w') :
    ∃ h', Run Initial (Step host cfg) h' w' ∧ ∀ e ∈ h', P e := by
  induction acts generalizing w h with
  | nil =>
      cases he
      exact ⟨h, r, hp⟩
  | cons act acts ih =>
      simp only [World.execs] at he
      split at he
      · next ht =>
          obtain ⟨x, hx, he'⟩ := Option.bind_eq_some_iff.mp he
          refine ih (.next r hx) (fun e hm => ?_) he'
          rcases List.mem_cons.mp hm with rfl | hm
          · exact hok act w x ht
          · exact hp e hm
      · cases he

/-- The test of `Quiet` and `Sheltered`. -/
def calm (cfg : Namespace → Config) (w : World) : Action → Bool
  | .request _ _ => w.calls.isEmpty
  | .land _ _ => true
  | .resume i =>
      match w.calls[i]? with
      | none => true
      | some c =>
          match c.phase, c.answer with
          | .reading, some (.error f) =>
              !canFallback (cfg c.owner) f
                || (Table.get (c.op.key c.owner) (w.ephemeral c.owner)).isSome
                || (Table.get (c.op.key c.owner) w.durable).isNone
          | _, _ => true
  | .lock | .unlock _ | .dispose _ => false

theorem calm_spec (hc : calm cfg w act = true) :
    Quiet ⟨act, w, w'⟩ ∧ Sheltered cfg ⟨act, w, w'⟩ := by
  cases act with
  | request n op =>
      refine ⟨⟨fun _ _ _ => ?_, nofun, nofun, nofun⟩, fun _ _ _ hl => by cases hl⟩
      exact List.isEmpty_iff.mp hc
  | land i o =>
      exact ⟨⟨fun _ _ hl => (by cases hl), nofun, nofun, nofun⟩, fun _ _ _ hl => by cases hl⟩
  | resume i =>
      refine ⟨⟨fun _ _ hl => (by cases hl), nofun, nofun, nofun⟩, fun j c f hl hj hp ha hf he => ?_⟩
      cases hl
      have hget : Table.get (c.op.key c.owner) (w.ephemeral c.owner) = none := he
      simp only [calm, show w.calls[i]? = some c from hj, hp, ha, hf, hget] at hc
      simpa using hc
  | lock | unlock _ | dispose _ => cases hc

/-- The test of `Undisturbed`. -/
def steady (w : World) : Action → Bool
  | .dispose n => w.calls.all fun c =>
      c.owner ≠ n || (match c.phase with | .committing _ => c.answer.isSome | _ => true)
  | _ => true

theorem steady_spec (ht : steady w act = true) : Undisturbed ⟨act, w, w'⟩ := by
  intro n hl c hc ho change hp ha
  cases hl
  have hall := List.all_eq_true.mp ht c hc
  simp [ho, hp, ha] at hall

namespace Demo

/-- A browser, and a provider that may fall back. -/
def browser : Host := ⟨true, true⟩

def fallback : Namespace → Config := fun _ => ⟨false, true⟩

/-- The vault is unlocked and nothing is stored. -/
def unlocked : World :=
  ⟨⟨some "a passphrase", 1⟩, [], fun _ => ⟨[], false⟩, [], []⟩

def namespace₀ : Namespace := ⟨"default", "preprod"⟩

def contract : String := "0x1111111111111111111111111111111111111111111111111111111111111111"

def slot : Slot := .state contract "agent-line-state"

/-- `set(id, b)` -/
def set (b : Bool) : Op := .set slot ⟨.boolean b, trivial⟩

/-- A call and its steps; each `false` is a wait at which the durable store fails. -/
def call (op : Op) (waits : List Bool) : List Action :=
  .request namespace₀ op :: waits.flatMap fun works =>
    [.land 0 (if works then .works else .fails "Cannot open encrypted storage."), .resume 0]

/--
One `set` is stored durably; the next fails over to the ephemeral records; `get` reads it;
`clear` removes both, and `get` finds nothing.
-/
def session : List Action :=
  call (set true) [true, true, true, true] ++ call (set false) [true, true, false, true]
    ++ call (.get slot) [true, true] ++ call (.clear contract) [true, true, true, true, true]
    ++ call (.get slot) [true]

/-- What a `get` returned. -/
def answer : Entry → Option (Option Bool)
  | .got _ _ none => some none
  | .got _ _ (some (.boolean b)) => some (some b)
  | _ => none

end Demo

theorem provider_register_sample :
    (∃ h w, Run Initial (Step Demo.browser Demo.fallback) h w
      ∧ w.trace.filterMap Demo.answer = [none, some false]
      ∧ ∀ newer n s value older, w.trace = newer ++ .got n s value :: older →
        value = latest n s older)
    ∧ ∃ h w c w', Run Initial (Step Demo.browser Demo.fallback) h w ∧ w.calls = [c]
      ∧ ¬ w.authorized c ∧ Step Demo.browser Demo.fallback (.land 0 .works) w w'
      ∧ w'.durable = w.durable ∧ w'.instances = w.instances := by
  have r : Run Initial (Step Demo.browser Demo.fallback) [] Demo.unlocked :=
    .start ⟨rfl, rfl, rfl, fun _ => rfl⟩
  constructor
  · have hanswers : (World.execs Demo.browser Demo.fallback (calm Demo.fallback) Demo.session
        Demo.unlocked).map (fun w => w.trace.filterMap Demo.answer) = some [none, some false] := by
      decide +kernel
    obtain ⟨w, hw, han⟩ := Option.map_eq_some_iff.mp hanswers
    obtain ⟨h, r', hcalm⟩ := execs_run
      (P := fun e => Quiet e ∧ Sheltered Demo.fallback e) (fun _ _ _ => calm_spec) r nofun hw
    exact ⟨h, w, r', han, (provider_register r').1 hcalm⟩
  · -- the provider is disposed while a `set` waits for its first read
    have hrun : (World.execs Demo.browser Demo.fallback steady
        [.request Demo.namespace₀ (Demo.set true), .dispose Demo.namespace₀] Demo.unlocked).map
        (fun w => (w.calls.map fun c => (w.instances c.owner).disposed,
          (w.exec Demo.browser Demo.fallback (.land 0 .works)).isSome)) = some ([true], true) := by
      decide +kernel
    obtain ⟨w, hw, hpr⟩ := Option.map_eq_some_iff.mp hrun
    obtain ⟨h, r', hsteady⟩ := execs_run (fun _ _ _ => steady_spec) r nofun hw
    obtain ⟨hcalls, hland⟩ := Prod.mk.inj hpr
    obtain ⟨w', hw'⟩ := Option.isSome_iff_exists.mp hland
    obtain ⟨c, hc, hdis⟩ := List.map_eq_singleton_iff.mp hcalls
    have hn : ¬ w.authorized c := fun ha => by
      rw [(authorized_iff.mp ha).1] at hdis
      cases hdis
    obtain ⟨hdur, hins, -⟩ :=
      (provider_register r').2.2.2.2 hsteady 0 c _ w' (by rw [hc]; rfl) .land hw' hn
    exact ⟨h, w, c, w', r', hc, hn, hw', hdur, hins⟩

theorem provider_register_fails :
    (∃ h w, Run Initial (Step Demo.browser Demo.fallback) h w
      ∧ w.trace = [.got Demo.namespace₀ Demo.slot none, .resolved Demo.namespace₀ (Demo.set true)]
      ∧ none ≠ latest Demo.namespace₀ Demo.slot [.resolved Demo.namespace₀ (Demo.set true)])
    ∧ ∃ h w c w', Run Initial (Step Demo.browser Demo.fallback) h w ∧ w.calls = [c]
      ∧ ¬ w.authorized c ∧ Step Demo.browser Demo.fallback (.land 0 .works) w w'
      ∧ w.durable.length = 0 ∧ w'.durable.length = 1 := by
  have r : Run Initial (Step Demo.browser Demo.fallback) [] Demo.unlocked :=
    .start ⟨rfl, rfl, rfl, fun _ => rfl⟩
  constructor
  · -- the durable read fails, and the fallback holds nothing
    have htrace : (World.execs Demo.browser Demo.fallback (fun _ _ => true)
        (Demo.call (Demo.set true) [true, true, true, true] ++ Demo.call (.get Demo.slot) [false])
          Demo.unlocked).map World.trace
        = some [.got Demo.namespace₀ Demo.slot none,
          .resolved Demo.namespace₀ (Demo.set true)] := by
      rfl
    obtain ⟨w, hw, htr⟩ := Option.map_eq_some_iff.mp htrace
    obtain ⟨h, r', -⟩ := execs_run (P := fun _ => True) (fun _ _ _ _ => trivial) r nofun hw
    refine ⟨h, w, r', htr, fun he => ?_⟩
    have hc : (Demo.set true).covers Demo.slot := rfl
    rw [latest, if_pos ⟨rfl, hc⟩] at he
    cases he
  · -- the provider is disposed while the transaction is under way
    have hrun : (World.execs Demo.browser Demo.fallback (fun _ _ => true)
        ((Demo.call (Demo.set true) [true, true, true]) ++ [.dispose Demo.namespace₀])
          Demo.unlocked).map (fun w => (w.calls.map fun c => (w.instances c.owner).disposed,
            w.durable.length, (w.exec Demo.browser Demo.fallback (.land 0 .works)).map
              fun w' => w'.durable.length)) = some ([true], 0, some 1) := by
      decide +kernel
    obtain ⟨w, hw, hpr⟩ := Option.map_eq_some_iff.mp hrun
    obtain ⟨h, r', -⟩ := execs_run (P := fun _ => True) (fun _ _ _ _ => trivial) r nofun hw
    simp only [Prod.mk.injEq] at hpr
    obtain ⟨hcalls, hdur, hland⟩ := hpr
    obtain ⟨w', hw', hdur'⟩ := Option.map_eq_some_iff.mp hland
    obtain ⟨c, hc, hdis⟩ := List.map_eq_singleton_iff.mp hcalls
    refine ⟨h, w, c, w', r', hc, fun ha => ?_, hw', hdur, hdur'⟩
    rw [(authorized_iff.mp ha).1] at hdis
    cases hdis

end Line.Vault.Provider
