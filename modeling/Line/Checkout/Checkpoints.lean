import Line.Checkout.Reclaim

/-!
# What the directory holds and who put it there

The directory holds, for each session, what was published last and not removed since. A load
reads each file at some moment between its call and its return, so it returns what was
published last at that moment.

A lease is written by one store after the other. While no store is closed with a save or a
removal under way, every change of a checkpoint file is made by the store that wrote its
lease last, so a former owner's checkpoint never comes after a later owner's.
-/

namespace Line.Checkout.Directory

open History

variable {ι κ γ : Type}

/-! ## Traces -/

section Traces

/-- The store that wrote its lease last. -/
def lastAcquired : List (Entry ι κ γ) → Option Uuid
  | [] => none
  | .acquired u :: _ => some u
  | .published _ _ :: t => lastAcquired t
  | .removed _ _ :: t => lastAcquired t

/-- The checkpoint of a session that was published last and not removed since. -/
def lastPublished [DecidableEq ι] (id : ι) : List (Entry ι κ γ) → Option (Envelope ι κ γ)
  | [] => none
  | .acquired _ :: t => lastPublished id t
  | .published _ file :: t => if file.id = id then some file else lastPublished id t
  | .removed _ id' :: t => if id' = id then none else lastPublished id t

/-- The store that changed a checkpoint file. -/
def Entry.changedBy : Entry ι κ γ → Option Uuid
  | .acquired _ => none
  | .published u _ | .removed u _ => some u

/-- A change comes after another only of the same store, or of one that became owner in between. -/
def NeverReplaced (trace : List (Entry ι κ γ)) : Prop :=
  ∀ newer e between e' older u v, trace = newer ++ e :: (between ++ e' :: older) →
    e.changedBy = some u → e'.changedBy = some v → u = v ∨ .acquired u ∈ between

/-- Every change was made by the store that had written its lease last. -/
def Ordered : List (Entry ι κ γ) → Prop
  | [] => True
  | e :: t => (∀ u, e.changedBy = some u → lastAcquired t = some u) ∧ Ordered t

variable {trace between older newer : List (Entry ι κ γ)} {e e' : Entry ι κ γ} {u v : Uuid}

theorem lastAcquired_change (h : e.changedBy = some u) :
    lastAcquired (e :: trace) = lastAcquired trace := by
  cases e with
  | acquired _ => cases h
  | published _ _ => rfl
  | removed _ _ => rfl

/-- The last owner became it in the newer part, or was it already. -/
theorem lastAcquired_append (h : lastAcquired (between ++ older) = some u) :
    .acquired u ∈ between ∨ lastAcquired older = some u := by
  induction between with
  | nil => exact .inr h
  | cons e t ih =>
      cases e with
      | acquired v =>
          cases h
          exact .inl (List.mem_cons_self ..)
      | published v f => exact (ih h).imp (List.mem_cons_of_mem _) id
      | removed v i => exact (ih h).imp (List.mem_cons_of_mem _) id

theorem Ordered.of_append (h : Ordered (newer ++ older)) : Ordered older := by
  induction newer with
  | nil => exact h
  | cons e t ih => exact ih h.2

theorem Ordered.neverReplaced (h : Ordered trace) : NeverReplaced trace := by
  intro newer e between e' older u v he hu hv
  rw [he] at h
  obtain ⟨h1, h2⟩ := h.of_append
  have h3 := h2.of_append
  rcases lastAcquired_append (h1 u hu) with hm | hl
  · exact .inr hm
  · rw [lastAcquired_change hv, h3.1 v hv] at hl
    exact .inl (Option.some.inj hl).symm

end Traces

/-! ## The files -/

section Files

variable [DecidableEq ι] {files : List (ι × Envelope ι κ γ)} {id j : ι} {file : Envelope ι κ γ}

theorem find_unlink : find id (unlink j files) = if j = id then none else find id files :=
  Table.get_erase

theorem find_replace :
    find id (replace file files) = if file.id = id then some file else find id files :=
  Table.get_put

/--
The sessions `ids` are those that had a checkpoint at one moment between `since` and now, and
each snapshot read was the one published last at some moment after that.
-/
def Faithful (since now : List (Entry ι κ γ)) (ids : List ι) (snapshots : List (ι × γ)) : Prop :=
  ∃ listed, since <:+ listed ∧ listed <:+ now ∧ ids.Nodup
    ∧ (∀ id, id ∈ ids ↔ (lastPublished id listed).isSome = true)
    ∧ ∀ x ∈ snapshots, ∃ read file, listed <:+ read ∧ read <:+ now
      ∧ lastPublished x.1 read = some file ∧ file.snapshot = x.2

variable {since now now' : List (Entry ι κ γ)} {ids : List ι} {snapshots : List (ι × γ)}

theorem Faithful.mono (h : Faithful since now ids snapshots) (hn : now <:+ now') :
    Faithful since now' ids snapshots := by
  obtain ⟨listed, h1, h2, h3, h4, h5⟩ := h
  refine ⟨listed, h1, h2.trans hn, h3, h4, fun x hx => ?_⟩
  obtain ⟨read, file, hr, hrn, hf⟩ := h5 x hx
  exact ⟨read, file, hr, hrn.trans hn, hf⟩

/-- One more file is read. -/
theorem Faithful.read (h : Faithful since now ids snapshots)
    (hf : lastPublished id now = some file) :
    Faithful since now ids (snapshots ++ [(id, file.snapshot)]) := by
  obtain ⟨listed, h1, h2, h3, h4, h5⟩ := h
  refine ⟨listed, h1, h2, h3, h4, fun x hx => ?_⟩
  rcases List.mem_append.mp hx with hx | hx
  · exact h5 x hx
  · rw [List.mem_singleton] at hx
    subst hx
    exact ⟨now, file, h2, List.suffix_refl _, hf, rfl⟩

/-- What a call that is under way has done so far. -/
def Task.Faithful (now : List (Entry ι κ γ)) : Task ι κ γ → Prop
  | .saving _ _ | .removing _ _ => True
  | .listing _ since => since <:+ now
  | .loading _ since files snapshots =>
      Directory.Faithful since now (snapshots.map Prod.fst ++ files) snapshots
  | .fetching _ since id files snapshots =>
      Directory.Faithful since now (snapshots.map Prod.fst ++ id :: files) snapshots

/-- What a load returned. -/
def Load.Faithful (l : Load ι κ γ) : Prop :=
  Directory.Faithful l.since l.upto (l.snapshots.map Prod.fst) l.snapshots

theorem Task.Faithful.mono {t : Task ι κ γ} (h : t.Faithful now) (hn : now <:+ now') :
    t.Faithful now' := by
  cases t with
  | saving _ _ => exact trivial
  | removing _ _ => exact trivial
  | listing _ _ => exact List.IsSuffix.trans h hn
  | loading _ _ _ _ => exact Directory.Faithful.mono h hn
  | fetching _ _ _ _ _ => exact Directory.Faithful.mono h hn

end Files

/-! ## Runs -/

section Runs

variable [DecidableEq ι] {w w' : World ι κ γ} {u v : Uuid} {s t : Store κ}

/-- The files are those published last, and the loads read them so. -/
structure Kept (w : World ι κ γ) : Prop where
  files : ∀ id, find id w.files = lastPublished id w.trace
  nodup : (w.files.map Prod.fst).Nodup
  tasks : ∀ t ∈ w.tasks, t.Faithful w.trace
  loads : ∀ l ∈ w.loads, l.Faithful ∧ l.upto <:+ w.trace

theorem Kept.empty : Kept (World.empty : World ι κ γ) where
  files _ := rfl
  nodup := List.nodup_nil
  tasks t ht := by cases ht
  loads l hl := by cases hl

/-- A step that reads no file and publishes none. -/
theorem Kept.same (hk : Kept w) (hf : w'.files = w.files)
    (htr : w'.trace = w.trace ∨ ∃ u, w'.trace = .acquired u :: w.trace)
    (htk : ∀ t ∈ w'.tasks, t ∈ w.tasks) (hl : w'.loads = w.loads) : Kept w' := by
  have hsuf : w.trace <:+ w'.trace := by
    rcases htr with he | ⟨u, he⟩ <;> rw [he]
    exact List.suffix_cons ..
  refine ⟨fun id => ?_, by rw [hf]; exact hk.nodup, fun t ht => ?_, fun l hl' => ?_⟩
  · have hpub : lastPublished id w'.trace = lastPublished id w.trace := by
      rcases htr with he | ⟨u, he⟩ <;> rw [he]
      rfl
    rw [hf, hpub]
    exact hk.files id
  · exact (hk.tasks t (htk t ht)).mono hsuf
  · rw [hl] at hl'
    exact ⟨(hk.loads l hl').1, (hk.loads l hl').2.trans hsuf⟩

/-- A call begins. -/
theorem Kept.call (hk : Kept w) {x : Task ι κ γ} (hx : x.Faithful w.trace) :
    Kept { w with tasks := w.tasks ++ [x] } := by
  refine ⟨hk.files, hk.nodup, fun t ht => ?_, hk.loads⟩
  rcases List.mem_append.mp ht with ht | ht
  · exact hk.tasks t ht
  · rw [List.mem_singleton.mp ht]
    exact hx

/-- The tasks that remain, and the one that goes on. -/
theorem Kept.rest (hk : Kept w) {rest : List (Task ι κ γ)} (hr : ∀ t ∈ rest, t ∈ w.tasks)
    {x : Task ι κ γ} (hx : x.Faithful w.trace) : ∀ t ∈ x :: rest, t.Faithful w.trace := by
  intro t ht
  rcases List.mem_cons.mp ht with rfl | ht
  · exact hx
  · exact hk.tasks t (hr t ht)

variable [DecidableEq κ] {a : Action ι κ γ} {h : List (Event (World ι κ γ) (Action ι κ γ))}

/-- **A step of a call**: a file is changed as the trace records it, or read as it is. -/
theorem Kept.run (hk : Kept w) {x : Task ι κ γ} (hx : x ∈ w.tasks) {rest : List (Task ι κ γ)}
    (hr : ∀ t ∈ rest, t ∈ w.tasks) : Kept (w.run s rest x) := by
  have hxf := hk.tasks x hx
  have hold : ∀ t ∈ rest, t.Faithful w.trace := fun t ht => hk.tasks t (hr t ht)
  cases x with
  -- a change of a file is recorded in the trace as it is made
  | saving u file =>
      have hsuf : w.trace <:+ .published u file :: w.trace := List.suffix_cons ..
      refine ⟨fun id => ?_, Table.nodup_put hk.nodup, fun t ht => (hold t ht).mono hsuf,
        fun l hl => ⟨(hk.loads l hl).1, (hk.loads l hl).2.trans hsuf⟩⟩
      show find id (replace file w.files) = _
      rw [find_replace, hk.files id]
      rfl
  | removing u id =>
      have hsuf : w.trace <:+ .removed u id :: w.trace := List.suffix_cons ..
      refine ⟨fun j => ?_, Table.nodup_erase hk.nodup, fun t ht => (hold t ht).mono hsuf,
        fun l hl => ⟨(hk.loads l hl).1, (hk.loads l hl).2.trans hsuf⟩⟩
      show find j (unlink id w.files) = _
      rw [find_unlink, hk.files j]
      rfl
  -- the listing says which sessions had a file at that moment
  | listing u since =>
      have hx' : Task.Faithful w.trace (.loading u since (w.files.map Prod.fst) []) := by
        refine ⟨w.trace, hxf, List.suffix_refl _, hk.nodup, fun id => ?_, fun y hy => by cases hy⟩
        rw [← hk.files id]
        exact Table.get_isSome
      simp only [World.run]
      split
      · exact ⟨hk.files, hk.nodup, hold, hk.loads⟩
      · exact ⟨hk.files, hk.nodup, hk.rest hr hx', hk.loads⟩
  | loading u since files snapshots =>
      -- at the end the load answers what it has read, else it goes to the next file
      cases files with
      | nil =>
          refine ⟨hk.files, hk.nodup, hold, fun l hl => ?_⟩
          rcases List.mem_cons.mp hl with rfl | hl
          · have hxf' := hxf
            simp only [Task.Faithful, List.append_nil] at hxf'
            exact ⟨hxf', List.suffix_refl _⟩
          · exact hk.loads l hl
      | cons id files =>
          simp only [World.run]
          split
          · exact ⟨hk.files, hk.nodup, hk.rest hr hxf, hk.loads⟩
          · exact ⟨hk.files, hk.nodup, hold, hk.loads⟩
  | fetching u since id files snapshots =>
      simp only [World.run]
      split
      · exact ⟨hk.files, hk.nodup, hold, hk.loads⟩
      -- the file is read as it is now, which is what was published last
      · next file hfile =>
          split
          · have hread : Task.Faithful w.trace
                (.loading u since files (snapshots ++ [(id, file.snapshot)])) := by
              have hone := Faithful.read hxf (by rw [← hk.files id]; exact hfile)
              show Faithful _ _ _ _
              rw [List.map_append, List.append_assoc]
              exact hone
            exact ⟨hk.files, hk.nodup, hk.rest hr hread, hk.loads⟩
          · exact ⟨hk.files, hk.nodup, hold, hk.loads⟩

theorem Kept.step (hk : Kept w) (hs : Step a w w') : Kept w' := by
  cases hs.did with
  | start _ _ he =>
      subst he
      exact hk.same rfl (.inl rfl) (fun _ ht => ht) rfl
  | @step u s p k _ _ he =>
      subst he
      -- a step of the lock may record a new owner, and touches no file
      refine hk.same rfl ?_ (fun _ ht => ht) rfl
      cases s.phase.acquires with
      | true => exact .inr ⟨u, rfl⟩
      | false => exact .inl rfl
  | save _ _ he =>
      subst he
      exact hk.call trivial
  | remove _ _ he =>
      subst he
      exact hk.call trivial
  | loadAll _ _ he =>
      subst he
      exact hk.call (List.suffix_refl _)
  | close _ _ he =>
      subst he
      exact hk.same rfl (.inl rfl) (fun _ ht => ht) rfl
  -- the step of a call is the case above
  | work hx _ he =>
      subst he
      exact hk.run (List.mem_of_getElem? hx) fun t ht => List.mem_of_mem_eraseIdx ht
  -- a crash takes the calls of its process along
  | crash _ he =>
      subst he
      exact hk.same rfl (.inl rfl) (fun _ ht => (List.mem_filter.mp ht).1) rfl

theorem Kept.reached (r : Run (· = World.empty) Step h w) : Kept w :=
  r.invariant (I := fun _ w => Kept w) (fun _ he => by rw [he]; exact .empty)
    fun _ _ _ _ _ hi hs => hi.step hs

/-! ## Who changes the files -/

/-- A store has the lease after a step by having had it, or by writing it. -/
theorem next_holds {crashed : List Pid} {pid : Pid} {p p' : Phase} {k k' : Lock}
    (h : p.next crashed u pid k = some (p', k')) (hh : p'.holds = true)
    (ha : p'.acquires = false) : p.acquires = true ∨ p.holds = true := by
  cases p with
  -- these have it already
  | writing | rewriting | releasing | unlinking | owning => exact .inr rfl
  | leaving acquired =>
      cases acquired with
      | true => exact .inr rfl
      | false =>
          simp only [Phase.next] at h
          split at h
          · cases h
            cases hh
          · cases h
            cases hh
  -- these create it, and end in a phase that acquires
  | creating | republishing =>
      simp only [Phase.next] at h
      split at h
      · cases h
        cases ha
      · cases h
        cases hh
  -- the rest go on without it, or refuse
  | guarding | checking | probing _ | rereading _ | removing =>
      simp only [Phase.next] at h
      split at h
      · cases h
        cases hh
      · cases h
        cases hh
  | reading =>
      simp only [Phase.next] at h
      repeat' split at h
      all_goals
        cases h
        cases hh
  | refused | closed => cases h

/-- A live store with a complete lease is the one that wrote its lease last. -/
def Owner (w : World ι κ γ) : Prop :=
  ∀ u s, w.live u = some s → s.phase.holds = true → s.phase.acquires = false →
    lastAcquired w.trace = some u

/-- A step of a call does not make a new owner. -/
theorem lastAcquired_run (rest : List (Task ι κ γ)) (x : Task ι κ γ) :
    lastAcquired (w.run s rest x).trace = lastAcquired w.trace := by
  fun_cases World.run <;> rfl

theorem Owner.step (hw : Sound w) (ho : Owner w) (hs : Step a w w') : Owner w' := by
  cases hs.did with
  | start _ hp he =>
      subst he
      intro v t hv hh ha
      rw [live_move hp] at hv
      split at hv
      · cases hv
        cases hh
      · exact ho v t hv hh ha
  | @step u s p k hu hn he =>
      subst he
      intro v t hv hh ha
      have hv' : (w.move u s p).live v = some t := hv
      rw [live_move (live_eq_some.mp hu).2] at hv'
      show lastAcquired (if s.phase.acquires then _ else _) = _
      split at hv'
      · next hvu =>
          cases hv'
          rw [hvu]
          by_cases hacq : s.phase.acquires = true
          · rw [if_pos hacq]
            rfl
          · rw [if_neg hacq]
            have hheld := (next_holds hn hh ha).resolve_left hacq
            exact ho u s hu hheld (by simpa using hacq)
      · next hvu =>
          -- nobody writes a lease while another live store has one
          have hacq : s.phase.acquires = false := by
            by_contra hacq
            have hheld : s.phase.holds = true := by
              cases hp : s.phase <;> rw [hp] at hacq <;> first | rfl | exact absurd rfl hacq
            exact hvu (hw.unique hv' hu hh hheld)
          rw [hacq]
          exact ho v t hv' hh ha
  | save _ _ he =>
      subst he
      exact ho
  | remove _ _ he =>
      subst he
      exact ho
  | loadAll _ _ he =>
      subst he
      exact ho
  | @close u s hu hp he =>
      subst he
      intro v t hv hh ha
      rw [live_move (live_eq_some.mp hu).2] at hv
      split at hv
      · next hvu =>
          cases hv
          rw [hvu]
          exact ho u s hu (by rw [hp]; rfl) (by rw [hp]; rfl)
      · exact ho v t hv hh ha
  | @work n x s _ _ he =>
      subst he
      intro v t hv hh ha
      obtain ⟨hst, hc, -⟩ := run_frame (w := w) (s := s) (w.tasks.eraseIdx n) x
      rw [live_eq_some, hst, hc, ← live_eq_some] at hv
      rw [lastAcquired_run]
      exact ho v t hv hh ha
  | crash _ he =>
      subst he
      intro v t hv hh ha
      obtain ⟨hst, hp⟩ := live_eq_some.mp hv
      exact ho v t (live_eq_some.mpr ⟨hst, fun hq => hp (List.mem_cons_of_mem _ hq)⟩) hh ha

theorem Owner.reached (r : Run (· = World.empty) Step h w) : Owner w :=
  r.invariant (I := fun _ w => Owner w) (fun _ he => by rw [he]; intro _ _ hu; cases hu)
    fun _ _ _ _ r hi hs => hi.step (.reached r) hs

/-- A store is closed only while it neither saves nor removes. -/
def Settled (e : Event (World ι κ γ) (Action ι κ γ)) : Prop :=
  ∀ u, e.label = .close u → ∀ t ∈ e.pre.tasks, t.lease = u → t.writes = false

/-- Changes under way are those of open stores, and the changes made are in order. -/
structure Latest (w : World ι κ γ) : Prop where
  tasks : ∀ t ∈ w.tasks, t.writes = true → ∃ s, w.live t.lease = some s ∧ s.phase = .owning
  ordered : Ordered w.trace

/-- The calls under way when a step of one of them is done. -/
theorem mem_run {rest : List (Task ι κ γ)} {x y : Task ι κ γ} (hy : y ∈ (w.run s rest x).tasks)
    (hw : y.writes = true) : y ∈ rest := by
  have key : ∀ z : Task ι κ γ, y ∈ z :: rest → z.writes = false → y ∈ rest := by
    intro z hz hzw
    rcases List.mem_cons.mp hz with rfl | hz
    · rw [hzw] at hw
      cases hw
    · exact hz
  revert hy
  fun_cases World.run with
  | case1 => exact id
  | case2 => exact id
  | case3 => exact id
  | case4 => exact fun hy => key _ hy rfl
  | case5 => exact id
  | case6 => exact fun hy => key _ hy rfl
  | case7 => exact id
  | case8 => exact id
  | case9 => exact fun hy => key _ hy rfl
  | case10 => exact id

omit [DecidableEq ι] [DecidableEq κ] in
/-- A call on an open store begins. -/
theorem Latest.call (hl : Latest w) {x : Task ι κ γ} {s : Store κ} (hu : w.live x.lease = some s)
    (hp : s.phase = .owning) : Latest { w with tasks := w.tasks ++ [x] } := by
  refine ⟨fun t ht hw => ?_, hl.ordered⟩
  rcases List.mem_append.mp ht with ht | ht
  · exact hl.tasks t ht hw
  · rw [List.mem_singleton.mp ht]
    exact ⟨s, hu, hp⟩

theorem Latest.step (ho : Owner w) (hl : Latest w) (hs : Step a w w')
    (hq : Settled ⟨a, w, w'⟩) : Latest w' := by
  cases hs.did with
  | @start u pid key hu hp he =>
      subst he
      refine ⟨fun t ht hw => ?_, hl.ordered⟩
      obtain ⟨s, hts, hto⟩ := hl.tasks t ht hw
      refine ⟨s, ?_, hto⟩
      -- the new store is none that had calls
      rw [live_move hp, if_neg ?_]
      · exact hts
      · intro he
        rw [he, live_eq_some, hu] at hts
        cases hts.1
  | @step u s p k hu hn he =>
      subst he
      refine ⟨fun t ht hw => ?_, ?_⟩
      · obtain ⟨t', hts, hto⟩ := hl.tasks t ht hw
        refine ⟨t', ?_, hto⟩
        show (w.move u s p).live t.lease = _
        rw [live_move (live_eq_some.mp hu).2, if_neg ?_]
        · exact hts
        · -- an open store has no step of its own
          intro he
          rw [he, hu] at hts
          cases hts
          rw [hto] at hn
          cases hn
      · show Ordered (if s.phase.acquires then _ else _)
        cases s.phase.acquires with
        | true => exact ⟨nofun, hl.ordered⟩
        | false => exact hl.ordered
  | save hu hp he =>
      subst he
      exact hl.call hu hp
  | remove hu hp he =>
      subst he
      exact hl.call hu hp
  | loadAll hu hp he =>
      subst he
      exact hl.call hu hp
  -- a store that closes has no save or removal under way
  | @close u s hu hp he =>
      subst he
      refine ⟨fun t ht hw => ?_, hl.ordered⟩
      obtain ⟨t', hts, hto⟩ := hl.tasks t ht hw
      refine ⟨t', ?_, hto⟩
      rw [live_move (live_eq_some.mp hu).2, if_neg ?_]
      · exact hts
      · intro he
        rw [hq u rfl t ht he] at hw
        cases hw
  | @work n x s hx _ he =>
      subst he
      have hmem := List.mem_of_getElem? hx
      obtain ⟨hst, hc, -⟩ := run_frame (w := w) (s := s) (w.tasks.eraseIdx n) x
      refine ⟨fun t ht hw => ?_, ?_⟩
      · obtain ⟨t', hts, hto⟩ := hl.tasks t (List.mem_of_mem_eraseIdx (mem_run ht hw)) hw
        refine ⟨t', ?_, hto⟩
        rw [live_eq_some, hst, hc, ← live_eq_some]
        exact hts
      · -- a call that changes a file is one of the last owner
        have hown : x.writes = true → lastAcquired w.trace = some x.lease := by
          intro hw
          obtain ⟨t', hts, hto⟩ := hl.tasks x hmem hw
          exact ho _ t' hts (by rw [hto]; rfl) (by rw [hto]; rfl)
        fun_cases World.run with
        | case1 u file =>
            refine ⟨fun v hv => ?_, hl.ordered⟩
            cases hv
            exact hown rfl
        | case2 u id =>
            refine ⟨fun v hv => ?_, hl.ordered⟩
            cases hv
            exact hown rfl
        | case3 | case4 | case5 | case6 | case7 | case8 | case9 | case10 => exact hl.ordered
  | @crash pid _ he =>
      subst he
      refine ⟨fun t ht hw => ?_, hl.ordered⟩
      obtain ⟨htm, htp⟩ := List.mem_filter.mp ht
      obtain ⟨s, hts, hto⟩ := hl.tasks t htm hw
      obtain ⟨hst, hp⟩ := live_eq_some.mp hts
      rw [hst] at htp
      -- the calls that are left are of other processes
      have hne : s.pid ≠ pid := by simpa using htp
      refine ⟨s, live_eq_some.mpr ⟨hst, fun hq => ?_⟩, hto⟩
      rcases List.mem_cons.mp hq with hq | hq
      · exact hne hq
      · exact hp hq

theorem Latest.reached (r : Run (· = World.empty) Step h w) (hq : ∀ e ∈ h, Settled e) :
    Latest w := by
  induction r with
  | start he =>
      subst he
      exact ⟨fun t ht => (by cases ht), trivial⟩
  | next r hs ih =>
      have hl := ih fun e he => hq e (List.mem_cons_of_mem _ he)
      exact hl.step (.reached r) hs (hq _ (List.mem_cons_self ..))

/-- Actions one after the other. -/
def World.execs : List (Action ι κ γ) → World ι κ γ → Option (World ι κ γ)
  | [], w => some w
  | a :: as, w => (w.exec a).bind (execs as)

theorem execs_run {as : List (Action ι κ γ)} (r : Run (· = World.empty) Step h w)
    (he : World.execs as w = some w') :
    ∃ h₁, Run (· = World.empty) Step (h₁ ++ h) w' ∧
      h₁.map Event.label = as.reverse := by
  induction as generalizing w h with
  | nil =>
      cases he
      exact ⟨[], r, rfl⟩
  | cons a as ih =>
      obtain ⟨x, hx, he'⟩ := Option.bind_eq_some_iff.mp he
      obtain ⟨h₁, r', hl⟩ := ih (.next r hx) he'
      refine ⟨h₁ ++ [⟨a, w, x⟩], ?_, ?_⟩
      · rw [List.append_assoc]
        exact r'
      · rw [List.map_append, hl, List.reverse_cons]
        rfl

/--
**The directory has one owner.** However the processes open, save, load, remove, close and
crash: no two live stores have the lease; the lease of a live store is there, and changes by
a step of that store alone; a store opened later can come to own the directory when there is
no lease; a stale recovery directory beside the lease of a dead process only refuses, nothing
changes the lock any more; and what a load returned for a session is what was published last
at some moment while it ran, for the sessions that had a checkpoint when it listed them.
If no process crashed between creating its lease and writing it, the lease of a dead process
is taken over by a store opened later, unless a dead process left its recovery directory;
while the empty lease such a crash leaves is never taken over. If no store was closed while it
saved or removed, a checkpoint file is changed after another store changed one only by a store
that became owner in between.
-/
theorem directory_owned (r : Run (· = World.empty) Step h w) :
    (∀ u v s t, w.live u = some s → w.live v = some t → s.phase.holds = true →
      t.phase.holds = true → u = v)
    ∧ (∀ u s, w.live u = some s → s.phase.holds = true →
      ∃ l, w.lock.lease = some l ∧ l.lease = u ∧ l.pid = s.pid ∧ l.written = !s.phase.acquires
        ∧ ∀ a w', Step a w w' → w'.lock.lease = some l ∨ a = .step u)
    ∧ (w.lock.lease = none → ∀ u pid (_ : κ), w.stores u = none → pid ∉ w.crashed →
      ∃ w', Leads w w' ∧ ∃ s, w'.live u = some s ∧ s.phase = .owning)
    ∧ (∀ l g, w.lock.lease = some l → l.pid ∈ w.crashed → w.lock.recovery = some g →
      w.live g = none → ∀ w', Leads w w' → w'.lock = w.lock)
    ∧ (∀ l, w.lock.lease = some l → l.pid ∈ w.crashed → l.written = false →
      ∀ w', Leads w w' → ∀ u s, w'.live u = some s → s.phase.holds = false)
    ∧ ((∀ e ∈ h, Complete e) → ∀ l, w.lock.lease = some l → l.pid ∈ w.crashed →
      (∀ g, w.lock.recovery = some g → ∃ t, w.live g = some t) →
      ∀ u pid (_ : κ), w.stores u = none → pid ∉ w.crashed →
        ∃ w', Leads w w' ∧ ∃ s, w'.live u = some s ∧ s.phase = .owning)
    ∧ (∀ l ∈ w.loads, l.Faithful ∧ l.upto <:+ w.trace)
    ∧ ((∀ e ∈ h, Settled e) → NeverReplaced w.trace) := by
  have hw := Sound.reached r
  -- what the lock guarantees, and then the files
  refine ⟨fun u v s t => hw.unique, fun u s => hw.lease_kept,
    fun hl u pid key hu hp => opens_free key hl hu hp, ?_, ?_, ?_,
    (Kept.reached r).loads, fun hq => (Latest.reached r hq).ordered.neverReplaced⟩
  · rintro l g hl hc hr hg w' ⟨_, r'⟩
    exact (hw.stale hl hc hr hg).run r'
  · intro l hl hc he w' hlead u s hu
    exact hw.empty_blocks hl he hc hlead hu
  · intro hq l hl hc hg u pid key hu hp
    rcases Claimable.reached r hq l hl hc with hwr | ⟨g, hr, hnone⟩
    · exact hw.reopens hl hwr hc hg key hu hp
    · -- a recovery directory is left, which the hypothesis excludes
      obtain ⟨t, ht⟩ := hg g hr
      rw [hnone] at ht
      cases ht

namespace Demo

/-- A process publishes a checkpoint. -/
def publish : List (Action ℕ ℕ ℕ) := [.start 1 10 0, .step 1, .step 1, .save 1 5 100, .work 0]

def published : World ℕ ℕ ℕ := (World.execs publish .empty).getD .empty

/-- It crashes. -/
def left : World ℕ ℕ ℕ := (published.exec (.crash 10)).getD .empty

/-- Another process takes its lease over and loads. -/
def takeover : List (Action ℕ ℕ ℕ) :=
  .start 2 20 0 :: List.replicate 10 (.step 2) ++ .loadAll 2 :: List.replicate 4 (.work 0)

def taken : World ℕ ℕ ℕ := (World.execs takeover left).getD .empty

end Demo

theorem directory_owned_sample :
    (∃ w, Leads Demo.left w ∧ ∃ s, w.live 2 = some s ∧ s.phase = .owning)
    ∧ Demo.taken.lock = ⟨some ⟨20, 2, true⟩, none⟩
    ∧ Demo.taken.loads.map Load.snapshots = [[(5, 100)]] ∧ (∀ l ∈ Demo.taken.loads, l.Faithful)
    ∧ Demo.taken.trace = [.acquired 2, .published 1 ⟨5, 0, 100⟩, .acquired 1]
    ∧ NeverReplaced Demo.taken.trace := by
  obtain ⟨h₀, r₀, hl₀⟩ := execs_run (.start rfl)
    (show World.execs Demo.publish .empty = some Demo.published from rfl)
  have r : Run (· = World.empty) Step _ Demo.left :=
    .next r₀ (show Step (.crash 10) Demo.published Demo.left from rfl)
  obtain ⟨h₁, r₁, hl₁⟩ := execs_run r
    (show World.execs Demo.takeover Demo.left = some Demo.taken from rfl)
  -- the lease was written when the process crashed
  have hcomplete : ∀ e ∈ (⟨.crash 10, Demo.published, Demo.left⟩ :: (h₀ ++ [])),
      Complete e := by
    intro e he
    rcases List.mem_cons.mp he with rfl | he
    · refine (Sound.reached r₀).complete_of_written fun l hl => ?_
      cases hl
      rfl
    · intro pid hc
      rw [List.append_nil] at he
      have hm := List.mem_map_of_mem (f := Event.label) he
      rw [hl₀, hc] at hm
      simp [Demo.publish] at hm
  -- and no store is closed
  have hsettled : ∀ e ∈ h₁ ++ (⟨.crash 10, Demo.published, Demo.left⟩ :: (h₀ ++ [])),
      Settled e := by
    intro e he u hc
    have hm := List.mem_map_of_mem (f := Event.label) he
    rw [List.map_append, List.map_cons, List.map_append, hl₀, hl₁, hc] at hm
    simp [Demo.publish, Demo.takeover] at hm
  obtain ⟨-, -, -, -, -, htake, -⟩ := directory_owned r
  obtain ⟨-, -, -, -, -, -, hloads, hkept⟩ := directory_owned r₁
  refine ⟨htake hcomplete ⟨10, 1, true⟩ rfl (List.mem_cons_self ..) nofun 2 20 0 rfl (by decide),
    rfl, rfl, fun l hl => (hloads l hl).1, rfl, hkept hsettled⟩

namespace Demo

/-- A store is closed while its save is under way; the next owner's checkpoint is replaced. -/
def overtake : List (Action ℕ ℕ ℕ) :=
  [.start 1 10 0, .step 1, .step 1, .save 1 5 100, .close 1, .step 1, .step 1,
    .start 2 20 0, .step 2, .step 2, .save 2 5 200, .work 1, .work 0]

def overtaken : World ℕ ℕ ℕ := (World.execs overtake .empty).getD .empty

/-- A process creates its lease file and crashes before it writes it. -/
def abandon : List (Action ℕ ℕ ℕ) := [.start 1 10 0, .step 1, .crash 10]

def abandoned : World ℕ ℕ ℕ := (World.execs abandon .empty).getD .empty

end Demo

theorem directory_owned_fails :
    (∃ h, Run (· = World.empty) Step h Demo.overtaken
      ∧ Demo.overtaken.lock = ⟨some ⟨20, 2, true⟩, none⟩
      ∧ find 5 Demo.overtaken.files = some ⟨5, 0, 100⟩ ∧ ¬ NeverReplaced Demo.overtaken.trace)
    ∧ ∃ h, Run (· = World.empty) Step h Demo.abandoned
      ∧ Demo.abandoned.lock = ⟨some ⟨10, 1, false⟩, none⟩ ∧ Demo.abandoned.crashed = [10]
      ∧ ∀ w, Leads Demo.abandoned w → ∀ u s, w.live u = some s → s.phase ≠ .owning := by
  constructor
  · obtain ⟨h, r, -⟩ := execs_run (.start rfl)
      (show World.execs Demo.overtake .empty = some Demo.overtaken from rfl)
    refine ⟨_, r, rfl, rfl, fun hn => ?_⟩
    rcases hn [] (.published 1 ⟨5, 0, 100⟩) [] (.published 2 ⟨5, 0, 200⟩)
      [.acquired 2, .acquired 1] 1 2 rfl rfl rfl with hu | hm
    · cases hu
    · cases hm
  · obtain ⟨h, r, -⟩ := execs_run (.start rfl)
      (show World.execs Demo.abandon .empty = some Demo.abandoned from rfl)
    refine ⟨_, r, rfl, rfl, fun w hlead u s hu hp => ?_⟩
    -- the empty file stays, and the store of a dead process holds it
    have hno := (Sound.reached r).empty_blocks (l := ⟨10, 1, false⟩) rfl rfl
      (List.mem_cons_self ..) hlead hu
    rw [hp] at hno
    cases hno

end Runs
end Line.Checkout.Directory
