import Mathlib.Data.List.Basic
import Mathlib.Data.Nat.Init
import Mathlib.Tactic.Common

/-!
# Taking turns

Critical sections in the order of their arrival. A section belongs to a key, and it may start when
every section of its key that arrived before it has finished (`Step`). That is all a mutex has to
see to: no two sections of a key run at once (`Ordered.exclusive`), they start in the order of
their arrival (`Ordered.before`), and where every section that may start does start, and every one
that runs finishes, each section has its turn (`eventually_starts`).

A mutex is verified by reading off its state which sections there are and showing that each of its
actions is one of these steps, or none, and that a section that may start is woken
(`Mutex.Simulates`). Everything else follows (`Mutex.Simulates.serves`).
-/

namespace Turns

inductive Phase where
  | waiting
  | running
  | finished
deriving DecidableEq

/-- A section, with the key it belongs to. -/
structure Section (κ : Type) where
  key : κ
  phase : Phase
deriving DecidableEq

variable {κ : Type}

/-- What happens to the sections, in the order of their arrival. -/
inductive Step : List (Section κ) → List (Section κ) → Prop
  | arrive {l : List (Section κ)} (k : κ) : Step l (l ++ [⟨k, .waiting⟩])
  | start {pre post : List (Section κ)} {k : κ} : (∀ a ∈ pre, a.key = k → a.phase = .finished) →
      Step (pre ++ ⟨k, .waiting⟩ :: post) (pre ++ ⟨k, .running⟩ :: post)
  | finish {pre post : List (Section κ)} {k : κ} :
      Step (pre ++ ⟨k, .running⟩ :: post) (pre ++ ⟨k, .finished⟩ :: post)

/-- Of two sections of a key, the later one waits or the earlier one has finished. -/
def Ordered (l : List (Section κ)) : Prop :=
  l.Pairwise fun a b => a.key = b.key → b.phase = .waiting ∨ a.phase = .finished

theorem Ordered.nil : Ordered ([] : List (Section κ)) := List.Pairwise.nil

/-- **Turns stay in order.** -/
theorem Ordered.step {l l' : List (Section κ)} (h : Ordered l) (st : Step l l') : Ordered l' := by
  unfold Ordered at h ⊢
  cases st with
  | arrive k =>
      rw [List.pairwise_append]
      refine ⟨h, List.pairwise_singleton _ _, fun a _ b hb _ => ?_⟩
      rw [List.mem_singleton] at hb
      subst hb
      exact .inl rfl
  | start hpre =>
      rw [List.pairwise_append, List.pairwise_cons] at h ⊢
      obtain ⟨h1, ⟨h2, h3⟩, h4⟩ := h
      refine ⟨h1, ⟨fun b hb hk => ?_, h3⟩, fun a ha b hb hk => ?_⟩
      · -- after a section that waited all of its key wait
        rcases h2 b hb hk with hw | hf
        · exact .inl hw
        · cases hf
      · rcases List.mem_cons.mp hb with rfl | hb
        · exact .inr (hpre a ha hk)
        · exact h4 a ha b (List.mem_cons_of_mem _ hb) hk
  | finish =>
      rw [List.pairwise_append, List.pairwise_cons] at h ⊢
      obtain ⟨h1, ⟨h2, h3⟩, h4⟩ := h
      refine ⟨h1, ⟨fun b _ _ => .inr rfl, h3⟩, fun a ha b hb hk => ?_⟩
      rcases List.mem_cons.mp hb with rfl | hb
      · -- before a section that ran all of its key have finished
        rcases h4 a ha _ List.mem_cons_self hk with hw | hf
        · cases hw
        · exact .inr hf
      · exact h4 a ha b (List.mem_cons_of_mem _ hb) hk

/-- **Sections start in the order of their arrival**: where a later one has started, the earlier
one has finished. -/
theorem Ordered.before {l : List (Section κ)} (h : Ordered l) {i j : ℕ} {a b : Section κ}
    (hij : i < j) (hi : l[i]? = some a) (hj : l[j]? = some b) (hk : a.key = b.key)
    (hb : b.phase ≠ .waiting) : a.phase = .finished := by
  obtain ⟨hil, rfl⟩ := List.getElem?_eq_some_iff.mp hi
  obtain ⟨hjl, rfl⟩ := List.getElem?_eq_some_iff.mp hj
  rcases List.pairwise_iff_getElem.mp h i j hil hjl hij hk with hw | hf
  · exact absurd hw hb
  · exact hf

/-- **No two sections of a key run at once.** -/
theorem Ordered.exclusive {l : List (Section κ)} (h : Ordered l) {i j : ℕ} {a b : Section κ}
    (hi : l[i]? = some a) (hj : l[j]? = some b) (hk : a.key = b.key)
    (ha : a.phase = .running) (hb : b.phase = .running) : i = j := by
  rcases Nat.lt_trichotomy i j with hlt | heq | hlt
  · have hf := h.before hlt hi hj hk (by rw [hb]; nofun)
    rw [ha] at hf
    cases hf
  · exact heq
  · have hf := h.before hlt hj hi hk.symm (by rw [ha]; nofun)
    rw [hb] at hf
    cases hf

theorem exists_split {l : List (Section κ)} {i : ℕ} {a : Section κ} (hi : l[i]? = some a) :
    ∃ pre post, l = pre ++ a :: post ∧ pre.length = i := by
  obtain ⟨hlt, rfl⟩ := List.getElem?_eq_some_iff.mp hi
  refine ⟨l.take i, l.drop (i + 1), ?_, ?_⟩
  · rw [← List.drop_eq_getElem_cons hlt, List.take_append_drop]
  · rw [List.length_take, Nat.min_eq_left (Nat.le_of_lt hlt)]

theorem Step.start_set {l : List (Section κ)} {i : ℕ} {k : κ} (hi : l[i]? = some ⟨k, .waiting⟩)
    (hbefore : ∀ j < i, ∀ a : Section κ, l[j]? = some a → a.key = k → a.phase = .finished) :
    Step l (l.set i ⟨k, .running⟩) := by
  obtain ⟨pre, post, rfl, rfl⟩ := exists_split hi
  rw [List.set_append_right _ _ (Nat.le_refl _), Nat.sub_self]
  refine .start fun a ha hk => ?_
  obtain ⟨j, hj, rfl⟩ := List.getElem_of_mem ha
  refine hbefore j hj _ ?_ hk
  rw [List.getElem?_append_left hj, List.getElem?_eq_getElem hj]

theorem Step.finish_set {l : List (Section κ)} {i : ℕ} {k : κ}
    (hi : l[i]? = some ⟨k, .running⟩) : Step l (l.set i ⟨k, .finished⟩) := by
  obtain ⟨pre, post, rfl, rfl⟩ := exists_split hi
  rw [List.set_append_right _ _ (Nat.le_refl _), Nat.sub_self]
  exact .finish

/-! ## Everyone has a turn -/

/-- Section `i` waits, and the sections of its key that arrived before it have finished. -/
def Ready (l : List (Section κ)) (i : ℕ) : Prop :=
  ∃ k, l[i]? = some ⟨k, .waiting⟩ ∧
    ∀ j < i, ∀ a, l[j]? = some a → a.key = k → a.phase = .finished

/-- Section `i` runs, or has finished. -/
def Started (l : List (Section κ)) (i : ℕ) : Prop :=
  ∃ a, l[i]? = some a ∧ a.phase ≠ .waiting

/-- What becomes of one section in a step. -/
theorem Step.section {l l' : List (Section κ)} (st : Step l l') {i : ℕ} {a : Section κ}
    (hi : l[i]? = some a) : ∃ b, l'[i]? = some b ∧ b.key = a.key ∧
      (a.phase = .finished → b.phase = .finished) ∧ (a.phase ≠ .waiting → b.phase ≠ .waiting) := by
  -- one section changes its phase, at a place that is before, at or after the one asked for
  have hset : ∀ (pre post : List (Section κ)) (c d : Section κ), d.key = c.key →
      (c.phase = .finished → d.phase = .finished) → (c.phase ≠ .waiting → d.phase ≠ .waiting) →
      (pre ++ c :: post)[i]? = some a → ∃ b, (pre ++ d :: post)[i]? = some b ∧ b.key = a.key ∧
        (a.phase = .finished → b.phase = .finished) ∧
        (a.phase ≠ .waiting → b.phase ≠ .waiting) := by
    intro pre post c d hkey hfin hwait h
    rcases Nat.lt_trichotomy i pre.length with hlt | heq | hlt
    · rw [List.getElem?_append_left hlt] at h ⊢
      exact ⟨a, h, rfl, id, id⟩
    · subst heq
      rw [List.getElem?_append_right (Nat.le_refl _), Nat.sub_self] at h ⊢
      cases h
      exact ⟨d, rfl, hkey, hfin, hwait⟩
    · rw [List.getElem?_append_right (Nat.le_of_lt hlt)] at h ⊢
      obtain ⟨m, hm⟩ : ∃ m, i - pre.length = m + 1 := ⟨i - pre.length - 1, by omega⟩
      rw [hm] at h ⊢
      exact ⟨a, h, rfl, id, id⟩
  cases st with
  | arrive k =>
      have hlt := (List.getElem?_eq_some_iff.mp hi).1
      refine ⟨a, ?_, rfl, id, id⟩
      rw [List.getElem?_append_left hlt]
      exact hi
  | start _ => exact hset _ _ ⟨_, .waiting⟩ ⟨_, .running⟩ rfl nofun (fun h => absurd rfl h) hi
  | finish => exact hset _ _ ⟨_, .running⟩ ⟨_, .finished⟩ rfl (fun _ => rfl) (fun _ => nofun) hi

/-- What may start may still start after a step, unless it has. -/
theorem Ready.step {l l' : List (Section κ)} {i : ℕ} (h : Ready l i) (st : Step l l') :
    Ready l' i ∨ Started l' i := by
  obtain ⟨k, hi, hbefore⟩ := h
  obtain ⟨b, hb, hkey, -, -⟩ := st.section hi
  by_cases hwait : b.phase = .waiting
  · left
    refine ⟨k, ?_, fun j hj a ha hk => ?_⟩
    · rw [hb]
      exact congrArg some (by cases b; cases hkey; cases hwait; rfl)
    · obtain ⟨c, hc⟩ : ∃ c, l[j]? = some c :=
        ⟨_, List.getElem?_eq_getElem (Nat.lt_trans hj (List.getElem?_eq_some_iff.mp hi).1)⟩
      obtain ⟨d, hd, hdk, hfin, -⟩ := st.section hc
      rw [ha] at hd
      cases hd
      exact hfin (hbefore j hj c hc (hdk.symm.trans hk))
  · exact .inr ⟨b, hb, hwait⟩

section Runs

variable {σ : ℕ → List (Section κ)}

/-- What a section is later on in a run. -/
theorem run_section (hσ : ∀ n, σ (n + 1) = σ n ∨ Step (σ n) (σ (n + 1))) {m n : ℕ} (hmn : m ≤ n)
    {i : ℕ} {a : Section κ} (hi : (σ m)[i]? = some a) : ∃ b, (σ n)[i]? = some b ∧
      b.key = a.key ∧ (a.phase = .finished → b.phase = .finished) ∧
      (a.phase ≠ .waiting → b.phase ≠ .waiting) := by
  induction n, hmn using Nat.le_induction with
  | base => exact ⟨a, hi, rfl, id, id⟩
  | succ n _ ih =>
      obtain ⟨b, hb, hkey, hfin, hwait⟩ := ih
      rcases hσ n with heq | st
      · rw [heq]
        exact ⟨b, hb, hkey, hfin, hwait⟩
      · obtain ⟨c, hc, hkey', hfin', hwait'⟩ := st.section hb
        exact ⟨c, hc, hkey'.trans hkey, hfin' ∘ hfin, hwait' ∘ hwait⟩

/-- **Every section has its turn**, in a run in which every section that may start does start, and
every one that runs finishes. -/
theorem eventually_starts (hσ : ∀ n, σ (n + 1) = σ n ∨ Step (σ n) (σ (n + 1)))
    (hstart : ∀ n i, Ready (σ n) i → ∃ m, n ≤ m ∧ Started (σ m) i)
    (hfinish : ∀ (n i : ℕ) (a : Section κ), (σ n)[i]? = some a → a.phase = .running →
      ∃ m, n ≤ m ∧ ∃ b : Section κ, (σ m)[i]? = some b ∧ b.phase = .finished)
    {n i : ℕ} {a : Section κ} (hi : (σ n)[i]? = some a) : ∃ m, n ≤ m ∧ Started (σ m) i := by
  -- by induction on the number of sections before it
  induction i using Nat.strong_induction_on generalizing n a with
  | _ i ih =>
      have hlen : ∀ j < i, ∃ b, (σ n)[j]? = some b := by
        intro j hj
        have hil := (List.getElem?_eq_some_iff.mp hi).1
        exact ⟨_, List.getElem?_eq_getElem (Nat.lt_trans hj hil)⟩
      -- a moment by which those before it have finished
      have hall : ∀ k ≤ i, ∃ m, n ≤ m ∧ ∀ j < k, ∀ b : Section κ, (σ m)[j]? = some b →
          b.phase = .finished := by
        intro k hk
        induction k with
        | zero => exact ⟨n, Nat.le_refl _, nofun⟩
        | succ k ihk =>
            obtain ⟨m, hnm, hm⟩ := ihk (by omega)
            obtain ⟨b, hb⟩ := hlen k hk
            obtain ⟨c, hc, -⟩ := run_section hσ hnm hb
            obtain ⟨p, hmp, d, hd, hstarted⟩ := ih k hk hc
            have hdone : ∃ q, p ≤ q ∧
                ∃ e : Section κ, (σ q)[k]? = some e ∧ e.phase = .finished := by
              cases hphase : d.phase with
              | waiting => exact absurd hphase hstarted
              | running => exact hfinish p k d hd hphase
              | finished => exact ⟨p, Nat.le_refl _, d, hd, hphase⟩
            obtain ⟨q, hpq, e, he, hfin⟩ := hdone
            refine ⟨q, by omega, fun j hj f hf => ?_⟩
            rcases Nat.lt_succ_iff_lt_or_eq.mp hj with hlt | heq
            · obtain ⟨x, hx⟩ := hlen j (by omega)
              obtain ⟨y, hy, -⟩ := run_section hσ hnm hx
              obtain ⟨z, hz, -, hzf, -⟩ := run_section hσ (Nat.le_trans hmp hpq) hy
              rw [hf] at hz
              cases hz
              exact hzf (hm j hlt y hy)
            · rw [heq, he] at hf
              cases hf
              exact hfin
      obtain ⟨m, hnm, hm⟩ := hall i (Nat.le_refl i)
      obtain ⟨b, hb, -⟩ := run_section hσ hnm hi
      by_cases hwait : b.phase = .waiting
      · have hready : Ready (σ m) i := by
          refine ⟨b.key, ?_, fun j hj c hc _ => hm j hj c hc⟩
          rw [hb, ← hwait]
        obtain ⟨p, hmp, hp⟩ := hstart m i hready
        exact ⟨p, Nat.le_trans hnm hmp, hp⟩
      · exact ⟨m, hnm, b, hb, hwait⟩

end Runs

/-! ## Mutexes -/

/-- A mutex: what its actions do, the sections of a state, the action of a caller that arrives and
whether it is accepted, and the action that starts each section. -/
structure Mutex (σ α κ : Type) where
  init : σ
  next : σ → α → Option σ
  sections : σ → List (Section κ)
  arrive : κ → α
  accepts : σ → Bool
  resume : ℕ → α

namespace Mutex

variable {σ α : Type} {m : Mutex σ α κ}

inductive Reachable (m : Mutex σ α κ) : σ → Prop
  | init : Reachable m m.init
  | step {s s' : σ} {a : α} : Reachable m s → m.next s a = some s' → Reachable m s'

theorem Reachable.foldlM {s s' : σ} {as : List α} (hs : Reachable m s)
    (h : as.foldlM m.next s = some s') : Reachable m s' := by
  induction as generalizing s with
  | nil =>
      cases h
      exact hs
  | cons a as ih =>
      rw [List.foldlM_cons, Option.bind_eq_bind, Option.bind_eq_some_iff] at h
      obtain ⟨t, ht, h⟩ := h
      exact ih (hs.step ht) h

theorem foldlM_cons {s t s' : σ} {a : α} {as : List α} (h : m.next s a = some t)
    (has : as.foldlM m.next t = some s') : (a :: as).foldlM m.next s = some s' := by
  rw [List.foldlM_cons, h]
  exact has

/-- What is to be shown of a mutex, with an invariant of its states. -/
structure Simulates (m : Mutex σ α κ) (I : σ → Prop) : Prop where
  init : I m.init
  empty : m.sections m.init = []
  step : ∀ s a s', I s → Ordered (m.sections s) → m.next s a = some s' →
    I s' ∧ (m.sections s' = m.sections s ∨ Step (m.sections s) (m.sections s'))
  wakes : ∀ s i, I s → Ordered (m.sections s) → Ready (m.sections s) i →
    ∃ s', m.next s (m.resume i) = some s'
  starts : ∀ s i s', m.next s (m.resume i) = some s' → Started (m.sections s') i
  arrives : ∀ s k, I s → m.accepts s = true → ∃ s', m.next s (m.arrive k) = some s' ∧
    m.sections s' = m.sections s ++ [⟨k, .waiting⟩]
  ends : ∀ (s : σ) (i : ℕ) (a : Section κ), I s → (m.sections s)[i]? = some a → a.phase = .running →
    ∃ (as : List α) (s' : σ), as.foldlM m.next s = some s' ∧
      ∃ b : Section κ, (m.sections s')[i]? = some b ∧ b.phase = .finished

/-- A run, with moments at which nothing happens. -/
structure Run (m : Mutex σ α κ) (r : ℕ → σ) : Prop where
  init : r 0 = m.init
  step : ∀ n, r (n + 1) = r n ∨ ∃ a, m.next (r n) a = some (r (n + 1))

/-- What a mutex is for. -/
structure Serves (m : Mutex σ α κ) : Prop where
  /-- A caller that arrives while callers are accepted becomes the last section. -/
  arrives : ∀ s, Reachable m s → m.accepts s = true → ∀ k, ∃ s',
    m.next s (m.arrive k) = some s' ∧ m.sections s' = m.sections s ++ [⟨k, .waiting⟩]
  /-- A section keeps its place and its key, and one that runs can finish. -/
  stays : ∀ s, Reachable m s → ∀ (i : ℕ) (a : Section κ), (m.sections s)[i]? = some a →
    (∀ act s', m.next s act = some s' →
      ∃ b : Section κ, (m.sections s')[i]? = some b ∧ b.key = a.key) ∧
    (a.phase = .running → ∃ (as : List α) (s' : σ), as.foldlM m.next s = some s' ∧
      ∃ b : Section κ, (m.sections s')[i]? = some b ∧ b.phase = .finished)
  /-- No two sections of a key run at once. -/
  exclusive : ∀ s, Reachable m s → ∀ (i j : ℕ) (a b : Section κ), (m.sections s)[i]? = some a →
    (m.sections s)[j]? = some b → a.key = b.key → a.phase = .running → b.phase = .running → i = j
  /-- A section starts after those of its key that arrived before it have finished. -/
  inOrder : ∀ s, Reachable m s → ∀ (i j : ℕ) (a b : Section κ), i < j →
    (m.sections s)[i]? = some a →
    (m.sections s)[j]? = some b → a.key = b.key → b.phase ≠ .waiting → a.phase = .finished
  /-- Once they have finished, it can start, and can until it does. -/
  noLostWakeUp : ∀ s, Reachable m s → ∀ i, Ready (m.sections s) i →
    (∃ s', m.next s (m.resume i) = some s') ∧
      ∀ a s', m.next s a = some s' → Ready (m.sections s') i ∨ Started (m.sections s') i
  /-- Where what can start does start, and what runs finishes, every section has its turn. -/
  everyTurn : ∀ r : ℕ → σ, Run m r →
    (∀ n i s', m.next (r n) (m.resume i) = some s' →
      ∃ k, n ≤ k ∧ m.next (r k) (m.resume i) = some (r (k + 1))) →
    (∀ (n i : ℕ) (a : Section κ), (m.sections (r n))[i]? = some a → a.phase = .running →
      ∃ k, n ≤ k ∧ ∃ b : Section κ, (m.sections (r k))[i]? = some b ∧ b.phase = .finished) →
    ∀ n i, i < (m.sections (r n)).length → ∃ k, n ≤ k ∧ Started (m.sections (r k)) i

variable {I : σ → Prop}

theorem Simulates.reachable (h : m.Simulates I) {s : σ} (hs : Reachable m s) :
    I s ∧ Ordered (m.sections s) := by
  induction hs with
  | init =>
      rw [h.empty]
      exact ⟨h.init, .nil⟩
  | step _ hnext ih =>
      obtain ⟨hI, heq | st⟩ := h.step _ _ _ ih.1 ih.2 hnext
      · rw [heq]
        exact ⟨hI, ih.2⟩
      · exact ⟨hI, ih.2.step st⟩

theorem Run.reachable {r : ℕ → σ} (hr : Run m r) (n : ℕ) : Reachable m (r n) := by
  induction n with
  | zero =>
      rw [hr.init]
      exact .init
  | succ n ih =>
      rcases hr.step n with heq | ⟨a, ha⟩
      · rw [heq]
        exact ih
      · exact ih.step ha

/-- **What a mutex has to show is enough.** -/
theorem Simulates.serves (h : m.Simulates I) : m.Serves where
  arrives s hs hacc k := h.arrives s k (h.reachable hs).1 hacc
  stays s hs i a ha := by
    obtain ⟨hI, hord⟩ := h.reachable hs
    refine ⟨fun act s' hact => ?_, h.ends s i a hI ha⟩
    obtain ⟨-, heq | st⟩ := h.step s act s' hI hord hact
    · rw [heq]
      exact ⟨a, ha, rfl⟩
    · obtain ⟨b, hb, hkey, -⟩ := st.section ha
      exact ⟨b, hb, hkey⟩
  exclusive s hs i j a b := (h.reachable hs).2.exclusive
  inOrder s hs i j a b := (h.reachable hs).2.before
  noLostWakeUp s hs i hi := by
    obtain ⟨hI, hord⟩ := h.reachable hs
    refine ⟨h.wakes s i hI hord hi, fun a s' ha => ?_⟩
    obtain ⟨-, heq | st⟩ := h.step s a s' hI hord ha
    · rw [heq]
      exact .inl hi
    · exact hi.step st
  everyTurn r hr hfair hfinish n i hi := by
    have hsteps : ∀ n, m.sections (r (n + 1)) = m.sections (r n) ∨
        Step (m.sections (r n)) (m.sections (r (n + 1))) := by
      intro n
      obtain ⟨hI, hord⟩ := h.reachable (hr.reachable n)
      rcases hr.step n with heq | ⟨a, ha⟩
      · exact .inl (by rw [heq])
      · exact (h.step _ a _ hI hord ha).2
    refine @eventually_starts κ (fun n => m.sections (r n)) hsteps (fun n i hready => ?_) hfinish
      _ _ _ (List.getElem?_eq_getElem hi)
    obtain ⟨hI, hord⟩ := h.reachable (hr.reachable n)
    obtain ⟨s', hs'⟩ := h.wakes _ i hI hord hready
    obtain ⟨k, hnk, hk⟩ := hfair n i s' hs'
    exact ⟨k + 1, by omega, h.starts _ i _ hk⟩

end Mutex

end Turns
