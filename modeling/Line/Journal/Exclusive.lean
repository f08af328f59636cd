import Line.Lib.Turns
import Mathlib.Data.List.Range
import Mathlib.Logic.Function.Basic

/-!
# One at a time

Three helpers that let one asynchronous section in at a time: `AsyncMutex` of
`src/lib/runtime/network.ts`, and `nodeExclusive` and the queue of a lease of
`src/lib/security/operation-journal.ts`. What runs between two `await`s is one action. A promise
that has been resolved lets the caller go on in an action of its own, some time later and in any
order among the others (`resume`); callers arrive, and end their sections, whenever they like.

Each helper is a mutex (`Turns.Mutex`), and its sections are its callers in the order of their
arrival. What has to be shown of one is a simulation: with an invariant of its own, each of its
actions is a step of the sections, or leaves them as they are. The mutex has a queue of
resolvers and a flag, and the invariant says who is in the queue. The other two chain promises: a
caller waits for the one that was the tail when it came, so the invariant says which call that is,
and that everything of the same key before it is behind it in the chain (`Chained`, `Issued`). That
a failed section is not in the way of the next one is in the promises: the chain goes on with what
catches the failure.
-/

namespace Line.Journal

open Turns (Section)

/-! ## `AsyncMutex` -/

namespace AsyncMutex

/-- Where a caller is: in the queue; with its promise resolved to a release; after the `await`; and
after it has called its release, at the end of a section that returned or threw. -/
inductive Phase where
  | queued
  | granted
  | holding
  | released
deriving DecidableEq

structure State where
  queue : List ℕ
  locked : Bool
  callers : List Phase

inductive Action where
  | acquire
  | resume (i : ℕ)
  | release (i : ℕ)

/-- `acquire()`, of the caller with the next number. -/
def acquire (s : State) : State :=
  if s.locked = false then { s with locked := true, callers := s.callers ++ [.granted] }
  else { s with queue := s.queue ++ [s.callers.length], callers := s.callers ++ [.queued] }

/-- `release()`: the first of the queue is next. -/
def release (s : State) : State :=
  match s.queue with
  | next :: queue => { s with queue, callers := s.callers.set next .granted }
  | [] => { s with locked := false }

/-- An action, where a caller calls its release once, at the end of its section. -/
def next (s : State) : Action → Option State
  | .acquire => some (acquire s)
  | .resume i =>
    if s.callers[i]? = some .granted then some { s with callers := s.callers.set i .holding }
    else none
  | .release i =>
    if s.callers[i]? = some .holding then
      some (release { s with callers := s.callers.set i .released })
    else none

def Phase.turn : Phase → Turns.Phase
  | .queued | .granted => .waiting
  | .holding => .running
  | .released => .finished

def sections (s : State) : List (Section Unit) := s.callers.map fun p => ⟨(), p.turn⟩

def mutex : Turns.Mutex State Action Unit where
  init := ⟨[], false, []⟩
  next := next
  sections := sections
  arrive _ := .acquire
  accepts _ := true
  resume := .resume

/-- The callers before the owner have released, and those after it are in the queue. -/
inductive Shape : State → Prop
  | idle (a : ℕ) : Shape ⟨[], false, List.replicate a .released⟩
  | owned (a b : ℕ) (p : Phase) : p = .granted ∨ p = .holding →
      Shape ⟨List.range' (a + 1) b, true,
        List.replicate a .released ++ p :: List.replicate b .queued⟩

/-- The owner is the caller that has neither released nor is queued. -/
theorem owner_index {a b i : ℕ} {p q : Phase}
    (h : (List.replicate a Phase.released ++ p :: List.replicate b Phase.queued)[i]? = some q)
    (hq : q = .granted ∨ q = .holding) : i = a ∧ q = p := by
  rcases Nat.lt_trichotomy i a with hlt | heq | hlt
  · rw [List.getElem?_append_left (by rw [List.length_replicate]; exact hlt),
      List.getElem?_replicate_of_lt hlt] at h
    rcases hq with rfl | rfl <;> cases h
  · subst heq
    rw [List.getElem?_append_right (by rw [List.length_replicate]), List.length_replicate,
      Nat.sub_self] at h
    cases h
    exact ⟨rfl, rfl⟩
  · rw [List.getElem?_append_right (by rw [List.length_replicate]; omega),
      List.length_replicate] at h
    obtain ⟨k, hk⟩ : ∃ k, i - a = k + 1 := ⟨i - a - 1, by omega⟩
    rw [hk, List.getElem?_cons_succ, List.getElem?_replicate] at h
    split at h
    · rcases hq with rfl | rfl <;> cases h
    · cases h

theorem set_owner (a b : ℕ) (p q : Phase) :
    (List.replicate a Phase.released ++ p :: List.replicate b Phase.queued).set a q =
      List.replicate a Phase.released ++ q :: List.replicate b Phase.queued := by
  rw [List.set_append_right _ _ (by rw [List.length_replicate]), List.length_replicate,
    Nat.sub_self]
  rfl

theorem sections_getElem {s : State} {i : ℕ} {p : Phase} (h : s.callers[i]? = some p) :
    (sections s)[i]? = some ⟨(), p.turn⟩ := by
  rw [sections, List.getElem?_map, h]
  rfl

theorem sections_owned (a b : ℕ) (p : Phase) (queue : List ℕ) (locked : Bool) :
    sections ⟨queue, locked, List.replicate a .released ++ p :: List.replicate b .queued⟩ =
      List.replicate a ⟨(), .finished⟩ ++ ⟨(), p.turn⟩ :: List.replicate b ⟨(), .waiting⟩ := by
  rw [sections, List.map_append, List.map_cons, List.map_replicate, List.map_replicate]
  rfl

theorem finished_before (a : ℕ) : ∀ c ∈ List.replicate a (⟨(), .finished⟩ : Section Unit),
    c.key = () → c.phase = .finished := by
  intro c hc _
  rw [(List.mem_replicate.mp hc).2]

theorem sections_acquire (s : State) :
    sections (acquire s) = sections s ++ [⟨(), .waiting⟩] := by
  unfold acquire
  split
  · rw [sections, List.map_append]
    rfl
  · rw [sections, List.map_append]
    rfl

theorem step_acquire {s : State} (h : Shape s) :
    Shape (acquire s) ∧ Turns.Step (sections s) (sections (acquire s)) := by
  refine ⟨?_, ?_⟩
  · cases h with
    | idle a => exact .owned a 0 .granted (.inl rfl)
    | owned a b p hp =>
        have hnext := Shape.owned a (b + 1) p hp
        rw [List.range'_1_concat, List.replicate_succ'] at hnext
        unfold acquire
        rw [if_neg (by nofun)]
        simp only [List.append_assoc, List.cons_append, List.length_append, List.length_replicate,
          List.length_cons]
        rw [show a + (b + 1) = a + 1 + b by omega]
        exact hnext
  · rw [sections_acquire]
    exact .arrive ()

theorem step_resume {s s' : State} {i : ℕ} (h : Shape s) (hnext : next s (.resume i) = some s') :
    Shape s' ∧ Turns.Step (sections s) (sections s') := by
  simp only [next] at hnext
  split at hnext
  · rename_i hget
    cases hnext
    cases h with
    | idle a =>
        rw [List.getElem?_replicate] at hget
        split at hget <;> cases hget
    | owned a b p hp =>
        obtain ⟨rfl, rfl⟩ := owner_index hget (.inl rfl)
        rw [set_owner, sections_owned, sections_owned]
        exact ⟨.owned i b .holding (.inr rfl), .start (finished_before i)⟩
  · cases hnext

/-- The release is handed to the first of the queue, which goes on holding the lock. -/
theorem release_next (a b : ℕ) :
    release ⟨List.range' (a + 1) (b + 1), true,
        List.replicate (a + 1) .released ++ List.replicate (b + 1) .queued⟩ =
      ⟨List.range' (a + 1 + 1) b, true,
        List.replicate (a + 1) .released ++ .granted :: List.replicate b .queued⟩ := by
  have hqueued : List.replicate (b + 1) Phase.queued = .queued :: List.replicate b .queued :=
    List.replicate_succ
  rw [hqueued, List.range'_succ, ← set_owner (a + 1) b .queued .granted]
  rfl

theorem step_release {s s' : State} {i : ℕ} (h : Shape s)
    (hnext : next s (.release i) = some s') :
    Shape s' ∧ Turns.Step (sections s) (sections s') := by
  simp only [next] at hnext
  split at hnext
  · rename_i hget
    cases hnext
    cases h with
    | idle a =>
        rw [List.getElem?_replicate] at hget
        split at hget <;> cases hget
    | owned a b p hp =>
        obtain ⟨rfl, rfl⟩ := owner_index hget (.inr rfl)
        rw [set_owner, sections_owned]
        have hreleased : List.replicate i Phase.released ++ .released :: List.replicate b .queued
            = List.replicate (i + 1) Phase.released ++ List.replicate b .queued := by
          rw [List.replicate_succ', List.append_assoc]
          rfl
        have hfinished : List.replicate i (⟨(), .finished⟩ : Section Unit) ++
            ⟨(), .finished⟩ :: List.replicate b ⟨(), .waiting⟩ =
              List.replicate (i + 1) ⟨(), .finished⟩ ++ List.replicate b ⟨(), .waiting⟩ := by
          rw [List.replicate_succ', List.append_assoc]
          rfl
        have hstep : Turns.Step
            (List.replicate i (⟨(), .finished⟩ : Section Unit) ++
              ⟨(), .running⟩ :: List.replicate b ⟨(), .waiting⟩)
            (List.replicate (i + 1) ⟨(), .finished⟩ ++ List.replicate b ⟨(), .waiting⟩) := by
          rw [← hfinished]
          exact .finish
        rw [hreleased]
        cases b with
        | zero =>
            -- nobody is in the queue, and the mutex is free again
            have hfree : release ⟨List.range' (i + 1) 0, true,
                List.replicate (i + 1) .released ++ List.replicate 0 .queued⟩ =
                ⟨[], false, List.replicate (i + 1) .released⟩ := by
              rw [List.replicate_zero, List.append_nil]
              rfl
            rw [List.replicate_zero, List.append_nil] at hstep
            have hsections : sections ⟨[], false, List.replicate (i + 1) .released⟩ =
                List.replicate (i + 1) ⟨(), .finished⟩ := by
              rw [sections, List.map_replicate]
              rfl
            refine ⟨?_, ?_⟩
            · exact hfree ▸ .idle (i + 1)
            · exact hfree ▸ hsections ▸ hstep
        | succ b =>
            refine ⟨?_, ?_⟩
            · exact release_next i b ▸ .owned (i + 1) b .granted (.inl rfl)
            · refine release_next i b ▸ ?_
              rw [sections_owned]
              exact hstep
  · cases hnext

/-- Whoever is woken by a release, the caller that releases has released. -/
theorem released_released {s : State} (h : Shape s) {i : ℕ}
    (hget : s.callers[i]? = some .holding) :
    (release { s with callers := s.callers.set i .released }).callers[i]? = some .released := by
  have hset := List.getElem?_set_self (a := Phase.released) (List.getElem?_eq_some_iff.mp hget).1
  cases h with
  | idle a =>
      rw [List.getElem?_replicate] at hget
      split at hget <;> cases hget
  | owned a b p hp =>
      obtain ⟨rfl, rfl⟩ := owner_index hget (.inr rfl)
      cases b with
      | zero => exact hset
      | succ b =>
          -- the first of the queue is the next caller, not the one that releases
          show (List.set _ (i + 1) Phase.granted)[i]? = _
          rw [List.getElem?_set_ne (Nat.succ_ne_self i)]
          exact hset

theorem simulates : mutex.Simulates Shape where
  init := .idle 0
  empty := rfl
  step s a s' hI _ hnext := by
    cases a with
    | acquire =>
        cases hnext
        obtain ⟨h, st⟩ := step_acquire hI
        exact ⟨h, .inr st⟩
    | resume i =>
        obtain ⟨h, st⟩ := step_resume hI hnext
        exact ⟨h, .inr st⟩
    | release i =>
        obtain ⟨h, st⟩ := step_release hI hnext
        exact ⟨h, .inr st⟩
  wakes s i hI _ hready := by
    obtain ⟨⟨⟩, hi, hbefore⟩ := hready
    cases hI with
    | idle a =>
        have hi : (List.map (fun p : Phase => (⟨(), p.turn⟩ : Section Unit))
          (List.replicate a .released))[i]? = some ⟨(), .waiting⟩ := hi
        rw [List.map_replicate, List.getElem?_replicate] at hi
        split at hi <;> cases hi
    | owned a b p hp =>
        have howner : (List.replicate a Phase.released ++ p :: List.replicate b .queued)[a]?
            = some p := by
          rw [List.getElem?_append_right (by rw [List.length_replicate]), List.length_replicate,
            Nat.sub_self]
          rfl
        -- the owner has not released, so nobody after it may start
        have hia : i ≤ a := by
          by_contra hgt
          have hfin := hbefore a (by omega) _ (sections_getElem howner) rfl
          rcases hp with rfl | rfl <;> cases hfin
        have hai : ¬i < a := by
          intro hlt
          have hreleased : (List.replicate a Phase.released ++ p ::
              List.replicate b .queued)[i]? = some .released := by
            rw [List.getElem?_append_left (by rw [List.length_replicate]; exact hlt),
              List.getElem?_replicate_of_lt hlt]
          have hj := sections_getElem (s := ⟨List.range' (a + 1) b, true, _⟩) hreleased
          have hi' : some _ = some _ := hj.symm.trans hi
          cases hi'
        obtain rfl : i = a := by omega
        have hi' : some _ = some _ := (sections_getElem howner).symm.trans hi
        rcases hp with rfl | rfl
        · exact ⟨_, if_pos (c := (_ : List Phase)[i]? = some Phase.granted) howner⟩
        · cases hi'
  starts s i s' hnext := by
    have hnext : next s (.resume i) = some s' := hnext
    simp only [next] at hnext
    split at hnext
    · rename_i hget
      cases hnext
      refine ⟨⟨(), .running⟩, ?_, nofun⟩
      exact sections_getElem (s := { s with callers := s.callers.set i .holding })
        (List.getElem?_set_self (List.getElem?_eq_some_iff.mp hget).1)
    · cases hnext
  arrives s _ _ _ := ⟨acquire s, rfl, sections_acquire s⟩
  ends s i a hI ha hrun := by
    have ha : (sections s)[i]? = some a := ha
    rw [sections, List.getElem?_map, Option.map_eq_some_iff] at ha
    obtain ⟨p, hp, rfl⟩ := ha
    have hholding : p = .holding := by
      cases p with
      | holding => rfl
      | _ => cases hrun
    subst hholding
    have hnext : next s (.release i) =
        some (release { s with callers := s.callers.set i .released }) := if_pos hp
    exact ⟨[.release i], _, Turns.Mutex.foldlM_cons hnext rfl, ⟨(), .finished⟩,
      sections_getElem (released_released hI hp), rfl⟩

end AsyncMutex

/-! ## `nodeExclusive` -/

namespace NodeExclusive

variable {κ : Type}

/-- Where a call is: at `await preceding`; in its action; or back, with what its action returned or
threw. -/
inductive Phase where
  | awaiting
  | acting
  | settled (ok : Bool)
deriving DecidableEq

/-- A call: its key, the promise it found in `nodeTails` (none for `Promise.resolve()`), and whether
its own promise, `current`, has been resolved. A promise is named by the call that made it. -/
structure Call (κ : Type) where
  key : κ
  preceding : Option ℕ
  resolved : Bool
  phase : Phase
deriving DecidableEq

structure State (κ : Type) where
  nodeTails : κ → Option ℕ
  calls : List (Call κ)

inductive Action (κ : Type) where
  | call (key : κ)
  | resume (i : ℕ)
  | settle (i : ℕ) (ok : Bool)

/-- Whether a promise has been resolved. -/
def resolved (s : State κ) : Option ℕ → Bool
  | none => true
  | some j => (s.calls[j]?).any (·.resolved)

/-- `nodeExclusive(key, action)`, up to `await preceding`. -/
def call [DecidableEq κ] (s : State κ) (key : κ) : State κ where
  nodeTails := Function.update s.nodeTails key (some s.calls.length)
  calls := s.calls ++ [⟨key, s.nodeTails key, false, .awaiting⟩]

/-- The `finally` of call `i`: `release()`, and the tail goes where it is still this call's. -/
def settle [DecidableEq κ] (s : State κ) (i : ℕ) (c : Call κ) (ok : Bool) : State κ where
  nodeTails := if s.nodeTails c.key = some i then Function.update s.nodeTails c.key none
    else s.nodeTails
  calls := s.calls.set i { c with resolved := true, phase := .settled ok }

def next [DecidableEq κ] (s : State κ) : Action κ → Option (State κ)
  | .call key => some (call s key)
  | .resume i =>
    match s.calls[i]? with
    | some c =>
      if c.phase = .awaiting ∧ resolved s c.preceding = true then
        some { s with calls := s.calls.set i { c with phase := .acting } }
      else none
    | none => none
  | .settle i ok =>
    match s.calls[i]? with
    | some c => if c.phase = .acting then some (settle s i c ok) else none
    | none => none

def Phase.turn : Phase → Turns.Phase
  | .awaiting => .waiting
  | .acting => .running
  | .settled _ => .finished

def Call.section (c : Call κ) : Section κ := ⟨c.key, c.phase.turn⟩

def sections (s : State κ) : List (Section κ) := s.calls.map Call.section

def mutex (κ : Type) [DecidableEq κ] : Turns.Mutex (State κ) (Action κ) κ where
  init := ⟨fun _ => none, []⟩
  next := next
  sections := sections
  arrive := .call
  accepts _ := true
  resume := .resume

/-- A call has finished. -/
def Call.Done (c : Call κ) : Prop := ∃ ok, c.phase = .settled ok

/-- `preceding` is the promise of the call of this key that came right before call `i`; where there
is none, those that came before have finished. -/
def Linked (s : State κ) (i : ℕ) (key : κ) : Option ℕ → Prop
  | none => ∀ j < i, ∀ d : Call κ, s.calls[j]? = some d → d.key = key → d.Done
  | some j => j < i ∧ (∃ d : Call κ, s.calls[j]? = some d ∧ d.key = key) ∧
      ∀ l, j < l → l < i → ∀ e : Call κ, s.calls[l]? = some e → e.key ≠ key

/-- What holds between two actions: a promise is resolved where its call has finished, every call
awaits the one before it, and `nodeTails` has the last call of a key, unless it has finished. -/
structure Chained (s : State κ) : Prop where
  promise : ∀ (i : ℕ) (c : Call κ), s.calls[i]? = some c → (c.resolved = true ↔ c.Done)
  linked : ∀ (i : ℕ) (c : Call κ), s.calls[i]? = some c → Linked s i c.key c.preceding
  tail : ∀ key, Linked s s.calls.length key (s.nodeTails key)
  unfinished : ∀ key j, s.nodeTails key = some j → ∀ c : Call κ, s.calls[j]? = some c → ¬c.Done

/-- Calls keep their keys, and those that have finished stay so. -/
def Keeps (s s' : State κ) : Prop := ∀ j < s.calls.length, ∃ c c' : Call κ,
  s.calls[j]? = some c ∧ s'.calls[j]? = some c' ∧ c'.key = c.key ∧ (c.Done → c'.Done)

theorem Linked.keeps {s s' : State κ} {i : ℕ} {key : κ} {p : Option ℕ} (h : Linked s i key p)
    (hi : i ≤ s.calls.length) (hk : Keeps s s') : Linked s' i key p := by
  cases p with
  | none =>
      intro j hj d hd hkey
      obtain ⟨c, c', hc, hc', hkc, hdone⟩ := hk j (by omega)
      rw [hd] at hc'
      cases hc'
      exact hdone (h j hj c hc (hkc.symm.trans hkey))
  | some j =>
      obtain ⟨hj, ⟨d, hd, hdk⟩, hnone⟩ := h
      obtain ⟨c, c', hc, hc', hkc, -⟩ := hk j (by omega)
      rw [hd] at hc
      cases hc
      refine ⟨hj, ⟨c', hc', hkc.trans hdk⟩, fun l hjl hli e he hkey => ?_⟩
      obtain ⟨c, c', hc, hc', hkc, -⟩ := hk l (by omega)
      rw [he] at hc'
      cases hc'
      exact hnone l hjl hli c hc (hkc.symm.trans hkey)

theorem Linked.succ {s : State κ} {i : ℕ} {key : κ} {p : Option ℕ} (h : Linked s i key p)
    (hi : ∀ c : Call κ, s.calls[i]? = some c → c.key ≠ key) : Linked s (i + 1) key p := by
  cases p with
  | none =>
      intro j hj d hd hkey
      rcases Nat.lt_succ_iff_lt_or_eq.mp hj with hlt | rfl
      · exact h j hlt d hd hkey
      · exact absurd hkey (hi d hd)
  | some j =>
      obtain ⟨hj, hd, hnone⟩ := h
      refine ⟨by omega, hd, fun l hjl hli e he => ?_⟩
      rcases Nat.lt_succ_iff_lt_or_eq.mp hli with hlt | rfl
      · exact hnone l hjl hlt e he
      · exact hi e he

theorem sections_getElem {s : State κ} {i : ℕ} {c : Call κ} (h : s.calls[i]? = some c) :
    (sections s)[i]? = some c.section := by
  rw [sections, List.getElem?_map, h]
  rfl

theorem sections_set (s : State κ) (i : ℕ) (c : Call κ) (tails : κ → Option ℕ) :
    sections ⟨tails, s.calls.set i c⟩ = (sections s).set i c.section := List.map_set

theorem done_of_finished {c : Call κ} (h : c.phase.turn = .finished) : c.Done := by
  cases hp : c.phase with
  | settled ok => exact ⟨ok, hp⟩
  | awaiting =>
      rw [hp] at h
      cases h
  | acting =>
      rw [hp] at h
      cases h

theorem Call.Done.finished {c : Call κ} (h : c.Done) : c.phase.turn = .finished := by
  obtain ⟨ok, hok⟩ := h
  rw [hok]
  rfl

theorem keeps_set {s : State κ} {i : ℕ} {c : Call κ} (c' : Call κ)
    (hc : s.calls[i]? = some c) (hkey : c'.key = c.key) (hdone : c.Done → c'.Done)
    (tails : κ → Option ℕ) :
    Keeps s ⟨tails, s.calls.set i c'⟩ := by
  intro j hj
  by_cases hij : i = j
  · subst hij
    exact ⟨c, c', hc, List.getElem?_set_self hj, hkey, hdone⟩
  · refine ⟨s.calls[j], s.calls[j], List.getElem?_eq_getElem hj, ?_, rfl, id⟩
    show (s.calls.set i c')[j]? = _
    rw [List.getElem?_set_ne hij, List.getElem?_eq_getElem hj]

/-- What a set call is, and any other. -/
theorem set_cases {s : State κ} {i j : ℕ} {c c' d : Call κ} (hc : s.calls[i]? = some c)
    (hd : (s.calls.set i c')[j]? = some d) : (j = i ∧ d = c') ∨ (j ≠ i ∧ s.calls[j]? = some d) := by
  by_cases hij : i = j
  · subst hij
    rw [List.getElem?_set_self (List.getElem?_eq_some_iff.mp hc).1] at hd
    cases hd
    exact .inl ⟨rfl, rfl⟩
  · rw [List.getElem?_set_ne hij] at hd
    exact .inr ⟨Ne.symm hij, hd⟩

theorem chained_call [DecidableEq κ] {s : State κ} (h : Chained s) (key : κ) :
    Chained (call s key) := by
  have hnew : (call s key).calls[s.calls.length]? =
      some ⟨key, s.nodeTails key, false, .awaiting⟩ := by
    show (s.calls ++ [_])[s.calls.length]? = _
    rw [List.getElem?_append_right (Nat.le_refl _), Nat.sub_self]
    rfl
  have hkeeps : Keeps s (call s key) := by
    intro j hj
    refine ⟨s.calls[j], s.calls[j], List.getElem?_eq_getElem hj, ?_, rfl, id⟩
    show (s.calls ++ [_])[j]? = _
    rw [List.getElem?_append_left hj, List.getElem?_eq_getElem hj]
  -- a call of the new state is an old one, or the one that was appended
  have hcases : ∀ (i : ℕ) (c : Call κ), (call s key).calls[i]? = some c →
      s.calls[i]? = some c ∨
        (i = s.calls.length ∧ c = ⟨key, s.nodeTails key, false, .awaiting⟩) := by
    intro i c hc
    rcases Nat.lt_trichotomy i s.calls.length with hlt | rfl | hgt
    · have hc : (s.calls ++ [_])[i]? = some c := hc
      rw [List.getElem?_append_left hlt] at hc
      exact .inl hc
    · rw [hnew] at hc
      cases hc
      exact .inr ⟨rfl, rfl⟩
    · have hlt := (List.getElem?_eq_some_iff.mp hc).1
      have hlen : (call s key).calls.length = s.calls.length + 1 := List.length_append
      omega
  have hopen : ¬(⟨key, s.nodeTails key, false, .awaiting⟩ : Call κ).Done := by
    rintro ⟨ok, hok⟩
    cases hok
  refine ⟨fun i c hc => ?_, fun i c hc => ?_, fun k => ?_, fun k j hj c hc => ?_⟩
  · rcases hcases i c hc with hc | ⟨-, rfl⟩
    · exact h.promise i c hc
    · exact ⟨nofun, fun hd => absurd hd hopen⟩
  · rcases hcases i c hc with hc | ⟨rfl, rfl⟩
    · exact (h.linked i c hc).keeps (Nat.le_of_lt (List.getElem?_eq_some_iff.mp hc).1) hkeeps
    · -- the call awaits the promise that is the tail
      exact (h.tail key).keeps (Nat.le_refl _) hkeeps
  -- the chain of the key now ends with the new call; the other chains are as they were
  · have hlen : (call s key).calls.length = s.calls.length + 1 := List.length_append
    rw [hlen]
    by_cases hk : k = key
    · subst hk
      have htail : (call s k).nodeTails k = some s.calls.length := Function.update_self ..
      rw [htail]
      exact ⟨by omega, ⟨_, hnew, rfl⟩, fun l hl hl' => by omega⟩
    · have htail : (call s key).nodeTails k = s.nodeTails k := Function.update_of_ne hk ..
      rw [htail]
      refine ((h.tail k).keeps (Nat.le_refl _) hkeeps).succ fun c hc => ?_
      rw [hnew] at hc
      cases hc
      exact Ne.symm hk
  -- the new tail has not finished, as it has just come
  · by_cases hk : k = key
    · subst hk
      have htail : (call s k).nodeTails k = some s.calls.length := Function.update_self ..
      rw [htail] at hj
      cases hj
      rw [hnew] at hc
      cases hc
      exact hopen
    · have htail : (call s key).nodeTails k = s.nodeTails k := Function.update_of_ne hk ..
      rw [htail] at hj
      rcases hcases j c hc with hc | ⟨rfl, rfl⟩
      · exact h.unfinished k j hj c hc
      · exact hopen

theorem sections_call [DecidableEq κ] (s : State κ) (key : κ) :
    sections (call s key) = sections s ++ [⟨key, .waiting⟩] := List.map_append

theorem step_call [DecidableEq κ] (s : State κ) (key : κ) :
    Turns.Step (sections s) (sections (call s key)) := by
  rw [sections_call]
  exact .arrive key

/-- `resume`, of a call whose predecessor has released. -/
theorem chained_resume {s : State κ} (h : Chained s) {i : ℕ} {c : Call κ}
    (hc : s.calls[i]? = some c) (hphase : c.phase = .awaiting) :
    Chained ⟨s.nodeTails, s.calls.set i { c with phase := .acting }⟩ := by
  have hawaits : ¬c.Done := by
    rintro ⟨ok, hok⟩
    rw [hphase] at hok
    cases hok
  have hacts : ¬({ c with phase := .acting } : Call κ).Done := by
    rintro ⟨ok, hok⟩
    cases hok
  have hkeeps := keeps_set { c with phase := .acting } hc rfl
    (fun hd => absurd hd hawaits) s.nodeTails
  -- only the phase of this call changes, and it is finished neither before nor after
  refine ⟨fun j d hd => ?_, fun j d hd => ?_, fun k => ?_, fun k j hj d hd => ?_⟩
  · rcases set_cases hc hd with ⟨-, rfl⟩ | ⟨-, hd⟩
    · exact ⟨fun hr => absurd ((h.promise i c hc).mp hr) hawaits, fun hd => absurd hd hacts⟩
    · exact h.promise j d hd
  · rcases set_cases hc hd with ⟨rfl, rfl⟩ | ⟨-, hd⟩
    · exact (h.linked j c hc).keeps (Nat.le_of_lt (List.getElem?_eq_some_iff.mp hc).1) hkeeps
    · exact (h.linked j d hd).keeps (Nat.le_of_lt (List.getElem?_eq_some_iff.mp hd).1) hkeeps
  · show Linked _ (s.calls.set i _).length k _
    rw [List.length_set]
    exact (h.tail k).keeps (Nat.le_refl _) hkeeps
  · rcases set_cases hc hd with ⟨-, rfl⟩ | ⟨-, hd⟩
    · exact hacts
    · exact h.unfinished k j hj d hd

/-- **A call goes on after those of its key.** Its predecessor has finished, which began only once
the ones before it had. -/
theorem preceding_done {s : State κ} (h : Chained s) (hord : Turns.Ordered (sections s)) {i : ℕ}
    {c : Call κ} (hc : s.calls[i]? = some c) (hr : resolved s c.preceding = true) :
    ∀ j < i, ∀ a : Section κ, (sections s)[j]? = some a → a.key = c.key → a.phase = .finished := by
  intro j hj a ha hkey
  rw [sections, List.getElem?_map, Option.map_eq_some_iff] at ha
  obtain ⟨d, hd, rfl⟩ := ha
  have hlink := h.linked i c hc
  cases hp : c.preceding with
  -- nothing of this key came before
  | none =>
      rw [hp] at hlink
      exact (hlink j hj d hd hkey).finished
  | some l =>
      rw [hp] at hlink hr
      obtain ⟨hl, ⟨e, he, hek⟩, hnone⟩ := hlink
      have hdone : e.Done := by
        rw [resolved, he] at hr
        exact (h.promise l e he).mp hr
      -- what came before the predecessor began before it; between the two there is none of this key
      rcases Nat.lt_trichotomy j l with hlt | rfl | hgt
      · refine hord.before hlt (sections_getElem hd) (sections_getElem he) (hkey.trans hek.symm) ?_
        show e.phase.turn ≠ _
        rw [hdone.finished]
        nofun
      · rw [hd] at he
        cases he
        exact hdone.finished
      · exact absurd hkey (hnone j hgt hj d hd)

variable [DecidableEq κ]

/-- The tail entry goes with the last call of its key. -/
theorem settle_tails (s : State κ) (i : ℕ) (c : Call κ) (ok : Bool) (k : κ) :
    (settle s i c ok).nodeTails k =
      if s.nodeTails c.key = some i ∧ k = c.key then none else s.nodeTails k := by
  simp only [settle]
  split
  · rename_i htail
    by_cases hk : k = c.key
    · rw [if_pos ⟨htail, hk⟩, hk, Function.update_self]
    · rw [if_neg (fun h => hk h.2), Function.update_of_ne hk]
  · rename_i htail
    rw [if_neg (fun h => htail h.1)]

/-- The end of a call that is in its action. -/
theorem chained_settle {s : State κ} (h : Chained s) (hord : Turns.Ordered (sections s)) {i : ℕ}
    {c : Call κ} (hc : s.calls[i]? = some c) (hphase : c.phase = .acting) (ok : Bool) :
    Chained (settle s i c ok) := by
  have hsettled : ({ c with resolved := true, phase := .settled ok } : Call κ).Done := ⟨ok, rfl⟩
  have hkeeps : Keeps s (settle s i c ok) :=
    keeps_set { c with resolved := true, phase := .settled ok } hc rfl (fun _ => hsettled) _
  have hlen : (settle s i c ok).calls.length = s.calls.length := List.length_set
  refine ⟨fun j d hd => ?_, fun j d hd => ?_, fun k => ?_, fun k j hj d hd => ?_⟩
  · rcases set_cases hc hd with ⟨-, rfl⟩ | ⟨-, hd⟩
    · exact ⟨fun _ => hsettled, fun _ => rfl⟩
    · exact h.promise j d hd
  · rcases set_cases hc hd with ⟨rfl, rfl⟩ | ⟨-, hd⟩
    · exact (h.linked j c hc).keeps (Nat.le_of_lt (List.getElem?_eq_some_iff.mp hc).1) hkeeps
    · exact (h.linked j d hd).keeps (Nat.le_of_lt (List.getElem?_eq_some_iff.mp hd).1) hkeeps
  · rw [hlen, settle_tails]
    split
    · rename_i hgone
      obtain ⟨htail, rfl⟩ := hgone
      have hlink := h.tail c.key
      rw [htail] at hlink
      obtain ⟨-, -, hnone⟩ := hlink
      -- all of its key came before it, and have finished
      intro j hj d hd hkey
      rcases set_cases hc hd with ⟨rfl, rfl⟩ | ⟨hne, hd⟩
      · exact hsettled
      · have hji : j < i := by
          by_contra hge
          exact hnone j (by omega) hj d hd hkey
        refine done_of_finished (hord.before hji (sections_getElem hd) (sections_getElem hc)
          hkey ?_)
        show c.phase.turn ≠ _
        rw [hphase]
        nofun
    · exact (h.tail k).keeps (Nat.le_refl _) hkeeps
  · rw [settle_tails] at hj
    split at hj
    · cases hj
    · rename_i hstays
      rcases set_cases hc hd with ⟨rfl, rfl⟩ | ⟨-, hd⟩
      · -- a tail is a call of its key, so this one would have gone
        have hlink := h.tail k
        rw [hj] at hlink
        obtain ⟨-, ⟨e, he, hek⟩, -⟩ := hlink
        rw [hc] at he
        cases he
        exact absurd ⟨hek ▸ hj, hek.symm⟩ hstays
      · exact h.unfinished k j hj d hd

/-- What `resume` needs, and does. -/
theorem next_resume {s s' : State κ} {i : ℕ} (hnext : next s (.resume i) = some s') :
    ∃ c, s.calls[i]? = some c ∧ c.phase = .awaiting ∧ resolved s c.preceding = true ∧
      s' = ⟨s.nodeTails, s.calls.set i { c with phase := .acting }⟩ := by
  simp only [next] at hnext
  split at hnext
  · rename_i c hc
    split at hnext
    · rename_i hif
      cases hnext
      exact ⟨c, hc, hif.1, hif.2, rfl⟩
    · cases hnext
  · cases hnext

theorem next_settle {s s' : State κ} {i : ℕ} {ok : Bool}
    (hnext : next s (.settle i ok) = some s') :
    ∃ c, s.calls[i]? = some c ∧ c.phase = .acting ∧ s' = settle s i c ok := by
  simp only [next] at hnext
  split at hnext
  · rename_i c hc
    split at hnext
    · rename_i hif
      cases hnext
      exact ⟨c, hc, hif, rfl⟩
    · cases hnext
  · cases hnext

theorem simulates : (mutex κ).Simulates Chained where
  init := by
    refine ⟨nofun, nofun, fun k => ?_, nofun⟩
    show ∀ j < 0, _
    nofun
  empty := rfl
  step s a s' hI hord hnext := by
    cases a with
    | call key =>
        cases hnext
        exact ⟨chained_call hI key, .inr (step_call s key)⟩
    | resume i =>
        obtain ⟨c, hc, hphase, hr, rfl⟩ := next_resume hnext
        refine ⟨chained_resume hI hc hphase, .inr ?_⟩
        have hi : (sections s)[i]? = some ⟨c.key, .waiting⟩ := by
          rw [sections_getElem hc, Call.section, hphase]
          rfl
        show Turns.Step (sections s) (sections _)
        rw [sections_set]
        exact .start_set (k := c.key) hi (preceding_done hI hord hc hr)
    | settle i ok =>
        obtain ⟨c, hc, hphase, rfl⟩ := next_settle hnext
        refine ⟨chained_settle hI hord hc hphase ok, .inr ?_⟩
        have hi : (sections s)[i]? = some ⟨c.key, .running⟩ := by
          rw [sections_getElem hc, Call.section, hphase]
          rfl
        show Turns.Step (sections s) (sections ⟨_, s.calls.set i _⟩)
        rw [sections_set]
        exact .finish_set hi
  wakes s i hI _ hready := by
    obtain ⟨k, hi, hbefore⟩ := hready
    have hi : (s.calls.map Call.section)[i]? = some ⟨k, .waiting⟩ := hi
    rw [List.getElem?_map, Option.map_eq_some_iff] at hi
    obtain ⟨c, hc, hsec⟩ := hi
    have hkey : c.key = k := congrArg Section.key hsec
    have hturn : c.phase.turn = .waiting := congrArg Section.phase hsec
    have hphase : c.phase = .awaiting := by
      cases hp : c.phase with
      | awaiting => rfl
      | acting =>
          rw [hp] at hturn
          cases hturn
      | settled ok =>
          rw [hp] at hturn
          cases hturn
    have hr : resolved s c.preceding = true := by
      have hlink := hI.linked i c hc
      cases hp : c.preceding with
      | none => rfl
      | some j =>
          rw [hp] at hlink
          obtain ⟨hj, ⟨d, hd, hdk⟩, -⟩ := hlink
          have hdone := hbefore j hj d.section (sections_getElem hd) (hdk.trans hkey)
          rw [resolved, hd]
          exact (hI.promise j d hd).mpr (done_of_finished hdone)
    refine ⟨⟨s.nodeTails, s.calls.set i { c with phase := .acting }⟩, ?_⟩
    show next s (.resume i) = _
    simp only [next, hc]
    exact if_pos ⟨hphase, hr⟩
  starts s i s' hnext := by
    obtain ⟨c, hc, -, -, rfl⟩ := next_resume hnext
    exact ⟨_, sections_getElem (s := ⟨_, s.calls.set i _⟩)
      (List.getElem?_set_self (List.getElem?_eq_some_iff.mp hc).1), nofun⟩
  arrives s key _ _ := ⟨call s key, rfl, sections_call s key⟩
  ends s i a _ ha hrun := by
    have ha : (sections s)[i]? = some a := ha
    rw [sections, List.getElem?_map, Option.map_eq_some_iff] at ha
    obtain ⟨c, hc, rfl⟩ := ha
    have hphase : c.phase = .acting := by
      cases hp : c.phase with
      | acting => rfl
      | _ =>
          rw [Call.section, hp] at hrun
          cases hrun
    have hnext : next s (.settle i true) = some (settle s i c true) := by
      simp only [next, hc]
      exact if_pos hphase
    refine ⟨[.settle i true], _, Turns.Mutex.foldlM_cons hnext rfl,
      ⟨c.key, .finished⟩, ?_, rfl⟩
    exact sections_getElem (s := settle s i c true)
      (List.getElem?_set_self (List.getElem?_eq_some_iff.mp hc).1)

end NodeExclusive

/-! ## The queue of a lease -/

namespace Lease

/-- Where a method is: behind `methodTail`; in `invoke`; settled; and settled with the `catch`
behind it, which is what the next one waits for. -/
inductive Phase where
  | queued
  | acting
  | settled (ok : Bool)
  | caught (ok : Bool)
deriving DecidableEq

/-- A method that was accepted, with the `methodTail` it was put behind. -/
structure Method where
  preceding : Option ℕ
  phase : Phase
deriving DecidableEq

/-- Where `run` is: in the action; at `await methodTail`, after the action has returned or thrown;
and at its end. -/
inductive Stage where
  | acting
  | draining (tail : Option ℕ) (ok : Bool)
  | ended (ok : Bool)
deriving DecidableEq

structure State where
  acceptingMethods : Bool
  active : Bool
  methodTail : Option ℕ
  methods : List Method
  stage : Stage

/-- Methods are called by whoever has the lease, at any time; the actions `settle`, of a method, and
`actionSettles` are what the journal and the caller's action come to. -/
inductive Action where
  | invoke
  | resume (i : ℕ)
  | settle (i : ℕ) (ok : Bool)
  | tailSettles (i : ℕ)
  | actionSettles (ok : Bool)
  | drained

def Phase.isCaught : Phase → Bool
  | .caught _ => true
  | _ => false

/-- Whether the promise behind a method, or `Promise.resolve()`, is fulfilled. -/
def fulfilled (s : State) : Option ℕ → Bool
  | none => true
  | some j => (s.methods[j]?).any (·.phase.isCaught)

/-- `serial(invoke)`. -/
def serial (s : State) : State :=
  if s.acceptingMethods = false then s
  else { s with
    methods := s.methods ++ [⟨s.methodTail, .queued⟩]
    methodTail := some s.methods.length }

/-- The method that is to settle its promise, or the one behind it, or to start. -/
def move (s : State) (i : ℕ) (f : Method → Option Phase) : Option State :=
  match s.methods[i]? with
  | some m => (f m).map fun phase => { s with methods := s.methods.set i ⟨m.preceding, phase⟩ }
  | none => none

def next (s : State) : Action → Option State
  | .invoke => some (serial s)
  | .resume i => move s i fun m =>
    if m.phase = .queued ∧ fulfilled s m.preceding = true then some .acting else none
  | .settle i ok => move s i fun m => if m.phase = .acting then some (.settled ok) else none
  | .tailSettles i => move s i fun m =>
    match m.phase with
    | .settled ok => some (.caught ok)
    | _ => none
  | .actionSettles ok =>
    if s.stage = .acting then
      some { s with acceptingMethods := false, stage := .draining s.methodTail ok }
    else none
  | .drained =>
    match s.stage with
    | .draining tail ok =>
      if fulfilled s tail = true then some { s with active := false, stage := .ended ok } else none
    | _ => none

def Phase.turn : Phase → Turns.Phase
  | .queued => .waiting
  | .acting | .settled _ => .running
  | .caught _ => .finished

def Method.section (m : Method) : Section Unit := ⟨(), m.phase.turn⟩

def sections (s : State) : List (Section Unit) := s.methods.map Method.section

def mutex : Turns.Mutex State Action Unit where
  init := ⟨true, true, none, [], .acting⟩
  next := next
  sections := sections
  arrive _ := .invoke
  accepts s := s.acceptingMethods
  resume := .resume

/-- What comes before a method. -/
def before : ℕ → Option ℕ
  | 0 => none
  | n + 1 => some n

/-- What holds between two actions: every method is behind the one before it and the tail is the
last, methods are accepted while the caller acts, and at the end all have settled. -/
structure Issued (s : State) : Prop where
  chain : ∀ (i : ℕ) (m : Method), s.methods[i]? = some m → m.preceding = before i
  tail : s.methodTail = before s.methods.length
  accepting : s.acceptingMethods = true ↔ s.stage = .acting
  drains : ∀ tail ok, s.stage = .draining tail ok → tail = s.methodTail
  active : s.active = false ↔ ∃ ok, s.stage = .ended ok
  ended : s.active = false → ∀ m ∈ s.methods, m.phase.isCaught = true

theorem sections_getElem {s : State} {i : ℕ} {m : Method} (h : s.methods[i]? = some m) :
    (sections s)[i]? = some m.section := by
  rw [sections, List.getElem?_map, h]
  rfl

theorem turn_finished {p : Phase} : p.turn = .finished ↔ p.isCaught = true := by
  cases p with
  | caught ok => exact ⟨fun _ => rfl, fun _ => rfl⟩
  | queued => exact ⟨nofun, nofun⟩
  | acting => exact ⟨nofun, nofun⟩
  | settled ok => exact ⟨nofun, nofun⟩

theorem isCaught_iff {p : Phase} : p.isCaught = true ↔ ∃ ok, p = .caught ok := by
  cases p with
  | caught ok => exact ⟨fun _ => ⟨ok, rfl⟩, fun _ => rfl⟩
  | _ => exact ⟨nofun, nofun⟩

/-- What settling, or starting, a method does. -/
theorem move_some {s s' : State} {i : ℕ} {f : Method → Option Phase}
    (h : move s i f = some s') : ∃ m p, s.methods[i]? = some m ∧ f m = some p ∧
      s' = { s with methods := s.methods.set i ⟨m.preceding, p⟩ } := by
  unfold move at h
  split at h
  · rename_i m hm
    rw [Option.map_eq_some_iff] at h
    obtain ⟨p, hp, rfl⟩ := h
    exact ⟨m, p, hm, hp, rfl⟩
  · cases h

theorem issued_set {s : State} (h : Issued s) {i : ℕ} {m : Method} {p : Phase}
    (hm : s.methods[i]? = some m) (hp : m.phase.isCaught = true → p.isCaught = true) :
    Issued { s with methods := s.methods.set i ⟨m.preceding, p⟩ } := by
  refine ⟨fun j d hd => ?_, ?_, h.accepting, h.drains, h.active, fun hact d hd => ?_⟩
  · by_cases hij : i = j
    · subst hij
      have hd : (s.methods.set i ⟨m.preceding, p⟩)[i]? = some d := hd
      rw [List.getElem?_set_self (List.getElem?_eq_some_iff.mp hm).1] at hd
      cases hd
      exact h.chain i m hm
    · have hd : (s.methods.set i ⟨m.preceding, p⟩)[j]? = some d := hd
      rw [List.getElem?_set_ne hij] at hd
      exact h.chain j d hd
  · show _ = before (s.methods.set i _).length
    rw [List.length_set]
    exact h.tail
  · rcases List.mem_or_eq_of_mem_set hd with hd | rfl
    · exact h.ended hact d hd
    · exact hp (h.ended hact m (List.mem_of_getElem? hm))

/-- Where the promise behind a method is fulfilled all methods before it have settled. -/
theorem before_caught {s : State} (hord : Turns.Ordered (sections s)) {i : ℕ}
    (hr : fulfilled s (before i) = true) :
    ∀ j < i, ∀ m, s.methods[j]? = some m → m.phase.isCaught = true := by
  intro j hj m hm
  obtain ⟨i, rfl⟩ : ∃ n, i = n + 1 := ⟨i - 1, by omega⟩
  have hr : (s.methods[i]?).any (·.phase.isCaught) = true := hr
  cases hd : s.methods[i]? with
  | none =>
      rw [hd] at hr
      cases hr
  | some d =>
      rw [hd] at hr
      have hr : d.phase.isCaught = true := hr
      rcases Nat.lt_succ_iff_lt_or_eq.mp hj with hlt | rfl
      · refine turn_finished.mp (hord.before hlt (sections_getElem hm) (sections_getElem hd) rfl ?_)
        show d.phase.turn ≠ _
        rw [turn_finished.mpr hr]
        nofun
      · rw [hm] at hd
        cases hd
        exact hr

theorem issued_serial {s : State} (h : Issued s) : Issued (serial s) := by
  unfold serial
  split
  -- the lease accepts no more, so the method is refused and nothing changes
  · exact h
  · rename_i hacc
    have hactive : s.active ≠ false := by
      intro hact
      obtain ⟨ok, hok⟩ := h.active.mp hact
      have hstage := h.accepting.mp (by simpa using hacc)
      rw [hok] at hstage
      cases hstage
    refine ⟨fun i m hm => ?_, ?_, h.accepting, fun tail ok hst => ?_, h.active,
      fun hact => absurd hact hactive⟩
    · have hm : (s.methods ++ [⟨s.methodTail, .queued⟩])[i]? = some m := hm
      -- a method that was there before, or the new one, which awaits the tail
      rcases Nat.lt_or_ge i s.methods.length with hlt | hge
      · rw [List.getElem?_append_left hlt] at hm
        exact h.chain i m hm
      · rw [List.getElem?_append_right hge] at hm
        obtain ⟨hlt, rfl⟩ := List.getElem?_eq_some_iff.mp hm
        have hi : i = s.methods.length := by
          have : i - s.methods.length < 1 := hlt
          omega
        subst hi
        simp only [Nat.sub_self, List.getElem_cons_zero]
        exact h.tail
    · show some _ = before (s.methods ++ [_]).length
      rw [List.length_append]
      rfl
    · have hstage := h.accepting.mp (by simpa using hacc)
      have hst : s.stage = .draining tail ok := hst
      rw [hst] at hstage
      cases hstage

theorem sections_serial {s : State} (hacc : s.acceptingMethods = true) :
    sections (serial s) = sections s ++ [⟨(), .waiting⟩] := by
  rw [serial, if_neg (by rw [hacc]; nofun)]
  exact List.map_append

theorem step_serial (s : State) : sections (serial s) = sections s ∨
    Turns.Step (sections s) (sections (serial s)) := by
  cases hacc : s.acceptingMethods with
  | false =>
      left
      rw [serial, if_pos hacc]
  | true =>
      right
      rw [sections_serial hacc]
      exact .arrive ()

theorem issued_actionSettles {s s' : State} (h : Issued s) {ok : Bool}
    (hnext : next s (.actionSettles ok) = some s') :
    Issued s' ∧ s'.methods = s.methods ∧ s'.acceptingMethods = false := by
  simp only [next] at hnext
  split at hnext
  · rename_i hstage
    cases hnext
    refine ⟨⟨h.chain, h.tail, ⟨nofun, nofun⟩, fun tail ok hst => ?_, ⟨fun hact => ?_, nofun⟩,
      h.ended⟩, rfl, rfl⟩
    · cases hst
      rfl
    · obtain ⟨ok, hok⟩ := h.active.mp hact
      rw [hstage] at hok
      cases hok
  · cases hnext

theorem issued_drained {s s' : State} (h : Issued s) (hord : Turns.Ordered (sections s))
    (hnext : next s .drained = some s') :
    Issued s' ∧ s'.methods = s.methods ∧ s'.acceptingMethods = s.acceptingMethods := by
  simp only [next] at hnext
  split at hnext
  · rename_i tail ok hstage
    split at hnext
    · rename_i hr
      cases hnext
      have hacc : ¬s.acceptingMethods = true := by
        intro hacc
        have hst := h.accepting.mp hacc
        rw [hstage] at hst
        cases hst
      -- the tail is the last method, and what came before it has settled
      rw [h.drains tail ok hstage, h.tail] at hr
      refine ⟨⟨h.chain, h.tail, ⟨fun hacc' => absurd hacc' hacc, nofun⟩, nofun,
        ⟨fun _ => ⟨ok, rfl⟩, fun _ => rfl⟩, fun _ m hm => ?_⟩, rfl, rfl⟩
      obtain ⟨j, hj, rfl⟩ := List.getElem_of_mem hm
      exact before_caught hord hr j hj _ (List.getElem?_eq_getElem hj)
    · cases hnext
  · cases hnext

theorem next_settle {s : State} {i : ℕ} {m : Method} (hm : s.methods[i]? = some m)
    (hphase : m.phase = .acting) {ok : Bool} : next s (.settle i ok) =
      some { s with methods := s.methods.set i ⟨m.preceding, .settled ok⟩ } := by
  simp only [next, move, hm, hphase]
  rfl

theorem next_tailSettles {s : State} {i : ℕ} {m : Method} {ok : Bool}
    (hm : s.methods[i]? = some m) (hphase : m.phase = .settled ok) : next s (.tailSettles i) =
      some { s with methods := s.methods.set i ⟨m.preceding, .caught ok⟩ } := by
  simp only [next, move, hm, hphase]
  rfl

/-- A method whose `catch` has settled is a section that has finished. -/
theorem ends_at {s : State} {i : ℕ} {m : Method} (hm : s.methods[i]? = some m) (ok : Bool) :
    ∃ b, (sections { s with methods := s.methods.set i ⟨m.preceding, .caught ok⟩ })[i]? = some b ∧
      b.phase = .finished :=
  ⟨_, sections_getElem (s := { s with methods := s.methods.set i ⟨m.preceding, .caught ok⟩ })
    (List.getElem?_set_self (List.getElem?_eq_some_iff.mp hm).1), rfl⟩

theorem simulates : mutex.Simulates Issued where
  init := ⟨nofun, rfl, ⟨fun _ => rfl, fun _ => rfl⟩, nofun, ⟨nofun, nofun⟩, nofun⟩
  empty := rfl
  step s a s' hI hord hnext := by
    cases a with
    | invoke =>
        cases hnext
        exact ⟨issued_serial hI, step_serial s⟩
    | resume i =>
        obtain ⟨m, p, hm, hp, rfl⟩ := move_some hnext
        split at hp
        · rename_i hif
          cases hp
          refine ⟨issued_set hI hm (by rw [hif.1]; nofun), .inr ?_⟩
          have hi : (sections s)[i]? = some ⟨(), .waiting⟩ := by
            rw [sections_getElem hm, Method.section, hif.1]
            rfl
          show Turns.Step (sections s) ((s.methods.set i _).map _)
          rw [List.map_set]
          refine .start_set hi fun j hj a ha _ => ?_
          rw [sections, List.getElem?_map, Option.map_eq_some_iff] at ha
          obtain ⟨d, hd, rfl⟩ := ha
          exact turn_finished.mpr (before_caught hord (hI.chain i m hm ▸ hif.2) j hj d hd)
        · cases hp
    | settle i ok =>
        obtain ⟨m, p, hm, hp, rfl⟩ := move_some hnext
        split at hp
        · rename_i hphase
          cases hp
          refine ⟨issued_set hI hm (by rw [hphase]; nofun), .inl ?_⟩
          have hi : (sections s)[i]? = some ⟨(), .running⟩ := by
            rw [sections_getElem hm, Method.section, hphase]
            rfl
          obtain ⟨hlt, hget⟩ := List.getElem?_eq_some_iff.mp hi
          show (s.methods.set i _).map _ = sections s
          rw [List.map_set]
          show (sections s).set i ⟨(), .running⟩ = sections s
          rw [← hget, List.set_getElem_self]
        · cases hp
    | tailSettles i =>
        obtain ⟨m, p, hm, hp, rfl⟩ := move_some hnext
        split at hp
        · rename_i ok hphase
          cases hp
          refine ⟨issued_set hI hm fun _ => rfl, .inr ?_⟩
          have hi : (sections s)[i]? = some ⟨(), .running⟩ := by
            rw [sections_getElem hm, Method.section, hphase]
            rfl
          show Turns.Step (sections s) ((s.methods.set i _).map _)
          rw [List.map_set]
          exact .finish_set hi
        · cases hp
    | actionSettles ok =>
        obtain ⟨h, heq, -⟩ := issued_actionSettles hI hnext
        exact ⟨h, .inl (congrArg (List.map Method.section) heq)⟩
    | drained =>
        obtain ⟨h, heq, -⟩ := issued_drained hI hord hnext
        exact ⟨h, .inl (congrArg (List.map Method.section) heq)⟩
  wakes s i hI _ hready := by
    obtain ⟨⟨⟩, hi, hbefore⟩ := hready
    have hi : (s.methods.map Method.section)[i]? = some ⟨(), .waiting⟩ := hi
    rw [List.getElem?_map, Option.map_eq_some_iff] at hi
    obtain ⟨m, hm, hsec⟩ := hi
    have hturn : m.phase.turn = .waiting := congrArg Section.phase hsec
    have hphase : m.phase = .queued := by
      cases hp : m.phase with
      | queued => rfl
      | _ =>
          rw [hp] at hturn
          cases hturn
    have hr : fulfilled s m.preceding = true := by
      rw [hI.chain i m hm]
      cases i with
      | zero => rfl
      | succ i =>
          have hlt := Nat.lt_of_succ_lt (List.getElem?_eq_some_iff.mp hm).1
          have hd := List.getElem?_eq_getElem hlt
          have hfin := hbefore i (Nat.lt_succ_self i) _ (sections_getElem hd) rfl
          show (s.methods[i]?).any _ = true
          rw [hd]
          exact turn_finished.mp hfin
    refine ⟨{ s with methods := s.methods.set i ⟨m.preceding, .acting⟩ }, ?_⟩
    show move s i _ = _
    rw [move, hm]
    show Option.map _ (if _ then _ else _) = _
    rw [if_pos ⟨hphase, hr⟩]
    rfl
  starts s i s' hnext := by
    obtain ⟨m, p, hm, hp, rfl⟩ := move_some hnext
    split at hp
    · cases hp
      exact ⟨_, sections_getElem (s := { s with methods := s.methods.set i ⟨m.preceding, .acting⟩ })
        (List.getElem?_set_self (List.getElem?_eq_some_iff.mp hm).1), nofun⟩
    · cases hp
  arrives s _ _ hacc := ⟨serial s, rfl, sections_serial hacc⟩
  ends s i a _ ha hrun := by
    have ha : (sections s)[i]? = some a := ha
    rw [sections, List.getElem?_map, Option.map_eq_some_iff] at ha
    obtain ⟨m, hm, rfl⟩ := ha
    -- a running method has settled, and the `catch` behind it is to come, or it settles first
    cases hp : m.phase with
    | queued =>
        rw [Method.section, hp] at hrun
        cases hrun
    | caught ok =>
        rw [Method.section, hp] at hrun
        cases hrun
    | settled ok =>
        exact ⟨[.tailSettles i], _,
          Turns.Mutex.foldlM_cons (next_tailSettles hm hp) rfl, ends_at hm ok⟩
    | acting =>
        have hm' : (s.methods.set i ⟨m.preceding, .settled true⟩)[i]? =
            some ⟨m.preceding, .settled true⟩ :=
          List.getElem?_set_self (List.getElem?_eq_some_iff.mp hm).1
        exact ⟨[.settle i true, .tailSettles i], _,
          Turns.Mutex.foldlM_cons (next_settle hm hp)
            (Turns.Mutex.foldlM_cons (next_tailSettles hm' rfl) rfl),
          ends_at hm' true⟩

/-- Once the caller's action is over, no method is accepted any more. -/
theorem refused {s s' : State} {a : Action} (h : Issued s) (hord : Turns.Ordered (sections s))
    (hacc : s.acceptingMethods = false) (hnext : next s a = some s') :
    s'.acceptingMethods = false ∧ s'.methods.length = s.methods.length := by
  cases a with
  | invoke =>
      cases hnext
      rw [serial, if_pos hacc]
      exact ⟨hacc, rfl⟩
  | actionSettles ok =>
      obtain ⟨-, heq, hacc'⟩ := issued_actionSettles h hnext
      exact ⟨hacc', congrArg List.length heq⟩
  | drained =>
      obtain ⟨-, heq, hacc'⟩ := issued_drained h hord hnext
      exact ⟨hacc'.trans hacc, congrArg List.length heq⟩
  | _ =>
      obtain ⟨m, p, -, -, rfl⟩ := move_some hnext
      exact ⟨hacc, List.length_set⟩

/-- Once the methods have settled too, the lease can end. -/
theorem drained_next {s : State} {tail : Option ℕ} {ok : Bool} (h : Issued s)
    (hstage : s.stage = .draining tail ok)
    (hdone : ∀ m ∈ s.methods, m.phase.isCaught = true) :
    next s .drained = some { s with active := false, stage := .ended ok } := by
  have hr : fulfilled s tail = true := by
    rw [h.drains tail ok hstage, h.tail]
    cases hlen : s.methods.length with
    | zero => rfl
    | succ n =>
        have hlt : n < s.methods.length := by omega
        show (s.methods[n]?).any _ = true
        rw [List.getElem?_eq_getElem hlt]
        exact hdone _ (List.getElem_mem hlt)
  simp only [next, hstage]
  exact if_pos hr

end Lease

/-- **The helpers let one section in at a time**: whoever arrives while callers are accepted becomes
a section, they start in the order of arrival, and whoever may start is woken. A lease ends once
every method that was accepted has settled, however it settled, and accepts none from the end of the
caller's action on. -/
theorem helpers_exclude (κ : Type) [DecidableEq κ] :
    AsyncMutex.mutex.Serves ∧ (NodeExclusive.mutex κ).Serves ∧ Lease.mutex.Serves ∧
    ∀ s, Lease.mutex.Reachable s →
      (s.active = false ↔ ∃ ok, s.stage = .ended ok) ∧
      (s.active = false → ∀ m ∈ s.methods, ∃ ok, m.phase = .caught ok) ∧
      (s.acceptingMethods = true ↔ s.stage = .acting) ∧
      (s.acceptingMethods = false → Lease.serial s = s ∧ ∀ a s', Lease.next s a = some s' →
        s'.acceptingMethods = false ∧ s'.methods.length = s.methods.length) ∧
      (∀ i m ok, s.methods[i]? = some m → m.phase = .settled ok →
        ∃ s', Lease.next s (.tailSettles i) = some s') ∧
      (∀ tail ok, s.stage = .draining tail ok → (∀ m ∈ s.methods, ∃ ok, m.phase = .caught ok) →
        ∃ s', Lease.next s .drained = some s' ∧ s'.stage = .ended ok) := by
  refine ⟨AsyncMutex.simulates.serves, NodeExclusive.simulates.serves, Lease.simulates.serves,
    fun s hs => ?_⟩
  obtain ⟨h, hord⟩ := Lease.simulates.reachable hs
  refine ⟨h.active, fun hact m hm => Lease.isCaught_iff.mp (h.ended hact m hm), h.accepting,
    fun hacc => ⟨if_pos hacc, fun a s' => Lease.refused h hord hacc⟩, fun i m ok hm hphase => ?_,
    fun tail ok hstage hdone => ?_⟩
  · exact ⟨_, Lease.next_tailSettles hm hphase⟩
  · exact ⟨_, Lease.drained_next h hstage fun m hm => Lease.isCaught_iff.mpr (hdone m hm), rfl⟩

/-- Two callers of a mutex, the first of which has released; three calls of `nodeExclusive` for two
keys, the first of which threw while the second runs; and a lease that accepted two methods, the
first of which threw. The last caller of a mutex and the third call go on, and another one may
arrive. -/
theorem helpers_exclude_sample :
    (∃ s, AsyncMutex.mutex.Reachable s ∧
      AsyncMutex.sections s = [⟨(), .finished⟩, ⟨(), .waiting⟩] ∧
      (∃ s', AsyncMutex.next s (.resume 1) = some s') ∧
      ∃ s', AsyncMutex.next s .acquire = some s' ∧
        AsyncMutex.sections s' = [⟨(), .finished⟩, ⟨(), .waiting⟩, ⟨(), .waiting⟩]) ∧
    (∃ s, (NodeExclusive.mutex String).Reachable s ∧
      NodeExclusive.sections s = [⟨"a", .finished⟩, ⟨"b", .running⟩, ⟨"a", .waiting⟩] ∧
      (∃ s', NodeExclusive.next s (.resume 2) = some s') ∧
      ∃ s', NodeExclusive.next s (.call "b") = some s' ∧ NodeExclusive.sections s' =
        [⟨"a", .finished⟩, ⟨"b", .running⟩, ⟨"a", .waiting⟩, ⟨"b", .waiting⟩]) ∧
    ∃ s, Lease.mutex.Reachable s ∧ s.methods.length = 2 ∧
      s.active = false ∧ ∀ m ∈ s.methods, ∃ ok, m.phase = .caught ok := by
  have hmutex : AsyncMutex.mutex.Reachable ⟨[], true, [.released, .granted]⟩ :=
    Turns.Mutex.Reachable.init.foldlM (show [AsyncMutex.Action.acquire, .acquire, .resume 0,
      .release 0].foldlM AsyncMutex.next _ = some _ from rfl)
  have hnode : ∃ s, (NodeExclusive.mutex String).Reachable s ∧ s.calls =
      [⟨"a", none, true, .settled false⟩, ⟨"b", none, false, .acting⟩,
        ⟨"a", some 0, false, .awaiting⟩] :=
    ⟨_, Turns.Mutex.Reachable.init.foldlM (show [NodeExclusive.Action.call "a", .call "b",
      .call "a", .resume 0, .resume 1, .settle 0 false].foldlM NodeExclusive.next _ = some _
      from rfl), rfl⟩
  have hlease : Lease.mutex.Reachable
      ⟨false, false, some 1, [⟨none, .caught false⟩, ⟨some 0, .caught true⟩], .ended true⟩ :=
    Turns.Mutex.Reachable.init.foldlM (show [Lease.Action.invoke, .invoke, .resume 0,
      .actionSettles true, .settle 0 false, .tailSettles 0, .resume 1, .settle 1 true,
      .tailSettles 1, .drained].foldlM Lease.next _ = some _ from rfl)
  obtain ⟨hfirst, hsecond, -, hthird⟩ := helpers_exclude String
  obtain ⟨s, hs, hcalls⟩ := hnode
  have hsections : NodeExclusive.sections s =
      [⟨"a", .finished⟩, ⟨"b", .running⟩, ⟨"a", .waiting⟩] := congrArg (List.map _) hcalls
  refine ⟨⟨_, hmutex, rfl, ?_, hfirst.arrives _ hmutex rfl ()⟩,
    ⟨s, hs, hsections, ?_, ?_⟩, _, hlease, rfl, rfl, (hthird _ hlease).2.1 rfl⟩
  · refine (hfirst.noLostWakeUp _ hmutex 1 ⟨(), rfl, fun j hj b hb _ => ?_⟩).1
    obtain rfl : j = 0 := by omega
    cases hb
    rfl
  · refine (hsecond.noLostWakeUp s hs 2 ⟨"a", congrArg (·[2]?) hsections, ?_⟩).1
    intro j hj b hb hkey
    have hb : (NodeExclusive.sections s)[j]? = some b := hb
    rw [hsections] at hb
    obtain rfl | rfl : j = 0 ∨ j = 1 := by omega
    · cases hb
      rfl
    · cases hb
      exact absurd hkey (by decide)
  · obtain ⟨s', hnext, hs'⟩ := hsecond.arrives s hs rfl "b"
    exact ⟨s', hnext, hs'.trans (congrArg (· ++ [(⟨"b", .waiting⟩ : Section String)]) hsections)⟩

end Line.Journal
