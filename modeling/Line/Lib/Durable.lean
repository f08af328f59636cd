import Mathlib.Data.List.Basic
import Mathlib.Tactic.Common

/-!
# One durable record

A process works on a copy of a record that is stored as one object. It changes the
record by publishing a successor. The store replaces the object in one go, or reports a
failure and leaves open whether it did; the copy is replaced only after the store has
reported success. The process may end at any point, and the next one starts from what is
stored, if it accepts it.

A program tells how a process reacts to what reaches it: calls, and answers to questions it
asked earlier. It is told whether a publication is in flight, and must not start a second
one (`Program.guarded`).

What the store has held, newest first, is then a chain of successors (`Reachable.chain`),
the copy of a process that is ready is what is stored (`Reachable.current`), and what a
process has answered is still true of what is stored (`Reachable.answered`).
-/

namespace Durable

/-- What a process may do with its record now. -/
inductive Status where
  | ready
  | publishing
  | uncertain
deriving DecidableEq

/-- How a process reacts: an answer, a question to somebody, or a publication, with what it
remembers while the publication is in flight and what it remembers when it has succeeded. -/
inductive Outcome (ρ χ β : Type) where
  | replies (answer : β) (memory : χ)
  | waits (memory : χ)
  | publishes (next : ρ) (meanwhile memory : χ) (answer : β)

/-- What a process does: `α` is what may reach it, `ρ` the record, `χ` what it remembers
besides, `β` what it answers. -/
structure Program (α ρ χ β : Type) where
  /-- The first record, where the store has none. -/
  create : α → Option (ρ × χ)
  /-- How a process begins on a stored record, if it accepts it. -/
  opens : α → ρ → Option χ
  react : Status → α → ρ → χ → Outcome ρ χ β
  guarded : ∀ {status a r m next n m' b}, react status a r m = .publishes next n m' b →
    status = .ready

variable {α ρ χ β : Type}

/-- Where a process stands with the store. -/
inductive Phase (α ρ χ β : Type) where
  | ready
  | publishing (cause : α) (next : ρ) (memory : χ) (answer : β) (landed : Bool)
  | uncertain

def Phase.status : Phase α ρ χ β → Status
  | .ready => .ready
  | .publishing .. => .publishing
  | .uncertain => .uncertain

inductive Process (α ρ χ β : Type) where
  | absent
  /-- The first record is being stored; nobody can call the process yet. -/
  | creating (cause : α) (record : ρ) (memory : χ) (landed : Bool)
  | running (record : ρ) (memory : χ) (phase : Phase α ρ χ β)

/-- The store, the process that has it open, and what was answered. -/
structure World (α ρ χ β : Type) where
  /-- What the store has held, newest first, each with what led to it. -/
  held : List (α × ρ)
  process : Process α ρ χ β
  answers : List (α × β)

def World.empty : World α ρ χ β := ⟨[], .absent, []⟩

/-- What has been handed to the store: what it has held, and what is on its way. -/
def World.written (w : World α ρ χ β) : List (α × ρ) :=
  match w.process with
  | .creating a r _ false => (a, r) :: w.held
  | .running _ _ (.publishing a next _ _ false) => (a, next) :: w.held
  | _ => w.held

/-- What happens next. -/
inductive Step (p : Program α ρ χ β) : World α ρ χ β → World α ρ χ β → Prop
  | create {as a r m} : p.create a = some (r, m) →
      Step p ⟨[], .absent, as⟩ ⟨[], .creating a r m false, as⟩
  | createLands {as a r m} :
      Step p ⟨[], .creating a r m false, as⟩ ⟨[(a, r)], .creating a r m true, as⟩
  | created {h as a r m} :
      Step p ⟨h, .creating a r m true, as⟩ ⟨h, .running r m .ready, as⟩
  | opens {h as a a' r m} : p.opens a' r = some m →
      Step p ⟨(a, r) :: h, .absent, as⟩ ⟨(a, r) :: h, .running r m .ready, as⟩
  | replies {h as r m m' phase a b} : p.react phase.status a r m = .replies b m' →
      Step p ⟨h, .running r m phase, as⟩ ⟨h, .running r m' phase, (a, b) :: as⟩
  | waits {h as r m m' phase a} : p.react phase.status a r m = .waits m' →
      Step p ⟨h, .running r m phase, as⟩ ⟨h, .running r m' phase, as⟩
  | publishes {h as r m n m' phase a next b} :
      p.react phase.status a r m = .publishes next n m' b →
      Step p ⟨h, .running r m phase, as⟩ ⟨h, .running r n (.publishing a next m' b false), as⟩
  | lands {h as r m m' a next b} :
      Step p ⟨h, .running r m (.publishing a next m' b false), as⟩
        ⟨(a, next) :: h, .running r m (.publishing a next m' b true), as⟩
  | published {h as r m m' a next b} :
      Step p ⟨h, .running r m (.publishing a next m' b true), as⟩
        ⟨h, .running next m' .ready, (a, b) :: as⟩
  | fails {h as r m m' a next b landed} :
      Step p ⟨h, .running r m (.publishing a next m' b landed), as⟩
        ⟨h, .running r m .uncertain, as⟩
  | ends {h as process} : Step p ⟨h, process, as⟩ ⟨h, .absent, as⟩

/-- The worlds that come of an empty store. -/
inductive Reachable (p : Program α ρ χ β) : World α ρ χ β → Prop
  | empty : Reachable p .empty
  | step {w w'} : Reachable p w → Step p w w' → Reachable p w'

/-! ## What a process remembers

`fits r m` is what is always true of the memory of a process that is ready. -/

/-- A property of the record and the memory that a process begins with and keeps. -/
structure Program.Remembers (p : Program α ρ χ β) (fits : ρ → χ → Prop) : Prop where
  create : ∀ {a r m}, p.create a = some (r, m) → fits r m
  opens : ∀ {a r m}, p.opens a r = some m → fits r m
  replies : ∀ {a r m b m'}, fits r m → p.react .ready a r m = .replies b m' → fits r m'
  waits : ∀ {a r m m'}, fits r m → p.react .ready a r m = .waits m' → fits r m'
  publishes : ∀ {a r m next n m' b}, fits r m → p.react .ready a r m = .publishes next n m' b →
    fits next m'

/-- A process that is ready makes `next` out of `r`. -/
def Program.Makes (p : Program α ρ χ β) (fits : ρ → χ → Prop) (a : α) (r next : ρ) (b : β) :
    Prop :=
  ∃ m n m', fits r m ∧ p.react .ready a r m = .publishes next n m' b

/-- A history of records, newest first: the oldest was created, and every other one made out of
the one before it. -/
inductive Chain (p : Program α ρ χ β) (fits : ρ → χ → Prop) : List (α × ρ) → Prop
  | nil : Chain p fits []
  | first {a r m} : p.create a = some (r, m) → Chain p fits [(a, r)]
  | next {a r a' r' b h} : Chain p fits ((a, r) :: h) → p.Makes fits a' r r' b →
      Chain p fits ((a', r') :: (a, r) :: h)

/-- Where the store and the process stand. -/
inductive Coherent (p : Program α ρ χ β) (fits : ρ → χ → Prop) :
    List (α × ρ) → Process α ρ χ β → Prop
  | absent {h} : Coherent p fits h .absent
  | creating {a r m} : p.create a = some (r, m) → Coherent p fits [] (.creating a r m false)
  | created {a r m} : p.create a = some (r, m) → Coherent p fits [(a, r)] (.creating a r m true)
  | ready {h a r m} : fits r m → Coherent p fits ((a, r) :: h) (.running r m .ready)
  | publishing {h a r m a' next m' b} : p.Makes fits a' r next b → fits next m' →
      Coherent p fits ((a, r) :: h) (.running r m (.publishing a' next m' b false))
  | landed {h a r m a' next m' b} : p.Makes fits a' r next b → fits next m' →
      Coherent p fits ((a', next) :: (a, r) :: h) (.running r m (.publishing a' next m' b true))
  | uncertain {h a r m} : Coherent p fits ((a, r) :: h) (.running r m .uncertain)
  | behind {h a r m a' next b} : p.Makes fits a' r next b →
      Coherent p fits ((a', next) :: (a, r) :: h) (.running r m .uncertain)

variable {p : Program α ρ χ β} {fits : ρ → χ → Prop}

/-- A reply or a question changes nothing but what the process remembers. -/
theorem Coherent.memory {h : List (α × ρ)} {r : ρ} {m m' : χ} {phase : Phase α ρ χ β}
    (hc : Coherent p fits h (.running r m phase))
    (hm : phase = .ready → fits r m → fits r m') :
    Coherent p fits h (.running r m' phase) := by
  cases hc with
  | ready hf => exact .ready (hm rfl hf)
  | publishing hmakes hf => exact .publishing hmakes hf
  | landed hmakes hf => exact .landed hmakes hf
  | uncertain => exact .uncertain
  | behind hmakes => exact .behind hmakes

theorem Step.coherent {w w' : World α ρ χ β} (hp : p.Remembers fits) (hs : Step p w w')
    (hc : Coherent p fits w.held w.process) : Coherent p fits w'.held w'.process := by
  cases hs with
  | create hcreate => exact .creating hcreate
  | createLands =>
      cases hc with
      | creating hcreate => exact .created hcreate
  | created =>
      cases hc with
      | created hcreate => exact .ready (hp.create hcreate)
  | opens hopens => exact .ready (hp.opens hopens)
  | replies hreact =>
      refine hc.memory fun hphase hf => ?_
      subst hphase
      exact hp.replies hf hreact
  | waits hreact =>
      refine hc.memory fun hphase hf => ?_
      subst hphase
      exact hp.waits hf hreact
  | publishes hreact =>
      -- only a process that is ready publishes
      have hready := p.guarded hreact
      rw [hready] at hreact
      cases hc with
      | ready hf => exact .publishing ⟨_, _, _, hf, hreact⟩ (hp.publishes hf hreact)
      | publishing _ _ => cases hready
      | landed _ _ => cases hready
      | uncertain => cases hready
      | behind _ => cases hready
  | lands =>
      cases hc with
      | publishing hmakes hf => exact .landed hmakes hf
  | published =>
      cases hc with
      | landed _ hf => exact .ready hf
  | fails =>
      cases hc with
      | publishing _ _ => exact .uncertain
      | landed hmakes _ => exact .behind hmakes
  | ends => exact .absent

theorem Reachable.coherent {w : World α ρ χ β} (hp : p.Remembers fits) (hw : Reachable p w) :
    Coherent p fits w.held w.process := by
  induction hw with
  | empty => exact .absent
  | step _ hs ih => exact hs.coherent hp ih

/-! ## The history of the store -/

theorem Step.chain {w w' : World α ρ χ β} (hs : Step p w w')
    (hc : Coherent p fits w.held w.process) (h : Chain p fits w.held) :
    Chain p fits w'.held := by
  cases hs with
  | createLands =>
      cases hc with
      | creating hcreate => exact .first hcreate
  | lands =>
      cases hc with
      | publishing hmakes _ => exact .next h hmakes
  | _ => exact h

/-- **What the store has held is a chain of successors.** -/
theorem Reachable.chain {w : World α ρ χ β} (hp : p.Remembers fits) (hw : Reachable p w) :
    Chain p fits w.held := by
  induction hw with
  | empty => exact .nil
  | step hw hs ih => exact hs.chain (hw.coherent hp) ih

/-- So is what the store was handed. -/
theorem Reachable.written_chain {w : World α ρ χ β} (hp : p.Remembers fits) (hw : Reachable p w) :
    Chain p fits w.written := by
  have hchain := hw.chain hp
  have hc := hw.coherent hp
  obtain ⟨held, process, answers⟩ := w
  cases hc with
  | creating hcreate => exact .first hcreate
  | publishing hmakes _ => exact .next hchain hmakes
  | _ => exact hchain

/-- The copy of a process that is ready is what is stored. -/
theorem Reachable.current {h : List (α × ρ)} {as : List (α × β)} {r : ρ} {m : χ}
    (hp : p.Remembers fits) (hw : Reachable p ⟨h, .running r m .ready, as⟩) :
    ∃ a rest, h = (a, r) :: rest := by
  cases hw.coherent hp with
  | ready _ => exact ⟨_, _, rfl⟩

/-! ## Invariants -/

/-- **The invariant rule**: what holds of a created record, and of what is made out of a record
it holds of, holds of every record of a history. -/
theorem Chain.forall {I : ρ → Prop} {h : List (α × ρ)} (hc : Chain p fits h)
    (h0 : ∀ a r m, p.create a = some (r, m) → I r)
    (hs : ∀ a r next b, I r → p.Makes fits a r next b → I next) : ∀ e ∈ h, I e.2 := by
  induction hc with
  | nil =>
      intro e he
      cases he
  | first hcreate =>
      intro e he
      rw [List.mem_singleton.mp he]
      exact h0 _ _ _ hcreate
  | next _ hmakes ih =>
      intro e he
      rcases List.mem_cons.mp he with rfl | he
      · exact hs _ _ _ _ (ih _ List.mem_cons_self) hmakes
      · exact ih e he

/-- What is made keeps what held of the record it was made out of, so the newest record has
what any earlier one had. -/
theorem Chain.newest {P : ρ → Prop} {h : List (α × ρ)} {a : α} {r : ρ}
    (hc : Chain p fits ((a, r) :: h))
    (hs : ∀ a r next b, P r → p.Makes fits a r next b → P next) :
    ∀ e ∈ (a, r) :: h, P e.2 → P r := by
  induction h generalizing a r with
  | nil =>
      intro e he hP
      rw [List.mem_singleton.mp he] at hP
      exact hP
  | cons d h ih =>
      intro e he hP
      rcases List.mem_cons.mp he with rfl | he
      · exact hP
      · cases hc with
        | next hc hmakes => exact hs _ _ _ _ (ih hc e he hP) hmakes

/-- Neighbours in a history are related as what is made is to what it is made out of. -/
theorem Chain.isChain {I : ρ → Prop} {R : α → ρ → ρ → Prop} {h : List (α × ρ)}
    (hc : Chain p fits h) (hI : ∀ e ∈ h, I e.2)
    (hs : ∀ a r next b, I r → p.Makes fits a r next b → R a r next) :
    h.IsChain fun new old => R new.1 old.2 new.2 := by
  induction hc with
  | nil => exact .nil
  | first _ => exact .singleton _
  | next _ hmakes ih =>
      have hI' := fun e he => hI e (List.mem_cons_of_mem _ he)
      exact .cons_cons (hs _ _ _ _ (hI' _ List.mem_cons_self) hmakes) (ih hI')

/-- A history begins with a record that was created. -/
theorem Chain.oldest {h : List (α × ρ)} (hc : Chain p fits h) :
    ∀ e ∈ h.getLast?, ∃ m, p.create e.1 = some (e.2, m) := by
  induction hc with
  | nil =>
      intro e he
      cases he
  | first hcreate =>
      rintro e ⟨⟩
      exact ⟨_, hcreate⟩
  | next _ _ ih =>
      rw [List.getLast?_cons_cons]
      exact ih

/-- What an answer tells, `tells b`, is true of the record that it was given on. -/
structure Program.Honest (p : Program α ρ χ β) (fits : ρ → χ → Prop) (tells : α × β → ρ → Prop) :
    Prop where
  replies : ∀ {status a r m b m'}, p.react status a r m = .replies b m' → tells (a, b) r
  publishes : ∀ {a r next b}, p.Makes fits a r next b → tells (a, b) next
  kept : ∀ {e a r next b}, tells e r → p.Makes fits a r next b → tells e next

/-- **What a process has answered is true of what is stored**, whatever happened since. -/
theorem Reachable.answered {tells : α × β → ρ → Prop} {w : World α ρ χ β} (hp : p.Remembers fits)
    (hh : p.Honest fits tells) (hw : Reachable p w) :
    ∀ e ∈ w.answers, ∃ a r rest, w.held = (a, r) :: rest ∧ tells e r := by
  induction hw with
  | empty =>
      intro e he
      cases he
  | step hw hs ih =>
      have hc := hw.coherent hp
      cases hs with
      | create _ =>
          intro e he
          obtain ⟨a, r, rest, heq, -⟩ := ih e he
          cases heq
      | createLands =>
          intro e he
          obtain ⟨a, r, rest, heq, -⟩ := ih e he
          cases heq
      | lands =>
          intro e he
          obtain ⟨a, r, rest, heq, htells⟩ := ih e he
          cases hc with
          | publishing hmakes _ =>
              cases heq
              exact ⟨_, _, _, rfl, hh.kept htells hmakes⟩
      | replies hreact =>
          intro e he
          rcases List.mem_cons.mp he with rfl | he
          · have htells := hh.replies hreact
            cases hc with
            | ready _ => exact ⟨_, _, _, rfl, htells⟩
            | publishing _ _ => exact ⟨_, _, _, rfl, htells⟩
            | landed hmakes _ => exact ⟨_, _, _, rfl, hh.kept htells hmakes⟩
            | uncertain => exact ⟨_, _, _, rfl, htells⟩
            | behind hmakes => exact ⟨_, _, _, rfl, hh.kept htells hmakes⟩
          · exact ih e he
      | published =>
          intro e he
          rcases List.mem_cons.mp he with rfl | he
          · cases hc with
            | landed hmakes _ => exact ⟨_, _, _, rfl, hh.publishes hmakes⟩
          · exact ih e he
      | _ => exact ih

/-! ## Runs without a failure -/

/-- The world after what reached it has had its whole effect. -/
def World.served (p : Program α ρ χ β) (w : World α ρ χ β) (a : α) : World α ρ χ β :=
  match w with
  | ⟨[], .absent, as⟩ =>
    match p.create a with
    | some (r, m) => ⟨[(a, r)], .running r m .ready, as⟩
    | none => ⟨[], .absent, as⟩
  | ⟨h, .running r m .ready, as⟩ =>
    match p.react .ready a r m with
    | .replies b m' => ⟨h, .running r m' .ready, (a, b) :: as⟩
    | .waits m' => ⟨h, .running r m' .ready, as⟩
    | .publishes next _ m' b => ⟨(a, next) :: h, .running next m' .ready, (a, b) :: as⟩
  | ⟨(c, r) :: h, .absent, as⟩ =>
    match p.opens a r with
    | some m => ⟨(c, r) :: h, .running r m .ready, as⟩
    | none => w
  | w => w

theorem Reachable.served {w : World α ρ χ β} (hw : Reachable p w) (a : α) :
    Reachable p (w.served p a) := by
  unfold World.served
  split
  · split
    · next hcreate => exact ((hw.step (.create hcreate)).step .createLands).step .created
    · exact hw
  · split
    · next hreact => exact hw.step (.replies hreact)
    · next hreact => exact hw.step (.waits hreact)
    · next hreact => exact ((hw.step (.publishes hreact)).step .lands).step .published
  · split
    · next hopens => exact hw.step (.opens hopens)
    · exact hw
  · exact hw

/-- The world after the process has ended, whatever it was doing. -/
def World.ended (w : World α ρ χ β) : World α ρ χ β := ⟨w.held, .absent, w.answers⟩

theorem Reachable.ended {w : World α ρ χ β} (hw : Reachable p w) : Reachable p w.ended :=
  hw.step .ends

/-- All that reaches a world, in turn. -/
theorem Reachable.served_all {w : World α ρ χ β} (hw : Reachable p w) (as : List α) :
    Reachable p (as.foldl (World.served p) w) := by
  induction as generalizing w with
  | nil => exact hw
  | cons a as ih => exact ih (hw.served a)

end Durable
