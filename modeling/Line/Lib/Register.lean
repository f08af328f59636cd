import Line.Lib.History
import Line.Lib.MapTotal

/-!
# Registers whose entries only move along permitted edges

A register is a finite map that a system updates one entry at a time: a fresh key
is *added*, or the value at a key is *replaced*, and nothing is ever removed.
What may be added and which value may replace which is a parameter, so the
register is a small transition system at every key.

`Change.lookup` and `Change.lookup_back` follow one key over a change, forward
and backward. From them come the two rules used below: `Change.forall` carries a
property of the entries, `evolves` says what a whole continuation of a run makes of
one entry, and `origin` finds the step that added it.
-/

namespace Register

variable {κ β : Type*} [DecidableEq κ]

/--
`Change new move m m'`: one update of the register. `new k v` says that `v` may be
added at a free key `k`, `move k u v` that `v` may replace `u` there.
-/
inductive Change (new : κ → β → Prop) (move : κ → β → β → Prop) (m : Finmap fun _ : κ => β) :
    (Finmap fun _ : κ => β) → Prop
  | same : Change new move m m
  | add {k : κ} {v : β} : m.lookup k = none → new k v → Change new move m (m.insert k v)
  | put {k : κ} {u v : β} : m.lookup k = some u → move k u v → Change new move m (m.insert k v)

variable {new : κ → β → Prop} {move : κ → β → β → Prop} {m m' : Finmap fun _ : κ => β}
  {k : κ} {u v : β}

theorem Change.mono {new' : κ → β → Prop} {move' : κ → β → β → Prop} (h : Change new move m m')
    (hn : ∀ k v, m.lookup k = none → new k v → new' k v)
    (hm : ∀ k u v, m.lookup k = some u → move k u v → move' k u v) : Change new' move' m m' := by
  cases h with
  | same => exact .same
  | add hk hv => exact .add hk (hn _ _ hk hv)
  | put hk hv => exact .put hk (hm _ _ _ hk hv)

/-- **Forward.** An entry is still there, with its value or with one it may move to. -/
theorem Change.lookup (h : Change new move m m') (hk : m.lookup k = some u) :
    ∃ v, m'.lookup k = some v ∧ (v = u ∨ move k u v) := by
  cases h with
  | same => exact ⟨u, hk, .inl rfl⟩
  | @add j w hj _ =>
    have hne : k ≠ j := fun e => by rw [e, hj] at hk; cases hk
    exact ⟨u, by rw [Finmap.lookup_insert_of_ne _ hne, hk], .inl rfl⟩
  | @put j u' w hj hw =>
    by_cases e : k = j
    · subst e
      rw [hk] at hj
      cases hj
      exact ⟨w, Finmap.lookup_insert _, .inr hw⟩
    · exact ⟨u, by rw [Finmap.lookup_insert_of_ne _ e, hk], .inl rfl⟩

/-- **Backward.** An entry was there already, is new, or has moved. -/
theorem Change.lookup_back (h : Change new move m m') (hk : m'.lookup k = some v) :
    m.lookup k = some v ∨ (m.lookup k = none ∧ new k v)
      ∨ ∃ u, m.lookup k = some u ∧ move k u v := by
  cases h with
  | same => exact .inl hk
  | @add j w hj hw =>
    by_cases e : k = j
    · subst e
      rw [Finmap.lookup_insert] at hk
      cases hk
      exact .inr (.inl ⟨hj, hw⟩)
    · rw [Finmap.lookup_insert_of_ne _ e] at hk
      exact .inl hk
  | @put j u' w hj hw =>
    by_cases e : k = j
    · subst e
      rw [Finmap.lookup_insert] at hk
      cases hk
      exact .inr (.inr ⟨u', hj, hw⟩)
    · rw [Finmap.lookup_insert_of_ne _ e] at hk
      exact .inl hk

theorem Change.mem (h : Change new move m m') (hk : k ∈ m) : k ∈ m' := by
  obtain ⟨u, hu⟩ := Finmap.mem_iff.mp hk
  obtain ⟨v, hv, _⟩ := h.lookup hu
  exact Finmap.mem_iff.mpr ⟨v, hv⟩

/-- **The entry invariant.** What new values have and moves keep, every entry has. -/
theorem Change.forall {P : κ → β → Prop} (h : Change new move m m')
    (hn : ∀ k v, new k v → P k v) (hm : ∀ k u v, move k u v → P k u → P k v)
    (hP : ∀ k v, m.lookup k = some v → P k v) : ∀ k v, m'.lookup k = some v → P k v := by
  intro k v hk
  rcases h.lookup_back hk with h | ⟨_, h⟩ | ⟨u, hu, h⟩
  · exact hP k v h
  · exact hn k v h
  · exact hm k u v h (hP k u hu)

/-! ## Over a run -/

section Runs

universe w

variable {σ ℓ : Type w} {step : ℓ → σ → σ → Prop}

/--
**Evolution.** If every step changes the register along `R`, and `R` is reflexive
and transitive, then a continuation of a run leaves every entry `R`-related to
what it was.
-/
theorem evolves (reg : σ → Finmap fun _ : κ => β) {R : κ → β → β → Prop} (hrefl : ∀ k u, R k u u)
    (htrans : ∀ k u v x, R k u v → R k v x → R k u x)
    (hs : ∀ l s s', step l s s' → Change (fun _ _ => True) R (reg s) (reg s'))
    {h : List (History.Event σ ℓ)} {s s' : σ} (r : History.Run (· = s) step h s')
    (hk : (reg s).lookup k = some u) : ∃ v, (reg s').lookup k = some v ∧ R k u v := by
  refine r.preserves (P := fun s' => ∃ v, (reg s').lookup k = some v ∧ R k u v) ?_
    ⟨u, hk, hrefl k u⟩
  rintro l t t' ⟨v, hv, huv⟩ st
  obtain ⟨x, hx, rfl | hvx⟩ := (hs l t t' st).lookup hv
  · exact ⟨x, hx, huv⟩
  · exact ⟨x, hx, htrans k u v x huv hvx⟩

/--
**Origin.** In a run that starts with an empty register, whatever is in it was added
by a recorded step, which found its key free.
-/
theorem origin (reg : σ → Finmap fun _ : κ => β) {init : σ → Prop}
    {new : ℓ → σ → κ → β → Prop} {move : ℓ → σ → κ → β → β → Prop}
    (h0 : ∀ s, init s → reg s = ∅)
    (hs : ∀ l s s', step l s s' → Change (new l s) (move l s) (reg s) (reg s'))
    {h : List (History.Event σ ℓ)} {s : σ} (r : History.Run init step h s)
    (hk : (reg s).lookup k = some u) :
    ∃ e ∈ h, ∃ v, (reg e.pre).lookup k = none ∧ new e.label e.pre k v
      ∧ (reg e.post).lookup k = some v := by
  refine r.invariant (I := fun h s => ∀ u, (reg s).lookup k = some u →
    ∃ e ∈ h, ∃ v, (reg e.pre).lookup k = none ∧ new e.label e.pre k v
      ∧ (reg e.post).lookup k = some v) ?_ ?_ u hk
  · intro s hi u hu
    rw [h0 s hi, Finmap.lookup_empty] at hu
    cases hu
  · intro h s l s' _ hI st u hu
    -- an entry that was there before has its origin before
    have old : ∀ x, (reg s).lookup k = some x → ∃ e ∈ (⟨l, s, s'⟩ : History.Event σ ℓ) :: h,
        ∃ v, (reg e.pre).lookup k = none ∧ new e.label e.pre k v
          ∧ (reg e.post).lookup k = some v := by
      intro x hx
      obtain ⟨e, he, v, hv⟩ := hI x hx
      exact ⟨e, List.mem_cons_of_mem _ he, v, hv⟩
    rcases (hs l s s' st).lookup_back hu with hx | ⟨hnone, hnew⟩ | ⟨x, hx, _⟩
    · exact old u hx
    · exact ⟨_, List.mem_cons_self, u, hnone, hnew, hu⟩
    · exact old x hx

end Runs

end Register
