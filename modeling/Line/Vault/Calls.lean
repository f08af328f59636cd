import Line.Vault.Provider

/-!
# What a call of the provider does

A change that a call sends to the durable store is the one its method makes (`Op.makes`), and
it touches the keys of the slots the method is about and no others (`makes_touches`).
`Went` lists what a method can do between two waits, and `Landed` how what it waits for can
end. Everything else about the provider is proved from these two.

Between two waits a method runs undisturbed, and what it does there depends on its phase and on
the answer it got. So the two lists are complete once every phase has been gone through
(`went`, `landed`), and that is done here, once. What a phase knows of its method, such as that
a text it is about to seal is the encoding of the value that was given, is `Shaped`; a phase is
only ever reached with it.
-/

namespace Line.Vault.Provider

open Vault

/-! ## Changes -/

/-- The record a change leaves under the keys it touches. -/
def Change.value : Change → Option Envelope
  | .put e => some e
  | .delete _ => none
  | .deletePrefix _ => none

theorem Change.get_apply {change : Change} {d : Store} {k : Key} :
    Table.get k (change.apply d) = if change.touches k then change.value else Table.get k d := by
  cases change with
  | put e =>
      rw [Change.apply, Table.get_put]
      by_cases h : e.id = k
      · rw [if_pos h, if_pos (by simp [Change.touches, h])]
        rfl
      · rw [if_neg h, if_neg (by simp [Change.touches, h])]
  | delete key => exact Table.get_eraseIf
  | deletePrefix under => exact Table.get_eraseIf

/-- The changes of a method. -/
def Op.makes (n : Namespace) : Op → Change → Prop
  | .get _, _ => False
  | .set s value, change =>
      ∃ t p, encodeVaultJson value.1 = .ok t ∧ change = .put ⟨n.key s, t, p⟩
  | .remove s, change => change = .delete (n.key s)
  | .clear address, change => change = .deletePrefix (n.statePrefix address)
  | .clearSigningKeys, change => change = .deletePrefix n.signingPrefix

variable {n m : Namespace} {op : Op} {change : Change} {t : Slot}

/-- **What a method changes**: the records of the slots it covers, in its own namespace. -/
theorem makes_touches (h : op.makes n change) :
    change.touches (m.key t) = true ↔ n = m ∧ op.covers t := by
  cases op with
  | get s => cases h
  | set s value =>
      obtain ⟨text, p, -, rfl⟩ := h
      simp only [Change.touches, decide_eq_true_eq]
      exact key_inj
  | remove s =>
      subst h
      simp only [Change.touches, decide_eq_true_eq]
      exact key_inj
  | clear address =>
      subst h
      simp only [Change.touches, List.isPrefixOf_iff_prefix]
      exact statePrefix_iff
  | clearSigningKeys =>
      subst h
      simp only [Change.touches, List.isPrefixOf_iff_prefix]
      exact signingPrefix_iff

/-- Nothing, or the text of a value. -/
def Related : Option Json.Text → Option Value → Prop
  | none, none => True
  | some t, some v => v.Proper ∧ encodeVaultJson v = .ok t
  | _, _ => False

/-- A change leaves what its method leaves. -/
theorem makes_leaves (h : op.makes n change) :
    Related (change.value.map Envelope.plaintext) op.leaves := by
  cases op with
  | get s => cases h
  | set s value =>
      obtain ⟨text, p, htext, rfl⟩ := h
      exact ⟨value.2, htext⟩
  | remove s =>
      subst h
      exact trivial
  | clear address =>
      subst h
      exact trivial
  | clearSigningKeys =>
      subst h
      exact trivial

/-! ## Phases -/

/-- The phases of a method. -/
inductive Shaped (n : Namespace) : Op → Phase → Prop
  | authorizing {op : Op} : Shaped n op .authorizing
  | reading {s : Slot} : Shaped n (.get s) .reading
  | unsealing {s : Slot} {e : Envelope} : Shaped n (.get s) (.unsealing e)
  | matching {s : Slot} {value : Data} {text : Json.Text} {e : Envelope} :
      encodeVaultJson value.1 = .ok text → Shaped n (.set s value) (.matching text e)
  | proving {s : Slot} {value : Data} {text : Json.Text} :
      encodeVaultJson value.1 = .ok text → Shaped n (.set s value) (.proving text)
  | sealing {s : Slot} {value : Data} {text : Json.Text} :
      encodeVaultJson value.1 = .ok text → Shaped n (.set s value) (.sealing text)
  | sheltering {s : Slot} {value : Data} {text : Json.Text} :
      encodeVaultJson value.1 = .ok text → Shaped n (.set s value) (.sheltering text)
  | checking {s : Slot} : Shaped n (.remove s) .checking
  | confirming {s : Slot} {e : Envelope} : Shaped n (.remove s) (.confirming e)
  | listing {op : Op} : op.makes n (.deletePrefix (op.under n)) → Shaped n op .listing
  | probing {op : Op} {key : Key} {keys : List Key} :
      op.makes n (.deletePrefix (op.under n)) → Shaped n op (.probing key keys)
  | decrypting {op : Op} {e : Envelope} {rest : Store} :
      op.makes n (.deletePrefix (op.under n)) → Shaped n op (.decrypting e rest)
  | opening {op : Op} {change : Change} : op.makes n change → Shaped n op (.opening change)
  | committing {op : Op} {change : Change} : op.makes n change → Shaped n op (.committing change)

/-- A call of the same method under the same authorization, apart from its passphrase. -/
structure Same (c c' : Call) : Prop where
  owner : c'.owner = c.owner
  op : c'.op = c.op
  revision : c'.auth.revision = c.auth.revision
  sessionBound : c'.auth.sessionBound = c.auth.sessionBound

theorem Same.refl (c : Call) : Same c c := ⟨rfl, rfl, rfl, rfl⟩

/-- Authorization does not depend on the passphrase. -/
theorem Same.authorized {w : World} {c c' : Call} (h : Same c c') :
    w.authorized c' ↔ w.authorized c := by
  unfold World.authorized World.assertAuthorized
  rw [h.owner, h.revision, h.sessionBound]

/-- What `get` may return: what it read, or after a failure nothing, or the ephemeral record. -/
inductive Reads (cfg : Namespace → Config) (w : World) (c : Call) :
    Phase → Answer → Option Value → Prop
  | absent : Table.get (c.op.key c.owner) (w.ephemeral c.owner) = none →
      Reads cfg w c .reading (.text none) none
  | durable {text : Json.Text} {v : Value} :
      Table.get (c.op.key c.owner) (w.ephemeral c.owner) = none →
      decodeVaultJson text = .ok v → Reads cfg w c .reading (.text (some text)) (some v)
  | failed {e : Failure} : Table.get (c.op.key c.owner) (w.ephemeral c.owner) = none →
      canFallback (cfg c.owner) e = true → Reads cfg w c .reading (.error e) none
  | ephemeral {r : Envelope} {text : Json.Text} {v : Value} :
      decodeVaultJson text = .ok v → Reads cfg w c (.unsealing r) (.text (some text)) (some v)

/-- **What a call can do between two waits**, from phase `p` with answer `a`. -/
inductive Went (cfg : Namespace → Config) (w : World) (c : Call) (p : Phase) (a : Answer) :
    World → Next → Prop
  | rejected {e : Failure} :
      (∀ change, p = .committing change → a = .done → ¬ w.authorized c) →
      Went cfg w c p a w (.rejected e)
  | waits {c' : Call} : Same c c' → Shaped c.owner c.op c'.phase →
      (∀ change, p = .committing change → a ≠ .done) →
      (c'.answer = none ∨ ∃ e, c'.answer = some (.error e)) →
      (∀ e, c'.phase = .unsealing e →
        Table.get (c.op.key c.owner) (w.ephemeral c.owner) = some e) →
      (∀ change, c'.phase = .committing change → c'.answer = none → w.authorized c) →
      Went cfg w c p a w (.wait c')
  | stored {change : Change} : c.op.makes c.owner change → w.authorized c → p ≠ .authorizing →
      (∀ change, p = .committing change → a ≠ .done) →
      Went cfg w c p a { w with durable := change.apply w.durable }
        (.wait { c with phase := .committing change, answer := some .done })
  | returned {value : Option Value} : w.authorized c → Reads cfg w c p a value →
      Went cfg w c p a w (.returned value)
  | sheltered {s : Slot} {value : Data} {text : Json.Text} : p = .sheltering text →
      c.op = .set s value → encodeVaultJson value.1 = .ok text → w.authorized c →
      Went cfg w c p a
        (w.setEphemeral c.owner (Table.put (c.owner.key s)
          ⟨c.owner.key s, text, c.auth.passphrase⟩ (w.ephemeral c.owner))) .resolved
  | committed {change : Change} : p = .committing change → a = .done → w.authorized c →
      Went cfg w c p a
        (w.setEphemeral c.owner (Table.eraseIf change.touches (w.ephemeral c.owner))) .resolved

section Steps

variable {host : Host} {cfg : Namespace → Config} {w w' : World} {c : Call} {p : Phase}
  {a : Answer} {x : Next}

/-- The call waits for something that can be asked for without further ado. -/
theorem Went.wait {p' : Phase} (hs : Shaped c.owner c.op p')
    (hp : ∀ change, p = .committing change → a ≠ .done) (hu : ∀ e, p' ≠ .unsealing e)
    (hc : ∀ change, p' ≠ .committing change) : Went cfg w c p a w (c.wait p') :=
  .waits ⟨rfl, rfl, rfl, rfl⟩ hs hp (.inl rfl) (fun e he => absurd he (hu e))
    (fun change he => absurd he (hc change))

/-- After `assertAuthorized`. -/
theorem Went.checked {f : World × Next} (h : w.authorized c → Went cfg w c p a f.1 f.2) :
    Went cfg w c p a (w.checked c f).1 (w.checked c f).2 := by
  unfold World.checked
  split
  · next e he =>
      refine .rejected fun _ _ _ ha => ?_
      rw [World.authorized, he] at ha
      cases ha
  · next he => exact h he

/-- A change is sent to the durable store. -/
theorem went_store (hm : c.op.makes c.owner change) (hpa : p ≠ .authorizing)
    (hp : ∀ change, p = .committing change → a ≠ .done) :
    Went cfg w c p a (w.store host c change).1 (w.store host c change).2 := by
  have hs : Shaped c.owner c.op (.committing change) := .committing hm
  unfold World.store
  split
  · exact .wait (.opening hm) hp nofun nofun
  · split
    · exact .waits ⟨rfl, rfl, rfl, rfl⟩ hs hp (.inr ⟨_, rfl⟩) nofun nofun
    · split
      · exact .waits ⟨rfl, rfl, rfl, rfl⟩ hs hp (.inr ⟨_, rfl⟩) nofun nofun
      · next he => exact .stored hm he hpa hp

/-- The durable store did not take the change. -/
theorem went_refused {e : Failure} (hm : c.op.makes c.owner change)
    (hp : ∀ change, p = .committing change → a ≠ .done) :
    Went cfg w c p a (w.refused cfg c e change).1 (w.refused cfg c e change).2 := by
  have hno : ∀ change, p = .committing change → a = .done → ¬ w.authorized c :=
    fun change hc ha => absurd ha (hp change hc)
  cases change with
  | put r =>
      refine .checked fun _ => ?_
      split
      · cases hop : c.op with
        | set s value =>
            rw [hop] at hm
            obtain ⟨text, q, htext, hr⟩ := hm
            cases hr
            exact .wait (by rw [hop]; exact .sheltering htext) hp nofun nofun
        | get _ | remove _ | clear _ | clearSigningKeys =>
            rw [hop] at hm
            cases hm
      · exact .rejected hno
  | delete _ => exact .rejected hno
  | deletePrefix _ => exact .rejected hno

/-- The ephemeral records are gone through. -/
theorem went_walk (hm : c.op.makes c.owner (.deletePrefix (c.op.under c.owner)))
    (hpa : p ≠ .authorizing) (hp : ∀ change, p = .committing change → a ≠ .done) (l : Store) :
    Went cfg w c p a (w.walk host c l).1 (w.walk host c l).2 := by
  induction l with
  | nil => exact .checked fun _ => went_store hm hpa hp
  | cons r rest ih =>
      unfold World.walk
      split
      · exact .wait (.decrypting hm) hp nofun nofun
      · exact .checked fun _ => ih

/-- `read`, once the durable store was asked. -/
theorem went_settle {s : Slot} {value : Option Value} (hop : c.op = .get s)
    (ha : w.authorized c) (hp : ∀ change, p = .committing change → a ≠ .done)
    (hr : Table.get (c.op.key c.owner) (w.ephemeral c.owner) = none → Reads cfg w c p a value) :
    Went cfg w c p a (w.settle c value).1 (w.settle c value).2 := by
  unfold World.settle
  split
  · next hn => exact .returned ha (hr hn)
  · next e he =>
      refine .waits ⟨rfl, rfl, rfl, rfl⟩ (by rw [hop]; exact .unsealing) hp (.inl rfl) ?_ nofun
      intro e' he'
      cases he'
      exact he

/-- A method begins. -/
theorem went_begin {c' : Call} (hc : Same c c')
    (hp : ∀ change, p = .committing change → a ≠ .done) :
    Went cfg w c p a (w.begin c').1 (w.begin c').2 := by
  have hno : ∀ change, p = .committing change → a = .done → ¬ w.authorized c :=
    fun change hc ha => absurd ha (hp change hc)
  -- a method that begins waits for something, in a phase of its own
  have hw : ∀ q, Shaped c.owner c.op q → (∀ e, q ≠ .unsealing e) →
      (∀ change, q ≠ .committing change) → Went cfg w c p a w (c'.wait q) := by
    intro q hq hu hcm
    exact .waits ⟨hc.owner, hc.op, hc.revision, hc.sessionBound⟩ hq hp (.inl rfl)
      (fun e he => absurd he (hu e)) fun change he => absurd he (hcm change)
  unfold World.begin
  split
  · next s hop => exact hw _ (by rw [← hc.op, hop]; exact .reading) nofun nofun
  -- a `set` may refuse its value before it waits for anything
  · next s value hop =>
      rw [hc.op] at hop
      split
      · exact .rejected hno
      · next text htext =>
          split
          · exact hw _ (by rw [hop]; exact .matching htext) nofun nofun
          -- with no ephemeral record, the authorization is looked at once more
          · have hchk : Went cfg w c p a (w.checked c' (w, c'.wait (.proving text))).1
                (w.checked c' (w, c'.wait (.proving text))).2 := by
              unfold World.checked
              split
              · exact .rejected hno
              · exact hw _ (by rw [hop]; exact .proving htext) nofun nofun
            exact hchk
  · next s hop => exact hw _ (by rw [← hc.op, hop]; exact .checking) nofun nofun
  · next address hop =>
      refine hw _ (.listing ?_) nofun nofun
      rw [← hc.op, hop]
      rfl
  · next hop =>
      refine hw _ (.listing ?_) nofun nofun
      rw [← hc.op, hop]
      rfl

/-- **What a call does between two waits** is in the list. -/
theorem went (hs : Shaped c.owner c.op p) (h : w.resume host cfg c p a = some (w', x)) :
    Went cfg w c p a w' x := by
  -- a pair of the spec is what the equation says
  have key : ∀ {f : World × Next}, some f = some (w', x) → Went cfg w c p a f.1 f.2 →
      Went cfg w c p a w' x := by
    intro f he hf
    cases he
    exact hf
  have hrej : (∀ change, p ≠ .committing change) → ∀ e, Went cfg w c p a w (.rejected e) :=
    fun hp e => .rejected fun change hc => absurd hc (hp change)
  generalize hop : c.op = op at hs
  cases hs with
  | authorizing =>
      cases a with
      | passphrase q =>
          simp only [World.resume] at h
          split at h
          · exact key h (hrej nofun _)
          · refine key h ?_
            unfold World.checked
            split
            · exact hrej nofun _
            · exact went_begin ⟨rfl, rfl, rfl, rfl⟩ nofun
      | error e => exact key h (hrej nofun e)
      | text _ | keys _ | done => cases h
  | reading =>
      cases a with
      | text t =>
          cases t with
          | none => exact key h (.checked fun ha => went_settle hop ha nofun .absent)
          | some text =>
              refine key h (.checked fun ha => ?_)
              split
              · exact hrej nofun _
              · next v hv => exact went_settle hop ha nofun fun hn => .durable hn hv
      | error e =>
          refine key h (.checked fun ha => ?_)
          split
          · next hf => exact went_settle hop ha nofun fun hn => .failed hn hf
          · exact hrej nofun e
      | passphrase _ | keys _ | done => cases h
  | unsealing =>
      cases a with
      | text t =>
          cases t with
          | none => cases h
          | some text =>
              simp only [World.resume] at h
              split at h
              · exact key h (hrej nofun _)
              · next v hv => exact key h (.checked fun ha => .returned ha (.ephemeral hv))
      | error e => exact key h (hrej nofun e)
      | passphrase _ | keys _ | done => cases h
  | matching htext =>
      cases a with
      | text _ =>
          refine key h (.checked fun _ => ?_)
          exact .wait (by rw [hop]; exact .proving htext) nofun nofun nofun
      | error e => exact key h (hrej nofun e)
      | passphrase _ | keys _ | done => cases h
  | @proving s value text htext =>
      have hm : c.op.makes c.owner (.put ⟨c.op.key c.owner, text, c.auth.passphrase⟩) := by
        rw [hop]
        exact ⟨text, _, htext, rfl⟩
      cases a with
      | text _ =>
          refine key h (.checked fun _ => ?_)
          exact .wait (by rw [hop]; exact .sealing htext) nofun nofun nofun
      | error e => exact key h (went_refused hm nofun)
      | passphrase _ | keys _ | done => cases h
  | @sealing s value text htext =>
      have hm : c.op.makes c.owner (.put ⟨c.op.key c.owner, text, c.auth.passphrase⟩) := by
        rw [hop]
        exact ⟨text, _, htext, rfl⟩
      cases a with
      | done => exact key h (went_store hm nofun nofun)
      | error e => exact key h (hrej nofun e)
      | passphrase _ | keys _ | text _ => cases h
  | @sheltering s value text htext =>
      cases a with
      | done =>
          refine key h (.checked fun ha => ?_)
          simp only [hop, Op.key]
          exact .sheltered rfl hop htext ha
      | error e => exact key h (hrej nofun e)
      | passphrase _ | keys _ | text _ => cases h
  | @checking s =>
      have hm : c.op.makes c.owner (.delete (c.op.key c.owner)) := by
        rw [hop]
        rfl
      cases a with
      | text _ =>
          refine key h ?_
          split
          · exact .wait (by rw [hop]; exact .confirming) nofun nofun nofun
          · exact .checked fun _ => went_store hm nofun nofun
      | error e => exact key h (hrej nofun e)
      | passphrase _ | keys _ | done => cases h
  | @confirming s =>
      have hm : c.op.makes c.owner (.delete (c.op.key c.owner)) := by
        rw [hop]
        rfl
      cases a with
      | text _ => exact key h (.checked fun _ => went_store hm nofun nofun)
      | error e => exact key h (hrej nofun e)
      | passphrase _ | keys _ | done => cases h
  | listing hm =>
      rw [← hop] at hm
      cases a with
      | keys ks =>
          cases ks with
          | nil =>
              refine key h (went_walk hm ?_ ?_ (w.ephemeral c.owner))
              · exact nofun
              · exact nofun
          | cons k ks => exact key h (.wait (.probing hm) nofun nofun nofun)
      | error e => exact key h (hrej nofun e)
      | passphrase _ | text _ | done => cases h
  | @probing _ _ keys hm =>
      rw [← hop] at hm
      cases a with
      | text _ =>
          cases keys with
          | nil =>
              refine key h (.checked fun _ => went_walk hm ?_ ?_ (w.ephemeral c.owner))
              · exact nofun
              · exact nofun
          | cons k ks =>
              exact key h (.checked fun _ => .wait (.probing hm) nofun nofun nofun)
      | error e => cases keys <;> exact key h (hrej nofun e)
      | passphrase _ | keys _ | done => cases keys <;> cases h
  | @decrypting _ _ rest hm =>
      rw [← hop] at hm
      cases a with
      | text _ =>
          refine key h (.checked fun _ => went_walk hm ?_ ?_ rest)
          · exact nofun
          · exact nofun
      | error e => exact key h (hrej nofun e)
      | passphrase _ | keys _ | done => cases h
  | opening hm =>
      rw [← hop] at hm
      cases a with
      | done =>
          refine key h ?_
          split
          · exact .waits ⟨rfl, rfl, rfl, rfl⟩ (.committing hm) nofun (.inr ⟨_, rfl⟩) nofun nofun
          · next ha =>
              exact .waits ⟨rfl, rfl, rfl, rfl⟩ (.committing hm) nofun (.inl rfl) nofun
                fun _ _ _ => ha
      | error e => exact key h (went_refused hm nofun)
      | passphrase _ | text _ | keys _ => cases h
  | committing hm =>
      rw [← hop] at hm
      cases a with
      | done => exact key h (.checked fun ha => .committed rfl rfl ha)
      | error e => exact key h (went_refused hm nofun)
      | passphrase _ | text _ | keys _ => cases h

/-- **How what a call waits for can end**: an answer about the store as it is, or the commit. -/
inductive Landed (w : World) (c : Call) : Answer → Store → Prop
  | answered {a : Answer} : (∀ change, c.phase = .committing change → a ≠ .done) →
      (∀ t, c.phase = .reading → a = .text t →
        (Table.get (c.op.key c.owner) w.durable).map Envelope.plaintext = t) →
      (∀ e t, c.phase = .unsealing e → a = .text t → t = some e.plaintext) →
      Landed w c a w.durable
  | commits {change : Change} : c.phase = .committing change →
      Landed w c .done (change.apply w.durable)

theorem opened_text {e : Envelope} {q : String} {t : Option Json.Text}
    (h : opened e q = .text t) : t = some e.plaintext := by
  unfold opened decryptSecret at h
  split at h
  · next he =>
      split at he
      · cases he
        cases h
        rfl
      · cases he
  · cases h

theorem openRecord_text {k : Key} {q : String} {r : Option Envelope} {t : Option Json.Text}
    (h : openRecord k q r = .text t) : r.map Envelope.plaintext = t := by
  cases r with
  | none =>
      cases h
      rfl
  | some e =>
      simp only [openRecord] at h
      split at h
      · exact (opened_text h).symm
      · cases h

theorem ask_text {b : Answer} {o : Outcome} {t : Option Json.Text}
    (h : host.ask b o = some (.text t)) : b = .text t := by
  unfold Host.ask at h
  split at h
  · split at h
    · cases h
    · exact Option.some.inj h
  · split at h <;> cases h
  · cases h

/-- An answer that says nothing about the store. -/
theorem Landed.other (hc : ∀ change, c.phase = .committing change → a ≠ .done)
    (hr : c.phase ≠ .reading) (hu : ∀ e, c.phase ≠ .unsealing e) : Landed w c a w.durable :=
  .answered hc (fun _ he => absurd he hr) fun e _ he => absurd he (hu e)

theorem landed {o : Outcome} {d : Store} (h : w.land host c o = some (a, d)) :
    Landed w c a d := by
  unfold World.land at h
  cases hp : c.phase with
  -- a transaction commits, is refused, or is aborted
  | committing change =>
      simp only [hp] at h
      split at h
      · cases h
        exact .commits hp
      · cases h
        exact .other (fun _ _ h => (by cases h)) (by rw [hp]; intro h; cases h)
          (by rw [hp]; intro _ h; cases h)
      · split at h
        · cases h
          exact .other (fun _ _ h => (by cases h)) (by rw [hp]; intro h; cases h)
            (by rw [hp]; intro _ h; cases h)
        · cases h
      · cases h
  -- what was read opens to the text that is stored, or to nothing
  | reading =>
      simp only [hp] at h
      obtain ⟨b, hb, he⟩ := Option.map_eq_some_iff.mp h
      cases he
      refine .answered (by rw [hp]; intro _ h; cases h) (fun t _ ht => ?_)
        (by rw [hp]; intro _ _ h; cases h)
      rw [ht] at hb
      exact openRecord_text (ask_text hb)
  | unsealing e =>
      simp only [hp] at h
      split at h
      · cases h
        refine .answered (by rw [hp]; intro _ h; cases h) (by rw [hp]; intro _ h; cases h) ?_
        intro e' t he' ht
        rw [hp] at he'
        cases he'
        exact opened_text ht
      · cases h
  -- these wait for something else, and change nothing
  | proving _ | checking | probing _ _ | listing =>
      have hother : Landed w c a w.durable := by
        refine .other (fun _ h => ?_) (fun h => ?_) (fun _ h => ?_) <;> rw [hp] at h <;> cases h
      simp only [hp] at h
      obtain ⟨b, -, he⟩ := Option.map_eq_some_iff.mp h
      cases he
      exact hother
  | authorizing | sealing _ | sheltering _ | opening _ | matching _ _ | confirming _
  | decrypting _ _ =>
      have hother : Landed w c a w.durable := by
        refine .other (fun _ h => ?_) (fun h => ?_) (fun _ h => ?_) <;> rw [hp] at h <;> cases h
      simp only [hp] at h
      repeat' split at h
      all_goals first | (cases h; exact hother) | cases h

end Steps
end Line.Vault.Provider
