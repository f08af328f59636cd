import Line.Client.Agreement

/-!
# Accounts in agreement

`Sound` says that a snapshot agrees with the chain: every facility with its contract and every note
with its entry, no two of them the same. `Genuine` says where the contracts come from: each is
reached by calls, and one with the account's issuer key is the account's own or was never opened.

A call changes one contract, and one record of the snapshot follows it. The other records agree as
before (`Sound.moved`), so what is left to show of an operation is about one facility
(`Sound.setFacility`), or about nothing at all (`Sound.kept`).
-/

namespace Line.Client

open Checked
open Organization (isHex64 require_ok_iff)

variable {B : Type} [DecidableEq B] [Compact B]

/-- The ledgers by address. -/
abbrev Chain (B : Type) := Address → Option (Ledger B)

/-! ## Accounts in agreement -/

/-- What an operation never changes of a facility, but for the address of a new one. -/
def Facility.core (f : Facility B) : String × Option Address × B × B :=
  (f.id, f.address, f.instanceNonce, f.agentSecret)

/-- A facility of the account is deployed at this address. -/
def Snapshot.Has (S : Snapshot B) (a : Address) : Prop :=
  ∃ f ∈ S.facilities, f.address = some a

/-- Every facility and every note agrees with the ledger at its address. -/
structure Sound (chain : Chain B) (S : Snapshot B) : Prop where
  facilities : ∀ f ∈ S.facilities, ∃ a L, f.address = some a ∧ chain a = some L ∧
    f.Agrees S.issuerSecret L
  notes : ∀ n ∈ S.notes, ∃ L, chain n.contractAddress = some L ∧ n.Agrees L
  /-- What was not redeemed was drawn here. -/
  owned : ∀ n ∈ S.notes, n.redeemed = true ∨ S.Owns n
  ids : (S.facilities.map Facility.id).Nodup
  places : (S.facilities.map Facility.address).Nodup
  nonces : (S.facilities.map Facility.instanceNonce).Nodup
  keys : (S.notes.map Note.key).Nodup

/-- The chain holds contracts of this kind, and our secret opens no others than ours. -/
structure Genuine (chain : Chain B) (S : Snapshot B) : Prop where
  address : ∀ a L, chain a = some L → isHex64 a = true
  reached : ∀ a L, chain a = some L → ∃ h, Reaches .organization h L
  ours : ∀ a L, chain a = some L → L.issuer = issuerPublicKey S.issuerSecret →
    S.Has a ∨ L.lineGeneration.val = 0

section Cores

variable {S after : Snapshot B} {n : Note B} {a : Address}

omit [DecidableEq B] [Compact B] in
theorem mem_core {f : Facility B}
    (h : after.facilities.map Facility.core = S.facilities.map Facility.core)
    (hf : f ∈ S.facilities) : ∃ f' ∈ after.facilities, f'.core = f.core := by
  have hmem : f.core ∈ after.facilities.map Facility.core := by
    rw [h]
    exact List.mem_map_of_mem hf
  exact List.mem_map.mp hmem

omit [DecidableEq B] in
theorem Snapshot.Owns.of_cores
    (h : after.facilities.map Facility.core = S.facilities.map Facility.core) (ho : S.Owns n) :
    after.Owns n := by
  obtain ⟨f, hf, haddress, hidentity⟩ := ho
  obtain ⟨f', hf', hcore⟩ := mem_core h hf
  have hplace : f'.address = f.address := congrArg (fun c => c.2.1) hcore
  have hsecret : f'.agentSecret = f.agentSecret := congrArg (fun c => c.2.2.2) hcore
  exact ⟨f', hf', hplace.trans haddress, by rw [hsecret, hidentity]⟩

omit [DecidableEq B] [Compact B] in
theorem Snapshot.Has.of_cores
    (h : after.facilities.map Facility.core = S.facilities.map Facility.core) (ha : S.Has a) :
    after.Has a := by
  obtain ⟨f, hf, haddress⟩ := ha
  obtain ⟨f', hf', hcore⟩ := mem_core h hf
  have hplace : f'.address = f.address := congrArg (fun c => c.2.1) hcore
  exact ⟨f', hf', hplace.trans haddress⟩

omit [DecidableEq B] [Compact B] in
/-- Whatever the core tells is as it was. -/
theorem map_of_cores {γ : Type} {g : Facility B → γ} (proj : String × Option Address × B × B → γ)
    (hg : ∀ f, g f = proj f.core)
    (h : after.facilities.map Facility.core = S.facilities.map Facility.core) :
    after.facilities.map g = S.facilities.map g := by
  have hmap : ∀ l : List (Facility B), l.map g = (l.map Facility.core).map proj := by
    intro l
    rw [List.map_map]
    exact List.map_congr_left fun f _ => hg f
  rw [hmap, hmap, h]

end Cores

section Moved

variable {chain : Chain B} {S after : Snapshot B} {a : Address} {L L' : Ledger B}
  {h : Trace B} {c : Call B} {f : Facility B} {n : Note B} {id : String} {D : B}

/-- **One contract moved, and the account with it.** -/
theorem Sound.moved (hs : Sound chain S) (hsecret : after.issuerSecret = S.issuerSecret)
    (hcores : after.facilities.map Facility.core = S.facilities.map Facility.core)
    (hkeys : (after.notes.map Note.key).Nodup)
    (hfacilities : ∀ f ∈ after.facilities,
      f.address = some a ∧ f.Agrees S.issuerSecret L' ∨ f ∈ S.facilities ∧ f.address ≠ some a)
    (hnotes : ∀ n ∈ after.notes,
      n.contractAddress = a ∧ n.Agrees L' ∨ n ∈ S.notes ∧ n.contractAddress ≠ a)
    (howned : ∀ n ∈ after.notes, n.redeemed = true ∨ after.Owns n) :
    Sound (Function.update chain a (some L')) after where
  facilities := by
    intro f hf
    -- it is at the contract that moved, or it is an old one elsewhere
    rcases hfacilities f hf with ⟨ha, hagrees⟩ | ⟨hold, hne⟩
    · rw [hsecret]
      exact ⟨a, L', ha, Function.update_self .., hagrees⟩
    · obtain ⟨b, M, hb, hM, hagrees⟩ := hs.facilities f hold
      have hba : b ≠ a := by
        rintro rfl
        exact hne hb
      rw [hsecret]
      exact ⟨b, M, hb, by rw [Function.update_of_ne hba, hM], hagrees⟩
  notes := by
    intro n hn
    -- and so is a note
    rcases hnotes n hn with ⟨rfl, hagrees⟩ | ⟨hold, hne⟩
    · exact ⟨L', Function.update_self .., hagrees⟩
    · obtain ⟨M, hM, hagrees⟩ := hs.notes n hold
      exact ⟨M, by rw [Function.update_of_ne hne, hM], hagrees⟩
  owned := howned
  -- the records that are told apart by their fields have the same ones
  ids := by
    rw [map_of_cores (g := Facility.id) Prod.fst (fun _ => rfl) hcores]
    exact hs.ids
  places := by
    rw [map_of_cores (g := Facility.address) (fun c => c.2.1) (fun _ => rfl) hcores]
    exact hs.places
  nonces := by
    rw [map_of_cores (g := Facility.instanceNonce) (fun c => c.2.2.1) (fun _ => rfl) hcores]
    exact hs.nonces
  keys := hkeys

/-- The facility at an address agrees with what is there. -/
theorem Sound.agrees (hs : Sound chain S) (hf : f ∈ S.facilities) (ha : f.address = some a)
    (hL : chain a = some L) : f.Agrees S.issuerSecret L := by
  obtain ⟨b, M, hb, hM, hagrees⟩ := hs.facilities f hf
  obtain rfl := Option.some.inj (ha.symm.trans hb)
  obtain rfl := Option.some.inj (hL.symm.trans hM)
  exact hagrees

theorem Sound.note_agrees (hs : Sound chain S) (hn : n ∈ S.notes)
    (hL : chain n.contractAddress = some L) : n.Agrees L := by
  obtain ⟨M, hM, hagrees⟩ := hs.notes n hn
  obtain rfl := Option.some.inj (hL.symm.trans hM)
  exact hagrees

omit [DecidableEq B] in
/-- The facilities of which nothing is changed. -/
theorem facilities_kept
    (hagree : ∀ f ∈ S.facilities, f.address = some a → f.Agrees S.issuerSecret L') :
    ∀ f ∈ S.facilities,
      f.address = some a ∧ f.Agrees S.issuerSecret L' ∨ f ∈ S.facilities ∧ f.address ≠ some a := by
  intro f hf
  by_cases ha : f.address = some a
  · exact .inl ⟨ha, hagree f hf ha⟩
  · exact .inr ⟨hf, ha⟩

/-- The facilities, with the one of this address changed. -/
theorem Sound.facilities_set (hs : Sound chain S) (hfind : S.findFacility id = some f)
    (ha : f.address = some a) {g : Facility B → Facility B} (hg : (g f).core = f.core)
    (hagree : (g f).Agrees S.issuerSecret L') :
    ∀ f' ∈ (S.setFacility id g).facilities,
      f'.address = some a ∧ f'.Agrees S.issuerSecret L' ∨
        f' ∈ S.facilities ∧ f'.address ≠ some a := by
  intro f' hf'
  obtain ⟨hmem, hid⟩ := Records.mem_of_find hfind
  rcases Records.mem_change_of_nodup hs.ids hfind hf' with rfl | ⟨hold, hne⟩
  · have hplace : (g f).address = f.address := congrArg (fun c => c.2.1) hg
    exact .inl ⟨hplace.trans ha, hagree⟩
  · refine .inr ⟨hold, fun ha' => hne ?_⟩
    -- another facility is at another address
    have heq := List.inj_on_of_nodup_map hs.places hold hmem (ha'.trans ha.symm)
    rw [heq, hid]

/-- The notes of which nothing is changed, at a contract that settles none of them. -/
theorem Sound.notes_kept (hs : Sound chain S) (hL : chain a = some L)
    (r : Reaches .organization h L) (st : Line.Step .organization c L L')
    (hc : ∀ n ∈ S.notes, n.contractAddress = a → ∀ mode, 0 < mode →
      c.op.cancels n.noteCommitment mode = false) :
    ∀ n ∈ S.notes, n.contractAddress = a ∧ n.Agrees L' ∨ n ∈ S.notes ∧ n.contractAddress ≠ a := by
  intro n hn
  by_cases ha : n.contractAddress = a
  · have hagrees := hs.note_agrees hn (ha ▸ hL)
    exact .inl ⟨ha, hagrees.keep r st (hc n hn ha 1 Nat.one_pos) (hc n hn ha 2 Nat.two_pos)⟩
  · exact .inr ⟨hn, ha⟩

/-- The notes, with one of this contract changed. -/
theorem Sound.notes_set (hs : Sound chain S) (hL : chain a = some L)
    (r : Reaches .organization h L) (st : Line.Step .organization c L L')
    (hfind : S.findNote D a = some n) {g : Note B → Note B} (hg : (g n).key = n.key)
    (hagree : (g n).Agrees L') (hc : ∀ D' ≠ D, ∀ mode, c.op.cancels D' mode = false) :
    ∀ n' ∈ (S.setNote D a g).notes,
      n'.contractAddress = a ∧ n'.Agrees L' ∨ n' ∈ S.notes ∧ n'.contractAddress ≠ a := by
  intro n' hn'
  have hkey : n.key = (D, a) := (Records.mem_of_find hfind).2
  rcases Records.mem_change_of_nodup hs.keys hfind hn' with rfl | ⟨hold, hne⟩
  · exact .inl ⟨congrArg Prod.snd (hg.trans hkey), hagree⟩
  · by_cases ha : n'.contractAddress = a
    · have hD : n'.noteCommitment ≠ D := by
        intro hD
        exact hne (by rw [Note.key, hD, ha])
      have hagrees := hs.note_agrees hold (ha ▸ hL)
      exact .inl ⟨ha, hagrees.keep r st (hc _ hD 1) (hc _ hD 2)⟩
    · exact .inr ⟨hold, ha⟩

omit [DecidableEq B] [Compact B] in
theorem cores_set {g : Facility B → Facility B} (hg : ∀ f, (g f).core = f.core) :
    (S.setFacility id g).facilities.map Facility.core = S.facilities.map Facility.core :=
  Records.map_change _ hg

omit [Compact B] in
theorem keys_set {g : Note B → Note B} (hg : ∀ n, (g n).key = n.key) :
    (S.setNote D a g).notes.map Note.key = S.notes.map Note.key :=
  Records.map_change _ hg

/-- A changed note is marked as redeemed or was drawn here, if it was so before. -/
theorem Sound.owned_set (hs : Sound chain S) {g : Note B → Note B}
    (hg : ∀ n, (g n).contractAddress = n.contractAddress ∧ (g n).identity = n.identity ∧
      (g n).redeemed = n.redeemed) :
    ∀ n ∈ (S.setNote D a g).notes, n.redeemed = true ∨ S.Owns n := by
  intro n hn
  rcases Records.exists_of_mem_change hn with hold | ⟨m, hm, rfl⟩
  · exact hs.owned n hold
  · obtain ⟨haddress, hidentity, hredeemed⟩ := hg m
    refine (hs.owned m hm).imp (fun hr => hredeemed.trans hr) fun ho => ?_
    obtain ⟨f, hf, ha, hid⟩ := ho
    exact ⟨f, hf, by rw [haddress, ha], hidentity.trans hid⟩

/-- **A call that leaves the book alone, and settles no note.** -/
theorem Sound.kept (hs : Sound chain S) (hL : chain a = some L) (r : Reaches .organization h L)
    (st : Line.Step .organization c L L') (hbook : SameBook L L')
    (hc : ∀ D mode, 0 < mode → c.op.cancels D mode = false)
    (hsecret : after.issuerSecret = S.issuerSecret) (hf : after.facilities = S.facilities)
    (hn : after.notes = S.notes) : Sound (Function.update chain a (some L')) after := by
  have hcores : after.facilities.map Facility.core = S.facilities.map Facility.core := by rw [hf]
  refine hs.moved hsecret hcores ?_ ?_ ?_ ?_
  · rw [hn]
    exact hs.keys
  · rw [hf]
    exact facilities_kept fun f hmem ha => (hs.agrees hmem ha hL).keep r st hbook
  · rw [hn]
    exact hs.notes_kept hL r st fun n _ _ => hc n.noteCommitment
  · rw [hn]
    exact fun n hmem => (hs.owned n hmem).imp_right (Snapshot.Owns.of_cores hcores)

/-- **A call that moves the book of one facility, and settles no note.** -/
theorem Sound.setFacility (hs : Sound chain S) (hL : chain a = some L)
    (r : Reaches .organization h L) (st : Line.Step .organization c L L')
    (hc : ∀ D mode, 0 < mode → c.op.cancels D mode = false) (hfind : S.findFacility id = some f)
    (ha : f.address = some a) {g : Facility B → Facility B} (hg : ∀ f, (g f).core = f.core)
    (hagree : f.Agrees S.issuerSecret L → (g f).Agrees S.issuerSecret L') :
    Sound (Function.update chain a (some L')) (S.setFacility id g) := by
  have hf := hs.agrees (Records.mem_of_find hfind).1 ha hL
  refine hs.moved rfl (cores_set hg) hs.keys (hs.facilities_set hfind ha (hg f) (hagree hf)) ?_ ?_
  · exact hs.notes_kept hL r st fun n _ _ => hc n.noteCommitment
  · exact fun n hmem => (hs.owned n hmem).imp_right (Snapshot.Owns.of_cores (cores_set hg))

end Moved

end Line.Client
