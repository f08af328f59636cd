import Line.Signer.Shape

/-!
# A repeated request

What the signer looks at in a request does not depend on the order in which the properties
of its objects are listed: a request that is deeply equal to one that was admitted is
admitted too, is as long, and has the same fingerprint, and no other request has it.

The checks ask for properties by name, for the type of a value or for the set of the keys. The first
two are the same for deeply equal values unless the check looks into an array or an object
(`flat_congr`), the keys of one are a permutation of those of the other (`keys_congr`), and the
length of the text is a sum over the entries. `admits_congr` puts these together check by check. The
fingerprint is that of the canonical text, which sorts the keys; equal texts are those of deeply
equal values, so as far as the digest tells texts apart the fingerprint tells requests apart
(`fingerprint_eq_iff`).
-/

namespace Line.Signer

open Vault Checked

/-! ## Looking at a value -/

/-- What is the same for all arrays, and for all objects, is the same for deeply equal values. -/
theorem flat_congr {β : Type} {f : Value → β} (harrays : ∀ i j, f (.array i) = f (.array j))
    (hobjects : ∀ i j, f (.object i) = f (.object j)) {a b : Value} (h : a.deepEqual b = true) :
    f a = f b := by
  cases a with
  | array items =>
      cases b with
      | array others => exact harrays items others
      | _ => cases h
  | object entries =>
      cases b with
      | object others => exact hobjects entries others
      | _ => cases h
  | _ => rw [eq_of_deepEqual h (by simp) (by simp)]

/-- Deeply equal values have the same keys. -/
theorem keys_congr {a b : Value} (ha : a.Proper) (h : a.deepEqual b = true) :
    a.keys.Perm b.keys := by
  cases a with
  | object entries =>
      cases b with
      | object others => exact keys_perm ha h
      | _ => cases h
  | _ => cases b <;> first | exact .nil | cases h

theorem has_congr {a b : Value} (ha : a.Proper) (h : a.deepEqual b = true) (key : String) :
    a.has key = b.has key := by
  rw [Value.has, Value.has, Bool.eq_iff_iff, List.contains_iff_mem, List.contains_iff_mem]
  exact (keys_congr ha h).mem_iff

/-- Each property of an object is, deeply equal, one of the other. -/
theorem deepEqual_entry {a b : Value} (ha : a.Proper) (hb : b.Proper) (h : a.deepEqual b = true)
    (hrecord : isRecord b = true) : ∀ e ∈ a.entriesOf, ∃ w, (e.1, w) ∈ b.entriesOf ∧
      e.2.deepEqual w = true ∧ e.2.Proper ∧ w.Proper := by
  cases b with
  | object others =>
      cases a with
      | object entries =>
          rw [Value.deepEqual, Bool.and_eq_true, deepEqualEntries_iff] at h
          intro e he
          obtain ⟨w, hlookup, heq⟩ := h.2 e he
          have hw := mem_of_lookup hlookup
          exact ⟨w, hw, heq, properEntries_iff.mp ha.2 e he, properEntries_iff.mp hb.2 _ hw⟩
      | _ => cases h
  | _ => cases hrecord

/-- A value that is deeply equal to one without parts is that value. -/
theorem eq_leaf {a b : Value} (h : a.deepEqual b = true) (hitems : b.isArray = false)
    (hentries : isRecord b = false) : a = b := by
  refine eq_of_deepEqual h ?_ ?_
  · rintro items rfl
    cases b <;> first | cases h | cases hitems
  · rintro entries rfl
    cases b <;> first | cases h | cases hentries

/-! ## The checks -/

theorem byte32_congr {a b : Value} (h : a.deepEqual b = true) : byte32 a = byte32 b :=
  flat_congr (fun _ _ => rfl) (fun _ _ => rfl) h

theorem uint64_congr {a b : Value} (h : a.deepEqual b = true) : uint64 a = uint64 b :=
  flat_congr (fun _ _ => rfl) (fun _ _ => rfl) h

theorem status_congr {a b : Value} (h : a.deepEqual b = true) : status a = status b :=
  flat_congr (fun _ _ => rfl) (fun _ _ => rfl) h

theorem isRecord_congr {a b : Value} (h : a.deepEqual b = true) : isRecord a = isRecord b :=
  flat_congr (fun _ _ => rfl) (fun _ _ => rfl) h

theorem bookFieldOk_congr {a b : Value} (key : String) (h : a.deepEqual b = true) :
    bookFieldOk key a = bookFieldOk key b := by
  rw [bookFieldOk, bookFieldOk, byte32_congr h, uint64_congr h, status_congr h]

theorem bookOk_congr {a b : Value} (ha : a.Proper) (hb : b.Proper) (h : a.deepEqual b = true) :
    bookOk a = bookOk b := by
  have hkeys : (a.keys.all fun key => bookFields.contains key) =
      b.keys.all fun key => bookFields.contains key := (keys_congr ha h).all_eq
  have hfields : (bookFields.all fun key => bookFieldOk key (a.get key)) =
      bookFields.all fun key => bookFieldOk key (b.get key) := by
    refine congrArg bookFields.all (funext fun key => ?_)
    exact bookFieldOk_congr key (deepEqual_get ha hb h key)
  rw [bookOk, bookOk, isRecord_congr h, hkeys, hfields]

theorem valueOk_congr {a b : Value} (ha : a.Proper) (hb : b.Proper) (key : String)
    (h : a.deepEqual b = true) : valueOk key a = valueOk key b := by
  have hboolean : a.isBoolean = b.isBoolean := flat_congr (fun _ _ => rfl) (fun _ _ => rfl) h
  rw [valueOk, valueOk, bookOk_congr ha hb h, hboolean, uint64_congr h, byte32_congr h]

/-- The arguments are of types that do not look into arrays or objects. -/
theorem argsOk_congr {types : List (Value → Bool)}
    (htypes : ∀ t ∈ types, ∀ a b : Value, a.deepEqual b = true → t a = t b)
    {items others : List Value} (h : Value.deepEqualItems items others = true) :
    argsOk types items = argsOk types others := by
  -- arguments are held against the types one by one
  induction types generalizing items others with
  | nil =>
      cases items with
      | nil =>
          cases others with
          | nil => rfl
          | cons w others => cases h
      | cons v items =>
          cases others with
          | nil => cases h
          | cons w others => rfl
  | cons t types ih =>
      cases items with
      | nil =>
          cases others with
          | nil => rfl
          | cons w others => cases h
      | cons v items =>
          cases others with
          | nil => cases h
          | cons w others =>
              rw [Value.deepEqualItems, Bool.and_eq_true] at h
              rw [argsOk, argsOk, htypes t List.mem_cons_self v w h.1,
                ih (fun s hs => htypes s (List.mem_cons_of_mem _ hs)) h.2]

theorem argTypes_congr (op : Operation) :
    ∀ t ∈ argTypes op, ∀ a b : Value, a.deepEqual b = true → t a = t b := by
  intro t ht a b h
  have hthree : t = byte32 ∨ t = uint64 ∨ t = status := by
    cases op <;> simp only [argTypes, List.mem_cons, List.not_mem_nil, or_false] at ht <;> tauto
  rcases hthree with rfl | rfl | rfl
  · exact byte32_congr h
  · exact uint64_congr h
  · exact status_congr h

theorem args_congr {op : Operation} {a b : Value} (h : a.deepEqual b = true)
    (hb : b.isArray = true) : argsOk (argTypes op) a.itemsOf = argsOk (argTypes op) b.itemsOf := by
  cases b with
  | array others =>
      cases a with
      | array items => exact argsOk_congr (argTypes_congr op) h
      | _ => cases h
  | _ => cases hb

theorem modeOk_congr {role : Role} {op : Operation} {a b : Value} (ha : a.Proper) (hb : b.Proper)
    (h : a.deepEqual b = true) : modeOk role op a = modeOk role op b := by
  have harg := fun i z => isBig_congr (deepEqual_arg ha hb h i) z
  cases op <;> simp only [modeOk, harg]

theorem allowedValues_congr {abi : ApprovalABI} {op : Operation} {a b : Value} (ha : a.Proper)
    (hb : b.Proper) (h : a.deepEqual b = true) :
    allowedValues abi op a = allowedValues abi op b := by
  simp only [allowedValues, isBig_congr (deepEqual_arg ha hb h 1)]

/-- The value `true`. -/
def isTrue (v : Value) : Bool := v matches .boolean true

/-- **A request that is deeply equal to one that is admitted is admitted**, as the same
operation. -/
theorem admits_congr {abi : ApprovalABI} {role : Role} {config a b : Value} {op : Operation}
    (ha : a.Proper) (hb : b.Proper) (h : a.deepEqual b = true)
    (hadmits : admits abi role config b = some op) : admits abi role config a = some op := by
  -- what the checks look at, property by property
  have hget := deepEqual_get ha hb h
  have hva : (values a).Proper := Journal.proper_get ha "values"
  have hvb : (values b).Proper := Journal.proper_get hb "values"
  have hvalues : (values a).deepEqual (values b) = true := hget "values"
  have hundefined : ∀ key, (a.get key).isUndefined = (b.get key).isUndefined :=
    fun key => flat_congr (fun _ _ => rfl) (fun _ _ => rfl) (hget key)
  have hname : operationOf (a.get "name") = operationOf (b.get "name") :=
    flat_congr (fun _ _ => rfl) (fun _ _ => rfl) (hget "name")
  have harray : (a.get "args").isArray = (b.get "args").isArray :=
    flat_congr (fun _ _ => rfl) (fun _ _ => rfl) (hget "args")
  have hprivate : isTrue (a.get "privateFinance") = isTrue (b.get "privateFinance") :=
    flat_congr (fun _ _ => rfl) (fun _ _ => rfl) (hget "privateFinance")
  simp only [admits, Option.bind_eq_bind, Option.bind_eq_some_iff, guard_some_iff,
    Option.pure_def, Option.some.injEq, Bool.and_eq_true] at hadmits ⊢
  obtain ⟨op', hop, _, hfinance, _, ⟨hbytes, hdomain⟩, _, ⟨hitems, hrecord⟩, _,
    ⟨hnonce, hlift⟩, _, haddress, _, hforbidden, _, hargs, _, hcommitment, _, hfees, _, htop, _,
    hallowed, _, hfields, _, hrole, _, hmode, rfl⟩ := hadmits
  -- the domain is bytes, so it is the same and not only deeply equal
  have hsame : a.get "domain" = b.get "domain" := by
    refine eq_leaf (hget "domain") ?_ ?_ <;> cases hd : b.get "domain" <;> rw [hd] at hbytes <;>
      first | rfl | cases hbytes
  have hkeys : a.keys.Perm b.keys := keys_congr ha h
  have hvkeys : (values a).keys.Perm (values b).keys := keys_congr hva hvalues
  -- the checks of the first request, in their order
  refine ⟨op', hname.trans hop, (), ?_, (), ⟨?_, ?_⟩, (), ⟨?_, ?_⟩, (), ⟨?_, ?_⟩, (), ?_, (), ?_,
    (), ?_, (), ?_, (), ?_, (), ?_, (), ?_, (), ?_, (), hrole, (), ?_, rfl⟩
  · exact hprivate.trans hfinance
  · rw [hsame]
    exact hbytes
  · rw [hsame]
    exact hdomain
  · exact harray.trans hitems
  · exact (isRecord_congr hvalues).trans hrecord
  · exact (hundefined _).trans hnonce
  · exact (hundefined _).trans hlift
  · refine haddress.imp_right fun hconfigured => ?_
    obtain ⟨hformat, hequal⟩ := hconfigured
    -- the address is a string, so it is the same too
    have hleaf : a.get "contractAddress" = b.get "contractAddress" := by
      refine eq_leaf (hget _) ?_ ?_ <;> cases hd : b.get "contractAddress" <;>
        rw [hd] at hformat <;> first | rfl | cases hformat
    rw [hleaf]
    exact ⟨hformat, hequal⟩
  · rw [List.all_eq_true] at hforbidden ⊢
    intro key hkey
    rw [has_congr hva hvalues]
    exact hforbidden key hkey
  · exact (args_congr (hget "args") hitems).trans hargs
  · rw [has_congr ha h, byte32_congr (hget _)]
    exact hcommitment
  · rw [has_congr ha h, uint64_congr (hget _)]
    exact hfees
  · rw [hkeys.all_eq]
    exact htop
  · rw [hvkeys.all_eq, allowedValues_congr ha hb h]
    exact hallowed
  · rw [List.all_eq_true] at hfields ⊢
    intro e he
    obtain ⟨w, hw, heq, hep, hwp⟩ := deepEqual_entry hva hvb hvalues hrecord e he
    rw [valueOk_congr hep hwp e.1 heq]
    exact hfields _ hw
  · rw [modeOk_congr ha hb h]
    exact hmode

/-! ## Its request and its fingerprint -/

variable {π δ : Type} {rt : Runtime π δ}

/-- The request of a descriptor is the descriptor, if it can be encoded and is not too long. -/
theorem requestOf_ok_iff {descriptor request : Value} (hp : descriptor.Proper) :
    requestOf rt descriptor = .ok request ↔
      descriptor.Fits ∧ encodedLength rt.numeral descriptor ≤ 128 * 1024 ∧
        request = descriptor := by
  simp only [requestOf, bind_ok_iff, require, Journal.require_ok_iff, exists_const,
    decide_eq_true_eq]
  constructor
  · rintro ⟨text, ht, hlength, hr⟩
    rw [decodeVaultJson_encode hp ht] at hr
    exact ⟨encodeVaultJson_ok_iff.mp ⟨text, ht⟩, hlength, (Except.ok.inj hr).symm⟩
  · rintro ⟨hfits, hlength, rfl⟩
    obtain ⟨text, ht⟩ := encodeVaultJson_ok_iff.mpr hfits
    exact ⟨text, ht, hlength, decodeVaultJson_encode hp ht⟩

theorem fingerprint_ok {value : Value} (h : value.Fits) : ∃ d, fingerprint rt value = .ok d := by
  obtain ⟨text, ht⟩ := encodeVaultJson_ok_iff.mpr ((canonical_fits value).mpr h)
  exact ⟨_, bind_ok_iff.mpr ⟨text, ht, rfl⟩⟩

/-- **Two requests have one fingerprint exactly if they are deeply equal.** -/
theorem fingerprint_eq_iff (hinj : Function.Injective rt.digest) {a b : Value} {d d' : δ}
    (ha : a.Proper) (hb : b.Proper) (hc : a.Clean) (hda : fingerprint rt a = .ok d)
    (hdb : fingerprint rt b = .ok d') : d = d' ↔ a.deepEqual b = true := by
  rw [← canonical_eq_iff ha hb hc]
  obtain ⟨text, ht, hd⟩ := bind_ok_iff.mp hda
  obtain ⟨text', ht', hd'⟩ := bind_ok_iff.mp hdb
  cases hd
  cases hd'
  constructor
  · intro heq
    rw [hinj heq] at ht
    exact encodeVaultJson_inj (canonical_proper ha) (canonical_proper hb) ht ht'
  · intro heq
    rw [heq] at ht
    rw [ht] at ht'
    rw [Except.ok.inj ht']

/-- A request that is deeply equal to one that was long enough, and no longer, is so too. -/
theorem requestOf_congr {a b request : Value} (ha : a.Proper) (hb : b.Proper) (hc : a.Clean)
    (h : a.deepEqual b = true) (hr : requestOf rt b = .ok request) : requestOf rt a = .ok a := by
  obtain ⟨hfits, hlength, -⟩ := (requestOf_ok_iff hb).mp hr
  have heq := (canonical_eq_iff ha hb hc).mpr h
  refine (requestOf_ok_iff ha).mpr ⟨?_, ?_, rfl⟩
  · rw [← canonical_fits, heq, canonical_fits]
    exact hfits
  · rw [encodedLength_congr rt.numeral heq]
    exact hlength

end Line.Signer
