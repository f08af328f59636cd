import Line.Signer.Approval

/-!
# The shape of an approved request

`WellShaped` says what a request must look like, by tables that are not those of the code: what
a role may ask for in which mode, and which private values each operation needs. The checks
of `admits` leave open whether a needed value is there; the computation of the body does not.

So the shape of what is approved comes in two halves. The first is read off the checks: each field
of `WellShaped` is one of them, turned from a test into what the test establishes
(`admits_wellShaped`). The second is read off the body that is signed: a body is a chain of values
that are asked for one after the other, and there is none if one of them is missing, so each
operation's body has everything that the operation needs (`actionBody_complete`). That a request
which is only deeply equal to another has the same body is in `Repeated`; what the two proofs share
about deep equality (`deepEqual_get`, `deepEqual_getD`) is here.
-/

namespace Line.Signer

open Vault

/-- What a role may sign, and in which mode. -/
def Permitted (role : Role) (op : Operation) (request : Value) : Prop :=
  match role, op with
  | .issuer, .openLine => arg request 0 = .bigint 1
  | .agent, .openLine => arg request 0 = .bigint 0
  | .issuer, .cancelOrExpireNote =>
    arg request 1 = .bigint 0 ∨ arg request 1 = .bigint 1 ∨ arg request 1 = .bigint 2
  | .agent, .cancelOrExpireNote => arg request 1 = .bigint 0 ∨ arg request 1 = .bigint 1
  | .merchant, .cancelOrExpireNote | .permissionless, .cancelOrExpireNote =>
    arg request 1 = .bigint 0
  | .issuer, .registerMerchant | .issuer, .disableMerchant | .issuer, .fundReserve
  | .issuer, .withdrawUnencumberedReserve | .issuer, .withdrawFees
  | .issuer, .acknowledgeRepayment | .issuer, .setStatus => True
  | .agent, .draw => True
  | .merchant, .postQuote | .merchant, .redeemDraw => True
  | _, _ => False

/-- The private values that an operation needs. -/
def required (abi : ApprovalABI) (op : Operation) (request : Value) : List String :=
  match op with
  | .openLine => ["lineLimit", "newSalt", "acceptedTerms"] ++
      (if isBig (arg request 0) 0 then [] else ["enrollmentIdentity"]) ++
      (if ((values request).get "hasPreviousBook").truthy then ["bookOpening", "salt"] else [])
  | .postQuote => if abi.isOffer then
      ["quoteFacilityBinding", "invoiceId", "quoteAmount", "quoteNonce"]
    else ["quoteBuyer", "invoiceId", "quoteAmount", "quoteNonce", "quoteGeneration",
      "quoteFlatFee", "quoteBasisPoints"]
  | .draw => ["bookOpening", "salt", "newSalt", "quoteMerchantPk", "drawAmount", "noteNonce",
      "noteSalt"]
  | .redeemDraw => ["redeemAmount"]
  | .cancelOrExpireNote => if isBig (arg request 1) 0 then []
    else if isBig (arg request 1) 1 then ["bookOpening", "salt", "newSalt"]
    else ["repayAmount", "paymentRef"]
  | .acknowledgeRepayment => ["bookOpening", "salt", "newSalt", "repayAmount", "paymentRef",
      "receiptNonce"]
  | .setStatus => ["bookOpening", "salt", "newSalt"]
  | _ => []

/-- What an operation needs beside its arguments and its private values. -/
def requiredTop : Operation → List String
  | .fundReserve | .withdrawUnencumberedReserve => ["reserveCommit"]
  | .withdrawFees => ["reserveCommit", "feeReserve"]
  | _ => []

/-- Everything that is needed is there. -/
structure Complete (abi : ApprovalABI) (op : Operation) (request : Value) : Prop where
  values : ∀ key ∈ required abi op request, (values request).get key ≠ .undefined
  top : ∀ key ∈ requiredTop op, request.get key ≠ .undefined

/-- A request of exactly the arguments and values of an operation, for this role, format and
configuration. -/
structure WellShaped (abi : ApprovalABI) (role : Role) (config request : Value) (op : Operation) :
    Prop where
  name : request.get "name" = .string op.name
  privateFinance : request.get "privateFinance" = .boolean true
  permitted : Permitted role op request
  domain : ∃ bs, request.get "domain" = .bytes bs ∧ config.get "domain" = .bytes bs
  /-- An approval that is bound to an address is for the address of the configuration. -/
  address : abi = .addressBound → isContractAddress (request.get "contractAddress") = true ∧
    request.get "contractAddress" = config.get "contractAddress"
  fields : ∀ key ∈ request.keys, key ∈ topFields abi op
  args : ∃ items, request.get "args" = .array items ∧ argsOk (argTypes op) items = true
  values : ∃ entries, request.get "values" = .object entries ∧
    ∀ e ∈ entries, e.1 ∈ allowedValues abi op request ∧ valueOk e.1 e.2 = true
  commitment : request.has "reserveCommit" = true → byte32 (request.get "reserveCommit") = true
  fees : request.has "feeReserve" = true → uint64 (request.get "feeReserve") = true
  complete : Complete abi op request

/-! ## Deeply equal values -/

theorem isBig_iff {v : Value} {z : ℤ} : isBig v z = true ↔ v = .bigint z := by
  cases v <;> simp [isBig]

/-- A value without parts is deeply equal to itself only. -/
theorem eq_of_deepEqual {a b : Value} (h : a.deepEqual b = true)
    (hleaf : ∀ items, a ≠ .array items) (hleaf' : ∀ entries, a ≠ .object entries) : a = b := by
  cases a with
  | array items => exact absurd rfl (hleaf items)
  | object entries => exact absurd rfl (hleaf' entries)
  | _ => cases b <;> simp_all [Value.deepEqual]

/-- Deeply equal objects have the same keys, as none has more of them. -/
theorem keys_perm {es fs : List (String × Value)} (he : (Value.object es).Proper)
    (h : (Value.object es).deepEqual (.object fs) = true) :
    (es.map Prod.fst).Perm (fs.map Prod.fst) := by
  rw [Value.deepEqual, Bool.and_eq_true, decide_eq_true_eq, deepEqualEntries_iff] at h
  obtain ⟨hlength, hall⟩ := h
  have hsub : es.map Prod.fst ⊆ fs.map Prod.fst := by
    intro k hk
    obtain ⟨e, hmem, rfl⟩ := List.mem_map.mp hk
    obtain ⟨w, hw, -⟩ := hall e hmem
    exact List.mem_map.mpr ⟨_, mem_of_lookup hw, rfl⟩
  have hle : (fs.map Prod.fst).length ≤ (es.map Prod.fst).length := by
    rw [List.length_map, List.length_map, hlength]
  exact (List.subperm_of_subset (keys_nodup he) hsub).perm_of_length_le hle

/-- A key of one object is found in another one that has the same keys. -/
theorem lookup_of_perm {es fs : List (String × Value)} (hf : (Value.object fs).Proper)
    (hp : (es.map Prod.fst).Perm (fs.map Prod.fst)) {e : String × Value} (he : e ∈ es) :
    ∃ w, fs.lookup e.1 = some w := by
  obtain ⟨f, hmem, heq⟩ := List.mem_map.mp (hp.mem_iff.mp (List.mem_map_of_mem he))
  rw [← heq]
  exact ⟨f.2, lookup_of_mem (keys_nodup hf) hmem⟩

/-- The properties of deeply equal objects are deeply equal. -/
theorem deepEqual_get {a b : Value} (ha : a.Proper) (hb : b.Proper) (h : a.deepEqual b = true)
    (key : String) : (a.get key).deepEqual (b.get key) = true := by
  cases a with
  | object es =>
      cases b with
      | object fs =>
          have hp := keys_perm ha h
          rw [Value.deepEqual, Bool.and_eq_true, decide_eq_true_eq, deepEqualEntries_iff] at h
          rw [Value.get, Value.get]
          cases hlookup : es.lookup key with
          -- both objects have the key, and the values are compared
          | some v =>
              obtain ⟨w, hw, heq⟩ := h.2 _ (mem_of_lookup hlookup)
              rw [hw]
              exact heq
          -- the keys of the one are a permutation of the keys of the other
          | none =>
              have hnone : fs.lookup key = none := by
                cases hf : fs.lookup key with
                | none => rfl
                | some w =>
                    obtain ⟨v, hv⟩ := lookup_of_perm ha hp.symm (mem_of_lookup hf)
                    rw [hlookup] at hv
                    cases hv
              rw [hnone]
              rfl
      | _ => cases h
  | _ => cases b <;> first | rfl | cases h

theorem deepEqual_getD {items others : List Value}
    (h : Value.deepEqualItems items others = true) (i : ℕ) :
    (items.getD i .undefined).deepEqual (others.getD i .undefined) = true := by
  -- items are compared position by position, so along both lists at once
  induction items generalizing others i with
  | nil =>
      cases others with
      | nil => rfl
      | cons w others => cases h
  | cons v items ih =>
      cases others with
      | nil => cases h
      | cons w others =>
          rw [Value.deepEqualItems, Bool.and_eq_true] at h
          cases i with
          | zero => exact h.1
          | succ i => exact ih h.2 i

theorem deepEqual_arg {a b : Value} (ha : a.Proper) (hb : b.Proper) (h : a.deepEqual b = true)
    (i : ℕ) : (arg a i).deepEqual (arg b i) = true := by
  have hargs := deepEqual_get ha hb h "args"
  rw [arg, arg]
  generalize a.get "args" = x at hargs
  generalize b.get "args" = y at hargs
  cases x with
  | array items =>
      cases y with
      | array others => exact deepEqual_getD hargs i
      | _ => cases hargs
  | _ => cases y <;> first | exact deepEqual_getD rfl i | cases hargs

theorem isBig_congr {a b : Value} (h : a.deepEqual b = true) (z : ℤ) : isBig a z = isBig b z := by
  cases a <;> cases b <;> simp_all [isBig, Value.deepEqual]

/-! ## The checks -/

theorem operationOf_name {name : Value} {op : Operation} (h : operationOf name = some op) :
    name = .string op.name := by
  have hfound := List.find?_some h
  cases name with
  | string s =>
      rw [Value.isText, beq_iff_eq] at hfound
      rw [hfound]
  | _ => cases hfound

theorem modeOk_permitted {role : Role} {op : Operation} {request : Value}
    (hrole : (roleOperations role).contains op = true) (hmode : modeOk role op request = true) :
    Permitted role op request := by
  cases role <;> cases op <;>
    simp_all [roleOperations, modeOk, Permitted, isBig_iff]

theorem guard_some_iff {c : Prop} [Decidable c] {u : Unit} :
    (guard c : Option Unit) = some u ↔ c := by
  by_cases h : c <;> simp [guard, h]

/-- What `admits` has checked. -/
theorem admits_wellShaped {abi : ApprovalABI} {role : Role} {config request : Value}
    {op : Operation} (h : admits abi role config request = some op)
    (hcomplete : Complete abi op request) : WellShaped abi role config request op := by
  simp only [admits, Option.bind_eq_bind, Option.bind_eq_some_iff, guard_some_iff,
    Option.pure_def, Option.some.injEq, Bool.and_eq_true, List.all_eq_true] at h
  obtain ⟨op', hop, _, hprivate, _, ⟨hbytes, hdomain⟩, _, ⟨harray, hrecord⟩, _, -, _, haddress, _,
    -, _, hargs, _, hcommitment, _, hfees, _, htop, _, hallowed, _, hvalues, _, hrole, _, hmode,
    rfl⟩ := h
  -- the fields that are a check as it stands; the others are worked out below
  refine
    { name := operationOf_name hop
      privateFinance := ?_
      permitted := modeOk_permitted hrole hmode
      domain := ?_
      address := ?_
      fields := fun key hkey => List.contains_iff_mem.mp (htop key hkey)
      args := ?_
      values := ?_
      commitment := fun hhas => ?_
      fees := fun hhas => ?_
      complete := hcomplete }
  · split at hprivate
    · next heq => exact heq
    · cases hprivate
  -- the domain is bytes, so deeply equal to the signer's is equal
  · cases hvalue : request.get "domain" with
    | bytes bs =>
        rw [hvalue] at hdomain
        exact ⟨bs, rfl, (eq_of_deepEqual hdomain (by simp) (by simp)).symm⟩
    | _ =>
        rw [hvalue] at hbytes
        cases hbytes
  -- only the address-bound format asks for the contract address, which is a string
  · intro habi
    rcases haddress with hne | haddress
    · exact absurd habi hne
    · refine ⟨haddress.1, eq_of_deepEqual haddress.2 ?_ ?_⟩
      · intro items heq
        rw [heq] at haddress
        cases haddress.1
      · intro entries heq
        rw [heq] at haddress
        cases haddress.1
  · cases hvalue : request.get "args" with
    | array items =>
        rw [hvalue] at hargs
        exact ⟨items, rfl, hargs⟩
    | _ =>
        rw [hvalue] at harray
        cases harray
  -- every private value is on the list of the operation, and of its type
  · cases hvalue : request.get "values" with
    | object entries =>
        rw [Signer.values, hvalue] at hvalues hallowed
        exact ⟨entries, rfl, fun e he => ⟨List.contains_iff_mem.mp
          (hallowed e.1 (List.mem_map_of_mem he)), hvalues e he⟩⟩
    | _ =>
        rw [Signer.values, hvalue] at hrecord
        cases hrecord
  · rw [hhas] at hcommitment
    simpa using hcommitment
  · rw [hhas] at hfees
    simpa using hfees

/-! ## The body -/

theorem bytesArg_ne {v : Value} {bs : Bytes} (h : bytesArg v = some bs) : v ≠ .undefined := by
  rintro rfl
  cases h

theorem intArg_ne {v : Value} {z : ℤ} (h : intArg v = some z) : v ≠ .undefined := by
  rintro rfl
  cases h

theorem bookArg_ne {v : Value} {b : Book} (h : bookArg v = some b) : v ≠ .undefined := by
  rintro rfl
  cases h

variable {π δ : Type} {rt : Runtime π δ} {abi : ApprovalABI} {pk : π} {domain : Bytes}
  {request : Value}

theorem old_ne {body : Bytes} (h : old rt request = some body) :
    (values request).get "bookOpening" ≠ .undefined ∧ (values request).get "salt" ≠ .undefined := by
  simp only [old, Option.bind_eq_bind, Option.bind_eq_some_iff] at h
  obtain ⟨book, hbook, salt, hsalt, -⟩ := h
  exact ⟨bookArg_ne hbook, bytesArg_ne hsalt⟩

theorem enrollBody_complete {body : Bytes} (h : enrollBody rt pk domain request = some body) :
    ∀ key ∈ required abi .openLine request, (values request).get key ≠ .undefined := by
  -- the body asks for these values in this order, and is none if one is missing
  obtain ⟨mode, -, h⟩ := Option.bind_eq_some_iff.mp h
  obtain ⟨expiry, -, h⟩ := Option.bind_eq_some_iff.mp h
  obtain ⟨flatFee, -, h⟩ := Option.bind_eq_some_iff.mp h
  obtain ⟨basisPoints, -, h⟩ := Option.bind_eq_some_iff.mp h
  obtain ⟨identity, hidentity, h⟩ := Option.bind_eq_some_iff.mp h
  obtain ⟨limit, hlimit, h⟩ := Option.bind_eq_some_iff.mp h
  obtain ⟨previous, hprevious, h⟩ := Option.bind_eq_some_iff.mp h
  obtain ⟨newSalt, hnew, h⟩ := Option.bind_eq_some_iff.mp h
  obtain ⟨acceptedTerms, hterms, -⟩ := Option.bind_eq_some_iff.mp h
  intro key hkey
  rw [required, List.mem_append, List.mem_append] at hkey
  -- what every opening needs, what a new borrower adds, and what an earlier book adds
  rcases hkey with (hkey | hkey) | hkey
  · simp only [List.mem_cons, List.not_mem_nil, or_false] at hkey
    rcases hkey with rfl | rfl | rfl
    · exact intArg_ne hlimit
    · exact bytesArg_ne hnew
    · exact bytesArg_ne hterms
  · split at hkey
    · cases hkey
    · next hmode =>
        rw [List.mem_singleton.mp hkey]
        rw [enrollee, if_neg hmode] at hidentity
        exact bytesArg_ne hidentity
  · split at hkey
    · next htrue =>
        rw [previousBook, if_pos htrue] at hprevious
        obtain ⟨book, -, hprevious⟩ := Option.bind_eq_some_iff.mp hprevious
        obtain ⟨commitment, hold, -⟩ := Option.bind_eq_some_iff.mp hprevious
        obtain ⟨hbook, hsalt⟩ := old_ne hold
        simp only [List.mem_cons, List.not_mem_nil, or_false] at hkey
        rcases hkey with rfl | rfl
        · exact hbook
        · exact hsalt
    · cases hkey

theorem quoteBody_complete {body : Bytes} (h : quoteBody rt abi pk domain request = some body) :
    ∀ key ∈ required abi .postQuote request, (values request).get key ≠ .undefined := by
  obtain ⟨expiry, -, h⟩ := Option.bind_eq_some_iff.mp h
  obtain ⟨invoice, hinvoice, h⟩ := Option.bind_eq_some_iff.mp h
  obtain ⟨amount, hamount, h⟩ := Option.bind_eq_some_iff.mp h
  obtain ⟨nonce, hnonce, h⟩ := Option.bind_eq_some_iff.mp h
  intro key hkey
  rw [required] at hkey
  split at h
  -- an offer to any buyer is bound to the facility
  · next hoffer =>
      obtain ⟨binding, hbinding, -⟩ := Option.bind_eq_some_iff.mp h
      rw [if_pos hoffer] at hkey
      simp only [List.mem_cons, List.not_mem_nil, or_false] at hkey
      rcases hkey with rfl | rfl | rfl | rfl
      · exact bytesArg_ne hbinding
      · exact bytesArg_ne hinvoice
      · exact intArg_ne hamount
      · exact bytesArg_ne hnonce
  -- a quote for one buyer has its generation and its fees
  · next hoffer =>
      obtain ⟨buyer, hbuyer, h⟩ := Option.bind_eq_some_iff.mp h
      obtain ⟨generation, hgeneration, h⟩ := Option.bind_eq_some_iff.mp h
      obtain ⟨flatFee, hflat, h⟩ := Option.bind_eq_some_iff.mp h
      obtain ⟨basisPoints, hbasis, -⟩ := Option.bind_eq_some_iff.mp h
      rw [if_neg hoffer] at hkey
      simp only [List.mem_cons, List.not_mem_nil, or_false] at hkey
      rcases hkey with rfl | rfl | rfl | rfl | rfl | rfl | rfl
      · exact bytesArg_ne hbuyer
      · exact bytesArg_ne hinvoice
      · exact intArg_ne hamount
      · exact bytesArg_ne hnonce
      · exact intArg_ne hgeneration
      · exact intArg_ne hflat
      · exact intArg_ne hbasis

theorem drawBody_complete {body : Bytes} (h : drawBody rt domain request = some body) :
    ∀ key ∈ required abi .draw request, (values request).get key ≠ .undefined := by
  obtain ⟨Q, -, h⟩ := Option.bind_eq_some_iff.mp h
  obtain ⟨expiry, -, h⟩ := Option.bind_eq_some_iff.mp h
  obtain ⟨fee, -, h⟩ := Option.bind_eq_some_iff.mp h
  obtain ⟨book, -, h⟩ := Option.bind_eq_some_iff.mp h
  obtain ⟨merchantPk, hmerchant, h⟩ := Option.bind_eq_some_iff.mp h
  obtain ⟨amount, hamount, h⟩ := Option.bind_eq_some_iff.mp h
  obtain ⟨noteNonce, hnonce, h⟩ := Option.bind_eq_some_iff.mp h
  obtain ⟨noteSalt, hsalt, h⟩ := Option.bind_eq_some_iff.mp h
  obtain ⟨before, hold, h⟩ := Option.bind_eq_some_iff.mp h
  obtain ⟨newSalt, hnew, -⟩ := Option.bind_eq_some_iff.mp h
  intro key hkey
  simp only [required, List.mem_cons, List.not_mem_nil, or_false] at hkey
  rcases hkey with rfl | rfl | rfl | rfl | rfl | rfl | rfl
  · exact (old_ne hold).1
  · exact (old_ne hold).2
  · exact bytesArg_ne hnew
  · exact bytesArg_ne hmerchant
  · exact intArg_ne hamount
  · exact bytesArg_ne hnonce
  · exact bytesArg_ne hsalt

theorem cancelBody_complete {body : Bytes} (h : cancelBody rt request = some body) :
    ∀ key ∈ required abi .cancelOrExpireNote request, (values request).get key ≠ .undefined := by
  obtain ⟨D, -, h⟩ := Option.bind_eq_some_iff.mp h
  obtain ⟨mode, -, h⟩ := Option.bind_eq_some_iff.mp h
  obtain ⟨expiry, -, h⟩ := Option.bind_eq_some_iff.mp h
  intro key hkey
  rw [required] at hkey
  split at h
  -- an expired note is cancelled without private values
  · next hmode =>
      rw [if_pos hmode] at hkey
      cases hkey
  · next hzero =>
      rw [if_neg hzero] at hkey
      split at h
      -- an allocation shows the book that is credited
      · next hone =>
          obtain ⟨before, hold, h⟩ := Option.bind_eq_some_iff.mp h
          obtain ⟨newSalt, hnew, -⟩ := Option.bind_eq_some_iff.mp h
          rw [if_pos hone] at hkey
          simp only [List.mem_cons, List.not_mem_nil, or_false] at hkey
          rcases hkey with rfl | rfl | rfl
          · exact (old_ne hold).1
          · exact (old_ne hold).2
          · exact bytesArg_ne hnew
      -- the acknowledgement of a refund names its amount and its payment
      · next hone =>
          obtain ⟨amount, hamount, h⟩ := Option.bind_eq_some_iff.mp h
          obtain ⟨paymentRef, hpayment, -⟩ := Option.bind_eq_some_iff.mp h
          rw [if_neg hone] at hkey
          simp only [List.mem_cons, List.not_mem_nil, or_false] at hkey
          rcases hkey with rfl | rfl
          · exact intArg_ne hamount
          · exact bytesArg_ne hpayment

/-- **Where the body of an approval can be computed, everything that is needed is there.** -/
theorem actionBody_complete {op : Operation} {body : ℕ × Bytes}
    (h : actionBody rt abi pk domain op request = some body) : Complete abi op request := by
  have hnone : ∀ key ∈ ([] : List String), request.get key ≠ .undefined := by
    intro key hkey
    cases hkey
  have hnone' : ∀ key ∈ ([] : List String), (values request).get key ≠ .undefined := by
    intro key hkey
    cases hkey
  -- which values are asked for is a matter of the operation alone
  cases op with
  | registerMerchant => exact ⟨hnone', hnone⟩
  | disableMerchant => exact ⟨hnone', hnone⟩
  | fundReserve =>
      obtain ⟨commitment, hcommitment, -⟩ := Option.bind_eq_some_iff.mp h
      refine ⟨hnone', fun key hkey => ?_⟩
      rw [List.mem_singleton.mp hkey]
      exact bytesArg_ne hcommitment
  | withdrawUnencumberedReserve =>
      obtain ⟨commitment, hcommitment, -⟩ := Option.bind_eq_some_iff.mp h
      refine ⟨hnone', fun key hkey => ?_⟩
      rw [List.mem_singleton.mp hkey]
      exact bytesArg_ne hcommitment
  | withdrawFees =>
      obtain ⟨commitment, hcommitment, h⟩ := Option.bind_eq_some_iff.mp h
      obtain ⟨amount, hamount, -⟩ := Option.bind_eq_some_iff.mp h
      refine ⟨hnone', fun key hkey => ?_⟩
      simp only [requiredTop, List.mem_cons, List.not_mem_nil, or_false] at hkey
      rcases hkey with rfl | rfl
      · exact bytesArg_ne hcommitment
      · exact intArg_ne hamount
  | openLine =>
      obtain ⟨body, hbody, -⟩ := Option.bind_eq_some_iff.mp h
      exact ⟨enrollBody_complete hbody, hnone⟩
  | postQuote =>
      obtain ⟨body, hbody, -⟩ := Option.bind_eq_some_iff.mp h
      exact ⟨quoteBody_complete hbody, hnone⟩
  | draw =>
      obtain ⟨body, hbody, -⟩ := Option.bind_eq_some_iff.mp h
      exact ⟨drawBody_complete hbody, hnone⟩
  | redeemDraw =>
      obtain ⟨D, -, h⟩ := Option.bind_eq_some_iff.mp h
      obtain ⟨expiry, -, h⟩ := Option.bind_eq_some_iff.mp h
      obtain ⟨amount, hamount, -⟩ := Option.bind_eq_some_iff.mp h
      refine ⟨fun key hkey => ?_, hnone⟩
      rw [List.mem_singleton.mp hkey]
      exact intArg_ne hamount
  | cancelOrExpireNote =>
      obtain ⟨body, hbody, -⟩ := Option.bind_eq_some_iff.mp h
      exact ⟨cancelBody_complete hbody, hnone⟩
  | acknowledgeRepayment =>
      obtain ⟨before, hold, h⟩ := Option.bind_eq_some_iff.mp h
      obtain ⟨amount, hamount, h⟩ := Option.bind_eq_some_iff.mp h
      obtain ⟨expected, -, h⟩ := Option.bind_eq_some_iff.mp h
      obtain ⟨paymentRef, hpayment, h⟩ := Option.bind_eq_some_iff.mp h
      obtain ⟨nonce, hnonce, h⟩ := Option.bind_eq_some_iff.mp h
      obtain ⟨newSalt, hnew, -⟩ := Option.bind_eq_some_iff.mp h
      refine ⟨fun key hkey => ?_, hnone⟩
      simp only [required, List.mem_cons, List.not_mem_nil, or_false] at hkey
      rcases hkey with rfl | rfl | rfl | rfl | rfl | rfl
      · exact (old_ne hold).1
      · exact (old_ne hold).2
      · exact bytesArg_ne hnew
      · exact intArg_ne hamount
      · exact bytesArg_ne hpayment
      · exact bytesArg_ne hnonce
  | setStatus =>
      obtain ⟨before, hold, h⟩ := Option.bind_eq_some_iff.mp h
      obtain ⟨status, -, h⟩ := Option.bind_eq_some_iff.mp h
      obtain ⟨newSalt, hnew, -⟩ := Option.bind_eq_some_iff.mp h
      refine ⟨fun key hkey => ?_, hnone⟩
      simp only [required, List.mem_cons, List.not_mem_nil, or_false] at hkey
      rcases hkey with rfl | rfl | rfl
      · exact (old_ne hold).1
      · exact (old_ne hold).2
      · exact bytesArg_ne hnew

end Line.Signer
