import Line.Signer.Repeated

/-!
# The budget of a signer

A coordinator that is not trusted asks a signer for approvals, again and again, with any
descriptors, while commits fail and processes end. Whatever it does, the store holds the
approvals of a ledger (`Ledger`): one for each operation id, of a request that has the
shape of its operation, at the cost that the policy reserved for it; the costs add up to
what the store says was approved, and are no more than the owner allowed.

An approval is answered only after it was committed, and again only to a request that is
deeply equal to the first one and that the policy still allows.
-/

namespace Line.Signer

open Vault Durable

section Calls

variable {π δ : Type}

/-- An approval that was committed. -/
structure Grant (π δ : Type) where
  id : String
  request : Value
  requestSha256 : δ
  op : Operation
  /-- What the policy answered. -/
  decision : Value
  cost : ℤ
  response : Response π

def Grant.entry (g : Grant π δ) : String × Saved π δ := (g.id, ⟨g.requestSha256, g.response⟩)

/-- The state with one more approval. -/
def State.grant (state : State π δ) (g : Grant π δ) : State π δ :=
  { state with approvedCost := state.approvedCost + g.cost
               operations := state.operations ++ [g.entry] }

/-- The policy decides on a request, in the circumstances of a call. -/
def Decides (rt : Runtime π δ) (state : State π δ) (config request : Value) (c : Circumstances π)
    (decision : Value) : Prop :=
  ∃ clockUnixSeconds, c.clock = .ok clockUnixSeconds ∧
    c.authorize request ⟨rt.generator state.scalar, state.role, config, clockUnixSeconds⟩ =
      .ok decision

/-- What was checked before a grant is committed. -/
structure Approves (rt : Runtime π δ) (owner : Owner) (config descriptor : Value)
    (c : Circumstances π) (state : State π δ) (g : Grant π δ) : Prop where
  id : isId g.id = true
  request : requestOf rt descriptor = .ok g.request
  admitted : admits owner.approvalABI state.role config g.request = some g.op
  complete : Complete owner.approvalABI g.op g.request
  fingerprint : fingerprint rt g.request = .ok g.requestSha256
  fresh : state.operations.lookup g.id = none
  room : state.operations.length < MAX_OPERATIONS
  decision : Decides rt state config g.request c g.decision
  cost : decided state.role g.op g.request g.decision = some g.cost
  bound : state.approvedCost + g.cost ≤ maxAuthorizedCost config

/-- What a call may commit. -/
inductive Move (rt : Runtime π δ) (owner : Owner) :
    Call π → State π δ → State π δ → Answer π → Prop
  | bound {state : State π δ} {config : Data} {b : Binding δ} : state.binding = none →
      b.config = config.val → configOk owner.approvalABI config.val = true →
      Move rt owner (.bindPolicy config) state { state with binding := some b } .bound
  | approved {state : State π δ} {operationId descriptor : Data} {c : Circumstances π}
      {b : Binding δ} {g : Grant π δ} : state.binding = some b → operationId.val = .string g.id →
      Approves rt owner b.config descriptor.val c state g →
      Move rt owner (.approve operationId descriptor c) state (state.grant g) (.approval g.response)

theorem orReject_ok {α : Type} {x : Option α} {a : α} : orReject x = .ok a ↔ x = some a := by
  cases x with
  | none =>
      constructor
      · intro h
        cases h
      · intro h
        cases h
  | some b =>
      rw [orReject, Except.ok.injEq, Option.some.injEq]

theorem require_ok {ok : Bool} {u : Unit} : require ok = .ok u ↔ ok = true :=
  Journal.require_ok_iff

/-- What a call of `bindPolicy` commits, it commits once. -/
theorem bindPolicy_ok [DecidableEq δ] {rt : Runtime π δ} {owner : Owner} {session : Session}
    {state : State π δ} {config : Data} {ending : Ending π δ}
    (h : bindPolicy rt owner session state config.val = .ok ending) :
    ending = .replies .bound ∨ ∃ b : Binding δ, state.binding = none ∧ b.config = config.val ∧
      configOk owner.approvalABI config.val = true ∧
      ending = .commits { state with binding := some b } .bound := by
  simp only [bindPolicy, Checked.bind_ok_iff, require_ok, exists_const] at h
  obtain ⟨hconfig, copy, hcopy, h⟩ := h
  obtain ⟨rfl, -⟩ := (Journal.clone_ok_iff config.property).mp hcopy
  split at h
  · simp only [Checked.bind_ok_iff] at h
    obtain ⟨_, -, _, -, _, -, h⟩ := h
    exact .inl (Except.ok.inj h).symm
  · next hnone => exact .inr ⟨_, hnone, rfl, hconfig, (Except.ok.inj h).symm⟩

/-- What the policy has said where `authorized` answers a cost. -/
theorem authorized_ok_iff {rt : Runtime π δ} {state : State π δ} {config request : Value}
    {op : Operation} {c : Circumstances π} {cost : ℤ} :
    authorized rt state config request op c = .ok cost ↔
      ∃ decision, Decides rt state config request c decision ∧
        decided state.role op request decision = some cost := by
  rw [authorized, Checked.bind_ok_iff]
  constructor
  · rintro ⟨clock, hclock, h⟩
    dsimp only at h
    split at h
    · next decision hdecision => exact ⟨decision, ⟨clock, hclock, hdecision⟩, orReject_ok.mp h⟩
    · cases h
  · rintro ⟨decision, ⟨clock, hclock, hdecision⟩, hcost⟩
    refine ⟨clock, hclock, ?_⟩
    simp only [hdecision]
    exact orReject_ok.mpr hcost

variable [DecidableEq δ] {rt : Runtime π δ} {owner : Owner} {state : State π δ}

/-- What a call of `approve` has checked before it answers from what is saved, or commits. -/
theorem approve_ok {operationId descriptor : Data} {c : Circumstances π} {ending : Ending π δ}
    (h : approve rt owner state operationId.val descriptor.val c = .ok ending) :
    ∃ (b : Binding δ) (id : String) (request : Value) (op : Operation) (sha : δ) (cost : ℤ),
      state.binding = some b ∧ operationId.val = .string id ∧
      requestOf rt descriptor.val = .ok request ∧
      admits owner.approvalABI state.role b.config request = some op ∧
      fingerprint rt request = .ok sha ∧
      authorized rt state b.config request op c = .ok cost ∧
      ((∃ saved, state.operations.lookup id = some saved ∧ saved.requestSha256 = sha ∧
          ending = .replies (.approval saved.response)) ∨
        ∃ g : Grant π δ, g.id = id ∧ Approves rt owner b.config descriptor.val c state g ∧
          ending = .commits (state.grant g) (.approval g.response)) := by
  rw [approve] at h
  obtain ⟨b, hb, h⟩ := Checked.bind_ok_iff.mp h
  obtain ⟨id, hstring, hformat, h⟩ : ∃ id, operationId.val = .string id ∧ isId id = true ∧ _ := by
    split at h
    · next id hid =>
      split at h
      · next hformat => exact ⟨id, hid, hformat, h⟩
      · cases h
    · cases h
  -- up to here the call is the same whether the id is known or not
  simp only [Checked.bind_ok_iff, orReject_ok, require_ok, exists_const] at h
  obtain ⟨_, hid, request, hrequest, op, hop, sha, hsha, hsame, cost, hcost, h⟩ := h
  cases hid
  rw [orReject_ok] at hb
  refine ⟨b, id, request, op, sha, cost, hb, hstring, hrequest, hop, hsha, hcost, ?_⟩
  split at h
  -- the id is known: the fingerprints agree, and the saved approval is the answer
  · next saved hsaved =>
    rw [hsaved] at hsame
    exact .inl ⟨saved, hsaved, of_decide_eq_true hsame, (Except.ok.inj h).symm⟩
  -- the id is fresh: there is room and budget, and the body could be computed
  · next hnone =>
    obtain ⟨decision, hdecision, hdecided⟩ := authorized_ok_iff.mp hcost
    simp only [Checked.bind_ok_iff, orReject_ok, require_ok, exists_const, Bool.and_eq_true,
      decide_eq_true_eq] at h
    obtain ⟨⟨hroom, hbound⟩, domain, -, body, hbody, h⟩ := h
    refine .inr ⟨⟨id, request, sha, op, decision, cost, _⟩, rfl, ?_, (Except.ok.inj h).symm⟩
    exact
      { id := hformat
        request := hrequest
        admitted := hop
        complete := actionBody_complete hbody
        fingerprint := hsha
        fresh := hnone
        room := hroom
        decision := hdecision
        cost := hdecided
        bound := hbound }

/-- **What a call may commit** is a binding or a grant. -/
theorem call_commits {status : Durable.Status} {c : Call π} {session : Session} {next : State π δ}
    {answer : Answer π} (h : call rt owner status c state session = .ok (.commits next answer)) :
    Move rt owner c state next answer := by
  simp only [call, Checked.bind_ok_iff] at h
  obtain ⟨_, -, h⟩ := h
  cases c with
  | bindPolicy config =>
      rcases bindPolicy_ok h with heq | ⟨b, hnone, hconfig, hok, heq⟩
      · cases heq
      · cases heq
        exact .bound hnone hconfig hok
  | approve operationId descriptor c =>
      obtain ⟨b, id, request, op, sha, cost, hb, hid, -, -, -, -, hcase⟩ := approve_ok h
      rcases hcase with ⟨saved, -, -, heq⟩ | ⟨g, hg, happroves, heq⟩
      · cases heq
      · cases heq
        exact .approved hb (hg ▸ hid) happroves
  | create scalar session => cases h
  | reopen session => cases h

end Calls

/-! ## The ledger -/

section Ledger

variable {π δ : Type}

/-- The cost that a policy reserves: not negative, and for a draw of an agent what is drawn and its
fee. -/
theorem decided_ok {role : Role} {op : Operation} {request decision : Value} {cost : ℤ}
    (h : decided role op request decision = some cost) :
    decision.get "allowed" = .boolean true ∧ decision.get "reservationCost" = .bigint cost ∧
      0 ≤ cost ∧ (role = .agent → op = .draw → ∃ amount fee,
        (values request).get "drawAmount" = .bigint amount ∧ arg request 2 = .bigint fee ∧
          0 < amount ∧ 0 ≤ fee ∧ cost = amount + fee) := by
  rw [decided] at h
  obtain ⟨_, hallowed, h⟩ := Option.bind_eq_some_iff.mp h
  have hyes : decision.get "allowed" = .boolean true := by
    rw [guard_some_iff] at hallowed
    split at hallowed
    · next heq => exact heq
    · cases hallowed
  split at h
  · next reserved hreserved =>
    obtain ⟨_, hpos, h⟩ := Option.bind_eq_some_iff.mp h
    rw [guard_some_iff] at hpos
    split at h
    -- a draw of an agent: the policy has to reserve the amount and the fee together
    · next hdraw =>
      split at h
      · next amount fee hamount hfee =>
        obtain ⟨_, hall, h⟩ := Option.bind_eq_some_iff.mp h
        rw [guard_some_iff] at hall
        cases h
        exact ⟨hyes, hreserved, hpos, fun _ _ => ⟨amount, fee, hamount, hfee, hall⟩⟩
      · cases h
    · next hother =>
      cases h
      exact ⟨hyes, hreserved, hpos, fun hrole hop => absurd ⟨hrole, hop⟩ hother⟩
  · cases h

/-- What a history of the store grants, newest first. -/
inductive Ledger (rt : Runtime π δ) (owner : Owner) :
    List (Call π × State π δ) → List (Grant π δ) → Prop
  | empty : Ledger rt owner [] []
  | created {c : Call π} {state : State π δ} {session : Session} :
      createState owner c = some (state, session) → Ledger rt owner [(c, state)] []
  | bound {h : List (Call π × State π δ)} {gs : List (Grant π δ)} {c : Call π} {config : Data}
      {state : State π δ} {b : Binding δ} : Ledger rt owner ((c, state) :: h) gs →
      state.binding = none → b.config = config.val → configOk owner.approvalABI config.val = true →
      Ledger rt owner
        ((.bindPolicy config, { state with binding := some b }) :: (c, state) :: h) gs
  | approved {h : List (Call π × State π δ)} {gs : List (Grant π δ)} {c' : Call π}
      {operationId descriptor : Data} {c : Circumstances π} {state : State π δ} {b : Binding δ}
      {g : Grant π δ} : Ledger rt owner ((c', state) :: h) gs → state.binding = some b →
      operationId.val = .string g.id → Approves rt owner b.config descriptor.val c state g →
      Ledger rt owner
        ((.approve operationId descriptor c, state.grant g) :: (c', state) :: h) (g :: gs)

/-- A grant of a signer with this binding. -/
structure Granted (rt : Runtime π δ) (owner : Owner) (binding : Option (Binding δ))
    (g : Grant π δ) : Prop where
  id : isId g.id = true
  proper : g.request.Proper
  request : requestOf rt g.request = .ok g.request
  fingerprint : fingerprint rt g.request = .ok g.requestSha256
  shaped : ∃ b, binding = some b ∧
    admits owner.approvalABI owner.role b.config g.request = some g.op ∧
    WellShaped owner.approvalABI owner.role b.config g.request g.op
  allowed : g.decision.get "allowed" = .boolean true
  reserved : g.decision.get "reservationCost" = .bigint g.cost
  positive : 0 ≤ g.cost
  draw : owner.role = .agent → g.op = .draw → ∃ amount fee,
    (values g.request).get "drawAmount" = .bigint amount ∧ arg g.request 2 = .bigint fee ∧
      0 < amount ∧ 0 ≤ fee ∧ g.cost = amount + fee

/-- **A state says what its ledger says**, and that is within the budget. -/
structure Accounts (rt : Runtime π δ) (owner : Owner) (state : State π δ)
    (gs : List (Grant π δ)) : Prop where
  role : state.role = owner.role
  operations : state.operations = (gs.map Grant.entry).reverse
  single : (gs.map (·.id)).Nodup
  few : gs.length ≤ MAX_OPERATIONS
  spent : state.approvedCost = (gs.map (·.cost)).sum
  budget : ∀ b, state.binding = some b → state.approvedCost ≤ maxAuthorizedCost b.config
  unbound : state.binding = none → gs = []
  granted : ∀ g ∈ gs, Granted rt owner state.binding g

variable {rt : Runtime π δ} {owner : Owner}

theorem maxAuthorizedCost_nonneg {abi : ApprovalABI} {config : Value}
    (h : configOk abi config = true) : 0 ≤ maxAuthorizedCost config := by
  rw [configOk, Bool.and_eq_true] at h
  rw [maxAuthorizedCost]
  cases hcost : config.get "maxAuthorizedCost" with
  | bigint z =>
      have hz := h.2
      rw [hcost, uint64, decide_eq_true_eq] at hz
      exact hz.1
  | _ => exact Int.le_refl 0

/-- An id is found among the approvals of a ledger if it was granted, with its grant. -/
theorem lookup_entries (gs : List (Grant π δ)) (id : String) :
    ((gs.map Grant.entry).reverse.lookup id = none → id ∉ gs.map (·.id)) ∧
      ∀ saved, (gs.map Grant.entry).reverse.lookup id = some saved →
        ∃ g ∈ gs, g.id = id ∧ saved = ⟨g.requestSha256, g.response⟩ := by
  constructor
  · intro h hmem
    obtain ⟨g, hg, rfl⟩ := List.mem_map.mp hmem
    have hne := List.lookup_eq_none_iff.mp h g.entry (List.mem_reverse.mpr (List.mem_map_of_mem hg))
    rw [Grant.entry, bne_self_eq_false] at hne
    cases hne
  · intro saved hsaved
    obtain ⟨before, after, heq, -⟩ := List.lookup_eq_some_iff.mp hsaved
    have hmem : (id, saved) ∈ (gs.map Grant.entry).reverse := by
      rw [heq]
      exact List.mem_append_right _ List.mem_cons_self
    obtain ⟨g, hg, hentry⟩ := List.mem_map.mp (List.mem_reverse.mp hmem)
    cases hentry
    exact ⟨g, hg, rfl, rfl⟩

theorem createState_ok {c : Call π} {state : State π δ} {session : Session}
    (h : createState owner c = some (state, session)) :
    state.role = owner.role ∧ state.binding = none ∧ state.approvedCost = 0 ∧
      state.operations = [] := by
  cases c with
  | create scalar session' =>
      rw [createState] at h
      split at h
      · cases h
        exact ⟨rfl, rfl, rfl, rfl⟩
      · cases h
  | _ => cases h

theorem Accounts.created {c : Call π} {state : State π δ} {session : Session}
    (h : createState owner c = some (state, session)) : Accounts rt owner state [] := by
  obtain ⟨hrole, hnone, hcost, hops⟩ := createState_ok h
  exact
    { role := hrole
      operations := hops
      single := List.nodup_nil
      few := Nat.zero_le _
      spent := hcost
      budget := fun b hb => by
        rw [hnone] at hb
        cases hb
      unbound := fun _ => rfl
      granted := fun g hg => absurd hg List.not_mem_nil }

theorem Accounts.bound {state : State π δ} {gs : List (Grant π δ)} {b : Binding δ}
    (h : Accounts rt owner state gs) (hnone : state.binding = none)
    (hok : configOk owner.approvalABI b.config = true) :
    Accounts rt owner { state with binding := some b } gs := by
  obtain rfl := h.unbound hnone
  exact
    { role := h.role
      operations := h.operations
      single := h.single
      few := h.few
      spent := h.spent
      budget := fun b' hb' => by
        cases hb'
        have hspent : state.approvedCost = 0 := h.spent
        rw [hspent]
        exact maxAuthorizedCost_nonneg hok
      unbound := fun hnone' => by cases hnone'
      granted := fun g hg => absurd hg List.not_mem_nil }

/-- **One more approval is accounted for.** -/
theorem Accounts.grant {state : State π δ} {gs : List (Grant π δ)} {b : Binding δ}
    {descriptor : Data} {c : Circumstances π} {g : Grant π δ} (h : Accounts rt owner state gs)
    (hb : state.binding = some b) (ha : Approves rt owner b.config descriptor.val c state g) :
    Accounts rt owner (state.grant g) (g :: gs) := by
  obtain ⟨-, -, hrequest⟩ := (requestOf_ok_iff descriptor.property).mp ha.request
  -- what is kept is what was checked, read under the role of the ledger
  have hfresh := ha.fresh
  rw [h.operations] at hfresh
  have hadmits := ha.admitted
  have hcost := ha.cost
  rw [h.role] at hadmits hcost
  obtain ⟨hallowed, hreserved, hpositive, hdraw⟩ := decided_ok hcost
  have hlength := congrArg List.length h.operations
  rw [List.length_reverse, List.length_map] at hlength
  exact
    { role := h.role
      operations := by
        show state.operations ++ [g.entry] = _
        rw [h.operations, List.map_cons, List.reverse_cons]
      single := List.nodup_cons.mpr ⟨(lookup_entries gs g.id).1 hfresh, h.single⟩
      few := by
        have hroom := ha.room
        rw [List.length_cons]
        omega
      spent := by
        show state.approvedCost + g.cost = _
        rw [h.spent, List.map_cons, List.sum_cons, Int.add_comm]
      budget := fun b' hb' => by
        have heq : some b = some b' := hb.symm.trans hb'
        rw [← Option.some.inj heq]
        exact ha.bound
      -- a state that approves is bound
      unbound := fun hnone => by
        have hsome : (none : Option (Binding δ)) = some b := hnone.symm.trans hb
        cases hsome
      granted := by
        intro g' hg'
        rcases List.mem_cons.mp hg' with rfl | hg'
        · exact
            { id := ha.id
              proper := by
                rw [hrequest]
                exact descriptor.property
              request := by
                have hself := ha.request
                rw [← hrequest] at hself
                exact hself
              fingerprint := ha.fingerprint
              shaped := ⟨b, hb, hadmits, admits_wellShaped hadmits ha.complete⟩
              allowed := hallowed
              reserved := hreserved
              positive := hpositive
              draw := hdraw }
        · exact h.granted g' hg' }

/-- **Every state of a ledger accounts for its grants.** -/
theorem Ledger.accounts {history : List (Call π × State π δ)} {gs : List (Grant π δ)}
    (hl : Ledger rt owner history gs) :
    ∀ e ∈ history.head?, Accounts rt owner e.2 gs := by
  induction hl with
  | empty =>
      intro e he
      cases he
  | created hcreate =>
      rintro e ⟨⟩
      exact .created hcreate
  | bound hl hnone hconfig hok ih =>
      rintro e ⟨⟩
      exact (ih _ rfl).bound hnone (hconfig ▸ hok)
  | approved hl hb hid happroves ih =>
      rintro e ⟨⟩
      exact (ih _ rfl).grant hb happroves

/-- A grant is found under its id. -/
theorem lookup_granted {gs : List (Grant π δ)} (hsingle : (gs.map (·.id)).Nodup) {g : Grant π δ}
    (hg : g ∈ gs) :
    (gs.map Grant.entry).reverse.lookup g.id = some ⟨g.requestSha256, g.response⟩ := by
  obtain ⟨hnone, hsome⟩ := lookup_entries gs g.id
  cases hlookup : (gs.map Grant.entry).reverse.lookup g.id with
  | none => exact absurd (List.mem_map_of_mem hg) (hnone hlookup)
  | some saved =>
      obtain ⟨g', hg', hid, rfl⟩ := hsome saved hlookup
      rw [List.inj_on_of_nodup_map hsingle hg' hg hid]

theorem lookup_append {entries : List (String × Saved π δ)} {id : String} {saved : Saved π δ}
    (h : entries.lookup id = some saved) (e : String × Saved π δ) :
    (entries ++ [e]).lookup id = some saved := by
  obtain ⟨before, after, rfl, hne⟩ := List.lookup_eq_some_iff.mp h
  refine List.lookup_eq_some_iff.mpr ⟨before, after ++ [e], ?_, hne⟩
  rw [List.append_assoc, List.cons_append]

end Ledger

/-! ## Runs -/

section Runs

variable {π δ : Type} [DecidableEq δ] {rt : Runtime π δ} {owner : Owner}

/-- The signer remembers nothing that its state would have to fit. -/
theorem signer_remembers : (signer rt owner).Remembers fun _ _ => True where
  create _ := trivial
  opens _ := trivial
  replies _ _ := trivial
  waits _ _ := trivial
  publishes _ _ := trivial

theorem makes_move {c : Call π} {state next : State π δ} {answer : Answer π}
    (h : (signer rt owner).Makes (fun _ _ => True) c state next answer) :
    Move rt owner c state next answer := by
  obtain ⟨session, meanwhile, session', -, hreact⟩ := h
  exact call_commits (react_publishes hreact)

/-- **A history of the store has a ledger.** -/
theorem ledger_of_chain {history : List (Call π × State π δ)}
    (hc : Chain (signer rt owner) (fun _ _ => True) history) :
    ∃ gs, Ledger rt owner history gs := by
  induction hc with
  | nil => exact ⟨[], .empty⟩
  | first hcreate => exact ⟨[], .created hcreate⟩
  | next hc hmakes ih =>
      obtain ⟨gs, hl⟩ := ih
      cases makes_move hmakes with
      | bound hnone hconfig hok => exact ⟨gs, .bound hl hnone hconfig hok⟩
      | approved hb hid happroves => exact ⟨_, .approved hl hb hid happroves⟩

/-- What an answered approval tells of the state: it is saved there, under the id that was asked
for, with the fingerprint of what was asked. -/
def Tells (rt : Runtime π δ) (e : Call π × Answer π) (state : State π δ) : Prop :=
  ∀ response, e.2 = .approval response → ∃ (operationId descriptor : Data) (c : Circumstances π)
    (id : String) (saved : Saved π δ), e.1 = .approve operationId descriptor c ∧
      operationId.val = .string id ∧ state.operations.lookup id = some saved ∧
      saved.response = response ∧ descriptor.val.Fits ∧
      fingerprint rt descriptor.val = .ok saved.requestSha256

theorem signer_honest : (signer rt owner).Honest (fun _ _ => True) (Tells rt) where
  replies := by
    intro status c state session answer session' h response hanswer
    -- an answer without a commit comes of the call as it stands, or is a refusal
    have hcall : call rt owner status c state session = .ok (.replies answer) ∨
        ∃ e, answer = .refused e := by
      have hreact : react rt owner status c state session = .replies answer session' := h
      rw [react] at hreact
      split at hreact
      · next heq =>
        cases hreact
        exact .inl heq
      · cases hreact
      · cases hreact
        exact .inr ⟨_, rfl⟩
    have hsome : answer = .approval response := hanswer
    subst hsome
    rcases hcall with hcall | ⟨e, he⟩
    · simp only [call, Checked.bind_ok_iff] at hcall
      obtain ⟨_, -, hcall⟩ := hcall
      cases c with
      | approve operationId descriptor c =>
          obtain ⟨b, id, request, op, sha, cost, -, hid, hrequest, -, hsha, -, hcase⟩ :=
            approve_ok hcall
          obtain ⟨hfits, -, rfl⟩ := (requestOf_ok_iff descriptor.property).mp hrequest
          -- a saved approval was asked for under its id; a new one would have been committed
          rcases hcase with ⟨saved, hsaved, rfl, heq⟩ | ⟨g, -, -, heq⟩
          · cases heq
            exact ⟨operationId, descriptor, c, id, saved, rfl, hid, hsaved, rfl, hfits, hsha⟩
          · cases heq
      | bindPolicy config =>
          rcases bindPolicy_ok hcall with heq | ⟨b, -, -, -, heq⟩
          · cases heq
          · cases heq
      | create scalar session => cases hcall
      | reopen session => cases hcall
    · cases he
  publishes := by
    intro c state next answer h response hanswer
    have hsome : answer = .approval response := hanswer
    subst hsome
    -- a commit answers with what it has just added to the state
    generalize heq : Answer.approval response = answer at h
    cases makes_move h with
    | bound _ _ _ => cases heq
    | @approved _ operationId descriptor c b g hb hid happroves =>
        cases heq
        obtain ⟨hfits, -, hrequest⟩ := (requestOf_ok_iff descriptor.property).mp happroves.request
        have hsha := happroves.fingerprint
        rw [hrequest] at hsha
        refine ⟨operationId, descriptor, c, g.id, ⟨g.requestSha256, g.response⟩, rfl, hid, ?_, rfl,
          hfits, hsha⟩
        have hne := List.lookup_eq_none_iff.mp happroves.fresh
        exact List.lookup_eq_some_iff.mpr ⟨state.operations, [], rfl, hne⟩
  kept := by
    intro e c state next answer htells h response hanswer
    obtain ⟨operationId, descriptor, c', id, saved, hcall, hid, hlookup, hrest⟩ :=
      htells response hanswer
    refine ⟨operationId, descriptor, c', id, saved, hcall, hid, ?_, hrest⟩
    cases makes_move h with
    | bound _ _ _ => exact hlookup
    -- operations are only appended
    | approved _ _ _ => exact lookup_append hlookup _

/-! ### A repeated request -/

/-- Equality of requests does not depend on which of them is looked at first. -/
theorem deepEqual_symm {a b : Value} (ha : a.Proper) (hb : b.Proper) (hc : a.Clean)
    (h : a.deepEqual b = true) : b.Clean ∧ b.deepEqual a = true := by
  have heq := (canonical_eq_iff ha hb hc).mpr h
  have hclean : b.Clean := by
    rw [← (size_canonical b).1, ← heq, (size_canonical a).1]
    exact hc
  exact ⟨hclean, (canonical_eq_iff hb ha hclean).mp heq.symm⟩

/-- The policy allows a request for this operation. -/
def Allows (rt : Runtime π δ) (state : State π δ) (request : Value) (op : Operation)
    (c : Circumstances π) : Prop :=
  ∃ b decision cost, state.binding = some b ∧ Decides rt state b.config request c decision ∧
    decided state.role op request decision = some cost

variable {state : State π δ} {gs : List (Grant π δ)} {g : Grant π δ}
  {operationId descriptor : Data} {c : Circumstances π}

/-- A request for what was granted is answered, if it is answered, with the saved approval. -/
theorem approve_granted (hinj : Function.Injective rt.digest) (hacc : Accounts rt owner state gs)
    (hg : g ∈ gs) (hid : operationId.val = .string g.id) {ending : Ending π δ}
    (h : approve rt owner state operationId.val descriptor.val c = .ok ending) :
    ending = .replies (.approval g.response) ∧ g.request.deepEqual descriptor.val = true ∧
      Allows rt state descriptor.val g.op c := by
  obtain ⟨b, id, request, op, sha, cost, hb, hid', hrequest, hop, hsha, hcost, hcase⟩ :=
    approve_ok h
  obtain rfl : g.id = id := by
    have heq := hid.symm.trans hid'
    cases heq
    rfl
  obtain ⟨-, -, rfl⟩ := (requestOf_ok_iff descriptor.property).mp hrequest
  have hgranted := hacc.granted g hg
  have hclean := ((requestOf_ok_iff hgranted.proper).mp hgranted.request).1.1
  have hlookup : state.operations.lookup g.id = some ⟨g.requestSha256, g.response⟩ := by
    rw [hacc.operations]
    exact lookup_granted hacc.single hg
  -- the id is in the ledger, so the call finds it saved
  rcases hcase with ⟨saved, hsaved, hsame, rfl⟩ | ⟨g', hid'', happroves, -⟩
  · rw [hlookup] at hsaved
    cases hsaved
    -- equal fingerprints are those of deeply equal requests, and these have the same operation
    have hequal := (fingerprint_eq_iff hinj hgranted.proper descriptor.property hclean
      hgranted.fingerprint hsha).mp hsame
    obtain ⟨b', hb', hadmits, -⟩ := hgranted.shaped
    obtain rfl : b = b' := Option.some.inj (hb.symm.trans hb')
    have hsymm := (deepEqual_symm hgranted.proper descriptor.property hclean hequal).2
    have hsameop := admits_congr descriptor.property hgranted.proper hsymm hadmits
    rw [hacc.role, hsameop] at hop
    obtain ⟨decision, hdecides, hdecided⟩ := authorized_ok_iff.mp hcost
    rw [← Option.some.inj hop] at hdecided
    exact ⟨rfl, hequal, b, decision, cost, hb, hdecides, hdecided⟩
  · have hfresh := happroves.fresh
    rw [hid'', hlookup] at hfresh
    cases hfresh

/-- **It is answered** if it is equal to the request that was granted and the policy allows it. -/
theorem approve_repeated (hinj : Function.Injective rt.digest) (hacc : Accounts rt owner state gs)
    (hg : g ∈ gs) (hid : operationId.val = .string g.id)
    (hequal : g.request.deepEqual descriptor.val = true)
    (hallows : Allows rt state descriptor.val g.op c) :
    approve rt owner state operationId.val descriptor.val c =
      .ok (.replies (.approval g.response)) := by
  obtain ⟨b, decision, cost, hb, hdecides, hdecided⟩ := hallows
  have hgranted := hacc.granted g hg
  obtain ⟨b', hb', hadmits, -⟩ := hgranted.shaped
  obtain rfl : b = b' := Option.some.inj (hb.symm.trans hb')
  have hclean := ((requestOf_ok_iff hgranted.proper).mp hgranted.request).1.1
  obtain ⟨hclean', hsymm⟩ := deepEqual_symm hgranted.proper descriptor.property hclean hequal
  -- every check of the first request is one of the second, as they are deeply equal
  have hrequest := requestOf_congr descriptor.property hgranted.proper hclean' hsymm
    hgranted.request
  have hop := admits_congr descriptor.property hgranted.proper hsymm hadmits
  rw [← hacc.role] at hop
  have hfits := ((requestOf_ok_iff descriptor.property).mp hrequest).1
  obtain ⟨sha, hsha⟩ : ∃ sha, fingerprint rt descriptor.val = .ok sha := fingerprint_ok hfits
  have hsame := (fingerprint_eq_iff hinj hgranted.proper descriptor.property hclean
    hgranted.fingerprint hsha).mpr hequal
  have hlookup : state.operations.lookup g.id = some ⟨g.requestSha256, g.response⟩ := by
    rw [hacc.operations]
    exact lookup_granted hacc.single hg
  -- the checks of the call, one after the other
  rw [approve, hid]
  refine Checked.bind_ok_iff.mpr ⟨b, orReject_ok.mpr hb, ?_⟩
  dsimp only
  rw [if_pos hgranted.id]
  refine Checked.bind_ok_iff.mpr ⟨g.id, rfl, ?_⟩
  refine Checked.bind_ok_iff.mpr ⟨_, hrequest, ?_⟩
  refine Checked.bind_ok_iff.mpr ⟨g.op, orReject_ok.mpr hop, ?_⟩
  refine Checked.bind_ok_iff.mpr ⟨sha, hsha, ?_⟩
  rw [hlookup]
  refine Checked.bind_ok_iff.mpr ⟨(), require_ok.mpr (decide_eq_true hsame), ?_⟩
  exact Checked.bind_ok_iff.mpr ⟨cost, authorized_ok_iff.mpr ⟨decision, hdecides, hdecided⟩, rfl⟩

/-! ### The discipline of a signer -/

/-- What holds of a store and its signer, and of all that was answered, by a ledger. -/
structure Disciplined (rt : Runtime π δ) (owner : Owner)
    (w : World (Call π) (State π δ) Session (Answer π)) (gs : List (Grant π δ)) : Prop where
  /-- The ledger is that of all the store has held. -/
  ledger : Ledger rt owner w.held gs
  accounts : ∀ e ∈ w.held.head?, Accounts rt owner e.2 gs
  /-- What was bound stays bound. -/
  bound : ∀ e ∈ w.held, ∀ b, e.2.binding = some b → ∀ e' ∈ w.held.head?, e'.2.binding = some b
  /-- Whatever approval was answered is one of the ledger, for an equal request. -/
  released : ∀ e ∈ w.answers, ∀ response, e.2 = .approval response → ∃ g ∈ gs,
    g.response = response ∧ ∃ (operationId descriptor : Data) (c : Circumstances π),
      e.1 = .approve operationId descriptor c ∧ operationId.val = .string g.id ∧
        g.request.deepEqual descriptor.val = true
  /-- A request for an id of the ledger gets that approval again, or is refused. -/
  repeated : ∀ state session phase, w.process = .running state session phase → ∀ g ∈ gs,
    ∀ (operationId descriptor : Data) (c : Circumstances π), operationId.val = .string g.id →
      (phase = .ready ∧ g.request.deepEqual descriptor.val = true ∧
          Allows rt state descriptor.val g.op c →
        react rt owner phase.status (.approve operationId descriptor c) state session =
          .replies (.approval g.response) session) ∧
      (¬ (phase = .ready ∧ g.request.deepEqual descriptor.val = true ∧
          Allows rt state descriptor.val g.op c) →
        ∃ e, react rt owner phase.status (.approve operationId descriptor c) state session =
          .replies (.refused e) session)

/-- A signer that is not ready refuses. -/
theorem react_busy {status : Durable.Status} (h : status ≠ .ready) (call : Call π)
    (state : State π δ) (session : Session) :
    ∃ e, react rt owner status call state session = .replies (.refused e) session := by
  have hlive : live status = .error (.plain
      "Signer must be reopened after closure or uncertain persistence.") := by
    rw [live, Journal.require, decide_eq_false h]
    rfl
  refine ⟨.plain "Signer must be reopened after closure or uncertain persistence.", ?_⟩
  have hcall : Signer.call rt owner status call state session = .error (.plain
      "Signer must be reopened after closure or uncertain persistence.") := by
    unfold Signer.call
    rw [hlive]
    rfl
  rw [react, hcall]

/-- **Within the budget, and one approval for an id**, in every run of signers on a store, wherever
commits fail and processes end. -/
theorem approvals_within_budget (hinj : Function.Injective rt.digest)
    {w : World (Call π) (State π δ) Session (Answer π)}
    (hw : Reachable (signer rt owner) w) : ∃ gs, Disciplined rt owner w gs := by
  have hchain := hw.chain signer_remembers
  obtain ⟨gs, hl⟩ := ledger_of_chain hchain
  have hacc := hl.accounts
  refine ⟨gs, hl, hacc, ?_, ?_, ?_⟩
  -- a signer is bound once: no move binds a state that is bound
  · intro e he b hb e' he'
    obtain ⟨held, process, answers⟩ := w
    cases held with
    | nil => cases he
    | cons d rest =>
        cases he'
        refine hchain.newest (P := fun state => state.binding = some b) ?_ e he hb
        intro c state next answer hstate hmakes
        cases makes_move hmakes with
        | bound hnone _ _ =>
            rw [hstate] at hnone
            cases hnone
        | approved _ _ _ => exact hstate
  -- what was answered is true of what is stored, and what is stored is in the ledger
  · intro e he response hresponse
    obtain ⟨c, state, rest, hheld, htells⟩ := hw.answered signer_remembers signer_honest e he
    have hstate : Accounts rt owner state gs := hacc (c, state) (by rw [hheld]; rfl)
    obtain ⟨operationId, descriptor, c', id, saved, hcall, hid, hlookup, rfl, hfits, hsha⟩ :=
      htells response hresponse
    rw [hstate.operations] at hlookup
    obtain ⟨g, hg, rfl, rfl⟩ := (lookup_entries gs id).2 saved hlookup
    have hgranted := hstate.granted g hg
    have hclean := ((requestOf_ok_iff hgranted.proper).mp hgranted.request).1.1
    have hequal := (fingerprint_eq_iff hinj hgranted.proper descriptor.property hclean
      hgranted.fingerprint hsha).mp rfl
    exact ⟨g, hg, rfl, operationId, descriptor, c', hcall, hid, hequal⟩
  · intro state session phase hprocess g hg operationId descriptor c hid
    -- a signer that is not ready answers nothing
    by_cases hready : phase = .ready
    · subst hready
      obtain ⟨held, process, answers⟩ := w
      cases hprocess
      obtain ⟨a, rest, hheld⟩ := hw.current signer_remembers
      have hstate : Accounts rt owner state gs := hacc (a, state) (by rw [hheld]; rfl)
      have hcall : call rt owner .ready (.approve operationId descriptor c) state session =
          approve rt owner state operationId.val descriptor.val c := rfl
      constructor
      · rintro ⟨-, hequal, hallows⟩
        have happrove := approve_repeated hinj hstate hg hid hequal hallows
        rw [Phase.status, react, hcall, happrove]
      · intro hno
        cases happrove : approve rt owner state operationId.val descriptor.val c with
        | error e =>
            refine ⟨e, ?_⟩
            rw [Phase.status, react, hcall, happrove]
        | ok ending =>
            obtain ⟨-, hequal, hallows⟩ := approve_granted hinj hstate hg hid happrove
            exact absurd ⟨rfl, hequal, hallows⟩ hno
    · refine ⟨fun h => absurd h.1 hready, fun _ => react_busy ?_ _ _ _⟩
      cases phase with
      | ready => exact absurd rfl hready
      | publishing cause next memory answer landed => exact fun h => by cases h
      | uncertain => exact fun h => by cases h

end Runs

/-! ## One run -/

/-- Hashes and curve points of which only the type matters; a digest is the text itself. -/
def sampleRuntime : Runtime ℕ Json.Text where
  generator n := n
  pointHash _ := []
  hash words := words.flatten
  u64 _ := []
  tag _ := []
  commit _ _ := []
  commitNote _ _ := []
  degrade bs := bs.length
  address _ := []
  digest text := text
  digestText s := Json.stringify (.string s)
  hex _ := ""
  numeral _ := 1

def sampleSigner : Owner := ⟨.merchant, "merchant-1", .legacy⟩

def sampleWord : Bytes := List.replicate 32 7

/-- A budget of ten. -/
def sampleConfig : Data :=
  ⟨.object [("domain", .bytes sampleWord), ("maxAuthorizedCost", .bigint 10)], by decide,
    trivial, trivial, trivial⟩

/-- The redemption of a note. -/
def sampleDescriptor : Data :=
  ⟨.object [("name", .string "redeemDraw"), ("args", .array [.bytes sampleWord, .bigint 50]),
      ("domain", .bytes sampleWord), ("privateFinance", .boolean true),
      ("values", .object [("redeemAmount", .bigint 100)])],
    by decide, trivial, ⟨trivial, trivial, trivial⟩, trivial, trivial,
    ⟨by decide, trivial, trivial⟩, trivial⟩

def sampleId (s : String) : Data := ⟨.string s, trivial⟩

/-- A policy that reserves six for every request. -/
def sampleCircumstances : Circumstances ℕ where
  authorize _ _ := .ok (.object [("allowed", .boolean true), ("reservationCost", .bigint 6)])
  clock := .ok .null
  nonce := sampleWord
  announced := 3

def sampleCalls : List (Call ℕ) :=
  [.create 5 ⟨"allow", none⟩, .bindPolicy sampleConfig,
    .approve (sampleId "redeem:1") sampleDescriptor sampleCircumstances,
    .approve (sampleId "redeem:2") sampleDescriptor sampleCircumstances,
    .approve (sampleId "redeem:1") sampleDescriptor sampleCircumstances]

def sampleWorld : World (Call ℕ) (State ℕ Json.Text) Session (Answer ℕ) :=
  sampleCalls.foldl (World.served (signer sampleRuntime sampleSigner)) .empty

/-- One redemption is approved, a second one would cost too much, and the first one is answered
again. -/
theorem approvals_within_budget_sample : ∃ gs,
    Disciplined sampleRuntime sampleSigner sampleWorld gs ∧
      gs.map (·.id) = ["redeem:1"] ∧ (gs.map (·.cost)).sum = 6 ∧ sampleWorld.answers.length = 4 ∧
      (sampleWorld.answers.filter fun e => e.2 matches .approval _).length = 2 := by
  have hinj : Function.Injective sampleRuntime.digest := Function.injective_id
  have hw : Reachable (signer sampleRuntime sampleSigner) sampleWorld :=
    Reachable.empty.served_all sampleCalls
  obtain ⟨gs, h⟩ := approvals_within_budget hinj hw
  have hcheck : (sampleWorld.held.head?.any fun e => decide (e.2.approvedCost = 6 ∧
      e.2.operations.map Prod.fst = ["redeem:1"])) = true ∧ sampleWorld.answers.length = 4 ∧
      (sampleWorld.answers.filter fun e => e.2 matches .approval _).length = 2 := by
    decide +kernel
  obtain ⟨hhead, hanswers⟩ := hcheck
  obtain ⟨e, he, hstate⟩ := (Option.any_eq_true _ _).mp hhead
  obtain ⟨hcost, hids⟩ := of_decide_eq_true hstate
  have hacc := h.accounts e he
  rw [hacc.operations, List.map_reverse, List.map_map] at hids
  have hgs : (gs.map (·.id)).reverse = ["redeem:1"] := hids
  rw [hacc.spent] at hcost
  refine ⟨gs, h, ?_, hcost, hanswers⟩
  rw [← List.reverse_reverse (gs.map _), hgs]
  rfl

end Line.Signer
