import Line.Client.Account
import Line.Lib.OrderedMap

/-!
# The release of a contract

A contract is only used if its operations are those of the published release: each carries the
verifier key of a circuit, and no other operation is there. A deployment registers the first key;
the others follow one by one, in maintenance updates, so a contract may be on its way
(`Published`). Whoever holds the maintenance key of a contract decides on its operations, and the
contracts of other people are checked each time they are read.

The checks are the client's own: the inventory, which asks that every operation is a circuit of
the release, and `requireVerifierKey` for each circuit. Where a contract may be on its way, a key
that is missing is passed over, and the checks pass exactly if what is there is of the release
(`requireRelease_ok_iff`).
-/

namespace Line.Client

open Checked
open Organization (require require_ok_iff)

/-- `CIRCUITS`, one by one. -/
inductive Circuit where
  | registerMerchant
  | disableMerchant
  | fundReserve
  | withdrawUnencumberedReserve
  | withdrawFees
  | openLine
  | postQuote
  | draw
  | redeemDraw
  | cancelOrExpireNote
  | acknowledgeRepayment
  | setStatus
deriving DecidableEq

def Circuit.name : Circuit → String
  | .registerMerchant => "registerMerchant"
  | .disableMerchant => "disableMerchant"
  | .fundReserve => "fundReserve"
  | .withdrawUnencumberedReserve => "withdrawUnencumberedReserve"
  | .withdrawFees => "withdrawFees"
  | .openLine => "openLine"
  | .postQuote => "postQuote"
  | .draw => "draw"
  | .redeemDraw => "redeemDraw"
  | .cancelOrExpireNote => "cancelOrExpireNote"
  | .acknowledgeRepayment => "acknowledgeRepayment"
  | .setStatus => "setStatus"

/-- `CIRCUITS`. -/
def circuits : List Circuit :=
  [.registerMerchant, .disableMerchant, .fundReserve, .withdrawUnencumberedReserve, .withdrawFees,
    .openLine, .postQuote, .draw, .redeemDraw, .cancelOrExpireNote, .acknowledgeRepayment,
    .setStatus]

theorem mem_circuits (c : Circuit) : c ∈ circuits := by
  cases c <;> decide

theorem Circuit.name_inj {c c' : Circuit} (h : c.name = c'.name) : c = c' := by
  cases c <;> cases c' <;> first | rfl | exact absurd h (by decide)

abbrev VerifierKey := List UInt8

/-- What was published: the fingerprint of the source, and the verifier key of each circuit. -/
structure Release where
  sourceFingerprint : String
  verifierKey : Circuit → VerifierKey

/-- The operations of a contract, by name. -/
abbrev Operations := OrderedMap String VerifierKey

variable {release : Release} {operations : Operations} {c : Circuit}

/-- The check of one circuit: its key is the published one, or is still to be registered. -/
def requireVerifierKey (release : Release) (operations : Operations) (requireAllKeys : Bool)
    (c : Circuit) : Result Unit :=
  match operations.get c.name with
  | none => require (!requireAllKeys)
      "Facility setup is incomplete. Resume registering its verifier keys."
  | some key => require (decide (key = release.verifierKey c))
      "Facility verifier keys differ from the organization contract release."

/-- `inspect`: what is asked of the operations of a contract. -/
def requireRelease (release : Release) (operations : Operations) (requireAllKeys : Bool) :
    Result Unit := do
  require (operations.entries.all fun e => circuits.any fun c => decide (c.name = e.1))
    "Facility has operations outside the organization contract release."
  circuits.forM (requireVerifierKey release operations requireAllKeys)

/-- Every operation is one of the release. -/
def Published (release : Release) (operations : Operations) : Prop :=
  ∀ name key, operations.get name = some key →
    ∃ c : Circuit, c.name = name ∧ key = release.verifierKey c

theorem requireVerifierKey_ok_iff : requireVerifierKey release operations false c = .ok () ↔
    ∀ key, operations.get c.name = some key → key = release.verifierKey c := by
  unfold requireVerifierKey
  cases operations.get c.name with
  | none => exact iff_of_true rfl (fun key h => by cases h)
  | some key =>
    rw [require_ok_iff, decide_eq_true_eq]
    exact ⟨fun h key' hkey => Option.some.inj hkey ▸ h, fun h => h key rfl⟩

/-- **A contract on its way is accepted exactly if its operations are those of the release.** -/
theorem requireRelease_ok_iff :
    requireRelease release operations false = .ok () ↔ Published release operations := by
  simp only [requireRelease, bind_ok_iff, require_ok_iff, forM_ok_iff, requireVerifierKey_ok_iff,
    List.all_eq_true, List.any_eq_true, decide_eq_true_eq]
  constructor
  · rintro ⟨-, hnames, hkeys⟩ name key hget
    obtain ⟨c, -, rfl⟩ := hnames (name, key) (OrderedMap.get_eq_some.mp hget)
    exact ⟨c, rfl, hkeys c (mem_circuits c) key hget⟩
  · intro h
    refine ⟨(), fun e he => ?_, fun c _ key hget => ?_⟩
    · obtain ⟨c, hc, -⟩ := h e.1 e.2 (OrderedMap.get_eq_some.mpr he)
      exact ⟨c, mem_circuits c, hc⟩
    · obtain ⟨c', hname, hkey⟩ := h _ _ hget
      rw [hkey, Circuit.name_inj hname]

/-- The operations of a contract that was just deployed. -/
def initialOperations (release : Release) : Operations :=
  OrderedMap.empty.set Circuit.registerMerchant.name (release.verifierKey .registerMerchant)

/-- A maintenance update registers a key of the release. -/
def registerKey (release : Release) (c : Circuit) (operations : Operations) : Operations :=
  operations.set c.name (release.verifierKey c)

theorem Published.registerKey (h : Published release operations) (c : Circuit) :
    Published release (registerKey release c operations) :=
  OrderedMap.forall_set h ⟨c, rfl, rfl⟩

theorem published_initial : Published release (initialOperations release) :=
  OrderedMap.forall_set (fun name key h => by cases h) ⟨.registerMerchant, rfl, rfl⟩

end Line.Client
