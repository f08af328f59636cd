import Mathlib.Tactic.Common

/-!
# Revolving credit accounts

What a credit book is for, with no word about who keeps it or how. An account has a
limit and a debt; it is charged, repaid, and credited with the cost of something
taken back. A credit never pays out: of a cost above the debt only the debt is
credited, and the rest is somebody else's business.

Beside the debt the account keeps the totals of its own history. `Sound` is the
accounting identity between them, and each operation keeps it.
-/

namespace Credit

/-- An account, with the totals of everything that happened to it. -/
structure Account where
  /-- The agreed limit. -/
  limit : ℕ
  /-- The debt. -/
  outstanding : ℕ
  /-- How many operations there were. -/
  epoch : ℕ
  /-- Everything ever charged. -/
  charged : ℕ
  /-- Everything ever repaid. -/
  repaid : ℕ
  /-- Everything ever credited. -/
  credited : ℕ
deriving DecidableEq, Repr

namespace Account

/-- A new account. -/
def opened (limit : ℕ) : Account := ⟨limit, 0, 0, 0, 0, 0⟩

/-- Charge a cost. -/
def charge (cost : ℕ) (a : Account) : Account :=
  { a with
    outstanding := a.outstanding + cost
    epoch := a.epoch + 1
    charged := a.charged + cost }

/-- Repay an amount of the debt. -/
def repay (amount : ℕ) (a : Account) : Account :=
  { a with
    outstanding := a.outstanding - amount
    epoch := a.epoch + 1
    repaid := a.repaid + amount }

/-- Credit a cost, as far as there is debt to credit it against. -/
def credit (cost : ℕ) (a : Account) : Account :=
  { a with
    outstanding := a.outstanding - cost
    epoch := a.epoch + 1
    credited := a.credited + min a.outstanding cost }

/-- **The accounting identity**: what was charged is owed, repaid or credited. -/
def Sound (a : Account) : Prop := a.outstanding + a.repaid + a.credited = a.charged

variable {a : Account} {cost amount : ℕ}

theorem sound_opened (limit : ℕ) : (opened limit).Sound := rfl

theorem Sound.charge (h : a.Sound) : (a.charge cost).Sound := by
  unfold Sound at h ⊢
  simp only [Account.charge]
  omega

/-- A repayment keeps the identity if it is of debt that is there. -/
theorem Sound.repay (h : a.Sound) (hle : amount ≤ a.outstanding) : (a.repay amount).Sound := by
  unfold Sound at h ⊢
  simp only [Account.repay]
  omega

theorem Sound.credit (h : a.Sound) : (a.credit cost).Sound := by
  unfold Sound at h ⊢
  simp only [Account.credit]
  omega

/-- An account without debt has been repaid or credited in full. -/
theorem Sound.settled (h : a.Sound) (h0 : a.outstanding = 0) :
    a.repaid + a.credited = a.charged := by
  unfold Sound at h
  omega

end Account

end Credit
