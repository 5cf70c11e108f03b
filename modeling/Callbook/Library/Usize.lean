import Mathlib.Algebra.Order.Ring.Nat

/-!
# Machine arithmetic

The `usize` of a 64-bit target. A checked operation has no result where there is no room for it; a
plain one is aborted there.
-/

/-- A plain operation whose result does not fit. -/
inductive Overflow where
  | add
  deriving DecidableEq, Repr

namespace Usize

/-- `usize::MAX`. -/
def max : ℕ := 2 ^ 64 - 1

/-- `usize::checked_add`. -/
def checkedAdd (a b : ℕ) : Option ℕ := if a + b ≤ max then some (a + b) else none

/-- `usize::checked_mul`. -/
def checkedMul (a b : ℕ) : Option ℕ := if a * b ≤ max then some (a * b) else none

/-- `a + b` with overflow checks. -/
def add (a b : ℕ) : Except Overflow ℕ := if a + b ≤ max then .ok (a + b) else .error .add

lemma checkedAdd_eq_some {a b : ℕ} (h : a + b ≤ max) : checkedAdd a b = some (a + b) := if_pos h

lemma checkedMul_eq_some {a b : ℕ} (h : a * b ≤ max) : checkedMul a b = some (a * b) := if_pos h

lemma checkedMul_eq_none {a b : ℕ} (h : max < a * b) : checkedMul a b = none := if_neg h.not_ge

lemma add_eq_ok {a b : ℕ} (h : a + b ≤ max) : add a b = .ok (a + b) := if_pos h

lemma add_eq_error {a b : ℕ} (h : max < a + b) : add a b = .error .add := if_neg h.not_ge

end Usize
