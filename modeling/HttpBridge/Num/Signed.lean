/-
# Signed arithmetic that may leave its range

In C and C++ a signed operation whose exact result does not fit is undefined.
The operations below are the exact ones where the result fits in `w` bits, and
`none` elsewhere.
-/
import Mathlib.Algebra.Group.Int.Defs
import Mathlib.Tactic.Common

namespace Signed

/-- A value of a signed type of `w` bits. -/
def Fits (w : ℕ) (n : ℤ) : Prop := -2 ^ (w - 1) ≤ n ∧ n < 2 ^ (w - 1)

instance (w : ℕ) (n : ℤ) : Decidable (Fits w n) := inferInstanceAs (Decidable (_ ∧ _))

/-- An exact result, where it fits. -/
def checked (w : ℕ) (n : ℤ) : Option ℤ := if Fits w n then some n else none

def add (w : ℕ) (a b : ℤ) : Option ℤ := checked w (a + b)

def sub (w : ℕ) (a b : ℤ) : Option ℤ := checked w (a - b)

variable {w : ℕ} {a b n : ℤ}

theorem checked_of_fits (h : Fits w n) : checked w n = some n := if_pos h

theorem add_of_fits (h : Fits w (a + b)) : add w a b = some (a + b) := checked_of_fits h

theorem sub_of_fits (h : Fits w (a - b)) : sub w a b = some (a - b) := checked_of_fits h

theorem add_eq_none (h : ¬ Fits w (a + b)) : add w a b = none := if_neg h

theorem eq_of_add {c : ℤ} (h : add w a b = some c) : c = a + b := by
  unfold add checked at h
  split_ifs at h
  exact (Option.some.inj h).symm

theorem fits_long : Fits 64 n ↔ -2 ^ 63 ≤ n ∧ n < 2 ^ 63 := Iff.rfl

end Signed
