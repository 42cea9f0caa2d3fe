/-
# Doubles

IEEE 754 binary64, as far as whole numbers go into it and come out again. A
whole number becomes the nearest number of 53 significant bits, the even one of
two (`roundInt`): itself up to `2 ^ 53` (`roundInt_of_le`), and above that
possibly another. A double goes into a `long` without its fraction, where that
fits, and is undefined elsewhere (`toLong`).
-/
import HttpBridge.Num.Signed
import Mathlib.Algebra.Group.Nat.Defs
import Mathlib.Data.Nat.Log
import Mathlib.Data.Rat.Defs

namespace Binary64

/-- The unit in the last place of a number of the size of `m`. -/
def unit (m : ℕ) : ℕ := 2 ^ (m.log2 + 1 - 53)

/-- `m` to 53 significant bits: to the nearest, of two nearest to the even. -/
def roundNat (m : ℕ) : ℕ :=
  let q := m / unit m
  let r := m % unit m
  if 2 * r < unit m ∨ 2 * r = unit m ∧ q % 2 = 0 then q * unit m else (q + 1) * unit m

def roundInt (n : ℤ) : ℤ := n.sign * roundNat n.natAbs

/-- A double: a number, or an infinity or no number at all. -/
inductive Value where
  | finite (x : ℚ)
  | special

/-- `static_cast<double>` of a whole number. -/
def ofInt (n : ℤ) : Value := if roundNat n.natAbs < 2 ^ 1024 then .finite (roundInt n) else .special

/-- `static_cast<long>`. -/
def toLong : Value → Option ℤ
  | .finite x => Signed.checked 64 (x.num.tdiv x.den)
  | .special => none

theorem unit_eq_one {m : ℕ} (h : m < 2 ^ 53) : unit m = 1 := by
  have hlog : m.log2 < 53 := by
    by_cases hm : m = 0
    · subst hm
      decide
    · exact (Nat.log2_lt hm).mpr h
  have hexp : m.log2 + 1 - 53 = 0 := by omega
  rw [unit, hexp, Nat.pow_zero]

theorem roundNat_of_le {m : ℕ} (h : m ≤ 2 ^ 53) : roundNat m = m := by
  rcases Nat.lt_or_eq_of_le h with h | rfl
  · simp [roundNat, unit_eq_one h, Nat.mod_one]
  · decide

/-- A unit is no greater than the number. -/
theorem unit_le {m : ℕ} (h : m ≠ 0) : unit m ≤ m :=
  calc unit m ≤ 2 ^ m.log2 := Nat.pow_le_pow_right (by decide) (by omega)
    _ ≤ m := Nat.log2_self_le h

theorem roundNat_eq_zero {m : ℕ} : roundNat m = 0 ↔ m = 0 := by
  constructor
  · intro h
    by_contra hm
    have hunit : 0 < unit m := Nat.two_pow_pos _
    have hq : 0 < m / unit m := Nat.div_pos (unit_le hm) hunit
    unfold roundNat at h
    dsimp only at h
    split_ifs at h
    · exact absurd h (Nat.mul_pos hq hunit).ne'
    · exact absurd h (Nat.mul_pos (Nat.succ_pos _) hunit).ne'
  · rintro rfl
    decide

theorem roundInt_of_le {n : ℤ} (h : n.natAbs ≤ 2 ^ 53) : roundInt n = n := by
  rw [roundInt, roundNat_of_le h, Int.sign_mul_natAbs]

theorem roundInt_eq_zero {n : ℤ} : roundInt n = 0 ↔ n = 0 := by
  rw [roundInt, Int.mul_eq_zero, Int.sign_eq_zero_iff_zero, Int.natCast_eq_zero, roundNat_eq_zero,
    Int.natAbs_eq_zero, or_self]

/-- A whole number through a double into a `long`. -/
theorem toLong_ofInt (n : ℤ) : toLong (ofInt n) = Signed.checked 64 (roundInt n) := by
  by_cases h : roundNat n.natAbs < 2 ^ 1024
  · rw [ofInt, if_pos h, toLong, Rat.num_intCast, Rat.den_intCast, Int.ofNat_one, Int.tdiv_one]
  · have hno : ¬ Signed.Fits 64 (roundInt n) := by
      have hnat : 2 ^ 64 ≤ roundNat n.natAbs :=
        (Nat.pow_le_pow_right (by decide) (by decide)).trans (not_lt.mp h)
      have hlarge : (2 : ℤ) ^ 64 ≤ roundNat n.natAbs := by exact_mod_cast hnat
      rw [Signed.fits_long, roundInt]
      rcases lt_trichotomy n 0 with hn | rfl | hn
      · rw [Int.sign_eq_neg_one_of_neg hn]
        omega
      · exact absurd hlarge (by decide)
      · rw [Int.sign_eq_one_of_pos hn]
        omega
    rw [ofInt, if_neg h, toLong, Signed.checked, if_neg hno]

end Binary64
