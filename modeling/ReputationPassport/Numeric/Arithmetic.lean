import Mathlib.Analysis.SpecialFunctions.Exp
import ReputationPassport.Numeric.Rounding

/-! # Machine numbers and exact numbers

A computation with floating-point numbers is written once over a type with the operations it uses,
and read twice: over `Float`, as the machine runs it, and over `ℝ`, in exact arithmetic. -/

namespace Numeric

/-- The operations of `float64` that a computation uses, literals and conversions included. -/
class Arithmetic (K : Type) extends Add K, Sub K, Mul K, Neg K, Div K, OfScientific K where
  ofNat : Nat → K
  ofInt : Int → K
  /-- `math.Exp`. -/
  exp : K → K
  /-- `math.Round`: the nearest integer, a half away from zero. -/
  round : K → K

instance : Arithmetic Float where
  ofNat := Float.ofNat
  ofInt := Float.ofInt
  exp := Float.exp
  round := Float.round

noncomputable instance : Arithmetic ℝ where
  ofNat n := n
  ofInt n := n
  exp := Real.exp
  round x := roundAway x

/-- The weight `1 - exp (-k * n)` is a proportion when the decay and the count are not negative. -/
theorem one_sub_exp_mem_Icc {k n : ℝ} (hk : 0 ≤ k) (hn : 0 ≤ n) :
    0 ≤ 1 - Real.exp (-k * n) ∧ 1 - Real.exp (-k * n) ≤ 1 := by
  have hle : Real.exp (-k * n) ≤ 1 := by
    rw [Real.exp_le_one_iff, neg_mul, neg_nonpos]
    exact mul_nonneg hk hn
  have hpos := Real.exp_pos (-k * n)
  constructor <;> linarith

/-- The weight grows with the count. -/
theorem one_sub_exp_mono {k m n : ℝ} (hk : 0 ≤ k) (hmn : m ≤ n) :
    1 - Real.exp (-k * m) ≤ 1 - Real.exp (-k * n) := by
  have hexp : Real.exp (-k * n) ≤ Real.exp (-k * m) := by
    rw [Real.exp_le_exp, neg_mul, neg_mul, neg_le_neg_iff]
    exact mul_le_mul_of_nonneg_left hmn hk
  linarith

end Numeric
