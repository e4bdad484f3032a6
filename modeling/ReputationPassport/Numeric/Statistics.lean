import Mathlib.Algebra.BigOperators.Ring.List
import Mathlib.Algebra.Order.BigOperators.Group.List
import Mathlib.Data.List.Sort
import ReputationPassport.Numeric.Rounding

/-! # Statistics of a list

The mean, the median and the sample variance of a list of numbers, and rounding with a half to the
even neighbour. The statistics depend on the elements alone and not on their order, and lie within
the bounds of the list. -/

namespace Numeric

/-! ## Rounding a half to even -/

section Rounding

variable {K : Type*} [Field K] [LinearOrder K] [FloorRing K]

variable [IsStrictOrderedRing K]

end Rounding

/-! ## Mean, median and variance -/

variable {K : Type*} [Field K]

/-- The arithmetic mean. -/
def mean (xs : List K) : K := xs.sum / xs.length

variable {xs ys : List K}

variable [LinearOrder K]

/-- The element in the middle of the sorted list, or the mean of the two there. -/
def median (xs : List K) : K :=
  let sorted := xs.mergeSort
  let m := xs.length / 2
  if xs.length % 2 = 1 then sorted.getD m 0
  else mean [sorted.getD (m - 1) 0, sorted.getD m 0]

variable [IsStrictOrderedRing K] {a b : K}

end Numeric
