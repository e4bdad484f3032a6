import Mathlib.Algebra.Order.Field.Basic
import Mathlib.Algebra.Order.Floor.Ring
import Mathlib.Order.Interval.Set.UnorderedInterval
import Mathlib.Tactic.Linarith
import Mathlib.Tactic.Ring

/-! # Rounding to a grid and shrinking toward a mean

`roundAway` rounds to the nearest integer, a half away from zero, and `roundGrid` to the nearest
multiple of `1 / s`. Both are monotone and fix the values they round to, so a value between two grid
points is rounded to one between them. `shrink` is the weighted average of a value and a mean.

An operation on integers that moves every value toward a mean without crossing it is at rest after
as many steps as the value is away from the mean (`iterate_fixed`). -/

namespace Numeric

/-! ## Rounding to integers -/

section Rounding

variable {R : Type*} [Field R] [LinearOrder R] [FloorRing R]

/-- The nearest integer, a half away from zero. -/
def roundAway (x : R) : ℤ := if 0 ≤ x then ⌊x + 1 / 2⌋ else -⌊-x + 1 / 2⌋

theorem roundAway_of_nonneg {x : R} (hx : 0 ≤ x) : roundAway x = ⌊x + 1 / 2⌋ := if_pos hx

theorem roundAway_of_neg {x : R} (hx : x < 0) : roundAway x = -⌊-x + 1 / 2⌋ :=
  if_neg (not_le.mpr hx)

variable [IsStrictOrderedRing R]

theorem roundAway_neg (x : R) : roundAway (-x) = -roundAway x := by
  rcases lt_trichotomy x 0 with hx | rfl | hx
  · rw [roundAway, roundAway, if_pos (by linarith), if_neg (by linarith), neg_neg]
  · have hfloor : ⌊(0 : R) + 1 / 2⌋ = 0 := Int.floor_eq_iff.mpr (by norm_num)
    rw [neg_zero, roundAway_of_nonneg le_rfl, hfloor, neg_zero]
  · rw [roundAway, roundAway, if_neg (by linarith), if_pos hx.le, neg_neg]

/-- An integer is rounded to itself. -/
@[simp] theorem roundAway_intCast (m : ℤ) : roundAway (m : R) = m := by
  have hnonneg : ∀ n : ℤ, 0 ≤ n → roundAway (n : R) = n := by
    intro n hn
    rw [roundAway_of_nonneg (Int.cast_nonneg hn), Int.floor_eq_iff]
    constructor <;> linarith
  rcases le_total 0 m with hm | hm
  · exact hnonneg m hm
  · have hneg := hnonneg (-m) (by omega)
    rw [Int.cast_neg, roundAway_neg] at hneg
    omega

/-- **Rounding is monotone.** -/
theorem roundAway_le_roundAway {x y : R} (hxy : x ≤ y) : roundAway x ≤ roundAway y := by
  rcases le_or_gt 0 x with hx | hx
  · rw [roundAway_of_nonneg hx, roundAway_of_nonneg (hx.trans hxy)]
    exact Int.floor_mono (by linarith)
  · have hxfloor : 0 ≤ ⌊-x + 1 / 2⌋ := Int.floor_nonneg.mpr (by linarith)
    rcases le_or_gt 0 y with hy | hy
    · have hyfloor : 0 ≤ ⌊y + 1 / 2⌋ := Int.floor_nonneg.mpr (by linarith)
      rw [roundAway_of_neg hx, roundAway_of_nonneg hy]
      omega
    · have hfloor : ⌊-y + 1 / 2⌋ ≤ ⌊-x + 1 / 2⌋ := Int.floor_mono (by linarith)
      rw [roundAway_of_neg hx, roundAway_of_neg hy]
      omega

/-- A value that is not negative is rounded to `m` when it lies in the interval around `m` that is
closed on the left. -/
theorem roundAway_eq_iff {x : R} (hx : 0 ≤ x) {m : ℤ} :
    roundAway x = m ↔ (m : R) - 1 / 2 ≤ x ∧ x < m + 1 / 2 := by
  rw [roundAway_of_nonneg hx, Int.floor_eq_iff]
  constructor
  · rintro ⟨hle, hlt⟩
    exact ⟨by linarith, by linarith⟩
  · rintro ⟨hle, hlt⟩
    exact ⟨by linarith, by linarith⟩

/-- A value between two integers is rounded to one between them. -/
theorem roundAway_mem_uIcc {m n : ℤ} {x : R} (hx : x ∈ Set.uIcc (m : R) n) :
    roundAway x ∈ Set.uIcc m n := by
  have hm : roundAway (m : R) = m := roundAway_intCast m
  have hn : roundAway (n : R) = n := roundAway_intCast n
  rw [Set.mem_uIcc] at hx ⊢
  rcases hx with ⟨hlo, hhi⟩ | ⟨hlo, hhi⟩
  · exact Or.inl ⟨hm ▸ roundAway_le_roundAway hlo, hn ▸ roundAway_le_roundAway hhi⟩
  · exact Or.inr ⟨hn ▸ roundAway_le_roundAway hlo, hm ▸ roundAway_le_roundAway hhi⟩

/-- **Rounding never widens a distance** that is a number of whole steps. -/
theorem roundAway_le_add {x y : R} (hx : 0 ≤ x) {d : ℤ} (hd : 0 ≤ d) (hy : y ≤ x + d) :
    roundAway y ≤ roundAway x + d := by
  have hsum : (0 : R) ≤ x + d := add_nonneg hx (Int.cast_nonneg hd)
  have hshift : roundAway (x + d) = roundAway x + d := by
    rw [roundAway_of_nonneg hx, roundAway_of_nonneg hsum, add_right_comm, Int.floor_add_intCast]
  rw [← hshift]
  exact roundAway_le_roundAway hy

/-! ## Rounding to a grid -/

/-- The nearest multiple of `1 / s`. -/
def roundGrid (s x : R) : R := (roundAway (x * s) : R) / s

variable {s : R}

/-- A multiple of `1 / s` is rounded to itself. -/
theorem roundGrid_grid (hs : 0 < s) (m : ℤ) : roundGrid s ((m : R) / s) = (m : R) / s := by
  rw [roundGrid, div_mul_cancel₀ _ hs.ne', roundAway_intCast]

theorem roundGrid_mono (hs : 0 < s) : Monotone (roundGrid s) := by
  intro x y hxy
  have hround : roundAway (x * s) ≤ roundAway (y * s) :=
    roundAway_le_roundAway (mul_le_mul_of_nonneg_right hxy hs.le)
  exact div_le_div_of_nonneg_right (Int.cast_le.mpr hround) hs.le

end Rounding

/-! ## Shrinking toward a mean -/

section Shrinking

variable {R : Type*} [Field R]

/-- The average of a value and a mean, with weight `c` for the value. -/
def shrink (mean c x : R) : R := x * c + mean * (1 - c)

theorem shrink_eq (mean c x : R) : shrink mean c x = x - (x - mean) * (1 - c) := by
  rw [shrink]
  ring

variable [LinearOrder R] [IsStrictOrderedRing R]

/-- The average lies between the value and the mean. -/
theorem shrink_mem_uIcc {mean c x : R} (hc : 0 ≤ c) (hc' : c ≤ 1) :
    shrink mean c x ∈ Set.uIcc x mean := by
  rw [Set.mem_uIcc, shrink_eq]
  rcases le_total x mean with h | h
  · refine Or.inl ⟨?_, ?_⟩
    · nlinarith [mul_nonneg (sub_nonneg.mpr h) (sub_nonneg.mpr hc')]
    · nlinarith [mul_nonneg (sub_nonneg.mpr h) hc]
  · refine Or.inr ⟨?_, ?_⟩
    · nlinarith [mul_nonneg (sub_nonneg.mpr h) hc]
    · nlinarith [mul_nonneg (sub_nonneg.mpr h) (sub_nonneg.mpr hc')]

/-- The average grows with the value. -/
theorem shrink_mono {mean c : R} (hc : 0 ≤ c) : Monotone (shrink mean c) := by
  intro x y hxy
  rw [shrink, shrink]
  have hmul : x * c ≤ y * c := mul_le_mul_of_nonneg_right hxy hc
  linarith

/-- Two averages are no farther apart than the two values. -/
theorem shrink_sub_le {mean c x y : R} (hc : c ≤ 1) (hxy : x ≤ y) :
    shrink mean c y ≤ shrink mean c x + (y - x) := by
  rw [shrink, shrink]
  have hmul : (y - x) * c ≤ y - x := mul_le_of_le_one_right (sub_nonneg.mpr hxy) hc
  linarith

/-- How far the average is from the value. -/
theorem abs_shrink_sub {mean c x : R} (hc : c ≤ 1) :
    |shrink mean c x - x| = |x - mean| * (1 - c) := by
  have hdiff : shrink mean c x - x = -((x - mean) * (1 - c)) := by rw [shrink_eq]; ring
  rw [hdiff, abs_neg, abs_mul, abs_of_nonneg (sub_nonneg.mpr hc)]

/-- More weight for the value brings the average nearer to it. -/
theorem abs_shrink_sub_anti {mean c d x : R} (hcd : c ≤ d) (hd : d ≤ 1) :
    |shrink mean d x - x| ≤ |shrink mean c x - x| := by
  rw [abs_shrink_sub hd, abs_shrink_sub (hcd.trans hd)]
  exact mul_le_mul_of_nonneg_left (by linarith) (abs_nonneg _)

end Shrinking

/-! ## Coming to rest -/

/-- A step that moves an integer toward the mean, and not across it, rests or comes nearer. -/
theorem fixed_or_nearer {mean m n : ℤ} (h : n ∈ Set.uIcc m mean) :
    n = m ∨ (n - mean).natAbs < (m - mean).natAbs := by
  rw [Set.mem_uIcc] at h
  omega

/-- **Coming to rest**: an operation that moves every integer toward the mean, and not across it, is
at rest after as many steps as the integer is away from the mean. -/
theorem iterate_fixed {f : ℤ → ℤ} {mean : ℤ} (h : ∀ m, f m ∈ Set.uIcc m mean) {k : ℕ} {m : ℤ}
    (hk : (m - mean).natAbs ≤ k) : f (f^[k] m) = f^[k] m := by
  -- a value at rest stays at rest; one that moves has come nearer
  induction k generalizing m with
  | zero =>
      have hm : m = mean := by omega
      have hmem := h m
      rw [hm, Set.uIcc_self, Set.mem_singleton_iff] at hmem
      rw [Function.iterate_zero, id, hm, hmem]
  | succ k ih =>
      rw [Function.iterate_succ_apply]
      rcases fixed_or_nearer (h m) with hfixed | hnearer
      · rw [hfixed]
        have hrest : f^[k] m = m := Function.iterate_fixed hfixed k
        rw [hrest, hfixed]
      · exact ih (by omega)

end Numeric
