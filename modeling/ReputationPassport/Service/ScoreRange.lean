import ReputationPassport.Machine.SplitUpdate
import ReputationPassport.Service.ScoreTable

/-! # Scores stay in range

The score table in exact arithmetic. `weightedScore` is a weighted average of the stored score and
`0.5`, with a weight that grows with the count and starts at zero, so its special case for a count
of zero is the general formula (`weightedScore_eq`). Averages and rounding keep `[0, 1]`. -/

namespace ReputationPassport.ScoreTable

open Machine Numeric

/-- The weight of the stored score. -/
noncomputable def confidence (count : Int) (decayFactor : ℝ) : ℝ :=
  1 - Real.exp (-decayFactor * count)

/-- **A weighted score is an average** of the base score and `0.5`, for a count of zero too. -/
theorem weightedScore_eq (baseScore : ℝ) (count : Int) (decayFactor : ℝ) :
    weightedScore baseScore count decayFactor =
      shrink (1 / 2) (confidence count decayFactor) baseScore := by
  have hhalf : (0.5 : ℝ) = 1 / 2 := by norm_num
  have hone : (Arithmetic.ofNat 1 : ℝ) = 1 := Nat.cast_one
  unfold weightedScore
  split
  · next hzero =>
    -- without entries the weight is zero, and the special case is the general formula
    have hweight : confidence count decayFactor = 0 := by
      rw [confidence, hzero, Int.cast_zero, mul_zero, Real.exp_zero, sub_self]
    rw [hweight, shrink, mul_zero, zero_add, sub_zero, mul_one]
    exact hhalf
  · rw [shrink, confidence]
    change baseScore * (Arithmetic.ofNat 1 - Real.exp (-decayFactor * count)) +
      (0.5 : ℝ) * (Arithmetic.ofNat 1 - (Arithmetic.ofNat 1 - Real.exp (-decayFactor * count))) = _
    rw [hone, hhalf]

/-- Rounding to two decimals. -/
theorem round2_eq (x : ℝ) : round2 x = roundGrid 100 x := by
  have hhundred : (Arithmetic.ofNat 100 : ℝ) = 100 := Nat.cast_ofNat
  change ((roundAway (x * Arithmetic.ofNat 100) : ℤ) : ℝ) / Arithmetic.ofNat 100 = _
  rw [hhundred, roundGrid]

theorem round2_mono : Monotone (round2 : ℝ → ℝ) := by
  intro x y hxy
  rw [round2_eq, round2_eq]
  exact roundGrid_mono (by norm_num) hxy

theorem decayFactor_nonneg (c : Component) : (0 : ℝ) ≤ c.decayFactor := by
  cases c with
  | reliability => show (0 : ℝ) ≤ 0.3; norm_num
  | professionalism => show (0 : ℝ) ≤ 0.2; norm_num
  | communityTrust => show (0 : ℝ) ≤ 0.1; norm_num

/-- The overall score is a weighted average of the components, before it is rounded. -/
theorem overall_eq (s : Scores ℝ) :
    overall s = Component.reliability.weighted s * (2 / 5) +
      Component.professionalism.weighted s * (7 / 20) +
      Component.communityTrust.weighted s * (1 / 4) := by
  have hreliability : (0.4 : ℝ) = 2 / 5 := by norm_num
  have hprofessionalism : (0.35 : ℝ) = 7 / 20 := by norm_num
  have hcommunity : (0.25 : ℝ) = 1 / 4 := by norm_num
  rw [← hreliability, ← hprofessionalism, ← hcommunity]
  rfl

/-! ## Ranges -/

/-- What the results about ranges ask of a row: components from `0` to `1` and totals that are not
negative. -/
structure ComponentsInRange (s : Scores ℝ) : Prop where
  score : ∀ c : Component, c.score s ∈ Set.Icc 0 1
  count : ∀ c : Component, 0 ≤ c.count s

/-- All four scores are from `0` to `1`, and the totals are not negative. -/
structure InRange (s : Scores ℝ) : Prop extends ComponentsInRange s where
  overall : s.overallScore ∈ Set.Icc 0 1

variable {s : Scores ℝ} {t : Table ℝ}

/-- The weight of a component is a proportion. -/
theorem confidence_mem_Icc (h : ComponentsInRange s) (c : Component) :
    0 ≤ confidence (c.count s) c.decayFactor ∧ confidence (c.count s) c.decayFactor ≤ 1 :=
  one_sub_exp_mem_Icc (decayFactor_nonneg c) (Int.cast_nonneg (h.count c))

/-- **A weighted component lies between its stored value and `0.5`.** -/
theorem weighted_mem_uIcc (h : ComponentsInRange s) (c : Component) :
    c.weighted s ∈ Set.uIcc (c.score s) (1 / 2) := by
  obtain ⟨hpos, hle⟩ := confidence_mem_Icc h c
  rw [Component.weighted, weightedScore_eq]
  exact shrink_mem_uIcc hpos hle

/-- **A larger count never takes a score farther away** from the stored one. -/
theorem abs_weightedScore_sub_anti (baseScore : ℝ) {decayFactor : ℝ} (hdecay : 0 ≤ decayFactor)
    {m n : Int} (hm : 0 ≤ m) (hmn : m ≤ n) :
    |weightedScore baseScore n decayFactor - baseScore| ≤
      |weightedScore baseScore m decayFactor - baseScore| := by
  have hcast : (m : ℝ) ≤ n := Int.cast_le.mpr hmn
  have hn : (0 : ℝ) ≤ n := Int.cast_nonneg (hm.trans hmn)
  rw [weightedScore_eq, weightedScore_eq]
  exact abs_shrink_sub_anti (one_sub_exp_mono hdecay hcast) (one_sub_exp_mem_Icc hdecay hn).2

theorem weighted_mem_Icc (h : ComponentsInRange s) (c : Component) :
    c.weighted s ∈ Set.Icc 0 1 := by
  obtain ⟨hlo, hhi⟩ := h.score c
  rcases Set.mem_uIcc.mp (weighted_mem_uIcc h c) with ⟨hl, hr⟩ | ⟨hl, hr⟩
  · exact ⟨hlo.trans hl, hr.trans (by norm_num)⟩
  · exact ⟨(by norm_num : (0 : ℝ) ≤ 1 / 2).trans hl, hr.trans hhi⟩

/-- A bound of the components bounds the overall score. -/
theorem overall_le {b : ℝ} (h : ∀ c : Component, c.weighted s ≤ b) : overall s ≤ b := by
  have hreliability := h .reliability
  have hprofessionalism := h .professionalism
  have hcommunity := h .communityTrust
  rw [overall_eq]
  linarith

theorem le_overall {b : ℝ} (h : ∀ c : Component, b ≤ c.weighted s) : b ≤ overall s := by
  have hreliability := h .reliability
  have hprofessionalism := h .professionalism
  have hcommunity := h .communityTrust
  rw [overall_eq]
  linarith

/-- The smallest of three values, one for each component. -/
noncomputable def smallest (f : Component → ℝ) : ℝ :=
  min (f .reliability) (min (f .professionalism) (f .communityTrust))

/-- The largest of three values, one for each component. -/
noncomputable def largest (f : Component → ℝ) : ℝ :=
  max (f .reliability) (max (f .professionalism) (f .communityTrust))

theorem smallest_le (f : Component → ℝ) (c : Component) : smallest f ≤ f c := by
  cases c <;> simp [smallest]

theorem le_largest (f : Component → ℝ) (c : Component) : f c ≤ largest f := by
  cases c <;> simp [largest]

/-- **The overall score lies between the smallest and the largest component.** -/
theorem overall_mem_Icc (s : Scores ℝ) :
    overall s ∈ Set.Icc (smallest fun c => c.weighted s) (largest fun c => c.weighted s) :=
  ⟨le_overall fun c => smallest_le (fun c => c.weighted s) c,
    overall_le fun c => le_largest (fun c => c.weighted s) c⟩

/-- So does the overall score that is stored, among the components that are stored. -/
theorem overallScore_mem_Icc (s : Scores ℝ) :
    (calculate s).overallScore ∈ Set.Icc (smallest fun c => c.score (calculate s))
      (largest fun c => c.score (calculate s)) := by
  obtain ⟨hlo, hhi⟩ := overall_mem_Icc s
  have hsmallest : (smallest fun c => c.score (calculate s)) =
      round2 (smallest fun c => c.weighted s) := by
    simp only [smallest, score_calculate, round2_mono.map_min]
  have hlargest : (largest fun c => c.score (calculate s)) =
      round2 (largest fun c => c.weighted s) := by
    simp only [largest, score_calculate, round2_mono.map_max]
  rw [hsmallest, hlargest]
  exact ⟨round2_mono hlo, round2_mono hhi⟩

/-- Rounding keeps `[0, 1]`. -/
theorem round2_mem_Icc {x : ℝ} (hx : x ∈ Set.Icc 0 1) : round2 x ∈ Set.Icc (0 : ℝ) 1 := by
  have hzero : round2 (0 : ℝ) = 0 := by
    have hgrid := roundGrid_grid (s := (100 : ℝ)) (by norm_num) 0
    rwa [Int.cast_zero, zero_div, ← round2_eq] at hgrid
  have hone : round2 (1 : ℝ) = 1 := by
    have hgrid := roundGrid_grid (s := (100 : ℝ)) (by norm_num) 100
    rwa [Int.cast_ofNat, div_self (by norm_num), ← round2_eq] at hgrid
  exact ⟨hzero ▸ round2_mono hx.1, hone ▸ round2_mono hx.2⟩

/-- **What `CalculateScore` computes is in range** if the components it starts from are. -/
theorem inRange_calculate (h : ComponentsInRange s) : InRange (calculate s) where
  score c := by
    rw [score_calculate]
    exact round2_mem_Icc (weighted_mem_Icc h c)
  count c := by
    rw [count_calculate]
    exact h.count c
  overall := by
    refine round2_mem_Icc ⟨le_overall fun c => ?_, overall_le fun c => ?_⟩
    · exact (weighted_mem_Icc h c).1
    · exact (weighted_mem_Icc h c).2

/-- The empty score is in range. -/
theorem componentsInRange_blank : ComponentsInRange (blank : Scores ℝ) where
  score c := by
    have hzero : (Arithmetic.ofNat 0 : ℝ) = 0 := Nat.cast_zero
    cases c <;> simp [Component.score, blank, hzero]
  count c := by cases c <;> exact le_refl _

/-- What a call starts from is in range if the row of the subject is, whether it is there or not. -/
theorem componentsInRange_existing {subject : String}
    (h : ∀ row, t subject = some row → ComponentsInRange row.scores) (answered : Bool) :
    ComponentsInRange (existing t subject answered) := by
  unfold existing
  split
  · next scores hrow => exact h _ hrow
  · exact componentsInRange_blank

/-! ## Runs -/

/-- A call of `CalculateScore`, with its read answered or not and its write executed or not. -/
structure Call where
  subject : String
  answered : Bool
  executed : Bool

/-- Execute a call. -/
noncomputable def Call.apply (c : Call) (t : Table ℝ) : Table ℝ :=
  calculateScore t c.subject c.answered c.executed

/-- **What one call stores**: if its write is executed and the columns accept the scores, those it
computes from what was read, under one key. -/
theorem apply_of_accepted {c : Call} {key : String} (hexecuted : c.executed = true)
    (haccepted : accepted c.subject (calculate (existing t c.subject c.answered)) = some key) :
    c.apply t =
      Function.update t key (some ⟨calculate (existing t c.subject c.answered), true⟩) := by
  simp only [Call.apply, calculateScore, hexecuted, haccepted]

/-- What one call stores is in range, or was there before. -/
theorem inRange_of_apply {c : Call}
    (h : ∀ row, t c.subject = some row → ComponentsInRange row.scores) {hash : String}
    {row : Row ℝ} (hrow : c.apply t hash = some row) : t hash = some row ∨ InRange row.scores := by
  rcases calculateScore_cases t c.subject c.answered c.executed with hsame | ⟨key, hwrite⟩
  · rw [Call.apply, hsame] at hrow
    exact Or.inl hrow
  · rw [Call.apply, hwrite] at hrow
    by_cases hkey : hash = key
    · rw [hkey, Function.update_self, Option.some.injEq] at hrow
      rw [← hrow]
      exact Or.inr (inRange_calculate (componentsInRange_existing h c.answered))
    · rw [Function.update_of_ne hkey] at hrow
      exact Or.inl hrow

/-- Every row of the table is in range. -/
def TableInRange (t : Table ℝ) : Prop := ∀ hash row, t hash = some row → InRange row.scores

/-- A call keeps the table in range. -/
theorem TableInRange.apply (h : TableInRange t) (c : Call) : TableInRange (c.apply t) := by
  intro hash row hrow
  have hsubject : ∀ row, t c.subject = some row → ComponentsInRange row.scores :=
    fun row hrow => (h c.subject row hrow).toComponentsInRange
  exact (inRange_of_apply hsubject hrow).elim (h hash row) id

/-- **Scores stay in range.** For every row whose components are in `[0, 1]` and whose totals are
not negative: the scores a call computes are in `[0, 1]`; before rounding each component lies
between its stored value and `0.5`, no farther from it when the count is larger; and the overall
score lies between the smallest and the largest component, before and after rounding. A call whose
write is executed and accepted stores what it computes. What a call stores is in range, and from a
table in range any number of calls, on present or absent subjects, leads to a table in range. -/
theorem scores_stay_in_range :
    (∀ s : Scores ℝ, ComponentsInRange s →
      InRange (calculate s) ∧
      (∀ c : Component, c.weighted s ∈ Set.uIcc (c.score s) 0.5) ∧
      overall s ∈ Set.Icc (smallest fun c => c.weighted s) (largest fun c => c.weighted s) ∧
      (calculate s).overallScore ∈ Set.Icc (smallest fun c => c.score (calculate s))
        (largest fun c => c.score (calculate s))) ∧
    (∀ s s' : Scores ℝ, ComponentsInRange s → ∀ c : Component, c.score s' = c.score s →
      c.count s ≤ c.count s' →
      |c.weighted s' - c.score s'| ≤ |c.weighted s - c.score s|) ∧
    (∀ t : Table ℝ, ∀ c : Call, ∀ key, c.executed = true →
      accepted c.subject (calculate (existing t c.subject c.answered)) = some key →
      c.apply t =
        Function.update t key (some ⟨calculate (existing t c.subject c.answered), true⟩)) ∧
    (∀ t : Table ℝ, ∀ c : Call,
      (∀ row, t c.subject = some row → ComponentsInRange row.scores) →
      ∀ hash row, c.apply t hash = some row → t hash = some row ∨ InRange row.scores) ∧
    ∀ t : Table ℝ, TableInRange t →
      ∀ calls : List Call, TableInRange (serial Call.apply calls t) := by
  refine ⟨fun s h => ⟨inRange_calculate h, fun c => ?_, overall_mem_Icc s,
    overallScore_mem_Icc s⟩, ?_, fun t c key => apply_of_accepted,
    fun t c h hash row => inRange_of_apply h, ?_⟩
  · have hhalf : (0.5 : ℝ) = 1 / 2 := by norm_num
    rw [hhalf]
    exact weighted_mem_uIcc h c
  · intro s s' h c hscore hcount
    rw [Component.weighted, Component.weighted, hscore]
    exact abs_weightedScore_sub_anti _ (decayFactor_nonneg c) (h.count c) hcount
  · intro t h calls
    exact serial_induction (fun c _ t ht => ht.apply c) h

/-- A row with the highest scores, five endorsements and three reviews. -/
noncomputable def bestScores : Scores ℝ := ⟨1, 1, 1, 1, 5, 3⟩

/-- The statement for this row alone, and for two calls, on its subject and on an absent one. -/
theorem scores_stay_in_range_bestScores :
    InRange (calculate bestScores) ∧
    TableInRange (serial Call.apply [⟨"s", true, true⟩, ⟨"u", true, true⟩]
      (Function.update (fun _ => none) "s" (some ⟨bestScores, true⟩))) := by
  have hrange : InRange bestScores :=
    { score := fun c => by cases c <;> simp [Component.score, bestScores]
      count := fun c => by cases c <;> simp [Component.count, bestScores]
      overall := by simp [bestScores] }
  refine ⟨(scores_stay_in_range.1 bestScores hrange.toComponentsInRange).1,
    scores_stay_in_range.2.2.2.2 _ ?_ _⟩
  intro hash row hrow
  by_cases hkey : hash = "s"
  · rw [hkey, Function.update_self, Option.some.injEq] at hrow
    exact hrow ▸ hrange
  · rw [Function.update_of_ne hkey] at hrow
    cases hrow

end ReputationPassport.ScoreTable
