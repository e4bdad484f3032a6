import ReputationPassport.Service.ScoreRange

/-! # Calculating a score again

`CalculateScore` starts from the scores it has stored itself, so running it again moves every
component on toward `0.5`, until a step is too small to survive the rounding. The stored values are
multiples of `0.01`, and `gridStep` is the operation on the numerators: it moves toward `50` and not
across, so it comes to rest (`Numeric.iterate_fixed`). -/

namespace ReputationPassport.ScoreTable

open Machine Numeric

/-! ## One component on the grid -/

/-- The number of hundredths that is stored for a weighted score of `m` hundredths. -/
noncomputable def gridStep (count : Int) (decayFactor : ℝ) (m : ℤ) : ℤ :=
  roundAway (weightedScore ((m : ℝ) / 100) count decayFactor * 100)

theorem round2_weightedScore (count : Int) (decayFactor : ℝ) (m : ℤ) :
    round2 (weightedScore ((m : ℝ) / 100) count decayFactor) =
      (gridStep count decayFactor m : ℝ) / 100 := by
  rw [round2_eq, roundGrid, gridStep]

variable {count : Int} {decayFactor : ℝ}

/-- **A step moves toward the middle** and not across it. -/
theorem gridStep_mem_uIcc (hcount : 0 ≤ count) (hdecay : 0 ≤ decayFactor) (m : ℤ) :
    gridStep count decayFactor m ∈ Set.uIcc m 50 := by
  obtain ⟨hpos, hle⟩ := one_sub_exp_mem_Icc hdecay (Int.cast_nonneg (R := ℝ) hcount)
  have hbetween : weightedScore ((m : ℝ) / 100) count decayFactor ∈
      Set.uIcc ((m : ℝ) / 100) (1 / 2) := by
    rw [weightedScore_eq]
    exact shrink_mem_uIcc hpos hle
  refine roundAway_mem_uIcc ?_
  rw [Set.mem_uIcc] at hbetween ⊢
  rw [Int.cast_ofNat]
  rcases hbetween with ⟨hlo, hhi⟩ | ⟨hlo, hhi⟩
  · exact Or.inl ⟨by linarith, by linarith⟩
  · exact Or.inr ⟨by linarith, by linarith⟩

/-- **What recalculation leaves alone**: the score is so near to `0.5`, or the count so large, that
the step toward `0.5` is lost in the rounding. -/
def Steady (score : ℝ) (count : Int) (decayFactor : ℝ) : Prop :=
  -0.005 < (score - 0.5) * Real.exp (-decayFactor * count) ∧
    (score - 0.5) * Real.exp (-decayFactor * count) ≤ 0.005

/-- A step rests exactly at the steady scores. -/
theorem gridStep_eq_self_iff (hcount : 0 ≤ count) (hdecay : 0 ≤ decayFactor) {m : ℤ}
    (hm : 0 ≤ m) :
    gridStep count decayFactor m = m ↔ Steady ((m : ℝ) / 100) count decayFactor := by
  obtain ⟨hpos, hle⟩ := one_sub_exp_mem_Icc hdecay (Int.cast_nonneg (R := ℝ) hcount)
  have hm' : (0 : ℝ) ≤ m := Int.cast_nonneg hm
  -- the weighted score, as the stored one less the step toward the middle
  have hweighted : weightedScore ((m : ℝ) / 100) count decayFactor * 100 =
      m - ((m : ℝ) / 100 - 1 / 2) * Real.exp (-decayFactor * count) * 100 := by
    rw [weightedScore_eq, shrink_eq, confidence]
    ring
  have hnonneg : 0 ≤ weightedScore ((m : ℝ) / 100) count decayFactor * 100 := by
    have hshrink : 0 ≤ weightedScore ((m : ℝ) / 100) count decayFactor := by
      rw [weightedScore_eq, shrink]
      have hfirst : 0 ≤ (m : ℝ) / 100 * confidence count decayFactor :=
        mul_nonneg (by linarith) hpos
      have hsecond : confidence count decayFactor ≤ 1 := hle
      linarith
    linarith
  have hhalf : (0.5 : ℝ) = 1 / 2 := by norm_num
  have hbound : (0.005 : ℝ) = 1 / 200 := by norm_num
  rw [gridStep, roundAway_eq_iff hnonneg, hweighted, Steady, hhalf, hbound]
  constructor
  · rintro ⟨hlo, hhi⟩
    exact ⟨by linarith, by linarith⟩
  · rintro ⟨hlo, hhi⟩
    exact ⟨by linarith, by linarith⟩

/-! ## Stored scores -/

/-- The components are multiples of `0.01`, as those that `CalculateScore` has stored are. -/
def OnGrid (s : Scores ℝ) : Prop := ∀ c : Component, ∃ m : ℤ, c.score s = (m : ℝ) / 100

variable {s s' : Scores ℝ}

theorem onGrid_calculate (s : Scores ℝ) : OnGrid (calculate s) := by
  intro c
  rw [score_calculate, round2_eq]
  exact ⟨roundAway (c.weighted s * 100), rfl⟩

/-- What is calculated depends on the components and the totals alone. -/
theorem calculate_congr (hscore : ∀ c : Component, c.score s = c.score s')
    (hcount : ∀ c : Component, c.count s = c.count s') : calculate s = calculate s' := by
  have hweighted : ∀ c : Component, c.weighted s = c.weighted s' := by
    intro c
    rw [Component.weighted, Component.weighted, hscore, hcount]
  have hendorsements : s.totalEndorsements = s'.totalEndorsements := hcount .reliability
  have hreviews : s.totalReviews = s'.totalReviews := hcount .professionalism
  simp only [calculate, overall, hweighted, hendorsements, hreviews]

/-- The totals stay. -/
theorem count_iterate (s : Scores ℝ) (c : Component) (n : ℕ) :
    c.count (calculate^[n] s) = c.count s := by
  induction n with
  | zero => rfl
  | succ n ih => rw [Function.iterate_succ_apply', count_calculate, ih]

/-- A component of what is stored, run after run, is the iterated step of its hundredths. -/
theorem score_iterate {c : Component} {m : ℤ} (hm : c.score s = (m : ℝ) / 100) (n : ℕ) :
    c.score (calculate^[n] s) = ((gridStep (c.count s) c.decayFactor)^[n] m : ℝ) / 100 := by
  induction n with
  | zero => exact hm
  | succ n ih =>
      rw [Function.iterate_succ_apply', score_calculate, Component.weighted, ih, count_iterate,
        round2_weightedScore, Function.iterate_succ_apply']

/-- A recalculation keeps the components in range. -/
theorem componentsInRange_iterate (h : ComponentsInRange s) (n : ℕ) :
    ComponentsInRange (calculate^[n] s) := by
  induction n with
  | zero => exact h
  | succ n ih =>
      rw [Function.iterate_succ_apply']
      exact (inRange_calculate ih).toComponentsInRange

/-- **A recalculation moves each component toward `0.5`** and not across it. -/
theorem score_calculate_mem_uIcc (h : ComponentsInRange s) (hgrid : OnGrid s) (c : Component) :
    c.score (calculate s) ∈ Set.uIcc (c.score s) (1 / 2) := by
  obtain ⟨m, hm⟩ := hgrid c
  have hstep := gridStep_mem_uIcc (h.count c) (decayFactor_nonneg c) m
  rw [score_calculate, Component.weighted, hm, round2_weightedScore]
  rw [Set.mem_uIcc] at hstep ⊢
  rcases hstep with ⟨hlo, hhi⟩ | ⟨hlo, hhi⟩
  · have hlo' : (m : ℝ) ≤ gridStep (c.count s) c.decayFactor m := Int.cast_le.mpr hlo
    have hhi' : (gridStep (c.count s) c.decayFactor m : ℝ) ≤ (50 : ℤ) := Int.cast_le.mpr hhi
    rw [Int.cast_ofNat] at hhi'
    exact Or.inl ⟨by linarith, by linarith⟩
  · have hlo' : ((50 : ℤ) : ℝ) ≤ gridStep (c.count s) c.decayFactor m := Int.cast_le.mpr hlo
    have hhi' : (gridStep (c.count s) c.decayFactor m : ℝ) ≤ m := Int.cast_le.mpr hhi
    rw [Int.cast_ofNat] at hlo'
    exact Or.inr ⟨by linarith, by linarith⟩

/-- **A recalculation leaves a component** exactly when it is steady. -/
theorem score_calculate_eq_iff (h : ComponentsInRange s) (hgrid : OnGrid s) (c : Component) :
    c.score (calculate s) = c.score s ↔ Steady (c.score s) (c.count s) c.decayFactor := by
  obtain ⟨m, hm⟩ := hgrid c
  have hm0 : 0 ≤ m := by
    have hscore := (h.score c).1
    rw [hm] at hscore
    have hcast : (0 : ℝ) ≤ m := by linarith
    exact Int.cast_nonneg_iff.mp hcast
  rw [score_calculate, Component.weighted, hm, round2_weightedScore,
    ← gridStep_eq_self_iff (h.count c) (decayFactor_nonneg c) hm0, div_left_inj' (by norm_num),
    Int.cast_inj]

/-- **Fifty recalculations settle every component**: it is at most fifty hundredths from the
middle. -/
theorem score_settled (h : ComponentsInRange s) (hgrid : OnGrid s) (c : Component) {n : ℕ}
    (hn : 50 ≤ n) : c.score (calculate^[n + 1] s) = c.score (calculate^[n] s) := by
  obtain ⟨m, hm⟩ := hgrid c
  obtain ⟨hlo, hhi⟩ := h.score c
  rw [hm] at hlo hhi
  have hlo' : (0 : ℝ) ≤ m := by linarith
  have hhi' : (m : ℝ) ≤ 100 := by linarith
  have hlow : 0 ≤ m := Int.cast_nonneg_iff.mp hlo'
  have hhigh : m ≤ 100 := by exact_mod_cast hhi'
  -- a step moves a grid point toward 50, and from any of 0 to 100 at most 50 steps are left
  have hrest : gridStep (c.count s) c.decayFactor
      ((gridStep (c.count s) c.decayFactor)^[n] m) =
        (gridStep (c.count s) c.decayFactor)^[n] m :=
    iterate_fixed (gridStep_mem_uIcc (h.count c) (decayFactor_nonneg c)) (by omega)
  rw [score_iterate hm, score_iterate hm, Function.iterate_succ_apply', hrest]

/-- Once a recalculation leaves all components, every further one stores the same scores. -/
theorem iterate_of_left {m n : ℕ}
    (h : ∀ c : Component, c.score (calculate^[m + 1] s) = c.score (calculate^[m] s))
    (hmn : m < n) : calculate^[n] s = calculate^[m + 1] s := by
  induction n, hmn using Nat.le_induction with
  | base => rfl
  | succ n hn ih =>
      rw [Function.iterate_succ_apply', ih]
      have hsame : calculate (calculate^[m + 1] s) = calculate (calculate^[m] s) :=
        calculate_congr h fun c => by rw [count_iterate, count_iterate]
      rw [hsame, Function.iterate_succ_apply']

/-! ## Running `CalculateScore` again -/

/-- The keys and the totals of the table fit their columns. -/
def Conforms (t : Table ℝ) : Prop :=
  ∀ hash row, t hash = some row → accepted hash row.scores = some hash

/-- The table after `CalculateScore` was run some number of times for the subject, with every
statement answered. -/
noncomputable def rerun (subject : String) (n : ℕ) (t : Table ℝ) : Table ℝ :=
  (fun t => calculateScore t subject true true)^[n] t

variable {t : Table ℝ} {subject : String} {row : Row ℝ}

theorem accepted_eq_some {hash : String} : accepted subject s = some hash ↔
    Sql.varchar 66 subject = .ok hash ∧ (∃ n, Sql.integer s.totalEndorsements = .ok n) ∧
      ∃ n, Sql.integer s.totalReviews = .ok n := by
  unfold accepted
  split
  · next hash' n m hhash hn hm => simp [hhash, hn, hm]
  · next hnone =>
    refine iff_of_false (by simp) ?_
    rintro ⟨hhash, ⟨n, hn⟩, m, hm⟩
    exact hnone hash n m hhash hn hm

/-- What is computed for a stored row is accepted under its key. -/
theorem accepted_calculate (hconforms : Conforms t) (hrow : t subject = some row) :
    accepted subject (calculate (existing t subject true)) = some subject := by
  obtain ⟨hkey, hendorsements, hreviews⟩ := accepted_eq_some.mp (hconforms subject row hrow)
  obtain ⟨scores, readable⟩ := row
  rw [accepted_eq_some]
  cases readable with
  | true =>
      have hstart : existing t subject true = scores := by simp only [existing, hrow]
      rw [hstart]
      exact ⟨hkey, hendorsements, hreviews⟩
  | false =>
      have hstart : existing t subject true = blank := by simp only [existing, hrow]
      rw [hstart]
      exact ⟨hkey, ⟨0, rfl⟩, ⟨0, rfl⟩⟩

/-- A run on a stored row replaces it. -/
theorem calculateScore_stored (hconforms : Conforms t) (hrow : t subject = some row) :
    calculateScore t subject true true =
      Function.update t subject (some ⟨calculate (existing t subject true), true⟩) := by
  simp only [calculateScore, accepted_calculate hconforms hrow]

/-- **What is stored after some runs**: the iterated calculation, from what the first run read. -/
theorem rerun_stored (hconforms : Conforms t) (hrow : t subject = some row) (n : ℕ) :
    rerun subject (n + 1) t subject =
        some ⟨calculate^[n + 1] (existing t subject true), true⟩ ∧
      Conforms (rerun subject (n + 1) t) := by
  have hkeep : ∀ {t : Table ℝ} {row : Row ℝ}, Conforms t → t subject = some row →
      Conforms (calculateScore t subject true true) := by
    intro t row hconforms hrow hash row' hrow'
    rw [calculateScore_stored hconforms hrow] at hrow'
    by_cases hhash : hash = subject
    · rw [hhash, Function.update_self, Option.some.injEq] at hrow'
      rw [hhash, ← hrow']
      exact accepted_calculate hconforms hrow
    · rw [Function.update_of_ne hhash] at hrow'
      exact hconforms hash row' hrow'
  induction n with
  | zero =>
      refine ⟨?_, hkeep hconforms hrow⟩
      show calculateScore t subject true true subject = _
      rw [calculateScore_stored hconforms hrow, Function.update_self]
      rfl
  | succ n ih =>
      obtain ⟨hstored, hfits⟩ := ih
      have hnext : rerun subject (n + 1 + 1) t =
          calculateScore (rerun subject (n + 1) t) subject true true :=
        Function.iterate_succ_apply' _ _ _
      -- what the run before has stored can be read
      have hread : existing (rerun subject (n + 1) t) subject true =
          calculate^[n + 1] (existing t subject true) := by
        simp only [existing, hstored]
      rw [hnext]
      refine ⟨?_, hkeep hfits hstored⟩
      rw [calculateScore_stored hfits hstored, Function.update_self, hread,
        ← Function.iterate_succ_apply' calculate]

/-- **Recalculation settles.** Let `scores n` be what is stored for a row in range after `n + 1`
runs with nothing in between. Each further run moves every component toward `0.5` and not across it;
it leaves a component exactly when that is steady; once a run leaves all three components, every
further run stores the same four scores; and from the fifty-second run on all runs do. -/
theorem recalculation_settles (t : Table ℝ) (hconforms : Conforms t) (subject : String)
    (row : Row ℝ) (hrow : t subject = some row) (hrange : ComponentsInRange row.scores) :
    ∃ scores : ℕ → Scores ℝ,
      (∀ n, rerun subject (n + 1) t subject = some ⟨scores n, true⟩) ∧
      (∀ n, ∀ c : Component, c.score (scores (n + 1)) ∈ Set.uIcc (c.score (scores n)) 0.5) ∧
      (∀ n, ∀ c : Component, c.score (scores (n + 1)) = c.score (scores n) ↔
        Steady (c.score (scores n)) (c.count (scores n)) c.decayFactor) ∧
      (∀ m, (∀ c : Component, c.score (scores (m + 1)) = c.score (scores m)) →
        ∀ n, m < n → scores n = scores (m + 1)) ∧
      ∀ n, 51 ≤ n → scores n = scores 51 := by
  have hstart : ComponentsInRange (existing t subject true) :=
    componentsInRange_existing (fun row' hrow' => Option.some.inj (hrow.symm.trans hrow') ▸ hrange)
      true
  have hhalf : (0.5 : ℝ) = 1 / 2 := by norm_num
  -- everything that is stored is in range and on the grid
  have hsucc : ∀ n, calculate^[n + 1 + 1] (existing t subject true) =
      calculate (calculate^[n + 1] (existing t subject true)) :=
    fun n => Function.iterate_succ_apply' _ _ _
  have hgrid : ∀ n, OnGrid (calculate^[n + 1] (existing t subject true)) := by
    intro n
    rw [Function.iterate_succ_apply']
    exact onGrid_calculate _
  have hrest : ∀ m, (∀ c : Component,
      c.score (calculate^[m + 1 + 1] (existing t subject true)) =
        c.score (calculate^[m + 1] (existing t subject true))) → ∀ n, m < n →
      calculate^[n + 1] (existing t subject true) =
        calculate^[m + 1 + 1] (existing t subject true) :=
    fun m hleft n hmn => iterate_of_left hleft (by omega)
  refine ⟨fun n => calculate^[n + 1] (existing t subject true),
    fun n => (rerun_stored hconforms hrow n).1, fun n c => ?_, fun n c => ?_, hrest, ?_⟩
  · simp only [hsucc, hhalf]
    exact score_calculate_mem_uIcc (componentsInRange_iterate hstart _) (hgrid n) c
  · simp only [hsucc]
    exact score_calculate_eq_iff (componentsInRange_iterate hstart _) (hgrid n) c
  · intro n hn
    -- the first run takes the components to the grid, and fifty more settle them
    have hfirst : ComponentsInRange (calculate (existing t subject true)) :=
      (inRange_calculate hstart).toComponentsInRange
    refine hrest 50 (fun c => ?_) n (by omega)
    exact score_settled hfirst (onGrid_calculate _) c (Nat.le_refl 50)

/-- A row with the highest scores and one endorsement. -/
noncomputable def oneEndorsement : Scores ℝ := ⟨1, 1, 1, 1, 1, 0⟩

/-- The table with this row alone. -/
noncomputable def oneEndorsementTable : Table ℝ :=
  Function.update (fun _ => none) "s" (some ⟨oneEndorsement, true⟩)

theorem conforms_oneEndorsementTable : Conforms oneEndorsementTable := by
  intro hash row hrow
  by_cases hhash : hash = "s"
  · rw [oneEndorsementTable, hhash, Function.update_self, Option.some.injEq] at hrow
    rw [hhash, ← hrow]
    exact accepted_eq_some.mpr ⟨rfl, ⟨1, rfl⟩, ⟨0, rfl⟩⟩
  · rw [oneEndorsementTable, Function.update_of_ne hhash] at hrow
    cases hrow

theorem componentsInRange_oneEndorsement : ComponentsInRange oneEndorsement where
  score c := by cases c <;> simp [Component.score, oneEndorsement]
  count c := by cases c <;> simp [Component.count, oneEndorsement]

theorem oneEndorsementTable_apply :
    oneEndorsementTable "s" = some ⟨oneEndorsement, true⟩ := Function.update_self _ _ _

/-- The statement for this row: what the fifty-third run stores is what the fifty-second did. -/
theorem recalculation_settles_oneEndorsement :
    rerun "s" 53 oneEndorsementTable "s" = rerun "s" 52 oneEndorsementTable "s" := by
  obtain ⟨scores, hstored, -, -, -, hsettled⟩ := recalculation_settles oneEndorsementTable
    conforms_oneEndorsementTable "s" ⟨oneEndorsement, true⟩ oneEndorsementTable_apply
    componentsInRange_oneEndorsement
  rw [hstored 52, hstored 51, hsettled 52 (by norm_num)]

/-- The decay of one endorsement in the community trust. -/
theorem exp_tenth_mem : 0.9 < Real.exp (-0.1) ∧ Real.exp (-0.1) < 0.91 := by
  have hlo : (-0.1 : ℝ) + 1 < Real.exp (-0.1) := Real.add_one_lt_exp (by norm_num)
  have hhi : (0.1 : ℝ) + 1 < Real.exp 0.1 := Real.add_one_lt_exp (by norm_num)
  have hinv : Real.exp (-0.1) * Real.exp 0.1 = 1 := by
    rw [← Real.exp_add, neg_add_cancel, Real.exp_zero]
  refine ⟨by linarith, ?_⟩
  nlinarith [Real.exp_pos (-0.1)]

/-- One endorsement takes a community trust of `1` to `0.55`, and that to `0.5`. -/
theorem gridStep_oneEndorsement :
    gridStep 1 (Component.communityTrust.decayFactor : ℝ) 100 = 55 ∧
      gridStep 1 (Component.communityTrust.decayFactor : ℝ) 55 = 50 := by
  have hdecay : (Component.communityTrust.decayFactor : ℝ) = 0.1 := rfl
  have hexp : Real.exp (-(0.1 : ℝ) * (1 : ℤ)) = Real.exp (-0.1) := by
    rw [Int.cast_one, mul_one]
  obtain ⟨hlo, hhi⟩ := exp_tenth_mem
  have hweighted : ∀ m : ℤ, weightedScore ((m : ℝ) / 100) 1 0.1 * 100 =
      m - ((m : ℝ) / 100 - 1 / 2) * Real.exp (-0.1) * 100 := by
    intro m
    rw [weightedScore_eq, shrink_eq, confidence, hexp]
    ring
  -- a step ends at the grid point within half a hundredth of the weighted score
  have hround : ∀ m k : ℤ, 0 ≤ (k : ℝ) - 1 / 2 →
      (k : ℝ) - 1 / 2 ≤ m - ((m : ℝ) / 100 - 1 / 2) * Real.exp (-0.1) * 100 →
      m - ((m : ℝ) / 100 - 1 / 2) * Real.exp (-0.1) * 100 < k + 1 / 2 →
      gridStep 1 (Component.communityTrust.decayFactor : ℝ) m = k := by
    intro m k hpos hle hlt
    rw [gridStep, hdecay, hweighted, roundAway_eq_iff (hpos.trans hle)]
    exact ⟨hle, hlt⟩
  constructor
  · refine hround 100 55 ?_ ?_ ?_ <;> norm_num at hlo hhi ⊢ <;> linarith
  · refine hround 55 50 ?_ ?_ ?_ <;> norm_num at hlo hhi ⊢ <;> linarith

/-- **Recalculation is not idempotent**: with one endorsement, a first run takes a community trust
of `1` to `0.55`, and a second one takes it to `0.5`. -/
theorem second_run_moves_on :
    ¬ ∀ (t : Table ℝ) (subject : String) (row : Row ℝ), Conforms t → t subject = some row →
      ComponentsInRange row.scores →
      (rerun subject 2 t subject).map Row.scores = (rerun subject 1 t subject).map Row.scores := by
  intro h
  have hsame := h oneEndorsementTable "s" ⟨oneEndorsement, true⟩ conforms_oneEndorsementTable
    oneEndorsementTable_apply componentsInRange_oneEndorsement
  rw [(rerun_stored conforms_oneEndorsementTable oneEndorsementTable_apply 1).1,
    (rerun_stored conforms_oneEndorsementTable oneEndorsementTable_apply 0).1, Option.map_some,
    Option.map_some, Option.some.injEq] at hsame
  have hread : existing oneEndorsementTable "s" true = oneEndorsement := by
    simp only [existing, oneEndorsementTable_apply]
  have hgrid : Component.communityTrust.score oneEndorsement = ((100 : ℤ) : ℝ) / 100 := by
    norm_num [Component.score, oneEndorsement]
  have hscores := congrArg (fun s => Component.communityTrust.score s) hsame
  simp only [hread, score_iterate hgrid] at hscores
  rw [div_left_inj' (by norm_num), Int.cast_inj] at hscores
  obtain ⟨hfirst, hsecond⟩ := gridStep_oneEndorsement
  change gridStep 1 _ (gridStep 1 _ 100) = gridStep 1 _ 100 at hscores
  rw [hfirst, hsecond] at hscores
  exact absurd hscores (by decide)

end ReputationPassport.ScoreTable
