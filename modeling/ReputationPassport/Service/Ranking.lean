import ReputationPassport.Service.Recalculation

/-! # Recalculation keeps the ranking

Recalculating moves every score toward `0.5`, so the scores of two subjects come closer to each
other. In exact arithmetic they do not change places: with equal totals the subject that was behind
in every component stays behind, whichever calls run in between, as long as both rows have been
recalculated equally often, or so often that they have settled. -/

namespace ReputationPassport.ScoreTable

open Machine Numeric

/-! ## Two rows -/

/-- The first row is behind the second: no component is higher, and their totals are equal. -/
structure Behind (s s' : Scores ℝ) : Prop where
  score : ∀ c : Component, c.score s ≤ c.score s'
  count : ∀ c : Component, c.count s = c.count s'
  nonneg : ∀ c : Component, 0 ≤ c.count s

variable {s s' : Scores ℝ}

/-- The weight of a component is a proportion. -/
theorem Behind.confidence_mem_Icc (h : Behind s s') (c : Component) :
    0 ≤ confidence (c.count s) c.decayFactor ∧ confidence (c.count s) c.decayFactor ≤ 1 :=
  one_sub_exp_mem_Icc (decayFactor_nonneg c) (Int.cast_nonneg (h.nonneg c))

/-- A weighted component is no higher than that of a row ahead. -/
theorem Behind.weighted_le (h : Behind s s') (c : Component) : c.weighted s ≤ c.weighted s' := by
  rw [Component.weighted, Component.weighted, weightedScore_eq, weightedScore_eq, ← h.count c]
  exact shrink_mono (h.confidence_mem_Icc c).1 (h.score c)

/-- Nor is the overall score. -/
theorem Behind.overall_le (h : Behind s s') : overall s ≤ overall s' := by
  have hreliability := h.weighted_le .reliability
  have hprofessionalism := h.weighted_le .professionalism
  have hcommunity := h.weighted_le .communityTrust
  rw [overall_eq, overall_eq]
  linarith

/-- **A recalculation of both rows keeps the order.** -/
theorem Behind.calculate (h : Behind s s') :
    Behind (ScoreTable.calculate s) (ScoreTable.calculate s') where
  score c := by
    rw [score_calculate, score_calculate]
    exact round2_mono (h.weighted_le c)
  count c := by rw [count_calculate, count_calculate, h.count c]
  nonneg c := by rw [count_calculate]; exact h.nonneg c

theorem Behind.iterate (h : Behind s s') (n : ℕ) :
    Behind (ScoreTable.calculate^[n] s) (ScoreTable.calculate^[n] s') := by
  induction n with
  | zero => exact h
  | succ n ih =>
      rw [Function.iterate_succ_apply', Function.iterate_succ_apply']
      exact ih.calculate

/-- The distance of two grid points, in hundredths, does not grow. -/
theorem gridStep_sub_le {count : Int} {decayFactor : ℝ} (hcount : 0 ≤ count)
    (hdecay : 0 ≤ decayFactor) {m n : ℤ} (hm : 0 ≤ m) (hmn : m ≤ n) :
    gridStep count decayFactor n - gridStep count decayFactor m ≤ n - m := by
  obtain ⟨hpos, hle⟩ := one_sub_exp_mem_Icc hdecay (Int.cast_nonneg (R := ℝ) hcount)
  have hle' : confidence count decayFactor ≤ 1 := hle
  have hm' : (0 : ℝ) ≤ m := Int.cast_nonneg hm
  have hmn' : (m : ℝ) ≤ n := Int.cast_le.mpr hmn
  have hnonneg : 0 ≤ weightedScore ((m : ℝ) / 100) count decayFactor * 100 := by
    rw [weightedScore_eq, shrink]
    have hfirst : 0 ≤ (m : ℝ) / 100 * confidence count decayFactor :=
      mul_nonneg (by linarith) hpos
    linarith
  have hclose : weightedScore ((n : ℝ) / 100) count decayFactor * 100 ≤
      weightedScore ((m : ℝ) / 100) count decayFactor * 100 + ((n - m : ℤ) : ℝ) := by
    have hdivs : (m : ℝ) / 100 ≤ (n : ℝ) / 100 := by linarith
    have hshrink : shrink (1 / 2) (confidence count decayFactor) ((n : ℝ) / 100) ≤
        shrink (1 / 2) (confidence count decayFactor) ((m : ℝ) / 100) +
          ((n : ℝ) / 100 - (m : ℝ) / 100) := shrink_sub_le hle' hdivs
    rw [weightedScore_eq, weightedScore_eq, Int.cast_sub]
    linarith
  -- the distance before rounding is at most a whole number, and rounding keeps that
  have hround := roundAway_le_add hnonneg (sub_nonneg.mpr hmn) hclose
  rw [gridStep, gridStep]
  omega

/-- **A recalculation brings two stored rows no farther apart** in any component. -/
theorem Behind.sub_calculate_le (h : Behind s s') (hrange : ComponentsInRange s) (hgrid : OnGrid s)
    (hgrid' : OnGrid s') (c : Component) :
    c.score (ScoreTable.calculate s') - c.score (ScoreTable.calculate s) ≤
      c.score s' - c.score s := by
  obtain ⟨m, hm⟩ := hgrid c
  obtain ⟨n, hn⟩ := hgrid' c
  have hscore := (hrange.score c).1
  have hle := h.score c
  rw [hm] at hscore hle
  rw [hn] at hle
  have hm0 : (0 : ℝ) ≤ m := by linarith
  have hmn0 : (m : ℝ) ≤ n := by linarith
  have hm' : 0 ≤ m := Int.cast_nonneg_iff.mp hm0
  have hmn : m ≤ n := Int.cast_le.mp hmn0
  have hstep := gridStep_sub_le (h.nonneg c) (decayFactor_nonneg c) hm' hmn
  have hstep' : ((gridStep (c.count s) c.decayFactor n : ℤ) : ℝ) -
      gridStep (c.count s) c.decayFactor m ≤ n - m := by exact_mod_cast hstep
  rw [score_calculate, score_calculate, Component.weighted, Component.weighted, ← h.count c, hm, hn,
    round2_weightedScore, round2_weightedScore]
  linarith

/-- Nor do any number of recalculations. -/
theorem Behind.sub_iterate_le (h : Behind s s') (hrange : ComponentsInRange s) (hgrid : OnGrid s)
    (hgrid' : OnGrid s') (c : Component) (n : ℕ) :
    c.score (ScoreTable.calculate^[n] s') - c.score (ScoreTable.calculate^[n] s) ≤
      c.score s' - c.score s := by
  have hstored : ∀ s : Scores ℝ, OnGrid s → ∀ n, OnGrid (ScoreTable.calculate^[n] s) := by
    intro s hs n
    cases n with
    | zero => exact hs
    | succ n =>
        rw [Function.iterate_succ_apply']
        exact onGrid_calculate _
  induction n with
  | zero => exact le_refl _
  | succ n ih =>
      rw [Function.iterate_succ_apply', Function.iterate_succ_apply']
      exact ((h.iterate n).sub_calculate_le (componentsInRange_iterate hrange n)
        (hstored s hgrid n) (hstored s' hgrid' n) c).trans ih

/-- From the fifty-second recalculation on, the scores stay. -/
theorem iterate_settled (h : ComponentsInRange s) {m n : ℕ} (hm : 52 ≤ m) (hn : 52 ≤ n) :
    ScoreTable.calculate^[m] s = ScoreTable.calculate^[n] s := by
  have hfirst : ComponentsInRange (ScoreTable.calculate s) :=
    (inRange_calculate h).toComponentsInRange
  -- the first run takes the components to the grid, and fifty more settle them
  have hleft : ∀ k : ℕ, 50 ≤ k → ∀ c : Component,
      c.score (ScoreTable.calculate^[k + 1 + 1] s) = c.score (ScoreTable.calculate^[k + 1] s) := by
    intro k hk c
    rw [Function.iterate_succ_apply, Function.iterate_succ_apply ScoreTable.calculate k]
    exact score_settled hfirst (onGrid_calculate s) c hk
  obtain ⟨k, hk, hkm, hkn⟩ : ∃ k, 50 ≤ k ∧ k + 1 < m ∧ k + 1 < n := ⟨50, by omega⟩
  rw [iterate_of_left (hleft k hk) hkm, iterate_of_left (hleft k hk) hkn]

/-! ## Calls on a table -/

/-- The call stores a row under the key, unless the totals are refused. -/
def Call.writes (c : Call) (key : String) : Bool :=
  match c.executed, Sql.varchar 66 c.subject with
  | true, .ok hash => hash == key
  | _, _ => false

/-- The calls that write the row name its key as it is stored, and their read is answered. -/
def Plain (calls : List Call) (key : String) : Prop :=
  ∀ c ∈ calls, c.writes key = true → c.subject = key ∧ c.answered = true

/-- The number of recalculations of the row. -/
def recalculations (calls : List Call) (key : String) : ℕ := calls.countP fun c => c.writes key

/-- The row under the key can be read, and its columns take the scores. -/
structure Holds (t : Table ℝ) (key : String) (s : Scores ℝ) : Prop where
  row : t key = some ⟨s, true⟩
  fits : accepted key s = some key

variable {t : Table ℝ} {key : String}

/-- A call that does not write the row leaves it. -/
theorem Call.apply_of_not_writes {c : Call} (h : c.writes key = false) : c.apply t key = t key := by
  cases hexecuted : c.executed with
  | false => simp only [Call.apply, calculateScore, hexecuted]
  | true =>
      cases haccepted : accepted c.subject
          (ScoreTable.calculate (existing t c.subject c.answered)) with
      | none => simp only [Call.apply, calculateScore, hexecuted, haccepted]
      | some hash =>
          obtain ⟨hhash, -⟩ := accepted_eq_some.mp haccepted
          have hne : key ≠ hash := by
            rintro rfl
            simp [Call.writes, hexecuted, hhash] at h
          rw [apply_of_accepted hexecuted haccepted, Function.update_of_ne hne]

/-- **What one call does to a row**: it recalculates the one it is for, and leaves the others. -/
theorem Holds.apply (h : Holds t key s) {c : Call}
    (hplain : c.writes key = true → c.subject = key ∧ c.answered = true) :
    Holds (c.apply t) key (if c.writes key then ScoreTable.calculate s else s) := by
  cases hwrites : c.writes key with
  | false => exact ⟨(Call.apply_of_not_writes hwrites).trans h.row, h.fits⟩
  | true =>
      obtain ⟨hsubject, hanswered⟩ := hplain hwrites
      have hexecuted : c.executed = true := by
        unfold Call.writes at hwrites
        split at hwrites
        · assumption
        · cases hwrites
      have hread : existing t key true = s := by simp only [existing, h.row]
      -- the totals stay, so the columns take what is computed
      have hfits : accepted key (ScoreTable.calculate s) = some key :=
        accepted_eq_some.mpr (accepted_eq_some.mp h.fits)
      have haccepted : accepted c.subject
          (ScoreTable.calculate (existing t c.subject c.answered)) = some key := by
        rw [hsubject, hanswered, hread, hfits]
      refine ⟨?_, hfits⟩
      rw [if_pos rfl, apply_of_accepted hexecuted haccepted, Function.update_self, hsubject,
        hanswered, hread]

/-- **What calls leave in a row**: the scores, recalculated as often as calls wrote it. -/
theorem Holds.serial (h : Holds t key s) {calls : List Call} (hplain : Plain calls key) :
    Holds (Machine.serial Call.apply calls t) key
      (ScoreTable.calculate^[recalculations calls key] s) := by
  induction calls generalizing t s with
  | nil => exact h
  | cons c calls ih =>
      obtain ⟨hc, hcalls⟩ := List.forall_mem_cons.mp hplain
      have hnext := ih (h.apply hc) hcalls
      rw [serial_cons]
      rw [recalculations, List.countP_cons] at *
      cases hwrites : c.writes key with
      | false => simpa [hwrites] using hnext
      | true =>
          rw [hwrites, if_pos rfl] at hnext
          simpa [Function.iterate_succ_apply] using hnext

/-- The two rows have been recalculated equally often, or so often that both have settled. -/
def InStep (calls : List Call) (a b : String) : Prop :=
  recalculations calls a = recalculations calls b ∨
    52 ≤ recalculations calls a ∧ 52 ≤ recalculations calls b

/-- Both rows are then what equally many recalculations leave. -/
theorem InStep.common {calls : List Call} {a b : String} (h : InStep calls a b)
    (hrange : ComponentsInRange s') :
    ∃ n, (0 < recalculations calls a → 0 < n) ∧
      ScoreTable.calculate^[recalculations calls a] s = ScoreTable.calculate^[n] s ∧
      ScoreTable.calculate^[recalculations calls b] s' = ScoreTable.calculate^[n] s' := by
  rcases h with heq | ⟨ha, hb⟩
  · exact ⟨recalculations calls a, id, rfl, by rw [heq]⟩
  · exact ⟨recalculations calls a, id, rfl, iterate_settled hrange hb ha⟩

/-- After equally many recalculations, one at least, the overall scores are in order. -/
theorem Behind.overallScore_iterate (h : Behind s s') {n : ℕ} (hn : 0 < n) :
    (ScoreTable.calculate^[n] s).overallScore ≤ (ScoreTable.calculate^[n] s').overallScore := by
  obtain ⟨k, rfl⟩ : ∃ k, n = k + 1 := ⟨n - 1, by omega⟩
  rw [Function.iterate_succ_apply', Function.iterate_succ_apply']
  exact round2_mono (h.iterate k).overall_le

/-- **Recalculation keeps the ranking.** Let one row be behind another in every component, with the
same totals. After any calls, on these subjects and on others in any order, of which equally many or
at least fifty-two each recalculated the two rows: the first row is behind the second in every
component; it is no higher in the overall score either, if the rows were recalculated at all or it
was no higher before; and no component is farther apart than before, if the scores were stored by
such calls themselves. -/
theorem ranking_kept (t : Table ℝ) (a b : String) (s s' : Scores ℝ) (ha : Holds t a s)
    (hb : Holds t b s') (hrange : ComponentsInRange s) (hrange' : ComponentsInRange s')
    (hbehind : Behind s s') (calls : List Call) (hplain : Plain calls a) (hplain' : Plain calls b)
    (hstep : InStep calls a b) :
    ∃ r r' : Scores ℝ, Machine.serial Call.apply calls t a = some ⟨r, true⟩ ∧
      Machine.serial Call.apply calls t b = some ⟨r', true⟩ ∧ Behind r r' ∧
      (0 < recalculations calls a ∨ s.overallScore ≤ s'.overallScore →
        r.overallScore ≤ r'.overallScore) ∧
      (OnGrid s → OnGrid s' →
        ∀ c : Component, c.score r' - c.score r ≤ c.score s' - c.score s) := by
  obtain ⟨n, hpos, hn, hn'⟩ := hstep.common hrange'
  have hrow := (ha.serial hplain).row
  have hrow' := (hb.serial hplain').row
  rw [hn] at hrow
  rw [hn'] at hrow'
  -- both rows are now what `n` recalculations leave
  refine ⟨_, _, hrow, hrow', hbehind.iterate n, fun horder => ?_, fun hgrid hgrid' c => ?_⟩
  · rcases Nat.eq_zero_or_pos n with rfl | hn
    · exact horder.resolve_left fun hcalls => absurd (hpos hcalls) (Nat.lt_irrefl 0)
    · exact hbehind.overallScore_iterate hn
  · exact hbehind.sub_iterate_le hrange hgrid hgrid' c n

/-- A row with the lowest scores and one endorsement. -/
noncomputable def lowestScores : Scores ℝ := ⟨0, 0, 0, 0, 1, 0⟩

/-- The table with the highest and the lowest row of one endorsement. -/
noncomputable def twoRows : Table ℝ :=
  Function.update oneEndorsementTable "u" (some ⟨lowestScores, true⟩)

/-- Both rows are recalculated, in turn and with a call on another subject in between. -/
def bothRecalculated : List Call :=
  [⟨"s", true, true⟩, ⟨"v", true, true⟩, ⟨"u", true, true⟩, ⟨"u", true, false⟩]

theorem ranking_kept_bothRecalculated : ∃ r r' : Scores ℝ,
    Machine.serial Call.apply bothRecalculated twoRows "u" = some ⟨r, true⟩ ∧
    Machine.serial Call.apply bothRecalculated twoRows "s" = some ⟨r', true⟩ ∧
    r.overallScore ≤ r'.overallScore := by
  have hlowest : Holds twoRows "u" lowestScores :=
    ⟨Function.update_self _ _ _, accepted_eq_some.mpr ⟨rfl, ⟨1, rfl⟩, ⟨0, rfl⟩⟩⟩
  have hhighest : Holds twoRows "s" oneEndorsement :=
    ⟨(Function.update_of_ne (by decide) _ _).trans oneEndorsementTable_apply,
      accepted_eq_some.mpr ⟨rfl, ⟨1, rfl⟩, ⟨0, rfl⟩⟩⟩
  have hrange : ComponentsInRange lowestScores :=
    { score := fun c => by cases c <;> simp [Component.score, lowestScores]
      count := fun c => by cases c <;> simp [Component.count, lowestScores] }
  have hbehind : Behind lowestScores oneEndorsement :=
    { score := fun c => by cases c <;> simp [Component.score, lowestScores, oneEndorsement]
      count := fun c => by cases c <;> rfl
      nonneg := hrange.count }
  have hplain : ∀ key, Plain bothRecalculated key := by
    intro key c hc hwrites
    simp only [bothRecalculated, List.mem_cons, List.not_mem_nil, or_false] at hc
    rcases hc with rfl | rfl | rfl | rfl
    · exact ⟨eq_of_beq hwrites, rfl⟩
    · exact ⟨eq_of_beq hwrites, rfl⟩
    · exact ⟨eq_of_beq hwrites, rfl⟩
    · cases hwrites
  obtain ⟨r, r', hr, hr', -, horder, -⟩ := ranking_kept twoRows "u" "s" lowestScores oneEndorsement
    hlowest hhighest hrange componentsInRange_oneEndorsement hbehind bothRecalculated (hplain "u")
    (hplain "s") (Or.inl rfl)
  exact ⟨r, r', hr, hr', horder (Or.inl (by decide))⟩

end ReputationPassport.ScoreTable
