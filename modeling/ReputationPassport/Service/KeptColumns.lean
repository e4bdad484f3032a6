import ReputationPassport.Service.FailedRead

/-! # What a recalculation keeps

`CalculateScore` rebuilds the row from a struct it fills in part, and `Upsert` lists every column.
The totals travel from the read to the write, and the key is the subject; the struct has no value
for `PQCHashProof`, so the write puts the empty text over the proof that was stored. The scores and
the time aside, that is all that changes (`calculateScore_stored`). -/

namespace ReputationPassport.ReputationService

open Machine ReputationRepository

variable {table : Table} {subject : String} {row : Row} {now : Int} {reading writing : Delivery}
  {existing score : ReputationScore}

/-- The row a recalculation leaves: new scores and a new time, the totals of the old row, and no
proof. -/
def recalculatedRow (row : Row) (existing : ReputationScore) (subject : String) (now : Int) : Row :=
  { row with
    overallScore := (calculate existing subject now).overallScore
    reliabilityScore := (calculate existing subject now).reliabilityScore
    professionalismScore := (calculate existing subject now).professionalismScore
    communityTrustScore := (calculate existing subject now).communityTrustScore
    lastUpdated := now
    pqcHashProof := some "" }

/-- A read that succeeds has found the row, and has its totals. -/
theorem fetch_eq_ok (hread : fetch table subject reading = .ok existing) :
    ∃ row, table.lookup subject = some row ∧ existing.totalEndorsements = row.totalEndorsements ∧
      existing.totalReviews = row.totalReviews := by
  cases reading with
  | undelivered fault => cases hread
  | unanswered fault => cases hread
  | answered =>
      rw [fetch, getByHash] at hread
      cases hrow : table.lookup subject with
      | none =>
          rw [hrow] at hread
          cases hread
      | some row =>
          rw [hrow] at hread
          cases hproof : row.pqcHashProof with
          | none =>
              simp only [hproof, Sql.scanString, bind, Except.bind, Except.mapError] at hread
              cases hread
          | some proof =>
              simp only [hproof, Sql.scanString, bind, Except.bind, Except.mapError] at hread
              obtain rfl := Except.ok.inj hread
              exact ⟨row, rfl, rfl, rfl⟩

/-- **What a recalculation stores**: if its read and its write succeed, it replaces the row of the
subject and leaves the rest of the table. -/
theorem calculateScore_stored (hconforms : Conforms table)
    (hrow : table.lookup subject = some row) (hread : fetch table subject reading = .ok existing)
    (hwrite : (calculateScore table subject now reading writing).2 = .ok score) :
    (calculateScore table subject now reading writing).1 =
      table.insert subject (recalculatedRow row existing subject now) := by
  have hkey := hconforms subject (Finmap.mem_of_lookup_eq_some hrow)
  obtain ⟨row', hrow', hendorsements, hreviews⟩ := fetch_eq_ok hread
  obtain rfl := Option.some.inj (hrow'.symm.trans hrow)
  simp only [calculateScore, hread, orAbsent] at hwrite ⊢
  -- only a write that is answered reports success
  cases hafter : reading.after writing with
  | undelivered fault =>
      rw [hafter] at hwrite
      cases hwrite
  | unanswered fault =>
      rw [hafter] at hwrite
      cases hwrite
  | answered =>
      rw [hafter] at hwrite
      cases hupsert : upsert table (calculate existing subject now) with
      | error e =>
          simp only [save, hupsert, answer] at hwrite
          cases hwrite
      | ok table' =>
          obtain ⟨hash, written, hcolumns, rfl⟩ := upsert_eq_ok.mp hupsert
          -- the subject is stored as it is, for it was the key of a row already
          obtain rfl := Except.ok.inj ((varchar_of_columns hcolumns).symm.trans hkey)
          simp only [save, hupsert]
          rw [row_of_columns hcolumns, recalculatedRow, ← hendorsements, ← hreviews]
          rfl

/-- **What a recalculation does not compute**: the totals and the proof of the row, and the rows of
all other subjects. -/
structure KeepsUncomputed (table table' : Table) (subject : String) (row : Row) : Prop where
  row : ∃ row', table'.lookup subject = some row' ∧
    row'.totalEndorsements = row.totalEndorsements ∧ row'.totalReviews = row.totalReviews ∧
    row'.pqcHashProof = row.pqcHashProof
  others : ∀ other ≠ subject, table'.lookup other = table.lookup other

/-- **When a recalculation keeps what it does not compute**: exactly when the stored proof is the
empty text already. The totals and the other rows are kept in any case. -/
theorem keepsUncomputed_iff (table : Table) (hconforms : Conforms table) (subject : String)
    (row : Row) (hrow : table.lookup subject = some row) (now : Int) (reading writing : Delivery)
    (existing score : ReputationScore) (hread : fetch table subject reading = .ok existing)
    (hwrite : (calculateScore table subject now reading writing).2 = .ok score) :
    KeepsUncomputed table (calculateScore table subject now reading writing).1 subject row ↔
      row.pqcHashProof = some "" := by
  rw [calculateScore_stored hconforms hrow hread hwrite]
  constructor
  · rintro ⟨⟨row', hrow', -, -, hproof⟩, -⟩
    rw [Finmap.lookup_insert, Option.some.injEq] at hrow'
    rw [← hproof, ← hrow']
    rfl
  · intro hproof
    refine ⟨⟨_, Finmap.lookup_insert _, rfl, rfl, hproof.symm⟩, fun other hother => ?_⟩
    exact Finmap.lookup_insert_of_ne _ hother

/-- The equivalence for a row with a proof, when both statements are answered. -/
theorem keepsUncomputed_iff_oneRow : ∃ existing score,
    fetch oneRow "s" .answered = .ok existing ∧
    (calculateScore oneRow "s" 2 .answered .answered).2 = .ok score ∧
    (KeepsUncomputed oneRow (calculateScore oneRow "s" 2 .answered .answered).1 "s"
        fiveEndorsementsRow ↔
      fiveEndorsementsRow.pqcHashProof = some "") :=
  ⟨_, _, rfl, rfl, keepsUncomputed_iff oneRow conforms_oneRow "s" fiveEndorsementsRow rfl 2
    .answered .answered _ _ rfl rfl⟩

/-- **A recalculation loses the proof**: the row had one, and has the empty text afterwards. -/
theorem recalculation_drops_proof :
    ∃ existing score, fetch oneRow "s" .answered = .ok existing ∧
      (calculateScore oneRow "s" 2 .answered .answered).2 = .ok score ∧
      (oneRow.lookup "s").map Row.pqcHashProof = some (some "proof") ∧
      ((calculateScore oneRow "s" 2 .answered .answered).1.lookup "s").map Row.pqcHashProof =
        some (some "") ∧
      ¬ KeepsUncomputed oneRow (calculateScore oneRow "s" 2 .answered .answered).1 "s"
        fiveEndorsementsRow := by
  refine ⟨_, _, rfl, rfl, rfl, rfl, fun h => ?_⟩
  obtain ⟨row', hrow', -, -, hproof⟩ := h.row
  have hstored := congrArg (Option.map Row.pqcHashProof) hrow'
  rw [Option.map_some, hproof] at hstored
  exact absurd hstored (by decide)

end ReputationPassport.ReputationService
