import Mathlib.Data.Finmap
import ReputationPassport.Machine.Fallible
import ReputationPassport.Sql.Values

/-! # The reputation table and its repository

The migration `000003_create_reputation_scores.up.sql` and `repository/reputation_repo.go`. Every
column of the table is `NOT NULL` but `pqc_hash_proof`, which `GetByHash` scans into a Go `string`.
`Upsert` writes every column, so what it stores does not depend on the row it replaces. -/

namespace ReputationPassport.ReputationRepository

open Machine

/-- `model.ReputationScore`. -/
structure ReputationScore where
  subjectHash : String
  overallScore : Float
  reliabilityScore : Float
  professionalismScore : Float
  communityTrustScore : Float
  totalEndorsements : Int
  totalReviews : Int
  lastUpdated : Int
  pqcHashProof : String

/-- A row of the table `reputation_scores`, less its primary key. -/
structure Row where
  overallScore : Float
  reliabilityScore : Float
  professionalismScore : Float
  communityTrustScore : Float
  totalEndorsements : Int
  totalReviews : Int
  lastUpdated : Int
  pqcHashProof : Option String

/-- The table. -/
abbrev Table : Type := Finmap fun _ : String => Row

/-- `GetByHash`. -/
def getByHash (table : Table) (hash : String) : Except Sql.Error ReputationScore :=
  match table.lookup hash with
  | none => .error .noRows
  | some row => do
      let pqcHashProof ← Sql.scanString 8 "pqc_hash_proof" row.pqcHashProof
      .ok { subjectHash := hash
            overallScore := row.overallScore
            reliabilityScore := row.reliabilityScore
            professionalismScore := row.professionalismScore
            communityTrustScore := row.communityTrustScore
            totalEndorsements := row.totalEndorsements
            totalReviews := row.totalReviews
            lastUpdated := row.lastUpdated
            pqcHashProof }

/-- The key and the columns `Upsert` writes, checked against their types. -/
def columns (rs : ReputationScore) : Except Sql.Error (String × Row) := do
  let hash ← Sql.varchar 66 rs.subjectHash
  let totalEndorsements ← Sql.integer rs.totalEndorsements
  let totalReviews ← Sql.integer rs.totalReviews
  let pqcHashProof ← Sql.text rs.pqcHashProof
  .ok (hash,
    { totalEndorsements, totalReviews
      overallScore := rs.overallScore
      reliabilityScore := rs.reliabilityScore
      professionalismScore := rs.professionalismScore
      communityTrustScore := rs.communityTrustScore
      lastUpdated := rs.lastUpdated
      pqcHashProof := some pqcHashProof })

/-- `Upsert`: insert the row, or replace the one of the same key in every column. -/
def upsert (table : Table) (rs : ReputationScore) : Except Sql.Error Table := do
  let (hash, row) ← columns rs
  .ok (table.insert hash row)

variable {table table' : Table} {rs : ReputationScore} {hash : String} {row : Row}

/-- An `Upsert` that succeeds puts its columns under its key. -/
theorem upsert_eq_ok : upsert table rs = .ok table' ↔
    ∃ hash row, columns rs = .ok (hash, row) ∧ table' = table.insert hash row := by
  simp only [upsert, bind_eq_ok, Prod.exists, Except.ok.injEq, eq_comm (a := table')]

/-- The key is the subject, as its column stores it. -/
theorem varchar_of_columns (h : columns rs = .ok (hash, row)) :
    Sql.varchar 66 rs.subjectHash = .ok hash := by
  simp only [columns, bind_eq_ok, Except.ok.injEq, Prod.mk.injEq] at h
  obtain ⟨hash', hvarchar, _, -, _, -, _, -, rfl, -⟩ := h
  exact hvarchar

/-- The row holds what the struct has in each column. -/
theorem row_of_columns (h : columns rs = .ok (hash, row)) :
    row = ⟨rs.overallScore, rs.reliabilityScore, rs.professionalismScore, rs.communityTrustScore,
      rs.totalEndorsements, rs.totalReviews, rs.lastUpdated, some rs.pqcHashProof⟩ := by
  simp only [columns, bind_eq_ok, Except.ok.injEq, Prod.mk.injEq] at h
  obtain ⟨_, -, totalEndorsements, hendorsements, totalReviews, hreviews, proof, hproof, -, rfl⟩ :=
    h
  obtain rfl := Sql.integer_eq_ok hendorsements
  obtain rfl := Sql.integer_eq_ok hreviews
  obtain rfl := Sql.text_eq_ok hproof
  rfl

/-- Every key of the table fits its column. -/
def Conforms (table : Table) : Prop :=
  ∀ hash ∈ table, Sql.varchar 66 hash = .ok hash

theorem conforms_empty : Conforms ∅ := fun _ h => absurd h Finmap.notMem_empty

/-- Every `Upsert` leaves a table whose keys fit. -/
theorem Conforms.upsert (h : Conforms table)
    (hok : ReputationRepository.upsert table rs = .ok table') : Conforms table' := by
  obtain ⟨hash, row, hcolumns, rfl⟩ := upsert_eq_ok.mp hok
  intro hash' hmem
  rcases Finmap.mem_insert.mp hmem with rfl | hold
  · exact Sql.varchar_stored (varchar_of_columns hcolumns)
  · exact h hash' hold

end ReputationPassport.ReputationRepository
