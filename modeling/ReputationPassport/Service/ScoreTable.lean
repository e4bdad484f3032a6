import ReputationPassport.Numeric.Arithmetic
import ReputationPassport.Service.FailedRead

/-! # The score table over machine numbers and over exact numbers

What `CalculateScore` does to the scores and the totals of the table, over any type of numbers. Over
`Float` this is what the service does to the reputation table (`view_calculateScore`); over `ℝ` it
is the same computation in exact arithmetic.

A row of the score table has the columns that `CalculateScore` computes with, and whether it can be
read at all: the scan of `pqc_hash_proof` fails for a `NULL`. -/

namespace ReputationPassport.ScoreTable

open Numeric ReputationService

variable {K : Type}

/-- The scores and the totals of a row. -/
structure Scores (K : Type) where
  overallScore : K
  reliabilityScore : K
  professionalismScore : K
  communityTrustScore : K
  totalEndorsements : Int
  totalReviews : Int

/-- The three scores the overall score is made of. -/
inductive Component where
  | reliability
  | professionalism
  | communityTrust

/-- The stored score of the component. -/
def Component.score (s : Scores K) : Component → K
  | .reliability => s.reliabilityScore
  | .professionalism => s.professionalismScore
  | .communityTrust => s.communityTrustScore

/-- The count that says how much the score is worth. -/
def Component.count (s : Scores K) : Component → Int
  | .reliability => s.totalEndorsements
  | .professionalism => s.totalReviews
  | .communityTrust => s.totalEndorsements

/-- A row: its scores, and whether `GetByHash` can scan it. -/
structure Row (K : Type) where
  scores : Scores K
  readable : Bool

/-- The table. -/
abbrev Table (K : Type) : Type := String → Option (Row K)

section Computation

variable [Arithmetic K]

/-- `weightedScore`. -/
def weightedScore (baseScore : K) (count : Int) (decayFactor : K) : K :=
  if count = 0 then 0.5
  else
    let confidence := Arithmetic.ofNat 1 - Arithmetic.exp (-decayFactor * Arithmetic.ofInt count)
    baseScore * confidence + 0.5 * (Arithmetic.ofNat 1 - confidence)

/-- `math.Round(x*100) / 100`. -/
def round2 (x : K) : K := Arithmetic.round (x * Arithmetic.ofNat 100) / Arithmetic.ofNat 100

/-- The decay factor of the component. -/
def Component.decayFactor : Component → K
  | .reliability => 0.3
  | .professionalism => 0.2
  | .communityTrust => 0.1

/-- The component `CalculateScore` computes, before it is rounded. -/
def Component.weighted (existing : Scores K) (c : Component) : K :=
  weightedScore (c.score existing) (c.count existing) c.decayFactor

/-- The overall score, before it is rounded. -/
def overall (existing : Scores K) : K :=
  Component.reliability.weighted existing * 0.4 +
    Component.professionalism.weighted existing * 0.35 +
    Component.communityTrust.weighted existing * 0.25

/-- The scores `CalculateScore` computes from the existing ones. -/
def calculate (existing : Scores K) : Scores K where
  overallScore := round2 (overall existing)
  reliabilityScore := round2 (Component.reliability.weighted existing)
  professionalismScore := round2 (Component.professionalism.weighted existing)
  communityTrustScore := round2 (Component.communityTrust.weighted existing)
  totalEndorsements := existing.totalEndorsements
  totalReviews := existing.totalReviews

/-- The empty score. -/
def blank : Scores K :=
  ⟨Arithmetic.ofNat 0, Arithmetic.ofNat 0, Arithmetic.ofNat 0, Arithmetic.ofNat 0, 0, 0⟩

/-- What `CalculateScore` starts from: the row, if it is there and can be read, and the read is
answered. -/
def existing (t : Table K) (subject : String) (answered : Bool) : Scores K :=
  -- a failed read is discarded: the scores stay the blank ones
  match answered, t subject with
  | true, some ⟨scores, true⟩ => scores
  | _, _ => blank

/-- The key the scores are stored under, if the columns accept them. -/
def accepted (subject : String) (s : Scores K) : Option String :=
  match Sql.varchar 66 subject, Sql.integer s.totalEndorsements, Sql.integer s.totalReviews with
  | .ok hash, .ok _, .ok _ => some hash
  | _, _, _ => none

/-- The table after `CalculateScore`, with its read answered or not and its write executed or
not. -/
def calculateScore (t : Table K) (subject : String) (answered executed : Bool) : Table K :=
  let score := calculate (existing t subject answered)
  match executed, accepted subject score with
  | true, some hash => Function.update t hash (some ⟨score, true⟩)
  | _, _ => t

@[simp] theorem score_calculate (s : Scores K) (c : Component) :
    c.score (calculate s) = round2 (c.weighted s) := by
  cases c <;> rfl

@[simp] theorem count_calculate (s : Scores K) (c : Component) :
    c.count (calculate s) = c.count s := by
  cases c <;> rfl

/-- A call leaves the table, or puts what it computed under some key. -/
theorem calculateScore_cases (t : Table K) (subject : String) (answered executed : Bool) :
    calculateScore t subject answered executed = t ∨
      ∃ hash, calculateScore t subject answered executed =
        Function.update t hash (some ⟨calculate (existing t subject answered), true⟩) := by
  simp only [calculateScore]
  split
  · next hash _ => exact Or.inr ⟨hash, rfl⟩
  · exact Or.inl rfl

end Computation

/-! ## The reputation table as a score table -/

/-- The scores and the totals of `model.ReputationScore`. -/
def ofScore (rs : ReputationRepository.ReputationScore) : Scores Float :=
  ⟨rs.overallScore, rs.reliabilityScore, rs.professionalismScore, rs.communityTrustScore,
    rs.totalEndorsements, rs.totalReviews⟩

/-- The columns of a row that `CalculateScore` computes with. -/
def ofRow (row : ReputationRepository.Row) : Row Float :=
  ⟨⟨row.overallScore, row.reliabilityScore, row.professionalismScore, row.communityTrustScore,
    row.totalEndorsements, row.totalReviews⟩, row.pqcHashProof.isSome⟩

/-- The reputation table as a score table. -/
def view (table : ReputationRepository.Table) : Table Float := fun hash =>
  (table.lookup hash).map ofRow

/-- The service computes the scores of the score table over `Float`. -/
theorem ofScore_calculate (rs : ReputationRepository.ReputationScore) (subject : String)
    (now : Int) : ofScore (ReputationService.calculate rs subject now) = calculate (ofScore rs) :=
  rfl

/-- The statement is answered. -/
def answered : Delivery → Bool
  | .answered => true
  | _ => false

/-- The statement reaches the database. -/
def executed : Delivery → Bool
  | .undelivered _ => false
  | _ => true

/-- What the service starts from is what the score table starts from. -/
theorem ofScore_fetch (table : ReputationRepository.Table) (subject : String)
    (reading : Delivery) :
    ofScore (orAbsent subject (fetch table subject reading)) =
      existing (view table) subject (answered reading) := by
  cases reading with
  | undelivered fault => rfl
  | unanswered fault => rfl
  | answered =>
      simp only [fetch, ReputationRepository.getByHash, existing, view, answered]
      cases table.lookup subject with
      | none => rfl
      | some row =>
          obtain ⟨_, _, _, _, _, _, _, proof⟩ := row
          cases proof <;> rfl

/-- The columns accept a score without a proof exactly when the score table does, and store it. -/
theorem accepted_of_columns {rs : ReputationRepository.ReputationScore}
    (hproof : rs.pqcHashProof = "") :
    (∃ hash row, ReputationRepository.columns rs = .ok (hash, row) ∧
      accepted rs.subjectHash (ofScore rs) = some hash ∧ ofRow row = ⟨ofScore rs, true⟩) ∨
    ∃ e, ReputationRepository.columns rs = .error e ∧
      accepted rs.subjectHash (ofScore rs) = none := by
  have htext : Sql.text "" = .ok "" := rfl
  have hcounts : (ofScore rs).totalEndorsements = rs.totalEndorsements ∧
      (ofScore rs).totalReviews = rs.totalReviews := ⟨rfl, rfl⟩
  simp only [ReputationRepository.columns, accepted, hproof, htext, hcounts, bind, Except.bind]
  cases Sql.varchar 66 rs.subjectHash with
  | error e => exact Or.inr ⟨e, rfl, rfl⟩
  | ok hash =>
      cases hendorsements : Sql.integer rs.totalEndorsements with
      | error e => exact Or.inr ⟨e, rfl, rfl⟩
      | ok endorsements =>
          cases hreviews : Sql.integer rs.totalReviews with
          | error e => exact Or.inr ⟨e, rfl, rfl⟩
          | ok reviews =>
              obtain rfl := Sql.integer_eq_ok hendorsements
              obtain rfl := Sql.integer_eq_ok hreviews
              exact Or.inl ⟨hash, _, rfl, rfl, rfl⟩

/-- A row that is written shows in the score table. -/
theorem view_insert (table : ReputationRepository.Table) (hash : String)
    (row : ReputationRepository.Row) :
    view (table.insert hash row) = Function.update (view table) hash (some (ofRow row)) := by
  funext other
  by_cases hother : other = hash
  · rw [hother, Function.update_self, view, Finmap.lookup_insert, Option.map_some]
  · rw [Function.update_of_ne hother, view, view, Finmap.lookup_insert_of_ne _ hother]

/-- What `Upsert` does to the score table. -/
theorem view_save (table : ReputationRepository.Table) {rs : ReputationRepository.ReputationScore}
    (hproof : rs.pqcHashProof = "") (writing : Delivery) :
    view (save table rs writing).1 =
      match executed writing, accepted rs.subjectHash (ofScore rs) with
      | true, some hash => Function.update (view table) hash (some ⟨ofScore rs, true⟩)
      | _, _ => view table := by
  rcases accepted_of_columns hproof with ⟨hash, row, hcolumns, haccepted, hrow⟩ |
    ⟨e, hcolumns, haccepted⟩
  · have hupsert : ReputationRepository.upsert table rs = .ok (table.insert hash row) :=
      ReputationRepository.upsert_eq_ok.mpr ⟨hash, row, hcolumns, rfl⟩
    rw [haccepted, ← hrow]
    cases writing with
    | answered => simp only [save, hupsert, executed, view_insert]
    | undelivered fault => rfl
    | unanswered fault => simp only [save, hupsert, stored, executed, view_insert]
  · have hupsert : ReputationRepository.upsert table rs = .error e := by
      simp only [ReputationRepository.upsert, hcolumns, bind, Except.bind]
    rw [haccepted]
    cases writing with
    | answered => simp only [save, hupsert, executed]
    | undelivered fault => rfl
    | unanswered fault => simp only [save, hupsert, stored, executed]

/-- **The service computes the score table over `Float`**, whatever becomes of its two
statements. -/
theorem view_calculateScore (table : ReputationRepository.Table) (subject : String) (now : Int)
    (reading writing : Delivery) :
    view (ReputationService.calculateScore table subject now reading writing).1 =
      calculateScore (view table) subject (answered reading)
        (executed (reading.after writing)) := by
  simp only [ReputationService.calculateScore, calculateScore]
  rw [view_save table rfl, ofScore_calculate, ofScore_fetch]
  rfl

end ReputationPassport.ScoreTable
