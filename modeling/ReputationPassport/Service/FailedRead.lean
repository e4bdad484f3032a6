import ReputationPassport.Service.Reputation

/-! # Computing a score when the row cannot be read

`CalculateScore` takes every error of `GetByHash` for an absent row: it goes on with an empty score
and writes that. A statement can fail because the database refuses it or the scan of the row does,
and also on its way: a `Delivery` says whether the database executes it and whether its answer comes
back. `keepsRow_iff` says for which deliveries a stored row survives a read that failed. -/

namespace ReputationPassport.ReputationService

open Machine ReputationRepository

/-- Why a statement failed on its way: the connection was lost, or the context of the request is
done, cancelled or past its deadline. -/
inductive Fault where
  | connection (reason : String)
  | context (reason : String)

/-- The error a statement returns. -/
inductive Failure where
  | sql (error : Sql.Error)
  | fault (fault : Fault)

/-- What becomes of a statement: it is executed and answered, it does not reach the database, or it
is executed and the answer is lost. -/
inductive Delivery where
  | answered
  | undelivered (fault : Fault)
  | unanswered (fault : Fault)

/-- The reason for which the context was done when the statement failed, if it was. -/
def Delivery.contextDone : Delivery → Option String
  | .undelivered (.context reason) => some reason
  | .unanswered (.context reason) => some reason
  | _ => none

/-- What becomes of a statement after another one with the same context: `database/sql` sends none
under a context that is done. -/
def Delivery.after (first second : Delivery) : Delivery :=
  match first.contextDone with
  | some reason => .undelivered (.context reason)
  | none => second

/-- `GetByHash`, delivered. -/
def fetch (table : Table) (hash : String) : Delivery → Except Failure ReputationScore
  | .answered => (getByHash table hash).mapError .sql
  | .undelivered fault => .error (.fault fault)
  | .unanswered fault => .error (.fault fault)

/-- `Upsert`, delivered: the table afterwards and what the caller is told. -/
def save (table : Table) (rs : ReputationScore) : Delivery → Table × Except Failure Unit
  | .answered =>
      match upsert table rs with
      | .ok table' => (table', .ok ())
      | .error e => (table, .error (.sql e))
  | .undelivered fault => (table, .error (.fault fault))
  | .unanswered fault => (stored table (upsert table rs), .error (.fault fault))

/-- What `fmt.Errorf` makes of the error of the write. -/
structure SaveError where
  message : String
  cause : Failure

/-- What `CalculateScore` goes on with: whatever went wrong, the row counts as absent. -/
def orAbsent (subjectHash : String) : Except Failure ReputationScore → ReputationScore
  | .ok rs => rs
  | .error _ => ⟨subjectHash, 0, 0, 0, 0, 0, 0, 0, ""⟩

/-- What `CalculateScore` returns once it has been told of its write. -/
def answer (score : ReputationScore) : Except Failure Unit → Except SaveError ReputationScore
  | .ok () => .ok score
  | .error cause => .error ⟨"failed to save reputation score", cause⟩

/-- `CalculateScore` with its read and its write delivered. -/
def calculateScore (table : Table) (subjectHash : String) (now : Int) (reading writing : Delivery) :
    Table × Except SaveError ReputationScore :=
  let existing := orAbsent subjectHash (fetch table subjectHash reading)
  let score := calculate existing subjectHash now
  let (table', told) := save table score (reading.after writing)
  (table', answer score told)

variable {table : Table} {subject : String} {now : Int} {reading writing : Delivery}

/-- When both statements are answered, the table is that of the call executed alone. -/
theorem calculateScore_answered (table : Table) (subject : String) (now : Int) :
    (calculateScore table subject now .answered .answered).1 =
      execute subject (.calculateScore now) table := by
  have hexisting : orAbsent subject (fetch table subject .answered) = existing table subject := by
    rw [fetch, existing]
    cases getByHash table subject <;> rfl
  simp only [calculateScore, hexisting, Delivery.after, Delivery.contextDone, save, execute]
  cases upsert table (calculate (existing table subject) subject now) <;> rfl

/-! ## What a failed read leads to -/

/-- The row that is written when the row could not be read. -/
def unreadRow (now : Int) : Row where
  overallScore := round2 (0.5 * 0.4 + 0.5 * 0.35 + 0.5 * 0.25)
  reliabilityScore := round2 0.5
  professionalismScore := round2 0.5
  communityTrustScore := round2 0.5
  totalEndorsements := 0
  totalReviews := 0
  lastUpdated := now
  pqcHashProof := some ""

/-- The score that is computed when the row could not be read. -/
def unreadScore (subject : String) (now : Int) : ReputationScore :=
  calculate ⟨subject, 0, 0, 0, 0, 0, 0, 0, ""⟩ subject now

/-- This score is accepted by the table, under a key that fits. -/
theorem columns_unread (hkey : Sql.varchar 66 subject = .ok subject) :
    columns (unreadScore subject now) = .ok (subject, unreadRow now) := by
  have hzero : Sql.integer 0 = .ok 0 := rfl
  have htext : Sql.text "" = .ok "" := rfl
  simp only [columns, unreadScore, calculate, weightedScore, if_true, hkey, hzero, htext, bind,
    Except.bind, unreadRow]

/-- **The outcome of a call whose read fails** is that of saving the score computed from nothing. -/
theorem calculateScore_of_failed_read {e : Failure} {table' : Table} {told : Except Failure Unit}
    (hfail : fetch table subject reading = .error e)
    (hsave : save table (unreadScore subject now) (reading.after writing) = (table', told)) :
    calculateScore table subject now reading writing =
      (table', answer (unreadScore subject now) told) := by
  simp only [calculateScore, hfail, orAbsent]
  rw [← unreadScore, hsave]

/-- **The keys fit after every run** of computations and direct writes, however they interleave. -/
theorem conforms_run {table₀ : Table} (h : Conforms table₀) {as : List Action} {t : Store}
    (hrun : run (step subject) (Store.start table₀) as = some t) : Conforms t.table := by
  refine run_invariant (I := fun t : Store => Conforms t.table) (fun t a t' ht hstep => ?_) h hrun
  rcases step_cases hstep with ⟨-, rfl⟩ | ⟨i, now, r, table, -, -, hok, rfl⟩ |
    ⟨rs, table, -, -, hok, rfl⟩ | ⟨reads, -, rfl⟩
  · exact ht
  · exact ht.upsert hok
  · exact ht.upsert hok
  · exact ht

/-- **The call keeps the row**: it returns an error and the row of the subject is what it was. -/
def KeepsRow (table : Table) (subject : String) (now : Int) (reading writing : Delivery) : Prop :=
  (∃ e, (calculateScore table subject now reading writing).2 = .error e) ∧
    (calculateScore table subject now reading writing).1.lookup subject = table.lookup subject

/-- The write does not reach the database: the context was done when the read failed, or the write
is not delivered. -/
def Withheld (reading writing : Delivery) : Prop :=
  (∃ reason, reading.contextDone = some reason) ∨ ∃ fault, writing = .undelivered fault

/-- **When a failed read leaves the row intact**: the write does not reach the database, or its
answer is lost and the row is already the one it writes. -/
theorem keepsRow_iff (table : Table) (hconforms : Conforms table) (subject : String) (row : Row)
    (hrow : table.lookup subject = some row) (now : Int) (reading writing : Delivery) (e : Failure)
    (hfail : fetch table subject reading = .error e) :
    KeepsRow table subject now reading writing ↔
      Withheld reading writing ∨ (∃ fault, writing = .unanswered fault) ∧ row = unreadRow now := by
  have hkey := hconforms subject (Finmap.mem_of_lookup_eq_some hrow)
  have hwrite : upsert table (unreadScore subject now) =
      .ok (table.insert subject (unreadRow now)) :=
    upsert_eq_ok.mpr ⟨subject, unreadRow now, columns_unread hkey, rfl⟩
  cases hdone : reading.contextDone with
  | some reason =>
      have hsave : save table (unreadScore subject now) (reading.after writing) =
          (table, .error (.fault (.context reason))) := by
        rw [Delivery.after, hdone, save]
      refine iff_of_true ?_ (Or.inl (Or.inl ⟨reason, hdone⟩))
      rw [KeepsRow, calculateScore_of_failed_read hfail hsave]
      exact ⟨⟨_, rfl⟩, rfl⟩
  | none =>
      have hafter : reading.after writing = writing := by rw [Delivery.after, hdone]
      -- the read says nothing about the write, so the write decides alone
      have hwithheld : Withheld reading writing ↔ ∃ fault, writing = .undelivered fault := by
        simp [Withheld, hdone]
      rw [hwithheld]
      cases writing with
      | answered =>
          have hsave : save table (unreadScore subject now) (reading.after .answered) =
              (table.insert subject (unreadRow now), .ok ()) := by
            rw [hafter, save, hwrite]
          refine iff_of_false ?_ ?_
          · rw [KeepsRow, calculateScore_of_failed_read hfail hsave]
            rintro ⟨⟨e, he⟩, -⟩
            cases he
          · rintro (⟨fault, h⟩ | ⟨⟨fault, h⟩, -⟩)
            · cases h
            · cases h
      | undelivered fault =>
          have hsave : save table (unreadScore subject now) (reading.after (.undelivered fault)) =
              (table, .error (.fault fault)) := by
            rw [hafter, save]
          refine iff_of_true ?_ (Or.inl ⟨fault, rfl⟩)
          rw [KeepsRow, calculateScore_of_failed_read hfail hsave]
          exact ⟨⟨_, rfl⟩, rfl⟩
      | unanswered fault =>
          -- the write took effect, and nobody knows
          have hsave : save table (unreadScore subject now) (reading.after (.unanswered fault)) =
              (table.insert subject (unreadRow now), .error (.fault fault)) := by
            rw [hafter, save, hwrite, stored]
          rw [KeepsRow, calculateScore_of_failed_read hfail hsave, Finmap.lookup_insert, hrow]
          constructor
          · rintro ⟨-, hsame⟩
            exact Or.inr ⟨⟨fault, rfl⟩, (Option.some.inj hsame).symm⟩
          · rintro (⟨fault', h⟩ | ⟨-, rfl⟩)
            · cases h
            · exact ⟨⟨_, rfl⟩, rfl⟩

/-- A row with five endorsements. -/
def fiveEndorsementsRow : Row := ⟨0.9, 0.9, 0.9, 0.9, 5, 3, 1, some "proof"⟩

/-- The table with this row alone. -/
def oneRow : Table := Finmap.singleton "s" fiveEndorsementsRow

theorem conforms_oneRow : Conforms oneRow := by
  intro hash hmem
  obtain rfl := (Finmap.mem_singleton hash "s" fiveEndorsementsRow).mp hmem
  rfl

/-- The connection is lost. -/
def lostConnection : Delivery := .undelivered (.connection "driver: bad connection")

/-- The equivalence when the connection is lost for the read and for the write. -/
theorem keepsRow_iff_lostConnection :
    KeepsRow oneRow "s" 2 lostConnection lostConnection ↔
      Withheld lostConnection lostConnection ∨
        (∃ fault, lostConnection = .unanswered fault) ∧ fiveEndorsementsRow = unreadRow 2 :=
  keepsRow_iff oneRow conforms_oneRow "s" fiveEndorsementsRow rfl 2 lostConnection lostConnection
    (.fault (.connection "driver: bad connection")) rfl

/-- **A failed read that loses the row**: the connection is lost for the read and is back for the
write, so the call returns no error and no endorsement is left. -/
theorem lost_connection_resets_row :
    oneRow.lookup "s" = some fiveEndorsementsRow ∧
    fetch oneRow "s" lostConnection = .error (.fault (.connection "driver: bad connection")) ∧
    (∃ score, (calculateScore oneRow "s" 2 lostConnection .answered).2 = .ok score) ∧
    ((calculateScore oneRow "s" 2 lostConnection .answered).1.lookup "s").map
      Row.totalEndorsements = some 0 ∧
    ¬ KeepsRow oneRow "s" 2 lostConnection .answered := by
  have hok : ∃ score, (calculateScore oneRow "s" 2 lostConnection .answered).2 = .ok score :=
    ⟨_, rfl⟩
  refine ⟨rfl, rfl, hok, rfl, ?_⟩
  rintro ⟨⟨e, he⟩, -⟩
  obtain ⟨score, hscore⟩ := hok
  exact absurd (hscore.symm.trans he) (by simp)

end ReputationPassport.ReputationService
