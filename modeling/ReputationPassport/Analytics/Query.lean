import ReputationPassport.Arrow.Batches
import ReputationPassport.Machine.Fallible

/-! # The analytics query

`analytics-engine/src/main.rs`. `query_sql` runs a query and flattens the record batches into rows
of texts. For each row and column it formats the whole array of the batch, and never uses the index
of the row; so the result has the right shape, and a cell is rendered alone only if it is alone in
its array. When a query yields no batch at all, the names of the columns are lost too. -/

namespace ReputationPassport.AnalyticsEngine

open Arrow Machine

variable {τ ν : Type}

/-- `QueryResult`. -/
structure QueryResult where
  columns : List String
  rows : List (List String)
  rowCount : Nat

/-- The status codes `query_sql` fails with. -/
inductive StatusCode where
  | badRequest
  | internalServerError

/-- What collecting a data frame gives: its batches, or the text of an error. -/
abbrev DataFrame (τ ν : Type) : Type := Except String (ResultSet τ ν)

/-- `SessionContext::sql`: the plan of a query, or the text of an error. -/
abbrev SessionContext (τ ν : Type) : Type := String → Except String (DataFrame τ ν)

section Format

-- `format!("{:?}", array)`
variable (debug : Column τ ν → String)

/-- The loops over the batches, their rows and their columns. -/
def queryRows (batches : List (RecordBatch τ ν)) : List (List String) :=
  batches.flatMap fun batch =>
    (List.range batch.numRows).map fun _rowIdx =>
      batch.columns.map fun array => debug array

/-- What `query_sql` makes of the batches. -/
def queryResult (batches : List (RecordBatch τ ν)) : QueryResult :=
  match batches with
  | [] => ⟨[], [], 0⟩
  | batch :: _ =>
      ⟨batch.schema.map Field.name, queryRows debug batches, (queryRows debug batches).length⟩

/-- `query_sql`. -/
def querySql (ctx : SessionContext τ ν) (params : String → Option String) :
    Except StatusCode QueryResult :=
  match params "sql" with
  | none => .error .badRequest
  | some sql =>
      match ctx sql with
      | .error _ => .error .badRequest
      | .ok df =>
          match df with
          | .error _ => .error .internalServerError
          | .ok results => .ok (queryResult debug results.batches)

end Format

variable {debug : Column τ ν → String}

/-- A response is made of the batches of a query that was planned and executed. -/
theorem querySql_eq_ok {ctx : SessionContext τ ν} {params : String → Option String}
    {q : QueryResult} : querySql debug ctx params = .ok q ↔
      ∃ sql results, params "sql" = some sql ∧ ctx sql = .ok (.ok results) ∧
        q = queryResult debug results.batches := by
  unfold querySql
  constructor
  · intro h
    split at h
    · cases h
    · next sql hsql =>
      split at h
      · cases h
      · next df hdf =>
        split at h
        · cases h
        · next results => exact ⟨sql, results, hsql, hdf, (Except.ok.inj h).symm⟩
  · rintro ⟨sql, results, hsql, hdf, rfl⟩
    simp only [hsql, hdf]

/-! ## The shape -/

theorem length_queryRows (batches : List (RecordBatch τ ν)) :
    (queryRows debug batches).length = (batches.flatMap RecordBatch.rows).length := by
  simp only [queryRows, List.length_flatMap, List.length_map, List.length_range,
    RecordBatch.length_rows]

/-- The result has the rows that were collected, with or without a batch. -/
theorem rows_queryResult (batches : List (RecordBatch τ ν)) :
    (queryResult debug batches).rows = queryRows debug batches := by
  cases batches <;> rfl

theorem rowCount_queryResult (batches : List (RecordBatch τ ν)) :
    (queryResult debug batches).rowCount = (queryRows debug batches).length := by
  cases batches <;> rfl

/-- The names of the columns are there if there is a batch, or nothing to name. -/
theorem columns_queryResult_iff (r : ResultSet τ ν) :
    (queryResult debug r.batches).columns = r.schema.map Field.name ↔
      r.schema = [] ∨ r.batches ≠ [] := by
  obtain ⟨schema, batches, hschema⟩ := r
  cases batches with
  | nil =>
      simp only [queryResult, ne_eq, not_true_eq_false, or_false]
      rw [eq_comm, List.map_eq_nil_iff]
  | cons batch batches =>
      refine iff_of_true ?_ (Or.inr (List.cons_ne_nil _ _))
      exact congrArg (List.map Field.name) (hschema batch List.mem_cons_self)

/-! ## The cells -/

/-- The rendering of a cell alone: of the array that holds nothing else. -/
def renderCell (debug : Column τ ν → String) (cell : Cell τ ν) : String := debug cell.alone

/-- The output of `Debug` for an array with several values is not that for one of them alone. -/
def ShowsValues (debug : Column τ ν → String) : Prop :=
  ∀ c : Column τ ν, 1 < c.values.length → ∀ i, debug c ≠ debug (c.cell i).alone

/-- **The query returns the table**: the names of the columns, a row for each row of the batches in
their order, in which each cell is rendered alone, and the number of rows. -/
structure ReturnsTable (debug : Column τ ν → String) (r : ResultSet τ ν) : Prop where
  columns : (queryResult debug r.batches).columns = r.schema.map Field.name
  rows : (queryResult debug r.batches).rows = r.rows.map fun row => row.map (renderCell debug)
  rowCount : (queryResult debug r.batches).rowCount = r.rows.length

/-- The rows of a batch are rendered cell by cell if it has one row, or no columns. -/
theorem rendersBatch_iff (hdebug : ShowsValues debug) (batch : RecordBatch τ ν) :
    ((List.range batch.numRows).map fun _ => batch.columns.map debug) =
        batch.rows.map (fun row => row.map (renderCell debug)) ↔
      batch.schema = [] ∨ batch.numRows ≤ 1 := by
  have hrows : ((List.range batch.numRows).map fun _ => batch.columns.map debug) =
      List.replicate (List.finRange batch.numRows).length (batch.columns.map debug) := by
    rw [List.map_const', List.length_range, List.length_finRange]
  rw [hrows, eq_comm, RecordBatch.rows, List.map_map, List.map_eq_replicate_iff]
  simp only [Function.comp_apply, RecordBatch.map_row_eq_iff, renderCell]
  constructor
  · -- with two rows, the array of any column is not the array of its first cell
    intro h
    by_contra hwide
    obtain ⟨hschema, hmany⟩ := not_or.mp hwide
    have hcolumns : batch.columns ≠ [] := by
      rw [← List.length_pos_iff, batch.length_columns, List.length_pos_iff]
      exact hschema
    obtain ⟨c, hc⟩ := List.exists_mem_of_ne_nil _ hcolumns
    have hlen := batch.lengths c hc
    exact hdebug c (by omega) _ (h ⟨0, by omega⟩ (List.mem_finRange _) c hc).symm
  · rintro h i - c hc
    have hlen := batch.lengths c hc
    rcases h with hschema | hone
    · have hcolumns : batch.columns = [] := by
        rw [← List.length_eq_zero_iff, batch.length_columns, hschema, List.length_nil]
      rw [hcolumns] at hc
      exact absurd hc List.not_mem_nil
    · have hi := i.isLt
      exact congrArg debug (Column.eq_alone (by omega) _).symm

/-- **When the query returns the table**: when there is nothing to name, or there is a batch and
every batch has at most one row. The number of rows is right in any case. -/
theorem returnsTable_iff (debug : Column τ ν → String) (hdebug : ShowsValues debug)
    (r : ResultSet τ ν) : ReturnsTable debug r ↔
      r.schema = [] ∨ (r.batches ≠ [] ∧ ∀ batch ∈ r.batches, batch.numRows ≤ 1) := by
  have hrowCount : (queryResult debug r.batches).rowCount = r.rows.length :=
    (rowCount_queryResult _).trans (length_queryRows _)
  have hrows : (queryResult debug r.batches).rows =
      r.rows.map (fun row => row.map (renderCell debug)) ↔
        ∀ batch ∈ r.batches, r.schema = [] ∨ batch.numRows ≤ 1 := by
    have hlengths : ∀ batch : RecordBatch τ ν,
        ((List.range batch.numRows).map fun _ => batch.columns.map debug).length =
          (batch.rows.map fun row => row.map (renderCell debug)).length := by
      intro batch
      rw [List.length_map, List.length_map, List.length_range, RecordBatch.length_rows]
    rw [rows_queryResult, queryRows, ResultSet.rows, List.map_flatMap, flatMap_eq_iff hlengths]
    refine forall₂_congr fun batch hbatch => ?_
    rw [rendersBatch_iff hdebug, r.schema_eq batch hbatch]
  have hreturns : ReturnsTable debug r ↔
      (r.schema = [] ∨ r.batches ≠ []) ∧
        ∀ batch ∈ r.batches, r.schema = [] ∨ batch.numRows ≤ 1 := by
    have hcolumns : (queryResult debug r.batches).columns = r.schema.map Field.name ↔
        r.schema = [] ∨ r.batches ≠ [] := columns_queryResult_iff r
    rw [← hcolumns, ← hrows]
    exact ⟨fun h => ⟨h.columns, h.rows⟩, fun h => ⟨h.1, h.2, hrowCount⟩⟩
  rw [hreturns]
  by_cases hschema : r.schema = []
  · simp [hschema]
  · simp [hschema]

/-- Two results that return their tables agree on a cell that renders the same in both. -/
theorem ReturnsTable.agree {r r' : ResultSet τ ν} (h : ReturnsTable debug r)
    (h' : ReturnsTable debug r') {i j : Nat}
    (hcell : (r.rows[i]?.bind (·[j]?)).map (renderCell debug) =
      (r'.rows[i]?.bind (·[j]?)).map (renderCell debug)) :
    (queryResult debug r.batches).rows[i]?.bind (·[j]?) =
      (queryResult debug r'.batches).rows[i]?.bind (·[j]?) := by
  have hread : ∀ rows : List (List (Cell τ ν)),
      (rows.map fun row => row.map (renderCell debug))[i]?.bind (·[j]?) =
        (rows[i]?.bind (·[j]?)).map (renderCell debug) := by
    intro rows
    cases hrow : rows[i]? <;> simp [hrow]
  rw [h.rows, h'.rows, hread, hread, hcell]

/-! ## An array of integers -/

/-- How the output of `Debug` begins. -/
def sampleHeader : List Char := "PrimitiveArray<UInt64>\n[\n".toList

/-- A line of the output of `Debug` for an integer. -/
def sampleLine (v : Nat) : List Char := "  ".toList ++ Nat.toDigits 10 v ++ ",\n".toList

/-- The output of `Debug` for an array of integers, which the package prints so up to a length of
twenty. -/
def sampleDebug (c : Column Unit Nat) : String :=
  String.ofList (sampleHeader ++ c.values.flatMap sampleLine ++ [']'])

theorem count_sampleLine (v : Nat) : (sampleLine v).count ',' = 1 := by
  have hdigits : (Nat.toDigits 10 v).count ',' = 0 := by
    refine List.count_eq_zero.mpr fun hmem => ?_
    exact absurd (Nat.isDigit_of_mem_toDigits (by decide) (by decide) hmem) (by decide)
  rw [sampleLine, List.count_append, List.count_append, hdigits]
  rfl

/-- There is a comma for each value, the beginning aside. -/
theorem count_sampleDebug (c : Column Unit Nat) :
    (sampleDebug c).toList.count ',' = sampleHeader.count ',' + c.values.length := by
  have hlines : (c.values.flatMap sampleLine).count ',' = c.values.length := by
    induction c.values with
    | nil => rfl
    | cons v values ih =>
        rw [List.flatMap_cons, List.count_append, count_sampleLine, ih, List.length_cons,
          Nat.add_comm]
  have hclose : [']'].count ',' = 0 := by decide
  rw [sampleDebug, String.toList_ofList, List.count_append, List.count_append, hlines, hclose,
    Nat.add_zero]

theorem showsValues_sampleDebug : ShowsValues sampleDebug := by
  intro c hlen i heq
  have hcount := congrArg (fun s : String => s.toList.count ',') heq
  simp only [count_sampleDebug, Cell.alone, List.length_singleton] at hcount
  omega

/-- One column with these values, in one batch. -/
def sampleResult (values : List Nat) : ResultSet Unit Nat where
  schema := [⟨"n", ()⟩]
  batches := [
    { schema := [⟨"n", ()⟩]
      columns := [⟨(), values⟩]
      numRows := values.length
      types := rfl
      lengths := fun _ hc => by rw [List.mem_singleton.mp hc] }]
  schema_eq := fun _ hbatch => by rw [List.mem_singleton.mp hbatch]

/-- The equivalence for a column with two rows. -/
theorem returnsTable_iff_sampleResult : ReturnsTable sampleDebug (sampleResult [1, 2]) ↔
    (sampleResult [1, 2]).schema = [] ∨ ((sampleResult [1, 2]).batches ≠ [] ∧
      ∀ batch ∈ (sampleResult [1, 2]).batches, batch.numRows ≤ 1) :=
  returnsTable_iff sampleDebug showsValues_sampleDebug (sampleResult [1, 2])

/-- **No rendering of the cells alone explains the results**: the cell `1` reads differently in a
column that holds `2` as well; and it is not rendered alone there. -/
theorem cell_shows_whole_column :
    (¬ ∃ render : Cell Unit Nat → String, ∀ r : ResultSet Unit Nat,
      (queryResult sampleDebug r.batches).rows = r.rows.map fun row => row.map render) ∧
    ¬ ReturnsTable sampleDebug (sampleResult [1, 2]) := by
  constructor
  · rintro ⟨render, h⟩
    have halone : [[sampleDebug ⟨(), [1]⟩]] = [[render ⟨(), 1⟩]] := h (sampleResult [1])
    have hboth : [[sampleDebug ⟨(), [1, 2]⟩], [sampleDebug ⟨(), [1, 2]⟩]] =
        [[render ⟨(), 1⟩], [render ⟨(), 2⟩]] := h (sampleResult [1, 2])
    have hsame : sampleDebug ⟨(), [1, 2]⟩ = sampleDebug ⟨(), [1]⟩ := by
      simp only [List.cons.injEq, and_true] at halone hboth
      rw [halone, hboth.1]
    exact showsValues_sampleDebug ⟨(), [1, 2]⟩ (by decide) ⟨0, by decide⟩ hsame
  · intro h
    have hrows : [[sampleDebug ⟨(), [1, 2]⟩], [sampleDebug ⟨(), [1, 2]⟩]] =
        [[sampleDebug ⟨(), [1]⟩], [sampleDebug ⟨(), [2]⟩]] := h.rows
    simp only [List.cons.injEq, and_true] at hrows
    exact showsValues_sampleDebug ⟨(), [1, 2]⟩ (by decide) ⟨0, by decide⟩ hrows.1

end ReputationPassport.AnalyticsEngine
