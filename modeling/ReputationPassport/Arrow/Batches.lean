import Mathlib.Data.List.FinRange

/-! # Record batches

A table in Arrow's columnar format comes as a list of record batches with one schema. A batch holds
one array for each field, and all its arrays have one length. The table itself has the rows of the
batches, one batch after another (`ResultSet.rows`); a cell is a value with its type.

The types `τ` and the values `ν`, nulls included, are left open. -/

namespace Arrow

variable {τ ν : Type}

/-- A field of a schema. -/
structure Field (τ : Type) where
  name : String
  dataType : τ

/-- An array: the values of a column in a batch. -/
structure Column (τ ν : Type) where
  dataType : τ
  values : List ν

/-- A record batch: an array for each field of the schema, of its type, and all of one length. -/
structure RecordBatch (τ ν : Type) where
  schema : List (Field τ)
  columns : List (Column τ ν)
  numRows : Nat
  types : columns.map Column.dataType = schema.map Field.dataType
  lengths : ∀ c ∈ columns, c.values.length = numRows

/-- A list of batches with one schema. -/
structure ResultSet (τ ν : Type) where
  schema : List (Field τ)
  batches : List (RecordBatch τ ν)
  schema_eq : ∀ batch ∈ batches, batch.schema = schema

/-- A cell of a table. -/
structure Cell (τ ν : Type) where
  dataType : τ
  value : ν

/-- The array that holds nothing but the cell. -/
def Cell.alone (cell : Cell τ ν) : Column τ ν := ⟨cell.dataType, [cell.value]⟩

/-- The cell of a column at an index. -/
def Column.cell (c : Column τ ν) (i : Fin c.values.length) : Cell τ ν :=
  ⟨c.dataType, c.values.get i⟩

/-- A row of a batch. -/
def RecordBatch.row (batch : RecordBatch τ ν) (i : Fin batch.numRows) : List (Cell τ ν) :=
  batch.columns.attach.map fun c => c.1.cell (i.cast (batch.lengths c.1 c.2).symm)

/-- The rows of a batch. -/
def RecordBatch.rows (batch : RecordBatch τ ν) : List (List (Cell τ ν)) :=
  (List.finRange batch.numRows).map batch.row

/-- The rows of the table. -/
def ResultSet.rows (r : ResultSet τ ν) : List (List (Cell τ ν)) :=
  r.batches.flatMap RecordBatch.rows

/-- A column with one value holds nothing but its cell. -/
theorem Column.eq_alone {c : Column τ ν} (h : c.values.length = 1) (i : Fin c.values.length) :
    c = (c.cell i).alone := by
  obtain ⟨dataType, values⟩ := c
  obtain ⟨v, rfl⟩ := List.length_eq_one_iff.mp h
  have hi : i = ⟨0, Nat.zero_lt_one⟩ := Fin.ext (Nat.lt_one_iff.mp i.isLt)
  rw [hi]
  rfl

@[simp] theorem RecordBatch.length_rows (batch : RecordBatch τ ν) :
    batch.rows.length = batch.numRows := by
  rw [rows, List.length_map, List.length_finRange]

/-- A batch has a column for each field. -/
theorem RecordBatch.length_columns (batch : RecordBatch τ ν) :
    batch.columns.length = batch.schema.length := by
  have h := congrArg List.length batch.types
  rwa [List.length_map, List.length_map] at h

/-- What the cells of a row are taken to is what the columns are taken to, column by column. -/
theorem RecordBatch.map_row_eq_iff {α : Type} (f : Cell τ ν → α) (g : Column τ ν → α)
    (batch : RecordBatch τ ν) (i : Fin batch.numRows) :
    (batch.row i).map f = batch.columns.map g ↔
      ∀ (c : Column τ ν) (hc : c ∈ batch.columns),
        f (c.cell (i.cast (batch.lengths c hc).symm)) = g c := by
  have hattach : batch.columns.map g = batch.columns.attach.map fun c => g c.1 :=
    (List.attach_map_val ..).symm
  rw [row, List.map_map, hattach, List.map_inj_left]
  exact ⟨fun h c hc => h ⟨c, hc⟩ (List.mem_attach _ _), fun h c _ => h c.1 c.2⟩

/-- Blocks of the same lengths make the same list only if they are the same. -/
theorem flatMap_eq_iff {α β : Type} {l : List α} {f g : α → List β}
    (h : ∀ a, (f a).length = (g a).length) :
    l.flatMap f = l.flatMap g ↔ ∀ a ∈ l, f a = g a := by
  induction l with
  | nil => simp
  | cons a l ih =>
      rw [List.flatMap_cons, List.flatMap_cons, List.forall_mem_cons, ← ih]
      constructor
      · intro heq
        exact List.append_inj heq (h a)
      · rintro ⟨ha, hl⟩
        rw [ha, hl]

end Arrow
