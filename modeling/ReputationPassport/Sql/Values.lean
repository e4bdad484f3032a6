import Mathlib.Data.String.Defs

/-! # Values between Go and a PostgreSQL table

A nullable column is an `Option`. Writing a text into a column checks it (`text`, `varchar`,
`integer`); `Rows.Scan` converts a column into a Go variable, which fails for a `NULL` unless the
variable is a pointer (`scanString`, `scanBool`). The errors of `database/sql` carry the index and
the name of the column. -/

namespace Sql

/-- Why a statement or a scan failed. -/
inductive Error where
  | noRows
  | scan (index : Nat) (name reason : String)
  | duplicateKey
  | foreignKeyViolation
  | valueTooLong (limit : Nat)
  | invalidText
  | integerOutOfRange
  deriving DecidableEq

/-- A `TEXT` value: a text with a zero character is refused. -/
def text (s : String) : Except Error String :=
  if s.toList.contains (Char.ofNat 0) then .error .invalidText else .ok s

/-- A `VARCHAR(limit)` value: a text that is too long is refused, unless nothing but blanks has to
be cut off. -/
def varchar (limit : Nat) (s : String) : Except Error String := do
  let s ← text s
  if s.length ≤ limit then .ok s
  else if (s.toList.drop limit).all (· = ' ') then .ok (String.ofList (s.toList.take limit))
  else .error (.valueTooLong limit)

/-- An `INTEGER` value. -/
def integer (n : Int) : Except Error Int :=
  if -2147483648 ≤ n ∧ n ≤ 2147483647 then .ok n else .error .integerOutOfRange

/-- Scan a column into a Go `string`. -/
def scanString (index : Nat) (name : String) : Option String → Except Error String
  | some s => .ok s
  | none => .error (.scan index name "converting NULL to string is unsupported")

/-- Scan a column into a Go `bool`. -/
def scanBool (index : Nat) (name : String) : Option Bool → Except Error Bool
  | some b => .ok b
  | none => .error (.scan index name "sql/driver: couldn't convert <nil> (<nil>) into type bool")

/-- A text is stored as it is. -/
theorem text_eq_ok {s s' : String} (h : text s = .ok s') : s' = s := by
  unfold text at h
  split at h
  · cases h
  · exact (Except.ok.inj h).symm

/-- A text that is not too long is stored as it is. -/
theorem varchar_of_length_le {limit : Nat} {s s' : String} (hlen : s.length ≤ limit)
    (h : varchar limit s = .ok s') : s' = s := by
  unfold varchar text at h
  split at h
  · cases h
  · simp only [bind, Except.bind, if_pos hlen] at h
    exact (Except.ok.inj h).symm

/-- A text without a zero character that is not too long is stored as it is. -/
theorem varchar_of_fits {limit : Nat} {s : String} (hzero : Char.ofNat 0 ∉ s.toList)
    (hlen : s.length ≤ limit) : varchar limit s = .ok s := by
  have htext : text s = .ok s := by
    rw [text, if_neg (by simpa using hzero)]
  rw [varchar, htext]
  exact if_pos hlen

/-- What a column stores fits the column. -/
theorem varchar_stored {limit : Nat} {s s' : String} (h : varchar limit s = .ok s') :
    varchar limit s' = .ok s' := by
  unfold varchar text at h
  split at h
  · cases h
  · next hzero =>
    have hmem : Char.ofNat 0 ∉ s.toList := by simpa using hzero
    simp only [bind, Except.bind] at h
    split at h
    · next hlen => exact Except.ok.inj h ▸ varchar_of_fits hmem hlen
    · split at h
      · -- what is cut off is blank, and what is left has no zero character either
        rw [← Except.ok.inj h]
        refine varchar_of_fits ?_ ?_
        · rw [String.toList_ofList]
          exact fun hzero => hmem (List.mem_of_mem_take hzero)
        · rw [String.length_ofList]
          exact List.length_take_le _ _
      · cases h

/-- What a column stores is a text. -/
theorem text_stored {limit : Nat} {s s' : String} (h : varchar limit s = .ok s') :
    text s' = .ok s' := by
  have hstored := varchar_stored h
  unfold varchar at hstored
  cases htext : text s' with
  | ok t => rw [text_eq_ok htext]
  | error e =>
      rw [htext] at hstored
      cases hstored

/-- An integer is stored as it is. -/
theorem integer_eq_ok {n m : Int} (h : integer n = .ok m) : m = n := by
  unfold integer at h
  split at h
  · exact (Except.ok.inj h).symm
  · cases h

end Sql
