import Mathlib.Data.List.Pairwise
import ReputationPassport.Machine.Fallible
import ReputationPassport.Sql.Values

/-! # The users table and its repository

The migration `000001_create_users.up.sql` and `repository/user_repo.go`. The table is the list of
its rows; a column without `NOT NULL` is an `Option`. Its primary key is a `UUID`, which the
database stores in one form whatever the form it was written in: `uuid` gives that form, and none
for a text that is not a `UUID`. Two more columns are `UNIQUE`.

Times are integers. The `INSERT` names every column, so no default is taken. -/

namespace ReputationPassport.UserRepository

open Machine

/-- `model.User`. -/
structure User where
  id : String
  email : String
  passwordHash : String
  displayName : String
  creatorHash : String
  verified : Bool
  role : String
  createdAt : Int
  updatedAt : Int

/-- A row of the table `users`. -/
structure Row where
  id : String
  email : String
  passwordHash : String
  displayName : String
  creatorHash : String
  verified : Option Bool
  role : Option String
  createdAt : Int
  updatedAt : Int

section Statements

variable (uuid : String → Option String)

/-- A value of the type `UUID`. -/
def uuidValue (s : String) : Except Sql.Error String :=
  match uuid s with
  | some id => .ok id
  | none => .error .invalidText

/-- The row `Create` writes, checked against the types of the columns. -/
def columns (u : User) : Except Sql.Error Row := do
  let id ← uuidValue uuid u.id
  let email ← Sql.varchar 255 u.email
  let passwordHash ← Sql.varchar 255 u.passwordHash
  let displayName ← Sql.varchar 100 u.displayName
  let creatorHash ← Sql.varchar 66 u.creatorHash
  let role ← Sql.varchar 20 u.role
  .ok { id, email, passwordHash, displayName, creatorHash
        verified := some u.verified
        role := some role
        createdAt := u.createdAt
        updatedAt := u.updatedAt }

/-- The rows agree in a column that is a key. -/
def Row.clashes (row other : Row) : Bool :=
  row.id = other.id ∨ row.email = other.email ∨ row.creatorHash = other.creatorHash

/-- The `INSERT` of `Create`. -/
def create (users : List Row) (u : User) : Except Sql.Error (List Row) := do
  let row ← columns uuid u
  if users.any row.clashes then .error .duplicateKey else .ok (users ++ [row])

/-- The `Scan` of a row. -/
def Row.scan (row : Row) : Except Sql.Error User := do
  let verified ← Sql.scanBool 5 "verified" row.verified
  let role ← Sql.scanString 6 "role" row.role
  .ok { verified, role
        id := row.id
        email := row.email
        passwordHash := row.passwordHash
        displayName := row.displayName
        creatorHash := row.creatorHash
        createdAt := row.createdAt
        updatedAt := row.updatedAt }

/-- The row a query for one row returns, scanned. -/
def scanRow : Option Row → Except Sql.Error User
  | none => .error .noRows
  | some row => row.scan

/-- `GetByID`. -/
def getByID (users : List Row) (id : String) : Except Sql.Error User := do
  let id ← uuidValue uuid id
  scanRow (users.find? fun row => row.id = id)

/-- `GetByEmail`. -/
def getByEmail (users : List Row) (email : String) : Except Sql.Error User := do
  let email ← Sql.text email
  scanRow (users.find? fun row => row.email = email)

end Statements

/-! ## What the statements do -/

variable {uuid : String → Option String} {users users' : List Row} {u : User} {row : Row}

/-- No two rows agree in a key. -/
def Distinct (users : List Row) : Prop := users.Pairwise fun a b => b.clashes a = false

theorem clashes_eq_false {other : Row} : row.clashes other = false ↔
    row.id ≠ other.id ∧ row.email ≠ other.email ∧ row.creatorHash ≠ other.creatorHash := by
  simp [Row.clashes]

/-- **A user is created** when the columns accept it and no row has one of its keys; its row comes
last. -/
theorem create_eq_ok : create uuid users u = .ok users' ↔
    ∃ row, columns uuid u = .ok row ∧ (∀ other ∈ users, row.clashes other = false) ∧
      users' = users ++ [row] := by
  simp only [create, bind_eq_ok]
  refine exists_congr fun row => and_congr_right fun _ => ?_
  by_cases h : users.any row.clashes = true
  · rw [if_pos h]
    obtain ⟨other, hother, hclash⟩ := List.any_eq_true.mp h
    refine iff_of_false (by simp) fun hall => ?_
    rw [hall.1 other hother] at hclash
    cases hclash
  · rw [if_neg h, Except.ok.injEq, eq_comm (a := users')]
    refine (and_iff_right fun other hother => ?_).symm
    exact Bool.eq_false_iff.mpr fun hclash => h (List.any_eq_true.mpr ⟨other, hother, hclash⟩)

/-- A row that was written has its two columns without `NOT NULL`, and its id is in the form of the
database. -/
theorem columns_eq_ok (h : columns uuid u = .ok row) : uuid u.id = some row.id ∧
    Sql.varchar 255 u.email = .ok row.email ∧ row.verified = some u.verified ∧
    ∃ role, row.role = some role := by
  simp only [columns, bind_eq_ok, Except.ok.injEq] at h
  obtain ⟨id, hid, email, hemail, _, -, _, -, _, -, role, -, rfl⟩ := h
  refine ⟨?_, hemail, rfl, role, rfl⟩
  unfold uuidValue at hid
  split at hid
  · next id' huuid => exact Except.ok.inj hid ▸ huuid
  · cases hid

/-- The keys stay distinct. -/
theorem Distinct.create (h : Distinct users) (hcreate : create uuid users u = .ok users') :
    Distinct users' := by
  obtain ⟨row, -, hfresh, rfl⟩ := create_eq_ok.mp hcreate
  refine List.pairwise_append.mpr ⟨h, List.pairwise_singleton _ _, fun a ha b hb => ?_⟩
  rw [List.mem_singleton.mp hb]
  exact hfresh a ha

/-- **A key finds its row.** -/
theorem find_of_mem {key : Row → String}
    (hkey : ∀ a b : Row, b.clashes a = false → key a ≠ key b) (h : Distinct users)
    (hmem : row ∈ users) : users.find? (fun other => key other = key row) = some row := by
  induction users with
  | nil => exact absurd hmem List.not_mem_nil
  | cons a users ih =>
      obtain ⟨ha, husers⟩ := List.pairwise_cons.mp h
      rcases List.mem_cons.mp hmem with rfl | hmem
      · rw [List.find?_cons_of_pos (by simp)]
      · rw [List.find?_cons_of_neg (by simpa using hkey a row (ha row hmem))]
        exact ih husers hmem

/-- A user is found by every text that denotes its id. -/
theorem getByID_of_mem {text : String} (h : Distinct users) (hmem : row ∈ users)
    (htext : uuid text = some row.id) : getByID uuid users text = row.scan := by
  have hfind := find_of_mem (fun a b hab => Ne.symm (clashes_eq_false.mp hab).1) h hmem
  simp only [getByID, uuidValue, htext]
  exact congrArg scanRow hfind

/-- A user is found by its email. -/
theorem getByEmail_of_mem (h : Distinct users) (hmem : row ∈ users)
    (htext : Sql.text row.email = .ok row.email) : getByEmail users row.email = row.scan := by
  have hfind := find_of_mem (fun a b hab => Ne.symm (clashes_eq_false.mp hab).2.1) h hmem
  simp only [getByEmail, htext]
  exact congrArg scanRow hfind

end ReputationPassport.UserRepository
