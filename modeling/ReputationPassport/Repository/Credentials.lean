import Mathlib.Data.Finmap
import ReputationPassport.Machine.Fallible
import ReputationPassport.Sql.Values

/-! # The credentials table and its repository

The migration `000002_create_credentials.up.sql` and `repository/credential_repo.go`. The table is
a map from the primary key to the other columns; a column without `NOT NULL` is an `Option`. The
repository names the columns it writes and reads one by one, so a column it leaves out of an
`INSERT` takes its default or `NULL`, and a column it reads is scanned into a field of
`model.Credential`. A row changes in one statement, so each function is one step.

Times are integers. `Attributes` is accepted by the driver as it is. -/

namespace ReputationPassport.CredentialRepository

open Machine

/-- A Go `map[string]string`. -/
abbrev Attributes : Type := Finmap fun _ : String => String

/-- `model.Credential`. -/
structure Credential where
  id : String
  issuerID : String
  subjectHash : String
  credentialType : String
  attributes : Option Attributes
  issuedAt : Int
  expiresAt : Option Int
  revoked : Bool
  revokedAt : Option Int
  revokeReason : String
  signature : String
  pqcSignature : String
  createdAt : Int
  updatedAt : Int

/-- A row of the table `credentials`, less its primary key. -/
structure Row where
  issuerID : String
  subjectHash : String
  credentialType : String
  attributes : Option Attributes
  issuedAt : Int
  expiresAt : Option Int
  revoked : Option Bool
  revokedAt : Option Int
  revokeReason : Option String
  signature : String
  pqcSignature : Option String
  blockchainTxHash : Option String
  createdAt : Int
  updatedAt : Int

/-- The part of the database the repository uses: the credentials, and which user a text refers to
as a `UUID` (none if it is not one, or no user has it). -/
structure Database where
  userID : String → Option String
  credentials : Finmap fun _ : String => Row

/-- The `INSERT` of `Create`. It names neither `revoked_at`, `revoke_reason` nor
`blockchain_tx_hash`. -/
def create (db : Database) (createdAt updatedAt : Int) (c : Credential) :
    Except Sql.Error Database := do
  let id ← Sql.varchar 66 c.id
  let subjectHash ← Sql.varchar 66 c.subjectHash
  let credentialType ← Sql.varchar 50 c.credentialType
  let signature ← Sql.text c.signature
  let pqcSignature ← Sql.text c.pqcSignature
  match db.userID c.issuerID with
  | none => .error .foreignKeyViolation
  | some issuerID =>
      if id ∈ db.credentials then .error .duplicateKey
      else
        .ok { db with
          credentials := db.credentials.insert id
            { issuerID, subjectHash, credentialType, signature
              attributes := c.attributes
              issuedAt := c.issuedAt
              expiresAt := c.expiresAt
              revoked := some c.revoked
              revokedAt := none
              revokeReason := none
              pqcSignature := some pqcSignature
              blockchainTxHash := none
              createdAt, updatedAt } }

/-- The `SELECT` of `GetByID` and its `Scan`, column by column. -/
def getByID (db : Database) (id : String) : Except Sql.Error Credential :=
  match db.credentials.lookup id with
  | none => .error .noRows
  | some row => do
      let revoked ← Sql.scanBool 6 "revoked" row.revoked
      let revokeReason ← Sql.scanString 8 "revoke_reason" row.revokeReason
      let pqcSignature ← Sql.scanString 10 "pqc_signature" row.pqcSignature
      .ok { id, revoked, revokeReason, pqcSignature
            issuerID := row.issuerID
            subjectHash := row.subjectHash
            credentialType := row.credentialType
            attributes := none
            issuedAt := row.issuedAt
            expiresAt := row.expiresAt
            revokedAt := row.revokedAt
            signature := row.signature
            createdAt := row.createdAt
            updatedAt := row.updatedAt }

/-- The row after the `UPDATE` of `Revoke`. -/
def Row.revoke (row : Row) (reason : String) (now : Int) : Row :=
  { row with
    revoked := some true
    revokeReason := some reason
    revokedAt := some now
    updatedAt := now }

/-- The `UPDATE` of `Revoke`. An id without a row is no error. -/
def revoke (db : Database) (now : Int) (id reason : String) : Except Sql.Error Database := do
  let reason ← Sql.text reason
  let id ← Sql.text id
  match db.credentials.lookup id with
  | none => .ok db
  | some row =>
      .ok { db with credentials := db.credentials.insert id (row.revoke reason now) }

/-! ## What the statements do -/

variable {db db' : Database} {c : Credential} {createdAt updatedAt now : Int} {id reason : String}

/-- **A credential that was created has a row**, with the columns the `INSERT` does not name
`NULL`, under a key that had none. -/
theorem create_eq_ok (h : create db createdAt updatedAt c = .ok db') :
    ∃ id row, Sql.varchar 66 c.id = .ok id ∧ db.credentials.lookup id = none ∧
      row.revoked = some c.revoked ∧ row.revokeReason = none ∧ row.pqcSignature.isSome = true ∧
      db' = { db with credentials := db.credentials.insert id row } := by
  simp only [create, bind_eq_ok] at h
  obtain ⟨id, hid, subjectHash, -, credentialType, -, signature, -, pqcSignature, -, h⟩ := h
  split at h
  · cases h
  · next issuerID _ =>
    split at h
    · cases h
    · next hfree =>
      exact ⟨id, _, hid, Finmap.lookup_eq_none.mpr hfree, rfl, rfl, rfl, (Except.ok.inj h).symm⟩

/-- A row without a reason cannot be read. -/
theorem getByID_of_no_reason {row : Row} {isRevoked : Bool}
    (hrow : db.credentials.lookup id = some row) (hrevoked : row.revoked = some isRevoked)
    (hreason : row.revokeReason = none) : getByID db id =
      .error (.scan 8 "revoke_reason" "converting NULL to string is unsupported") := by
  rw [getByID, hrow]
  simp only [hrevoked, hreason]
  rfl

/-- A row whose scanned columns are all there can be read. -/
theorem getByID_of_some {row : Row} {isRevoked : Bool} {revokeReason pqcSignature : String}
    (hrow : db.credentials.lookup id = some row) (hrevoked : row.revoked = some isRevoked)
    (hreason : row.revokeReason = some revokeReason)
    (hpqc : row.pqcSignature = some pqcSignature) : ∃ c, getByID db id = .ok c ∧
      c.revoked = isRevoked ∧ c.subjectHash = row.subjectHash := by
  rw [getByID, hrow]
  simp only [hrevoked, hreason, hpqc]
  exact ⟨_, rfl, rfl, rfl⟩

/-- **A revocation writes the reason** into the row of its id, and leaves the other rows. -/
theorem revoke_eq_ok (h : revoke db now id reason = .ok db') :
    db'.credentials.lookup id = (db.credentials.lookup id).map (Row.revoke · reason now) ∧
      ∀ id' ≠ id, db'.credentials.lookup id' = db.credentials.lookup id' := by
  simp only [revoke, bind_eq_ok] at h
  obtain ⟨reason', hreason, id', hid, h⟩ := h
  rw [Sql.text_eq_ok hreason, Sql.text_eq_ok hid] at h
  cases hrow : db.credentials.lookup id with
  | none =>
      rw [hrow] at h
      obtain rfl := Except.ok.inj h
      exact ⟨hrow, fun _ _ => rfl⟩
  | some row =>
      rw [hrow] at h
      obtain rfl := Except.ok.inj h
      exact ⟨Finmap.lookup_insert _, fun _ hne => Finmap.lookup_insert_of_ne _ hne⟩

/-- A revocation of an id without a row changes nothing. -/
theorem revoke_of_missing (hmissing : id ∉ db.credentials) (h : revoke db now id reason = .ok db') :
    db' = db := by
  simp only [revoke, bind_eq_ok] at h
  obtain ⟨reason', -, id', hid, h⟩ := h
  rw [Sql.text_eq_ok hid, Finmap.lookup_eq_none.mpr hmissing] at h
  exact (Except.ok.inj h).symm

/-- **The statement is accepted exactly when its two texts are**, whatever the table holds. -/
theorem exists_revoke_iff : (∃ db', revoke db now id reason = .ok db') ↔
    (∃ s, Sql.text reason = .ok s) ∧ ∃ s, Sql.text id = .ok s := by
  simp only [revoke, bind_eq_ok]
  constructor
  · rintro ⟨db', reason', hreason, id', hid, -⟩
    exact ⟨⟨reason', hreason⟩, id', hid⟩
  · rintro ⟨⟨reason', hreason⟩, id', hid⟩
    cases hrow : db.credentials.lookup id' with
    | none => exact ⟨db, reason', hreason, id', hid, by rw [hrow]⟩
    | some row => exact ⟨_, reason', hreason, id', hid, by rw [hrow]⟩

end ReputationPassport.CredentialRepository
