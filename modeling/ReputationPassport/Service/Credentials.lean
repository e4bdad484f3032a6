import ReputationPassport.Machine.Run
import ReputationPassport.Repository.Credentials

/-! # Issuing, verifying and revoking credentials

`service/credential_service.go` over the credentials table. `Issue` stores a row without a
`revoke_reason`, and `GetByID` scans that column into a Go `string`, so what was issued cannot be
read until a revocation has written a reason (`Unreadable`, `Revoked`). -/

namespace ReputationPassport.CredentialService

open Machine CredentialRepository

/-- A digit of `encoding/hex`. -/
def hexDigit (n : Nat) : Char := "0123456789abcdef".toList.getD n (Char.ofNat 48)

/-- `hex.EncodeToString`. -/
def encodeToString (b : List UInt8) : String :=
  String.ofList (b.flatMap fun x => [hexDigit (x.toNat / 16), hexDigit (x.toNat % 16)])

/-- `generateID`, with the sixteen bytes it read from the random source. -/
def generateID (kind : String) (random : Fin 16 → UInt8) : String :=
  kind ++ "_" ++ encodeToString (List.ofFn random)

/-- What `fmt.Errorf` makes of an error it wraps. -/
structure WrappedError where
  message : String
  cause : Sql.Error

/-- The readings of the clock `Issue` makes, its repository included. -/
structure IssueTimes where
  issuedAt : Int
  createdAt : Int
  updatedAt : Int

/-- The credential `Issue` builds. -/
def newCredential (id : String) (issuedAt : Int) (issuerID subjectHash credType : String)
    (attrs : Option Attributes) : Credential where
  id := id
  issuerID := issuerID
  subjectHash := subjectHash
  credentialType := credType
  attributes := attrs
  issuedAt := issuedAt
  expiresAt := none
  revoked := false
  revokedAt := none
  revokeReason := ""
  signature := "sig_" ++ id
  pqcSignature := ""
  createdAt := 0
  updatedAt := 0

/-- `Issue`. -/
def issue (db : Database) (random : Fin 16 → UInt8) (times : IssueTimes)
    (issuerID subjectHash credType : String) (attrs : Option Attributes) :
    Except WrappedError (Database × Credential) :=
  let cred := newCredential (generateID "cred" random) times.issuedAt issuerID subjectHash credType
    attrs
  match create db times.createdAt times.updatedAt cred with
  | .error cause => .error ⟨"failed to issue credential", cause⟩
  | .ok db' => .ok (db', cred)

/-- `Verify` when the clock shows `now`: whether the credential is valid, why, and the error. -/
def verify (db : Database) (now : Int) (credID subjectHash : String) :
    Bool × String × Option Sql.Error :=
  match getByID db credID with
  | .error e => (false, "credential not found", some e)
  | .ok cred =>
      if cred.revoked = true then (false, "credential has been revoked", none)
      else if cred.subjectHash ≠ subjectHash then (false, "subject hash mismatch", none)
      else if cred.expiresAt.any (now > ·) = true then (false, "credential has expired", none)
      else (true, "credential is valid", none)

/-- `Revoke`. -/
def revoke (db : Database) (now : Int) (credID reason : String) : Except Sql.Error Database :=
  CredentialRepository.revoke db now credID reason

/-- A call of the service that writes. -/
inductive Action where
  | issue (random : Fin 16 → UInt8) (times : IssueTimes) (issuerID subjectHash credType : String)
      (attrs : Option Attributes)
  | revoke (now : Int) (credID reason : String)

/-- The table after a call; one that fails leaves it as it is. -/
def stored {ε : Type} (db : Database) (result : Except ε Database) : Database :=
  match result with
  | .ok db' => db'
  | .error _ => db

/-- Perform a call. -/
def step (db : Database) : Action → Option Database
  | .issue random times issuerID subjectHash credType attrs =>
      some (stored db ((issue db random times issuerID subjectHash credType attrs).map Prod.fst))
  | .revoke now credID reason => some (stored db (revoke db now credID reason))

/-- The call revokes this id. -/
def Action.Revokes (id : String) : Action → Prop
  | .revoke _ credID _ => credID = id
  | .issue .. => False

/-! ## What the calls do -/

variable {db db' : Database} {c : Credential} {id : String}

/-- Every byte has two digits. -/
theorem length_encodeToString (b : List UInt8) : (encodeToString b).length = 2 * b.length := by
  rw [encodeToString, String.length_ofList]
  induction b with
  | nil => rfl
  | cons x b ih =>
      rw [List.flatMap_cons, List.length_append, ih, List.length_cons, List.length_cons,
        List.length_cons, List.length_nil]
      omega

/-- A generated id of this kind fits into the key column. -/
theorem length_generateID (random : Fin 16 → UInt8) :
    (generateID "cred" random).length ≤ 66 := by
  rw [generateID, String.length_append, length_encodeToString, List.length_ofFn]
  decide

/-- A credential that was issued has a row without a reason, under its id, where there was none. -/
theorem issue_eq_ok {random : Fin 16 → UInt8} {times : IssueTimes}
    {issuerID subjectHash credType : String} {attrs : Option Attributes}
    (h : issue db random times issuerID subjectHash credType attrs = .ok (db', c)) :
    ∃ row, db.credentials.lookup c.id = none ∧
      row.revoked = some false ∧ row.revokeReason = none ∧ row.pqcSignature.isSome = true ∧
      db' = { db with credentials := db.credentials.insert c.id row } := by
  unfold issue at h
  simp only at h
  split at h
  · cases h
  · next db₁ hcreate =>
    obtain ⟨rfl, rfl⟩ := Prod.mk.inj (Except.ok.inj h)
    obtain ⟨stored, row, hstored, hrow⟩ := create_eq_ok hcreate
    obtain rfl := Sql.varchar_of_length_le (length_generateID random) hstored
    exact ⟨row, hrow⟩

/-- **Effect of a step on the row of an id**: it stays, or it appears, or a call revokes it. -/
theorem step_lookup {a : Action} (h : step db a = some db') (id : String) :
    db'.credentials.lookup id = db.credentials.lookup id ∨
    db.credentials.lookup id = none ∨
    (a.Revokes id ∧ ∃ reason now, db'.credentials.lookup id =
      (db.credentials.lookup id).map (Row.revoke · reason now)) := by
  cases a with
  | issue random times issuerID subjectHash credType attrs =>
      obtain rfl := Option.some.inj h
      cases hissue : issue db random times issuerID subjectHash credType attrs with
      | ok v =>
          obtain ⟨db₁, c⟩ := v
          obtain ⟨row, hfree, -, -, -, hrow⟩ := issue_eq_ok hissue
          change db₁.credentials.lookup id = _ ∨ _
          rw [hrow]
          by_cases hid : id = c.id
          · exact Or.inr (Or.inl (hid ▸ hfree))
          · exact Or.inl (Finmap.lookup_insert_of_ne _ hid)
      | error e => exact Or.inl rfl
  | revoke now credID reason =>
      obtain rfl := Option.some.inj h
      cases hrevoke : revoke db now credID reason with
      | ok db₁ =>
          obtain ⟨hself, hother⟩ := revoke_eq_ok hrevoke
          by_cases hid : id = credID
          · subst hid
            exact Or.inr (Or.inr ⟨rfl, reason, now, hself⟩)
          · exact Or.inl (hother id hid)
      | error e => exact Or.inl rfl

/-- What was issued was created in the table. -/
theorem create_of_issue {random : Fin 16 → UInt8} {times : IssueTimes}
    {issuerID subjectHash credType : String} {attrs : Option Attributes}
    (h : issue db random times issuerID subjectHash credType attrs = .ok (db', c)) :
    create db times.createdAt times.updatedAt c = .ok db' := by
  unfold issue at h
  simp only at h
  split at h
  · cases h
  · next db₁ hcreate =>
    obtain ⟨rfl, rfl⟩ := Prod.mk.inj (Except.ok.inj h)
    exact hcreate

/-- **Where a row comes from**: it was there, or a credential was created, or a row was revoked. -/
theorem row_of_step {a : Action} (hstep : step db a = some db') {row : Row}
    (hrow : db'.credentials.lookup id = some row) :
    db.credentials.lookup id = some row ∨
    (∃ createdAt updatedAt c, create db createdAt updatedAt c = .ok db') ∨
    ∃ row₀ reason now, db.credentials.lookup id = some row₀ ∧ row = row₀.revoke reason now := by
  cases a with
  | issue random times issuerID subjectHash credType attrs =>
      obtain rfl := Option.some.inj hstep
      cases hissue : issue db random times issuerID subjectHash credType attrs with
      | ok v => exact Or.inr (Or.inl ⟨_, _, v.2, create_of_issue hissue⟩)
      | error e =>
          simp only [hissue, Except.map, stored] at hrow
          exact Or.inl hrow
  | revoke now credID reason =>
      obtain rfl := Option.some.inj hstep
      cases hrevoke : revoke db now credID reason with
      | ok db₁ =>
          simp only [hrevoke, stored] at hrow
          obtain ⟨hself, hother⟩ := revoke_eq_ok hrevoke
          by_cases hid : id = credID
          · rw [hid, hself] at hrow
            obtain ⟨row₀, hrow₀, rfl⟩ := Option.map_eq_some_iff.mp hrow
            exact Or.inr (Or.inr ⟨row₀, reason, now, hid ▸ hrow₀, rfl⟩)
          · exact Or.inl (hother id hid ▸ hrow)
      | error e =>
          simp only [hrevoke, stored] at hrow
          exact Or.inl hrow

/-! ## What was issued, and what was revoked -/

/-- The row of an id that was issued and not revoked. -/
def Unreadable (id : String) (db : Database) : Prop :=
  ∃ row, db.credentials.lookup id = some row ∧ row.revoked = some false ∧
    row.revokeReason = none ∧ row.pqcSignature.isSome = true

/-- The row of an id that was issued and revoked. -/
def Revoked (id : String) (db : Database) : Prop :=
  ∃ row, db.credentials.lookup id = some row ∧ row.revoked = some true ∧
    row.revokeReason.isSome = true ∧ row.pqcSignature.isSome = true

/-- What was issued stays unreadable while no call revokes it. -/
theorem Unreadable.step {a : Action} (h : Unreadable id db) (ha : ¬ a.Revokes id)
    (hstep : CredentialService.step db a = some db') : Unreadable id db' := by
  obtain ⟨row, hrow, hrest⟩ := h
  rcases step_lookup hstep id with hsame | hnone | ⟨hrevokes, -⟩
  · exact ⟨row, hsame.trans hrow, hrest⟩
  · exact absurd (hnone.symm.trans hrow) (by simp)
  · exact absurd hrevokes ha

/-- What was revoked stays revoked. -/
theorem Revoked.step {a : Action} (h : Revoked id db)
    (hstep : CredentialService.step db a = some db') : Revoked id db' := by
  obtain ⟨row, hrow, hrest⟩ := h
  rcases step_lookup hstep id with hsame | hnone | ⟨-, reason, now, hrevoked⟩
  · exact ⟨row, hsame.trans hrow, hrest⟩
  · exact absurd (hnone.symm.trans hrow) (by simp)
  · rw [hrow] at hrevoked
    exact ⟨row.revoke reason now, hrevoked, rfl, rfl, hrest.2.2⟩

/-- A run of calls none of which revokes the id. -/
def Spares (id : String) (as : List Action) : Prop := ∀ a ∈ as, ¬ a.Revokes id

theorem Unreadable.run {as : List Action} (h : Unreadable id db) (hspares : Spares id as)
    (hrun : Machine.run CredentialService.step db as = some db') : Unreadable id db' := by
  induction as generalizing db with
  | nil =>
      rw [run_nil, Option.some.injEq] at hrun
      exact hrun ▸ h
  | cons a as ih =>
      obtain ⟨db₁, hstep, hrest⟩ := run_cons_eq_some.mp hrun
      obtain ⟨ha, has⟩ := List.forall_mem_cons.mp hspares
      exact ih (h.step ha hstep) has hrest

/-- A revocation of what was issued succeeds in revoking it. -/
theorem Unreadable.revoke {now : Int} {reason : String} (h : Unreadable id db)
    (hrevoke : CredentialService.revoke db now id reason = .ok db') : Revoked id db' := by
  obtain ⟨row, hrow, -, -, hpqc⟩ := h
  have hself := (revoke_eq_ok hrevoke).1
  rw [hrow] at hself
  exact ⟨row.revoke reason now, hself, rfl, rfl, hpqc⟩

/-- Nothing unreadable verifies: every `Verify` ends in a scan error. -/
theorem Unreadable.verify (h : Unreadable id db) (now : Int) (subjectHash : String) :
    CredentialService.verify db now id subjectHash = (false, "credential not found",
      some (.scan 8 "revoke_reason" "converting NULL to string is unsupported")) := by
  obtain ⟨row, hrow, hrevoked, hreason, -⟩ := h
  rw [CredentialService.verify, getByID_of_no_reason hrow hrevoked hreason]

/-- What was revoked is found, and is invalid. -/
theorem Revoked.verify (h : Revoked id db) (now : Int) (subjectHash : String) :
    CredentialService.verify db now id subjectHash =
      (false, "credential has been revoked", none) := by
  obtain ⟨row, hrow, hrevoked, hreason, hpqc⟩ := h
  obtain ⟨reason, hreason⟩ := Option.isSome_iff_exists.mp hreason
  obtain ⟨pqcSignature, hpqc⟩ := Option.isSome_iff_exists.mp hpqc
  obtain ⟨c, hc, hcrevoked, -⟩ := getByID_of_some hrow hrevoked hreason hpqc
  rw [CredentialService.verify, hc]
  simp only [hcrevoked, if_true]

/-! ## Issue, then verify -/

/-- **What verification owes to a credential that was issued**: while it is not revoked, it is valid
for its subject and for no other, without an error; once it was revoked, it is invalid without an
error. -/
structure IssueThenVerify (db : Database) (id subjectHash : String) : Prop where
  valid : ∀ as db₁, Spares id as → run step db as = some db₁ →
    ∀ now, ∃ reason, verify db₁ now id subjectHash = (true, reason, none)
  mismatch : ∀ as db₁, Spares id as → run step db as = some db₁ →
    ∀ now, ∀ other ≠ subjectHash, ∃ reason, verify db₁ now id other = (false, reason, none)
  revoked : ∀ as db₁, Spares id as → run step db as = some db₁ →
    ∀ now reason db₂, revoke db₁ now id reason = .ok db₂ →
    ∀ as' db₃, run step db₂ as' = some db₃ →
    ∀ now', ∃ reason', verify db₃ now' id subjectHash = (false, reason', none)

/-- **What verification does instead**: until a revocation every `Verify` of the id fails, whatever
the subject; afterwards it reports the revocation. -/
structure FailsUntilRevoked (db : Database) (id : String) : Prop where
  fails : ∀ as db₁, Spares id as → run step db as = some db₁ →
    ∀ now subjectHash, verify db₁ now id subjectHash = (false, "credential not found",
      some (.scan 8 "revoke_reason" "converting NULL to string is unsupported"))
  revoked : ∀ as db₁, Spares id as → run step db as = some db₁ →
    ∀ now reason db₂, revoke db₁ now id reason = .ok db₂ →
    ∀ as' db₃, run step db₂ as' = some db₃ →
    ∀ now' subjectHash, verify db₃ now' id subjectHash =
      (false, "credential has been revoked", none)

/-- **No credential that was issued verifies**, whatever the table holds: until it is revoked every
`Verify` of its id fails. -/
theorem issued_never_verifies (db : Database) (random : Fin 16 → UInt8) (times : IssueTimes)
    (issuerID subjectHash credType : String) (attrs : Option Attributes) (db' : Database)
    (c : Credential)
    (h : issue db random times issuerID subjectHash credType attrs = .ok (db', c)) :
    ¬ IssueThenVerify db' c.id subjectHash ∧ FailsUntilRevoked db' c.id := by
  have hissued : Unreadable c.id db' := by
    obtain ⟨row, -, hrevoked, hreason, hpqc, rfl⟩ := issue_eq_ok h
    exact ⟨row, Finmap.lookup_insert _, hrevoked, hreason, hpqc⟩
  refine ⟨fun hverify => ?_, ?_, ?_⟩
  · -- already the `Verify` right after the issue fails
    obtain ⟨reason, hvalid⟩ := hverify.valid [] db' (fun _ ha => absurd ha List.not_mem_nil) rfl 0
    rw [hissued.verify] at hvalid
    cases hvalid
  · intro as db₁ hspares hrun now subjectHash
    exact (hissued.run hspares hrun).verify now subjectHash
  · intro as db₁ hspares hrun now reason db₂ hrevoke as' db₃ hrun' now' subjectHash
    have hrevoked := (hissued.run hspares hrun).revoke hrevoke
    exact (run_invariant (fun _ _ _ h hstep => h.step hstep) hrevoked hrun').verify now' subjectHash

/-- A database with one user and no credentials. -/
def oneUser : Database where
  userID s := if s = "u1" then some "u1" else none
  credentials := ∅

theorem issued_never_verifies_oneUser : ∃ db' c,
    issue oneUser (fun _ => 0) ⟨1, 1, 1⟩ "u1" "0xabc" "identity" (some ∅) = .ok (db', c) ∧
    c.id = "cred_00000000000000000000000000000000" ∧
    ¬ IssueThenVerify db' c.id "0xabc" ∧ FailsUntilRevoked db' c.id := by
  obtain ⟨db', c, hissue, hid⟩ : ∃ db' c,
      issue oneUser (fun _ => 0) ⟨1, 1, 1⟩ "u1" "0xabc" "identity" (some ∅) = .ok (db', c) ∧
      c.id = "cred_00000000000000000000000000000000" := ⟨_, _, rfl, rfl⟩
  exact ⟨db', c, hissue, hid, issued_never_verifies oneUser (fun _ => 0) ⟨1, 1, 1⟩ "u1" "0xabc"
    "identity" (some ∅) db' c hissue⟩

/-- Not every credential that was issued verifies: the first one of an empty table does not. -/
theorem issued_credential_unreadable :
    ¬ ∀ (db : Database) (random : Fin 16 → UInt8) (times : IssueTimes)
        (issuerID subjectHash credType : String) (attrs : Option Attributes) (db' : Database)
        (c : Credential),
      issue db random times issuerID subjectHash credType attrs = .ok (db', c) →
      IssueThenVerify db' c.id subjectHash := by
  intro h
  obtain ⟨db', c, hissue, hverify⟩ : ∃ db' c,
      issue oneUser (fun _ => 0) ⟨1, 1, 1⟩ "u1" "0xabc" "identity" (some ∅) = .ok (db', c) ∧
      verify db' 2 c.id "0xabc" = (false, "credential not found",
        some (.scan 8 "revoke_reason" "converting NULL to string is unsupported")) :=
    ⟨_, _, rfl, rfl⟩
  obtain ⟨reason, hvalid⟩ := (h oneUser (fun _ => 0) ⟨1, 1, 1⟩ "u1" "0xabc" "identity" (some ∅)
    db' c hissue).valid [] db' (fun _ ha => absurd ha List.not_mem_nil) rfl 2
  rw [hverify] at hvalid
  cases hvalid

end ReputationPassport.CredentialService
