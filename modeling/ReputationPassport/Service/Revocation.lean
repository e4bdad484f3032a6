import ReputationPassport.Service.Credentials
import ReputationPassport.Service.FailedRead

/-! # Revoking, and what the answer says

`CredentialService.Revoke` is one `UPDATE` by id. It asks neither how many rows the statement
changed nor whether the credential is revoked already, so it reports success for an id nobody has,
and a second revocation replaces the time and the reason of the first. `revokesHonestly_iff` says
in which sequences of revocations neither happens. -/

namespace ReputationPassport.CredentialService

open Machine CredentialRepository
open ReputationService (Delivery Failure Fault)

/-- A call of `Revoke`, when the clock shows `now`, and what becomes of its statement. -/
structure RevokeCall where
  now : Int
  credID : String
  reason : String
  delivery : Delivery

/-- `Revoke`, delivered: the table afterwards and what the caller is told. -/
def RevokeCall.perform (c : RevokeCall) (db : Database) : Database × Except Failure Unit :=
  match c.delivery with
  | .answered =>
      match revoke db c.now c.credID c.reason with
      | .ok db' => (db', .ok ())
      | .error e => (db, .error (.sql e))
  | .undelivered fault => (db, .error (.fault fault))
  | .unanswered fault => (stored db (revoke db c.now c.credID c.reason), .error (.fault fault))

/-- One revocation of a sequence. -/
def revokeStep (db : Database) (c : RevokeCall) : Option Database := some (c.perform db).1

/-- The database executes the statement: it reaches it, and its texts are accepted. -/
def RevokeCall.Executed (c : RevokeCall) : Prop :=
  (∀ fault, c.delivery ≠ .undelivered fault) ∧ (∃ s, Sql.text c.reason = .ok s) ∧
    ∃ s, Sql.text c.credID = .ok s

variable {db db' : Database} {c : RevokeCall} {id : String}

/-- **Inversion of a call**: it is not executed, fails and changes nothing; or it is executed,
writes the row of its id if there is one, and succeeds if its answer comes back. -/
theorem RevokeCall.perform_cases (c : RevokeCall) (db : Database) :
    (¬ c.Executed ∧ (c.perform db).1 = db ∧ ∃ e, (c.perform db).2 = .error e) ∨
    (c.Executed ∧ revoke db c.now c.credID c.reason = .ok (c.perform db).1 ∧
      ((c.perform db).2 = .ok () ↔ c.delivery = .answered)) := by
  cases hrevoke : revoke db c.now c.credID c.reason with
  | error e =>
      have hrefused : ¬ c.Executed := by
        rintro ⟨-, htexts⟩
        obtain ⟨db', hok⟩ : ∃ db',
            CredentialRepository.revoke db c.now c.credID c.reason = .ok db' :=
          exists_revoke_iff.mpr htexts
        rw [revoke, hok] at hrevoke
        cases hrevoke
      refine Or.inl ⟨hrefused, ?_⟩
      cases hdelivery : c.delivery <;>
        simp only [perform, hdelivery, hrevoke, stored, true_and] <;> exact ⟨_, rfl⟩
  | ok db' =>
      have htexts := exists_revoke_iff.mp ⟨db', hrevoke⟩
      cases hdelivery : c.delivery with
      | undelivered fault =>
          refine Or.inl ⟨fun hexecuted => hexecuted.1 fault hdelivery, ?_⟩
          simp only [perform, hdelivery, true_and]
          exact ⟨_, rfl⟩
      | answered =>
          refine Or.inr ⟨⟨fun fault h => ?_, htexts⟩, ?_⟩
          · rw [hdelivery] at h
            cases h
          · simp only [perform, hdelivery, hrevoke, true_and]
      | unanswered fault =>
          refine Or.inr ⟨⟨fun fault h => ?_, htexts⟩, ?_⟩
          · rw [hdelivery] at h
            cases h
          · simp [perform, hdelivery, hrevoke, stored]

/-! ## Honest revocations -/

/-- The credential has a row that is marked as revoked. -/
def MarkedRevoked (id : String) (db : Database) : Prop :=
  ∃ row, db.credentials.lookup id = some row ∧ row.revoked = some true

/-- **What the answer of a call says is true**: no error means that the id has a row, which is
revoked now; and an id without a row is an error and changes nothing. -/
structure Truthful (db : Database) (c : RevokeCall) : Prop where
  success : (c.perform db).2 = .ok () →
    c.credID ∈ db.credentials ∧ MarkedRevoked c.credID (c.perform db).1
  missing : c.credID ∉ db.credentials →
    (∃ e, (c.perform db).2 = .error e) ∧ (c.perform db).1 = db

/-- **Revocations are final** between two tables: what is revoked in the first is revoked in the
second, at the same time and for the same reason. -/
def KeepsRevocations (db db' : Database) : Prop :=
  ∀ id row, db.credentials.lookup id = some row → row.revoked = some true →
    ∃ row', db'.credentials.lookup id = some row' ∧ row'.revoked = some true ∧
      row'.revokedAt = row.revokedAt ∧ row'.revokeReason = row.revokeReason

/-- **Revoking reports and records truthfully** in a sequence of calls: every answer is true, and
what is revoked at some point stays so, with its time and its reason, to the end. -/
structure RevokesHonestly (db : Database) (cs : List RevokeCall) : Prop where
  truthful : Along revokeStep Truthful db cs
  final : ∀ before since db₁ db₂, before ++ since <+: cs →
    run revokeStep db before = some db₁ → run revokeStep db₁ since = some db₂ →
    KeepsRevocations db₁ db₂

/-- **A call that is in order**: if its statement is executed and answered, its id has a row; and if
it is executed, that row is not revoked yet, or was revoked at this time for this reason. -/
structure Warranted (db : Database) (c : RevokeCall) : Prop where
  found : c.Executed → c.delivery = .answered → c.credID ∈ db.credentials
  fresh : c.Executed → ∀ row, db.credentials.lookup c.credID = some row →
    row.revoked = some true → row.revokedAt = some c.now ∧ row.revokeReason = some c.reason

theorem KeepsRevocations.refl (db : Database) : KeepsRevocations db db :=
  fun _ row hrow hrevoked => ⟨row, hrow, hrevoked, rfl, rfl⟩

theorem KeepsRevocations.trans {db₁ db₂ db₃ : Database} (h : KeepsRevocations db₁ db₂)
    (h' : KeepsRevocations db₂ db₃) : KeepsRevocations db₁ db₃ := by
  intro id row hrow hrevoked
  obtain ⟨row₂, hrow₂, hrevoked₂, hat₂, hreason₂⟩ := h id row hrow hrevoked
  obtain ⟨row₃, hrow₃, hrevoked₃, hat₃, hreason₃⟩ := h' id row₂ hrow₂ hrevoked₂
  exact ⟨row₃, hrow₃, hrevoked₃, hat₃.trans hat₂, hreason₃.trans hreason₂⟩

/-- The answer of a call is true exactly when the id has a row or success is not reported. -/
theorem truthful_iff :
    Truthful db c ↔ (c.Executed → c.delivery = .answered → c.credID ∈ db.credentials) := by
  rcases c.perform_cases db with ⟨hnot, hsame, e, herror⟩ | ⟨hexecuted, hrevoke, hanswer⟩
  · refine iff_of_true ⟨fun hok => ?_, fun _ => ⟨⟨e, herror⟩, hsame⟩⟩ fun h => absurd h hnot
    rw [herror] at hok
    cases hok
  · constructor
    · intro h _ hanswered
      exact (h.success (hanswer.mpr hanswered)).1
    · refine fun h => ⟨fun hok => ?_, fun hmissing => ⟨?_, revoke_of_missing hmissing hrevoke⟩⟩
      · have hmem := h hexecuted (hanswer.mp hok)
        obtain ⟨row, hrow⟩ := Option.isSome_iff_exists.mp (Finmap.lookup_isSome.mpr hmem)
        have hself := (revoke_eq_ok hrevoke).1
        rw [hrow, Option.map_some] at hself
        exact ⟨hmem, _, hself, rfl⟩
      · -- the answer was lost, or the id would have a row
        refine isError_iff.mpr fun _ hok => hmissing (h hexecuted (hanswer.mp hok))

/-- A call keeps the revocations there are exactly when it does not write over one. -/
theorem keepsRevocations_perform_iff : KeepsRevocations db (c.perform db).1 ↔
    (c.Executed → ∀ row, db.credentials.lookup c.credID = some row → row.revoked = some true →
      row.revokedAt = some c.now ∧ row.revokeReason = some c.reason) := by
  rcases c.perform_cases db with ⟨hnot, hsame, -⟩ | ⟨hexecuted, hrevoke, -⟩
  · rw [hsame]
    exact iff_of_true (.refl db) fun h => absurd h hnot
  · obtain ⟨hself, hothers⟩ := revoke_eq_ok hrevoke
    constructor
    · intro h _ row hrow hrevoked
      obtain ⟨row', hrow', -, hat, hreason⟩ := h c.credID row hrow hrevoked
      rw [hself, hrow, Option.map_some, Option.some.injEq] at hrow'
      subst hrow'
      exact ⟨hat.symm, hreason.symm⟩
    · intro h id row hrow hrevoked
      by_cases hid : id = c.credID
      · subst hid
        obtain ⟨hat, hreason⟩ := h hexecuted row hrow hrevoked
        rw [hrow, Option.map_some] at hself
        exact ⟨_, hself, rfl, hat.symm, hreason.symm⟩
      · exact ⟨row, (hothers id hid).trans hrow, hrevoked, rfl, rfl⟩

/-- **When revoking is honest**: in every sequence of calls, the answers are true and revocations
are final exactly when every call is in order. -/
theorem revokesHonestly_iff (db : Database) (cs : List RevokeCall) :
    RevokesHonestly db cs ↔ Along revokeStep Warranted db cs := by
  have hwarranted : (Warranted : Database → RevokeCall → Prop) = fun db c =>
      Truthful db c ∧ ∀ db', revokeStep db c = some db' → KeepsRevocations db db' := by
    funext db c
    simp only [revokeStep, Option.some.injEq, forall_eq', keepsRevocations_perform_iff,
      truthful_iff]
    exact propext ⟨fun h => ⟨h.found, h.fresh⟩, fun h => ⟨h.1, h.2⟩⟩
  rw [hwarranted, along_and,
    ← segments_iff_along KeepsRevocations.refl fun _ _ _ h h' => h.trans h']
  exact ⟨fun h => ⟨h.truthful, h.final⟩, fun h => ⟨h.1, h.2⟩⟩

/-- A database with one credential, which is not revoked. -/
def oneCredential : Database where
  userID := oneUser.userID
  credentials := Finmap.singleton "cred_1"
    { issuerID := "u1"
      subjectHash := "0xabc"
      credentialType := "identity"
      attributes := none
      issuedAt := 1
      expiresAt := none
      revoked := some false
      revokedAt := none
      revokeReason := none
      signature := "sig_cred_1"
      pqcSignature := some ""
      blockchainTxHash := none
      createdAt := 1
      updatedAt := 1 }

/-- A revocation of an id without a row. -/
def revokeMissing : RevokeCall := ⟨2, "cred_2", "fraud", .answered⟩

/-- Two revocations of the one credential, for two reasons. -/
def revokeTwice : List RevokeCall :=
  [⟨2, "cred_1", "fraud", .answered⟩, ⟨3, "cred_1", "typo", .answered⟩]

/-- **A revocation of nothing reports success, and a second one replaces the reason**: the id has
no row and no error is returned; and what was revoked for `"fraud"` at time `2` reads `"typo"` at
time `3`. -/
theorem revoke_reports_success :
    ("cred_2" ∉ oneCredential.credentials ∧
      (revokeMissing.perform oneCredential).2 = .ok () ∧
      ¬ RevokesHonestly oneCredential [revokeMissing]) ∧
    (∃ db, run revokeStep oneCredential (revokeTwice.take 1) = some db ∧
      (db.credentials.lookup "cred_1").map (fun row => (row.revokedAt, row.revokeReason)) =
        some (some 2, some "fraud")) ∧
    (∃ db, run revokeStep oneCredential revokeTwice = some db ∧
      (db.credentials.lookup "cred_1").map (fun row => (row.revokedAt, row.revokeReason)) =
        some (some 3, some "typo")) ∧
    ¬ RevokesHonestly oneCredential revokeTwice := by
  have hmissing : "cred_2" ∉ oneCredential.credentials := by decide
  refine ⟨⟨hmissing, rfl, fun h => ?_⟩, ⟨_, rfl, rfl⟩, ⟨_, rfl, rfl⟩, fun h => ?_⟩
  · exact hmissing (h.truthful.1.success rfl).1
  · obtain ⟨row', hrow', -, hat, -⟩ :=
      h.final (revokeTwice.take 1) (revokeTwice.drop 1) _ _ (List.prefix_refl _) rfl rfl "cred_1" _
        rfl rfl
    have hlate : row'.revokedAt = some 3 := congrArg Row.revokedAt (Option.some.inj hrow').symm
    rw [hlate] at hat
    cases hat

end ReputationPassport.CredentialService
