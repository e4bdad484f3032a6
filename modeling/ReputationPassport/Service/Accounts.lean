import ReputationPassport.Repository.Users
import ReputationPassport.Service.Credentials

/-! # Users and the credentials they issue

The users table and the credentials table, with the calls that write them in any order. Rows of
users are only ever added, with keys nobody has, so a user is found under its id and its email
whatever happens later (`account_kept`); and the foreign key of a credential leads to a user that
can be read (`issuers_exist`). -/

namespace ReputationPassport.Accounts

open Machine UserRepository

/-- The two tables. -/
structure Store where
  users : List Row
  credentials : Finmap fun _ : String => CredentialRepository.Row

/-- The tables right after the migrations. -/
def Store.empty : Store := ⟨[], ∅⟩

/-- A call that writes. -/
inductive Action where
  | create (u : User)
  | credential (action : CredentialService.Action)

variable (uuid : String → Option String)

/-- The database as the credentials see it: a text refers to the user whose id it denotes. -/
def Store.database (s : Store) : CredentialRepository.Database where
  userID text := (uuid text).filter fun id => s.users.any fun row => row.id = id
  credentials := s.credentials

/-- Perform a call; one that fails leaves the tables as they are. -/
def step (s : Store) : Action → Option Store
  | .create u =>
      match create uuid s.users u with
      | .ok users => some { s with users }
      | .error _ => some s
  | .credential action => do
      let db ← CredentialService.step (s.database uuid) action
      some { s with credentials := db.credentials }

variable {uuid} {s s' : Store} {row : Row}

/-- Every credential was issued by a user in the table. -/
def Issued (s : Store) : Prop :=
  ∀ id c, s.credentials.lookup id = some c → ∃ row ∈ s.users, row.id = c.issuerID

/-- A row as `Create` writes it: it can be scanned, its email is a text, and its id is in the form
of the database. -/
structure Written (uuid : String → Option String) (row : Row) : Prop where
  id : uuid row.id = some row.id
  email : Sql.text row.email = .ok row.email
  scan : ∃ v, row.scan = .ok v

/-- **The invariant** of the two tables. -/
structure Sound (uuid : String → Option String) (s : Store) : Prop where
  distinct : Distinct s.users
  written : ∀ row ∈ s.users, Written uuid row
  issued : Issued s

/-! ## One call -/

/-- What `Create` writes is well formed, if a form of an id denotes that id. -/
theorem written_of_columns (hform : ∀ text id, uuid text = some id → uuid id = some id) {u : User}
    (h : columns uuid u = .ok row) : Written uuid row := by
  obtain ⟨hid, hemail, hverified, role, hrole⟩ := columns_eq_ok h
  refine ⟨hform u.id row.id hid, Sql.text_stored hemail, ?_⟩
  simp only [Row.scan, hverified, hrole]
  exact ⟨_, rfl⟩

/-- The issuer of a credential that was just created is a user, as the foreign key demands. -/
theorem issuer_of_create {db db' : CredentialRepository.Database} {createdAt updatedAt : Int}
    {cred : CredentialRepository.Credential}
    (h : CredentialRepository.create db createdAt updatedAt cred = .ok db') {id : String}
    {c : CredentialRepository.Row} (hc : db'.credentials.lookup id = some c) :
    db.credentials.lookup id = some c ∨ db.userID cred.issuerID = some c.issuerID := by
  simp only [CredentialRepository.create, bind_eq_ok] at h
  obtain ⟨key, -, _, -, _, -, _, -, _, -, h⟩ := h
  split at h
  · cases h
  · next issuer hissuer =>
    split at h
    · cases h
    · obtain rfl := Except.ok.inj h
      by_cases hid : id = key
      · rw [hid, Finmap.lookup_insert, Option.some.injEq] at hc
        exact Or.inr (by rw [hissuer, ← hc])
      · rw [Finmap.lookup_insert_of_ne _ hid] at hc
        exact Or.inl hc

/-- A call about the credentials leaves every credential with an issuer. -/
theorem Issued.credential (h : Issued s) {a : CredentialService.Action}
    {db : CredentialRepository.Database}
    (hstep : CredentialService.step (s.database uuid) a = some db) :
    Issued { s with credentials := db.credentials } := by
  intro id c hc
  rcases CredentialService.row_of_step hstep hc with hold | ⟨createdAt, updatedAt, cred, hcreate⟩ |
    ⟨c₀, reason, now, hold, rfl⟩
  · exact h id c hold
  · rcases issuer_of_create hcreate hc with hold | hissuer
    · exact h id c hold
    · -- the database found the user the text refers to
      obtain ⟨-, hany⟩ := Option.filter_eq_some_iff.mp hissuer
      obtain ⟨row, hrow, hid⟩ := List.any_eq_true.mp hany
      exact ⟨row, hrow, of_decide_eq_true hid⟩
  · exact h id c₀ hold

/-- **Every call keeps the invariant.** -/
theorem Sound.step (hform : ∀ text id, uuid text = some id → uuid id = some id)
    (h : Sound uuid s) {a : Action} (hstep : Accounts.step uuid s a = some s') :
    Sound uuid s' := by
  cases a with
  | create u =>
      cases hcreate : create uuid s.users u with
      | error e =>
          simp only [Accounts.step, hcreate, Option.some.injEq] at hstep
          exact hstep ▸ h
      | ok users =>
          simp only [Accounts.step, hcreate, Option.some.injEq] at hstep
          subst hstep
          refine ⟨h.distinct.create hcreate, ?_, ?_⟩
          · obtain ⟨row, hcolumns, -, rfl⟩ := create_eq_ok.mp hcreate
            intro other hother
            rcases List.mem_append.mp hother with hold | hnew
            · exact h.written other hold
            · rw [List.mem_singleton.mp hnew]
              exact written_of_columns hform hcolumns
          · obtain ⟨row, -, -, rfl⟩ := create_eq_ok.mp hcreate
            intro id c hc
            obtain ⟨other, hother, hid⟩ := h.issued id c hc
            exact ⟨other, List.mem_append_left _ hother, hid⟩
  | credential action =>
      simp only [Accounts.step, Option.bind_eq_bind, Option.bind_eq_some_iff,
        Option.some.injEq] at hstep
      obtain ⟨db, hdb, rfl⟩ := hstep
      exact ⟨h.distinct, h.written, h.issued.credential hdb⟩

/-- A call leaves the users there are. -/
theorem users_step {a : Action} (hstep : Accounts.step uuid s a = some s') :
    s.users ⊆ s'.users := by
  cases a with
  | create u =>
      cases hcreate : create uuid s.users u with
      | error e =>
          simp only [Accounts.step, hcreate, Option.some.injEq] at hstep
          exact hstep ▸ List.Subset.refl _
      | ok users =>
          simp only [Accounts.step, hcreate, Option.some.injEq] at hstep
          obtain ⟨row, -, -, rfl⟩ := create_eq_ok.mp hcreate
          subst hstep
          exact List.subset_append_left _ _
  | credential action =>
      simp only [Accounts.step, Option.bind_eq_bind, Option.bind_eq_some_iff,
        Option.some.injEq] at hstep
      obtain ⟨db, -, rfl⟩ := hstep
      exact List.Subset.refl _

/-! ## Every run -/

/-- The invariant holds after every run. -/
theorem sound_run (hform : ∀ text id, uuid text = some id → uuid id = some id)
    {as : List Action} (hrun : run (step uuid) Store.empty as = some s) : Sound uuid s := by
  refine run_invariant (fun _ _ _ h hstep => h.step hform hstep) ?_ hrun
  refine ⟨List.Pairwise.nil, fun _ hrow => absurd hrow List.not_mem_nil, fun id c hc => ?_⟩
  rw [Store.empty, Finmap.lookup_empty] at hc
  cases hc

/-- **An account that can be found**: under every text that denotes its id, and under its email. -/
structure Found (uuid : String → Option String) (s : Store) (v : User) : Prop where
  byID : ∀ text, uuid text = some v.id → getByID uuid s.users text = .ok v
  byEmail : getByEmail s.users v.email = .ok v

/-- Whoever is in the table can be found. -/
theorem Sound.found (h : Sound uuid s) (hrow : row ∈ s.users) :
    ∃ v, row.scan = .ok v ∧ v.id = row.id ∧ v.email = row.email ∧ Found uuid s v := by
  obtain ⟨v, hv⟩ := (h.written row hrow).scan
  have hkeys : v.id = row.id ∧ v.email = row.email := by
    simp only [Row.scan, bind_eq_ok, Except.ok.injEq] at hv
    obtain ⟨verified, -, role, -, rfl⟩ := hv
    exact ⟨rfl, rfl⟩
  refine ⟨v, hv, hkeys.1, hkeys.2, ⟨fun text htext => ?_, ?_⟩⟩
  · rw [getByID_of_mem h.distinct hrow (hkeys.1 ▸ htext), hv]
  · rw [hkeys.2, getByEmail_of_mem h.distinct hrow (h.written row hrow).email, hv]

/-- **Accounts are kept**: a user that was created is found under its id, in whatever form that is
written, and under its email, whatever users and credentials are written later; and what is found
is what was stored when it was created. -/
theorem account_kept (uuid : String → Option String)
    (hform : ∀ text id, uuid text = some id → uuid id = some id) (before after : List Action)
    (s₁ s : Store) (u : User) (users : List Row)
    (hbefore : run (step uuid) Store.empty before = some s₁)
    (hcreate : create uuid s₁.users u = .ok users)
    (hafter : run (step uuid) { s₁ with users } after = some s) :
    ∃ row v, columns uuid u = .ok row ∧ row.scan = .ok v ∧ uuid u.id = some v.id ∧
      Sql.varchar 255 u.email = .ok v.email ∧ Found uuid s v := by
  obtain ⟨row, hcolumns, -, rfl⟩ := create_eq_ok.mp hcreate
  have hstep : step uuid s₁ (.create u) = some { s₁ with users := s₁.users ++ [row] } := by
    simp only [step, hcreate]
  have hrun : run (step uuid) Store.empty (before ++ .create u :: after) = some s :=
    run_append_eq_some.mpr ⟨s₁, hbefore, run_cons_eq_some.mpr ⟨_, hstep, hafter⟩⟩
  -- no later call takes the row away
  have hmem : row ∈ s.users :=
    run_rel (I := fun _ => True) (R := fun s s' : Store => s.users ⊆ s'.users)
      (fun _ => List.Subset.refl _) (fun _ _ _ => List.Subset.trans) (fun _ _ _ _ _ => trivial)
      (fun _ _ _ _ h => users_step h) trivial hafter
      (List.mem_append_right _ (List.mem_singleton_self row))
  obtain ⟨v, hv, hid, hemail, hfound⟩ := (sound_run hform hrun).found hmem
  obtain ⟨huuid, hvarchar, -, -⟩ := columns_eq_ok hcolumns
  exact ⟨row, v, hcolumns, hv, hid ▸ huuid, hemail ▸ hvarchar, hfound⟩

/-- **Every credential has an issuer who can be found**, after every run. -/
theorem issuers_exist (uuid : String → Option String)
    (hform : ∀ text id, uuid text = some id → uuid id = some id) (as : List Action) (s : Store)
    (hrun : run (step uuid) Store.empty as = some s) (id : String)
    (c : CredentialRepository.Row) (hc : s.credentials.lookup id = some c) :
    ∃ v, v.id = c.issuerID ∧ getByID uuid s.users c.issuerID = .ok v ∧ Found uuid s v := by
  have hsound := sound_run hform hrun
  obtain ⟨row, hrow, hid⟩ := hsound.issued id c hc
  obtain ⟨v, -, hv, -, hfound⟩ := hsound.found hrow
  have hissuer : v.id = c.issuerID := hv.trans hid
  refine ⟨v, hissuer, ?_, hfound⟩
  exact hfound.byID c.issuerID (by rw [hissuer, ← hid, (hsound.written row hrow).id])

/-! ## One user and one credential -/

/-- An id as the database writes it. -/
def lowerID : String := "a0eebc99-9c0b-4ef8-bb6d-6bb9bd380a11"

/-- The same id in capitals. -/
def upperID : String := "A0EEBC99-9C0B-4EF8-BB6D-6BB9BD380A11"

/-- Reading these two texts as a `UUID`. -/
def sampleUuid (s : String) : Option String :=
  if s = lowerID ∨ s = upperID then some lowerID else none

theorem sampleUuid_form (text id : String) (h : sampleUuid text = some id) :
    sampleUuid id = some id := by
  unfold sampleUuid at h
  split at h
  · obtain rfl := Option.some.inj h
    exact if_pos (Or.inl rfl)
  · cases h

/-- A user whose id is given in capitals. -/
def sampleUser : User where
  id := upperID
  email := "a@example.org"
  passwordHash := "hash"
  displayName := "A"
  creatorHash := "0xabc"
  verified := false
  role := "creator"
  createdAt := 1
  updatedAt := 1

/-- The user issues a credential. -/
def sampleIssue : Action :=
  .credential (.issue (fun _ => 0) ⟨2, 2, 2⟩ upperID "0xabc" "identity" none)

theorem account_kept_sampleUser : ∃ users s v,
    create sampleUuid [] sampleUser = .ok users ∧
    run (step sampleUuid) { Store.empty with users } [sampleIssue] = some s ∧
    v.id = lowerID ∧ getByID sampleUuid s.users upperID = .ok v := by
  obtain ⟨users, s, hcreate, hrun⟩ : ∃ users s, create sampleUuid [] sampleUser = .ok users ∧
      run (step sampleUuid) { Store.empty with users } [sampleIssue] = some s := ⟨_, _, rfl, rfl⟩
  obtain ⟨row, v, -, -, hid, -, hfound⟩ := account_kept sampleUuid sampleUuid_form [] [sampleIssue]
    Store.empty s sampleUser users rfl hcreate hrun
  have hlower : v.id = lowerID := Option.some.inj (hid.symm.trans rfl)
  exact ⟨users, s, v, hcreate, hrun, hlower, hfound.byID upperID hid⟩

theorem issuers_exist_sampleIssue : ∃ s c v,
    run (step sampleUuid) Store.empty [.create sampleUser, sampleIssue] = some s ∧
    s.credentials.lookup "cred_00000000000000000000000000000000" = some c ∧
    getByID sampleUuid s.users c.issuerID = .ok v := by
  obtain ⟨s, c, hrun, hc⟩ : ∃ s c,
      run (step sampleUuid) Store.empty [.create sampleUser, sampleIssue] = some s ∧
      s.credentials.lookup "cred_00000000000000000000000000000000" = some c := ⟨_, _, rfl, rfl⟩
  obtain ⟨v, -, hv, -⟩ := issuers_exist sampleUuid sampleUuid_form [.create sampleUser, sampleIssue]
    s hrun "cred_00000000000000000000000000000000" c hc
  exact ⟨s, c, v, hrun, hc, hv⟩

end ReputationPassport.Accounts
