import ReputationPassport.Service.Credentials
import ReputationPassport.Sql.Pages

/-! # Listing the credentials of a subject

`ListBySubject` reads one page of the credentials of a subject, newest first. It never looks at
`rows.Err()`, so a page that is cut short by a failure is returned as if it were whole. With every
page received in full, the pages of a subject whose rows differ in `created_at` list each of its
credentials once, newest first (`pages_of_issued`), revoked ones included. -/

namespace ReputationPassport.CredentialRepository

open Machine Sql

/-- The columns `ListBySubject` scans into a credential; its other fields stay empty. -/
def Row.listed (id : String) (row : Row) : Except Sql.Error Credential := do
  let revoked ← Sql.scanBool 6 "revoked" row.revoked
  .ok { id, revoked
        issuerID := row.issuerID
        subjectHash := row.subjectHash
        credentialType := row.credentialType
        attributes := none
        issuedAt := row.issuedAt
        expiresAt := row.expiresAt
        revokedAt := none
        revokeReason := ""
        signature := ""
        pqcSignature := ""
        createdAt := row.createdAt
        updatedAt := row.updatedAt }

/-- The rows of a subject, in the order in which the database arranges them for one statement. -/
structure SortedRows (db : Database) (subjectHash : String) (rows : List (String × Row)) :
    Prop where
  nodup : rows.Nodup
  mem : ∀ id row, (id, row) ∈ rows ↔
    db.credentials.lookup id = some row ∧ row.subjectHash = subjectHash
  sorted : rows.Pairwise fun a b => b.2.createdAt ≤ a.2.createdAt

/-- `ListBySubject`, for a limit and an offset that are not negative: the statement arranged the
rows of the subject, and `received` of its page came back before a failure, or all. -/
def listBySubject (rows : List (String × Row)) (limit offset : Nat) (received : Option Nat) :
    Except Sql.Error (List Credential) :=
  let selected := page limit offset rows
  -- the loop over `rows.Next()`, after which `rows.Err()` is not checked
  (selected.take (received.getD selected.length)).mapM fun p => p.2.listed p.1

/-- The row tells whether its credential was revoked. -/
def Readable (db : Database) : Prop :=
  ∀ id row, db.credentials.lookup id = some row → row.revoked.isSome = true

/-- What a row is listed as. -/
def summary (id : String) (row : Row) : Credential where
  id := id
  issuerID := row.issuerID
  subjectHash := row.subjectHash
  credentialType := row.credentialType
  attributes := none
  issuedAt := row.issuedAt
  expiresAt := row.expiresAt
  revoked := row.revoked.getD false
  revokedAt := none
  revokeReason := ""
  signature := ""
  pqcSignature := ""
  createdAt := row.createdAt
  updatedAt := row.updatedAt

variable {db : Database} {subjectHash : String} {rows rows' : List (String × Row)}

/-- A row that tells whether its credential was revoked can be listed. -/
theorem listed_eq_ok {id : String} {row : Row} (h : row.revoked.isSome = true) :
    row.listed id = .ok (summary id row) := by
  obtain ⟨b, hb⟩ := Option.isSome_iff_exists.mp h
  simp only [Row.listed, summary, hb]
  rfl

/-- A loop that cannot fail collects its values. -/
theorem mapM_eq_ok {α β ε : Type} {f : α → Except ε β} {g : α → β} {l : List α}
    (h : ∀ a ∈ l, f a = .ok (g a)) : l.mapM f = .ok (l.map g) := by
  induction l with
  | nil => rfl
  | cons a l ih =>
      obtain ⟨ha, hl⟩ := List.forall_mem_cons.mp h
      rw [List.mapM_cons, ha, ih hl]
      rfl

/-- A page that is received in full lists its rows. -/
theorem listBySubject_eq_ok (hdb : Readable db) (hrows : SortedRows db subjectHash rows)
    (limit offset : Nat) : listBySubject rows limit offset none =
      .ok ((page limit offset rows).map fun p => summary p.1 p.2) := by
  rw [listBySubject]
  simp only [Option.getD_none, List.take_length]
  refine mapM_eq_ok fun p hp => listed_eq_ok (hdb p.1 p.2 ?_)
  have hmem : p ∈ rows := List.mem_of_mem_drop (List.mem_of_mem_take hp)
  exact ((hrows.mem p.1 p.2).mp hmem).1

/-- Two statements arrange the same rows. -/
theorem SortedRows.arranged (h : SortedRows db subjectHash rows)
    (h' : SortedRows db subjectHash rows') :
    Arranged (fun p : String × Row => p.2.createdAt) rows rows' :=
  ⟨(List.perm_ext_iff_of_nodup h'.nodup h.nodup).mpr fun p =>
    (h'.mem p.1 p.2).trans (h.mem p.1 p.2).symm, h'.sorted⟩

end ReputationPassport.CredentialRepository

namespace ReputationPassport.CredentialService

open Machine Sql CredentialRepository

variable {db db' : Database} {subjectHash : String}

/-- Every call leaves rows that can be listed. -/
theorem readable_step {a : Action} (h : Readable db) (hstep : step db a = some db') :
    Readable db' := by
  intro id row hrow
  -- the two statements that write the column write a value
  rcases row_of_step hstep hrow with hold | ⟨createdAt, updatedAt, c, hcreate⟩ |
    ⟨row₀, reason, now, -, rfl⟩
  · exact h id row hold
  · obtain ⟨key, created, -, -, hrevoked, -, -, rfl⟩ := create_eq_ok hcreate
    by_cases hid : id = key
    · rw [hid, Finmap.lookup_insert, Option.some.injEq] at hrow
      rw [← hrow, hrevoked]
      rfl
    · rw [Finmap.lookup_insert_of_ne _ hid] at hrow
      exact h id row hrow
  · rfl

/-- **The pages of a subject**, read by separate statements: together they list every credential
of the subject once, strictly newest first. -/
structure ListsAll (db : Database) (subjectHash : String) (all : List Credential) : Prop where
  newestFirst : all.Pairwise fun a b => b.createdAt < a.createdAt
  mem : ∀ c, c ∈ all ↔ ∃ row, db.credentials.lookup c.id = some row ∧
    row.subjectHash = subjectHash ∧ c = summary c.id row

/-- The rows of one statement, listed. -/
theorem listsAll_of_sortedRows {rows : List (String × Row)}
    (h : SortedRows db subjectHash rows)
    (hdistinct : ∀ a ∈ rows, ∀ b ∈ rows, a.2.createdAt = b.2.createdAt → a = b) :
    ListsAll db subjectHash (rows.map fun p => summary p.1 p.2) where
  newestFirst := by
    rw [List.pairwise_map]
    refine (h.sorted.and h.nodup).imp_of_mem fun {a b} ha hb hab => ?_
    exact lt_of_le_of_ne hab.1 fun heq => hab.2 (hdistinct a ha b hb heq.symm)
  mem c := by
    rw [List.mem_map]
    constructor
    · rintro ⟨⟨id, row⟩, hmem, rfl⟩
      obtain ⟨hrow, hsubject⟩ := (h.mem id row).mp hmem
      exact ⟨row, hrow, hsubject, rfl⟩
    · rintro ⟨row, hrow, hsubject, hc⟩
      exact ⟨(c.id, row), (h.mem c.id row).mpr ⟨hrow, hsubject⟩, hc.symm⟩

/-- **Listing is complete**: after any calls of the service, the pages of a subject whose rows
differ in `created_at` list all its credentials once, newest first, however each statement arranges
the rows and whatever was revoked. -/
theorem pages_of_issued (db₀ db : Database) (hempty : db₀.credentials = ∅) (as : List Action)
    (hrun : run step db₀ as = some db) (subjectHash : String) (n k : Nat)
    (rows : Nat → List (String × Row)) (hrows : ∀ i, SortedRows db subjectHash (rows i))
    (hdistinct : ∀ a ∈ rows 0, ∀ b ∈ rows 0, a.2.createdAt = b.2.createdAt → a = b)
    (hk : (rows 0).length ≤ k * n) :
    ∃ pages : Nat → List Credential,
      (∀ i, listBySubject (rows i) n (i * n) none = .ok (pages i)) ∧
      ListsAll db subjectHash ((List.range k).flatMap pages) := by
  have hreadable : Readable db := by
    refine run_invariant (fun _ _ _ h hstep => readable_step h hstep) ?_ hrun
    intro id row hrow
    rw [hempty, Finmap.lookup_empty] at hrow
    cases hrow
  refine ⟨fun i => (page n (i * n) (rows i)).map fun p => summary p.1 p.2,
    fun i => listBySubject_eq_ok hreadable (hrows i) n (i * n), ?_⟩
  -- the pages fit together, as parts of the one arrangement there is
  have hpages := flatMap_page_of_distinct (fun i => (hrows 0).arranged (hrows i)) hdistinct hk
  rw [← List.map_flatMap, hpages]
  exact listsAll_of_sortedRows (hrows 0) hdistinct

/-- Two credentials are issued for one subject. -/
def issueTwo : List Action :=
  [.issue (fun _ => 0) ⟨1, 1, 1⟩ "u1" "0xabc" "identity" none,
    .issue (fun _ => 1) ⟨2, 2, 2⟩ "u1" "0xabc" "age" none]

/-- The row of a credential issued at a time. -/
def rowAt (id credType : String) (time : Int) : Row where
  issuerID := "u1"
  subjectHash := "0xabc"
  credentialType := credType
  attributes := none
  issuedAt := time
  expiresAt := none
  revoked := some false
  revokedAt := none
  revokeReason := none
  signature := "sig_" ++ id
  pqcSignature := some ""
  blockchainTxHash := none
  createdAt := time
  updatedAt := time

/-- The first id, and the second. -/
def firstID : String := generateID "cred" fun _ => 0

def secondID : String := generateID "cred" fun _ => 1

/-- The two rows, newest first. -/
def twoRows : List (String × Row) :=
  [(secondID, rowAt secondID "age" 2), (firstID, rowAt firstID "identity" 1)]

/-- The database after both were issued. -/
def afterTwo : Database :=
  { oneUser with
    credentials := ((∅ : Finmap fun _ : String => Row).insert firstID
      (rowAt firstID "identity" 1)).insert secondID (rowAt secondID "age" 2) }

theorem sortedRows_afterTwo : SortedRows afterTwo "0xabc" twoRows where
  nodup := by
    rw [twoRows, List.nodup_cons, List.mem_singleton]
    refine ⟨fun h => absurd (congrArg (fun p => p.2.createdAt) h) (by decide), ?_⟩
    exact List.nodup_singleton _
  mem id row := by
    simp only [twoRows, List.mem_cons, List.not_mem_nil, or_false, Prod.mk.injEq, afterTwo]
    by_cases hsecond : id = secondID
    · subst hsecond
      have hne : secondID ≠ firstID := by decide
      rw [Finmap.lookup_insert]
      simp only [true_and, hne, false_and, or_false, Option.some.injEq]
      exact ⟨fun h => ⟨h.symm, h ▸ rfl⟩, fun h => h.1.symm⟩
    · rw [Finmap.lookup_insert_of_ne _ hsecond]
      by_cases hfirst : id = firstID
      · subst hfirst
        rw [Finmap.lookup_insert]
        simp only [hsecond, false_and, false_or, true_and, Option.some.injEq]
        exact ⟨fun h => ⟨h.symm, h ▸ rfl⟩, fun h => h.1.symm⟩
      · rw [Finmap.lookup_insert_of_ne _ hfirst, Finmap.lookup_empty]
        simp [hsecond, hfirst]
  sorted := by
    rw [twoRows, List.pairwise_pair]
    decide

theorem pages_of_issued_issueTwo :
    run step oneUser issueTwo = some afterTwo ∧
    ∃ pages : Nat → List Credential,
      (∀ i, listBySubject twoRows 1 (i * 1) none = .ok (pages i)) ∧
      ListsAll afterTwo "0xabc" ((List.range 2).flatMap pages) := by
  have hrun : run step oneUser issueTwo = some afterTwo := rfl
  refine ⟨hrun, pages_of_issued oneUser afterTwo rfl issueTwo hrun "0xabc" 1 2 (fun _ => twoRows)
    (fun _ => sortedRows_afterTwo) ?_ (by decide)⟩
  intro a ha b hb heq
  simp only [twoRows, List.mem_cons, List.not_mem_nil, or_false] at ha hb
  rcases ha with rfl | rfl <;> rcases hb with rfl | rfl
  · rfl
  · exact absurd heq (by decide)
  · exact absurd heq (by decide)
  · rfl

end ReputationPassport.CredentialService
