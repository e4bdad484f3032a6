import Mathlib.Data.Rat.Defs
import ReputationPassport.Go.Strings
import ReputationPassport.Machine.Fallible

/-! # The handlers of the API

`internal/handler`. The handlers answer a request from its path and its JSON body alone. Binding a
body checks that the required fields are not empty, and no more; three handlers then cut off a text
after eight bytes, which panics when it is shorter (`serve_panics_iff`).

Decoding a body and the text of a validation error belong to the libraries (`Binding`). Fields of a
request that no handler reads are left out. -/

namespace ReputationPassport.Handler

open Go Machine

/-- A value of `gin.H`. -/
inductive Json where
  | string (s : Bytes)
  | number (x : ℚ)
  | bool (b : Bool)
  | array (items : List Json)

/-- A status and the members of a JSON object. -/
structure Response where
  status : Nat
  body : List (String × Json)

/-- The body `IssueCredential` binds. -/
structure IssueRequest where
  subjectHash : Bytes
  credentialType : Bytes

/-- The body `VerifyCredential` binds. -/
structure VerifyRequest where
  credentialID : Bytes
  subjectHash : Bytes

/-- The body `RevokeCredential` binds. -/
structure RevokeRequest where
  reason : Bytes

/-- The body `AddEndorsement` binds. -/
structure EndorsementRequest where
  toHash : Bytes

/-- The body `UpdateProfile` binds. -/
structure ProfileRequest where
  displayName : Bytes

/-- What decoding leaves in a request, and the error if it fails. -/
abbrev Decoder (α : Type) : Type := Bytes → α × Option Bytes

/-- What the handlers use of the libraries: the decoders of the five bodies, and the text of a
validation error about required fields. -/
structure Binding where
  issueRequest : Decoder IssueRequest
  verifyRequest : Decoder VerifyRequest
  revokeRequest : Decoder RevokeRequest
  endorsementRequest : Decoder EndorsementRequest
  profileRequest : Decoder ProfileRequest
  requiredError : List String → Bytes

/-- `ShouldBindJSON`: decode the body, and check the fields with `binding:"required"`. -/
def shouldBindJSON {α : Type} (requiredError : List String → Bytes) (decode : Decoder α)
    (required : α → List (String × Bytes)) (body : Bytes) : α × Option Bytes :=
  match decode body with
  | (req, some e) => (req, some e)
  | (req, none) =>
      match (required req).filter fun field => field.2 = [] with
      | [] => (req, none)
      | missing => (req, some (requiredError (missing.map Prod.fst)))

/-- The required fields of `IssueCredential`. -/
def IssueRequest.required (req : IssueRequest) : List (String × Bytes) :=
  [("SubjectHash", req.subjectHash), ("CredentialType", req.credentialType)]

/-- The required fields of `VerifyCredential`. -/
def VerifyRequest.required (req : VerifyRequest) : List (String × Bytes) :=
  [("CredentialID", req.credentialID), ("SubjectHash", req.subjectHash)]

/-- The required field of `AddEndorsement`. -/
def EndorsementRequest.required (req : EndorsementRequest) : List (String × Bytes) :=
  [("ToHash", req.toHash)]

/-- The answer to a body that cannot be bound. -/
def badRequest (e : Bytes) : Response := ⟨400, [("error", .string e)]⟩

/-- A label and the first eight bytes of a text. -/
def shortened (label : String) (s : Bytes) : Except SliceBounds Bytes := do
  let head ← sliceTo s 8
  .ok (ascii label ++ head)

section Handlers

variable (lib : Binding)

/-- `IssueCredential` binds its body. -/
def bindIssue : Bytes → IssueRequest × Option Bytes :=
  shouldBindJSON lib.requiredError lib.issueRequest IssueRequest.required

/-- `AddEndorsement` binds its body. -/
def bindEndorsement : Bytes → EndorsementRequest × Option Bytes :=
  shouldBindJSON lib.requiredError lib.endorsementRequest EndorsementRequest.required

/-- `GetCredential`. -/
def getCredential (id : Bytes) : Response :=
  ⟨200, [("credential_id", .string id), ("status", .string (ascii "active"))]⟩

/-- `IssueCredential`. -/
def issueCredential (body : Bytes) : Except SliceBounds Response :=
  match bindIssue lib body with
  | (_, some e) => .ok (badRequest e)
  | (req, none) => do
      let credentialID ← shortened "cred_" req.subjectHash
      .ok ⟨201,
        [("credential_id", .string credentialID),
          ("subject_hash", .string req.subjectHash),
          ("credential_type", .string req.credentialType),
          ("status", .string (ascii "issued"))]⟩

/-- `VerifyCredential`. -/
def verifyCredential (body : Bytes) : Response :=
  match shouldBindJSON lib.requiredError lib.verifyRequest VerifyRequest.required body with
  | (_, some e) => badRequest e
  | (_, none) =>
      ⟨200,
        [("valid", .bool true),
          ("reason", .string (ascii "credential is active and verified"))]⟩

/-- `RevokeCredential`, which does not look at the error of binding. -/
def revokeCredential (id body : Bytes) : Response :=
  let (req, _) := shouldBindJSON lib.requiredError lib.revokeRequest (fun _ => []) body
  ⟨200, [("credential_id", .string id), ("revoked", .bool true), ("reason", .string req.reason)]⟩

/-- `GetReputation`. -/
def getReputation (hash : Bytes) : Response :=
  ⟨200,
    [("subject_hash", .string hash),
      ("overall_score", .number 0.85),
      ("reliability_score", .number 0.90),
      ("professionalism_score", .number 0.88),
      ("community_trust_score", .number 0.82),
      ("total_endorsements", .number 42),
      ("total_reviews", .number 128)]⟩

/-- `GetReputationHistory`. -/
def getReputationHistory (hash : Bytes) : Response :=
  ⟨200, [("subject_hash", .string hash), ("events", .array [])]⟩

/-- `AddEndorsement`. -/
def addEndorsement (body : Bytes) : Except SliceBounds Response :=
  match bindEndorsement lib body with
  | (_, some e) => .ok (badRequest e)
  | (req, none) => do
      let endorsementID ← shortened "end_" req.toHash
      .ok ⟨201,
        [("endorsement_id", .string endorsementID), ("status", .string (ascii "recorded"))]⟩

/-- `GetEndorsements`. -/
def getEndorsements (hash : Bytes) : Response :=
  ⟨200, [("subject_hash", .string hash), ("endorsements", .array []), ("total", .number 0)]⟩

/-- `GetProfile`. -/
def getProfile (id : Bytes) : Except SliceBounds Response := do
  let displayName ← shortened "Creator " id
  .ok ⟨200,
    [("profile_id", .string id),
      ("creator_hash", .string (ascii "0x" ++ id)),
      ("display_name", .string displayName),
      ("verified", .bool true),
      ("joined_at", .string (ascii "2026-01-01T00:00:00Z")),
      ("credentials_count", .number 5)]⟩

/-- `UpdateProfile`. -/
def updateProfile (id body : Bytes) : Response :=
  match shouldBindJSON lib.requiredError lib.profileRequest (fun _ => []) body with
  | (_, some e) => badRequest e
  | (req, none) =>
      ⟨200,
        [("profile_id", .string id),
          ("display_name", .string req.displayName),
          ("updated", .bool true)]⟩

end Handlers

/-- A request to a route under `/api/v1`, with what the handler takes from its path and its body. -/
inductive Request where
  | getCredential (id : Bytes)
  | issueCredential (body : Bytes)
  | verifyCredential (body : Bytes)
  | revokeCredential (id body : Bytes)
  | getReputation (hash : Bytes)
  | getReputationHistory (hash : Bytes)
  | addEndorsement (body : Bytes)
  | getEndorsements (hash : Bytes)
  | getProfile (id : Bytes)
  | updateProfile (id body : Bytes)

/-- The handler of each route. -/
def serve (lib : Binding) : Request → Except SliceBounds Response
  | .getCredential id => .ok (getCredential id)
  | .issueCredential body => issueCredential lib body
  | .verifyCredential body => .ok (verifyCredential lib body)
  | .revokeCredential id body => .ok (revokeCredential lib id body)
  | .getReputation hash => .ok (getReputation hash)
  | .getReputationHistory hash => .ok (getReputationHistory hash)
  | .addEndorsement body => addEndorsement lib body
  | .getEndorsements hash => .ok (getEndorsements hash)
  | .getProfile id => getProfile id
  | .updateProfile id body => .ok (updateProfile lib id body)

/-! ## Which requests panic -/

/-- The handler gets to its answer. -/
def Returns (answer : Except SliceBounds Response) : Prop := ∃ response, answer = .ok response

variable {lib : Binding} {body id : Bytes}

/-- **A text is shortened without a panic** exactly when it has eight bytes. -/
theorem returns_shortened_iff (label : String) (s : Bytes) (f : Bytes → Response) :
    Returns ((shortened label s).bind fun text => .ok (f text)) ↔ 8 ≤ s.length := by
  rw [← exists_sliceTo_iff]
  unfold Returns shortened
  constructor
  · rintro ⟨response, h⟩
    cases hslice : sliceTo s 8 with
    | ok head => exact ⟨head, rfl⟩
    | error e =>
        rw [hslice] at h
        cases h
  · rintro ⟨head, hslice⟩
    rw [hslice]
    exact ⟨_, rfl⟩

/-- A body is bound when it is decoded and none of its required fields is empty. -/
theorem shouldBindJSON_eq_none {α : Type} {requiredError : List String → Bytes}
    {decode : Decoder α} {required : α → List (String × Bytes)} {req : α} :
    shouldBindJSON requiredError decode required body = (req, none) ↔
      decode body = (req, none) ∧ ∀ field ∈ required req, field.2 ≠ [] := by
  unfold shouldBindJSON
  split
  · next req' e hdecode => simp [hdecode]
  · next req' hdecode =>
    have hfields : (required req').filter (fun field => field.2 = []) = [] ↔
        ∀ field ∈ required req', field.2 ≠ [] := by
      simp [List.filter_eq_nil_iff]
    rw [hdecode]
    split
    · next hnone =>
      constructor
      · intro h
        obtain ⟨rfl, -⟩ := Prod.mk.inj h
        exact ⟨rfl, hfields.mp hnone⟩
      · rintro ⟨h, -⟩
        exact h
    · next hmissing =>
      refine iff_of_false (fun h => ?_) fun h => ?_
      · cases (Prod.mk.inj h).2
      · obtain ⟨rfl, -⟩ := Prod.mk.inj h.1
        exact hmissing (hfields.mpr h.2)

theorem bindIssue_eq_none {req : IssueRequest} : bindIssue lib body = (req, none) ↔
    lib.issueRequest body = (req, none) ∧ req.subjectHash ≠ [] ∧ req.credentialType ≠ [] := by
  simp only [bindIssue, shouldBindJSON_eq_none, IssueRequest.required, List.forall_mem_cons,
    List.not_mem_nil, false_implies, implies_true, and_true]

theorem bindEndorsement_eq_none {req : EndorsementRequest} :
    bindEndorsement lib body = (req, none) ↔
      lib.endorsementRequest body = (req, none) ∧ req.toHash ≠ [] := by
  simp only [bindEndorsement, shouldBindJSON_eq_none, EndorsementRequest.required,
    List.forall_mem_cons, List.not_mem_nil, false_implies, implies_true, and_true]

/-- `IssueCredential` returns for a body it binds exactly when the subject hash has eight bytes. -/
theorem returns_issueCredential_iff {req : IssueRequest}
    (hbind : bindIssue lib body = (req, none)) :
    Returns (issueCredential lib body) ↔ 8 ≤ req.subjectHash.length := by
  rw [issueCredential, hbind]
  exact returns_shortened_iff _ _ _

/-- `AddEndorsement` returns for a body it binds exactly when the hash has eight bytes. -/
theorem returns_addEndorsement_iff {req : EndorsementRequest}
    (hbind : bindEndorsement lib body = (req, none)) :
    Returns (addEndorsement lib body) ↔ 8 ≤ req.toHash.length := by
  rw [addEndorsement, hbind]
  exact returns_shortened_iff _ _ _

/-- `GetProfile` returns exactly when the id has eight bytes. -/
theorem returns_getProfile_iff : Returns (getProfile id) ↔ 8 ≤ id.length :=
  returns_shortened_iff _ _ _

/-- **When the handlers return**: `IssueCredential`, `AddEndorsement` and `GetProfile` answer what
was bound, or the id of the path, without a panic exactly when the text they shorten has eight
bytes. -/
theorem handlers_return_iff (lib : Binding) :
    (∀ body req, bindIssue lib body = (req, none) →
      (Returns (issueCredential lib body) ↔ 8 ≤ req.subjectHash.length)) ∧
    (∀ body req, bindEndorsement lib body = (req, none) →
      (Returns (addEndorsement lib body) ↔ 8 ≤ req.toHash.length)) ∧
    ∀ id, Returns (getProfile id) ↔ 8 ≤ id.length :=
  ⟨fun _ _ hbind => returns_issueCredential_iff hbind,
    fun _ _ hbind => returns_addEndorsement_iff hbind, fun _ => returns_getProfile_iff⟩

/-- A JSON string without escapes, and what follows it. -/
def scanString : Bytes → Option (Bytes × Bytes)
  | 0x22 :: s =>
      match s.dropWhile (· ≠ 0x22) with
      | _ :: rest => some (s.takeWhile (· ≠ 0x22), rest)
      | [] => none
  | _ => none

/-- The members of a JSON object behind its opening brace, up to `fuel` of them, if all are
strings. -/
def scanMembers : Nat → Bytes → Option (List (Bytes × Bytes))
  | 0, _ => none
  | fuel + 1, s =>
      match scanString s with
      | some (name, 0x3a :: s) =>
          match scanString s with
          | some (value, [0x7d]) => some [(name, value)]
          | some (value, 0x2c :: s) => (scanMembers fuel s).map ((name, value) :: ·)
          | _ => none
      | _ => none

/-- Decode a JSON object of strings that is written without blanks and escapes; the last of several
members with one name counts, and one that is missing is empty. -/
def decodeStrings {α : Type} (make : (String → Bytes) → α) : Decoder α
  | 0x7b :: s =>
      match scanMembers s.length s with
      | some members => (make fun name => (members.reverse.lookup (ascii name)).getD [], none)
      | none => (make fun _ => [], some (ascii "invalid JSON"))
  | _ => (make fun _ => [], some (ascii "invalid JSON"))

/-- Libraries that decode such objects and refuse other bodies. -/
def sampleBinding : Binding where
  issueRequest := decodeStrings fun get => ⟨get "subject_hash", get "credential_type"⟩
  verifyRequest := decodeStrings fun get => ⟨get "credential_id", get "subject_hash"⟩
  revokeRequest := decodeStrings fun get => ⟨get "reason"⟩
  endorsementRequest := decodeStrings fun get => ⟨get "to_hash"⟩
  profileRequest := decodeStrings fun get => ⟨get "display_name"⟩
  requiredError fields := (ascii "\n").intercalate <| fields.map fun field =>
    ascii "Key: '" ++ ascii field ++ ascii "' Error:Field validation for '" ++ ascii field ++
      ascii "' failed on the 'required' tag"

/-- The body of a request for an identity credential. -/
def issueBody (subjectHash : String) : Bytes :=
  ascii "\x7b\"subject_hash\":\"" ++ ascii subjectHash ++
    ascii "\",\"credential_type\":\"identity\"\x7d"

/-- The body of an endorsement. -/
def endorsementBody (toHash : String) : Bytes :=
  ascii "\x7b\"to_hash\":\"" ++ ascii toHash ++ ascii "\"\x7d"

/-- The equivalences for the hash `"0xabc123def456"`. -/
theorem handlers_return_iff_longHash :
    (Returns (issueCredential sampleBinding (issueBody "0xabc123def456")) ↔
      8 ≤ (ascii "0xabc123def456").length) ∧
    (Returns (addEndorsement sampleBinding (endorsementBody "0xabc123def456")) ↔
      8 ≤ (ascii "0xabc123def456").length) ∧
    (Returns (getProfile (ascii "0xabc123def456")) ↔ 8 ≤ (ascii "0xabc123def456").length) :=
  ⟨(handlers_return_iff sampleBinding).1 _ ⟨ascii "0xabc123def456", ascii "identity"⟩ rfl,
    (handlers_return_iff sampleBinding).2.1 _ ⟨ascii "0xabc123def456"⟩ rfl,
    (handlers_return_iff sampleBinding).2.2 _⟩

/-- **A short text panics**: the body binds, and the handler slices it out of bounds. -/
theorem short_hash_panics :
    (bindIssue sampleBinding (issueBody "0xabc")).2 = none ∧
    issueCredential sampleBinding (issueBody "0xabc") = .error ⟨8, 5⟩ ∧
    (bindEndorsement sampleBinding (endorsementBody "0xabc")).2 = none ∧
    addEndorsement sampleBinding (endorsementBody "0xabc") = .error ⟨8, 5⟩ ∧
    getProfile (ascii "1") = .error ⟨8, 1⟩ ∧
    ¬ ∀ (lib : Binding) (body : Bytes) (req : IssueRequest), bindIssue lib body = (req, none) →
      Returns (issueCredential lib body) := by
  refine ⟨rfl, rfl, rfl, rfl, rfl, fun h => ?_⟩
  obtain ⟨response, hresponse⟩ := h sampleBinding (issueBody "0xabc")
    ⟨ascii "0xabc", ascii "identity"⟩ rfl
  cases hresponse

/-- The request has a text that is not empty, where that is required, and shorter than the eight
bytes its handler cuts off. -/
def Request.Short (lib : Binding) : Request → Prop
  | .issueCredential body => ∃ req, lib.issueRequest body = (req, none) ∧
      req.subjectHash ≠ [] ∧ req.credentialType ≠ [] ∧ req.subjectHash.length < 8
  | .addEndorsement body => ∃ req, lib.endorsementRequest body = (req, none) ∧
      req.toHash ≠ [] ∧ req.toHash.length < 8
  | .getProfile id => id.length < 8
  | _ => False

/-- A handler that answers a body it cannot bind panics exactly when it binds a short text. -/
theorem not_returns_iff {α : Type} {bound : α × Option Bytes} {text : α → Bytes}
    {answer : Except SliceBounds Response}
    (hreturns : ∀ req, bound = (req, none) → (Returns answer ↔ 8 ≤ (text req).length))
    (hanswered : ∀ req e, bound = (req, some e) → Returns answer) :
    ¬ Returns answer ↔ ∃ req, bound = (req, none) ∧ (text req).length < 8 := by
  constructor
  · intro hpanics
    obtain ⟨req, err⟩ := bound
    cases err with
    | none => exact ⟨req, rfl, Nat.lt_of_not_le fun h => hpanics ((hreturns req rfl).mpr h)⟩
    | some e => exact absurd (hanswered req e rfl) hpanics
  · rintro ⟨req, hbound, hlt⟩ h
    exact absurd ((hreturns req hbound).mp h) (Nat.not_le.mpr hlt)

/-- **Which requests panic**: those of three routes, with a short text, and no others. -/
theorem serve_panics_iff (lib : Binding) (request : Request) :
    ¬ Returns (serve lib request) ↔ request.Short lib := by
  have hreturns : ∀ response, ¬ ¬ Returns (.ok response) := fun response h => h ⟨response, rfl⟩
  cases request with
  | issueCredential body =>
      have hshort : Request.Short lib (.issueCredential body) ↔
          ∃ req, bindIssue lib body = (req, none) ∧ req.subjectHash.length < 8 := by
        simp only [Request.Short, bindIssue_eq_none, and_assoc]
      rw [hshort]
      refine not_returns_iff (fun req hbind => returns_issueCredential_iff hbind)
        fun req e hbind => ?_
      exact ⟨badRequest e, by rw [serve, issueCredential, hbind]⟩
  | addEndorsement body =>
      have hshort : Request.Short lib (.addEndorsement body) ↔
          ∃ req, bindEndorsement lib body = (req, none) ∧ req.toHash.length < 8 := by
        simp only [Request.Short, bindEndorsement_eq_none, and_assoc]
      rw [hshort]
      refine not_returns_iff (fun req hbind => returns_addEndorsement_iff hbind)
        fun req e hbind => ?_
      exact ⟨badRequest e, by rw [serve, addEndorsement, hbind]⟩
  | getProfile id => rw [serve, returns_getProfile_iff, Nat.not_le, Request.Short]
  | getCredential id => exact iff_of_false (hreturns _) not_false
  | verifyCredential body => exact iff_of_false (hreturns _) not_false
  | revokeCredential id body => exact iff_of_false (hreturns _) not_false
  | getReputation hash => exact iff_of_false (hreturns _) not_false
  | getReputationHistory hash => exact iff_of_false (hreturns _) not_false
  | getEndorsements hash => exact iff_of_false (hreturns _) not_false
  | updateProfile id body => exact iff_of_false (hreturns _) not_false

end ReputationPassport.Handler
