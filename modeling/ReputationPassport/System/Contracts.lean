import ReputationPassport.Attestation.Registry
import ReputationPassport.Endorsement.Registry
import ReputationPassport.Facade.Deployment
import ReputationPassport.Machine.Component
import ReputationPassport.Oracle.Contract

/-! # The contracts together

The six contracts as the deployment scripts put them on one chain: `PassportFacade` with the
references it was constructed with, the contracts behind them, and any account calling any of them
in any order. A call of the facade is one message call of its own; the receiver of a mint or of a
safe transfer can call every contract before the call is done.

Each contract but the facade is a component of the system (`passportComponent` and its siblings), so
what is proved of it alone holds of it here. -/

namespace ReputationPassport.System

open Evm Machine OpenZeppelin

/-- The storage of the six contracts; the facade, the DAO and the token are in `core`. -/
structure State where
  core : PassportFacade.Deployment
  reputation : ReputationOracle.State
  endorsements : EndorsementRegistry.State
  attestations : AttestationRegistry.State

/-- The calls that change the storage. -/
inductive Call where
  | core (call : PassportFacade.Call)
  | reputation (fn : ReputationOracle.Fn)
  | endorsements (fn : EndorsementRegistry.Fn)
  | attestations (fn : AttestationRegistry.Fn)

/-- What a call returns: an id, a uid, or nothing. -/
inductive Value where
  | id (r : Option Nat)
  | uid (r : Option Bytes32)
  | unit
  deriving DecidableEq

/-- The id a call returned. -/
def Value.toId : Value → Option Nat
  | .id r => r
  | _ => none

/-- The uid a call returned. -/
def Value.toUid : Value → Option Bytes32
  | .uid r => r
  | _ => none

/-- The contracts right after their constructors, all called by one deployer; `self` is the address
of the facade. -/
def deploy (self deployer : Account) : State where
  core := PassportFacade.Deployment.deploy self deployer deployer deployer
  reputation := ReputationOracle.deploy deployer
  endorsements := EndorsementRegistry.deploy deployer
  attestations := AttestationRegistry.deploy deployer

/-- How far a call of the core gets, seen from the system. -/
def State.withCore (s : State) :
    Progress PassportFacade.Deployment PassportSBT.Rest (Option Nat) →
      Progress State PassportSBT.Rest Value
  | .done core r => .done { s with core } (.id r)
  | .calls core rest => .calls { s with core } rest

section Calls

variable (keccak256 : Bytes → Bytes32)

/-- Start a call: run it until it returns or calls the receiver of a token. -/
def start (b : Block) (s : State) (c : Message Call) :
    Result (Progress State PassportSBT.Rest Value) :=
  match c.fn with
  | .core call => do
      let p ← PassportFacade.start b s.core ⟨c.sender, call⟩
      pure (s.withCore p)
  | .reputation fn => do
      let (reputation, _) ← ReputationOracle.exec b s.reputation ⟨c.sender, fn⟩
      pure (.done { s with reputation } .unit)
  | .endorsements fn => do
      let (endorsements, r) ← EndorsementRegistry.exec b s.endorsements ⟨c.sender, fn⟩
      pure (.done { s with endorsements } (.id r))
  | .attestations fn => do
      let (attestations, r) ← AttestationRegistry.exec keccak256 b s.attestations ⟨c.sender, fn⟩
      pure (.done { s with attestations } (.uid r))

/-- Resume a call after the receiver has returned. -/
def resume (b : Block) (s : State) (rest : PassportSBT.Rest) : Result (State × Value) := do
  let (core, r) ← PassportFacade.resume b s.core rest
  pure ({ s with core }, .id r)

/-- The contracts as one. -/
def contract : Contract State (Message Call) PassportSBT.Rest Value (Revert OzError) :=
  ⟨start keccak256, resume⟩

end Calls

/-- A state of the system, in between or inside transactions. -/
abbrev Stack : Type := CallStack State (Message Call) PassportSBT.Rest Value

/-- A successful call of the system. -/
abbrev SystemCall : Type := Entry (Message Call) Value

/-- `PassportFacade.getPassportInfo`. -/
def getPassportInfo (s : State) (tokenId : Nat) : Result PassportSBT.CredentialInfo :=
  PassportSBT.getCredentialInfo s.core.passport tokenId

/-- What `getSubjectProfile` returns. -/
structure SubjectProfile where
  repData : ReputationOracle.ReputationData
  endorsementCount : Nat
  totalEndorsementWeight : Nat
  attestationIds : List Bytes32
  deriving DecidableEq

/-- `PassportFacade.getSubjectProfile`. -/
def getSubjectProfile (s : State) (subjectHash : Bytes) : SubjectProfile where
  repData := ReputationOracle.getReputation s.reputation subjectHash
  endorsementCount := EndorsementRegistry.getEndorsementCount s.endorsements subjectHash
  totalEndorsementWeight := EndorsementRegistry.getTotalWeight s.endorsements subjectHash
  attestationIds := AttestationRegistry.getSubjectAttestations s.attestations subjectHash

/-! ## The calls the contracts see -/

/-- The call of the token a call of the system makes: a direct one, or the mint of the facade. -/
def passportCall (self : Account) (c : Message Call) : Option (Message PassportSBT.Fn) :=
  match c.fn with
  | .core (.passport fn) => some ⟨c.sender, fn⟩
  | .core (.issuePassport to' subjectHash credentialType uri expiresAt) =>
      some ⟨self, .safeMint to' subjectHash credentialType uri expiresAt⟩
  | _ => none

/-- The call of the DAO a call of the system makes: a direct one, or the filing of the facade. -/
def disputesCall (self : Account) (c : Message Call) : Option (Message DisputeResolutionDAO.Fn) :=
  match c.fn with
  | .core (.world (.direct fn)) => some ⟨c.sender, fn⟩
  | .core (.world (.fileDispute defendant subjectHash description)) =>
      some ⟨self, .fileDispute defendant subjectHash description⟩
  | _ => none

/-- The call of the oracle. -/
def reputationCall (c : Message Call) : Option (Message ReputationOracle.Fn) :=
  match c.fn with
  | .reputation fn => some ⟨c.sender, fn⟩
  | _ => none

/-- The call of the endorsement registry. -/
def endorsementsCall (c : Message Call) : Option (Message EndorsementRegistry.Fn) :=
  match c.fn with
  | .endorsements fn => some ⟨c.sender, fn⟩
  | _ => none

/-- The call of the attestation registry. -/
def attestationsCall (c : Message Call) : Option (Message AttestationRegistry.Fn) :=
  match c.fn with
  | .attestations fn => some ⟨c.sender, fn⟩
  | _ => none

/-- The contract whose storage a call concerns. -/
inductive Target where
  | passport
  | disputes
  | facade
  | reputation
  | endorsements
  | attestations
  deriving DecidableEq

/-- The contract a call ends up in. -/
def Call.target : Call → Target
  | .core (.passport _) => .passport
  | .core (.issuePassport ..) => .passport
  | .core (.world (.direct _)) => .disputes
  | .core (.world (.fileDispute ..)) => .disputes
  | .core (.world (.role _)) => .facade
  | .reputation _ => .reputation
  | .endorsements _ => .endorsements
  | .attestations _ => .attestations

section Target

variable {self : Account} {c : Message Call}

theorem passportCall_eq_none_iff : passportCall self c = none ↔ c.fn.target ≠ .passport := by
  unfold passportCall Call.target
  split <;> grind

theorem disputesCall_eq_none_iff : disputesCall self c = none ↔ c.fn.target ≠ .disputes := by
  unfold disputesCall Call.target
  split <;> grind

theorem reputationCall_eq_none_iff : reputationCall c = none ↔ c.fn.target ≠ .reputation := by
  unfold reputationCall Call.target
  split <;> grind

theorem endorsementsCall_eq_none_iff :
    endorsementsCall c = none ↔ c.fn.target ≠ .endorsements := by
  unfold endorsementsCall Call.target
  split <;> grind

theorem attestationsCall_eq_none_iff :
    attestationsCall c = none ↔ c.fn.target ≠ .attestations := by
  unfold attestationsCall Call.target
  split <;> grind

end Target

/-! ## What the start of a call can do -/

/-- Another state of the token. -/
def State.setPassport (s : State) (passport : PassportSBT.State) : State :=
  { s with core := { s.core with passport } }

/-- Another state of the DAO. -/
def State.setDisputes (s : State) (disputes : DisputeResolutionDAO.State) : State :=
  { s with core := { s.core with world := { s.core.world with disputes } } }

/-- Other roles of the facade. -/
def State.setFacadeRoles (s : State) (roles : Roles) : State :=
  { s with core := { s.core with world := { s.core.world with
    facade := { s.core.world.facade with roles } } } }

/-- How far a call of the token gets, seen from the system. -/
def State.withPassport (s : State) : PassportSBT.Outcome → Progress State PassportSBT.Rest Value
  | .done passport r => .done (s.setPassport passport) (.id r)
  | .calls passport rest => .calls (s.setPassport passport) rest

/-- **The ways a call can start with success**, one constructor for each contract it calls, and for
each function of the facade. -/
inductive Starts (keccak256 : Bytes → Bytes32) (b : Block) (s : State) (a : Account) :
    Call → Progress State PassportSBT.Rest Value → Prop where
  | passport {fn : PassportSBT.Fn} {p : PassportSBT.Outcome}
      (ok : PassportSBT.start b s.core.passport ⟨a, fn⟩ = .ok p) :
      Starts keccak256 b s a (.core (.passport fn)) (s.withPassport p)
  | issuePassport {to' : Address} {subjectHash credentialType uri : Bytes} {expiresAt : Nat}
      {p : PassportSBT.Outcome}
      (role : s.core.world.facade.roles PassportFacade.facadeAdminRole a = true)
      (ok : PassportSBT.start b s.core.passport
        ⟨s.core.world.self, .safeMint to' subjectHash credentialType uri expiresAt⟩ = .ok p) :
      Starts keccak256 b s a (.core (.issuePassport to' subjectHash credentialType uri expiresAt))
        (s.withPassport p)
  | direct {fn : DisputeResolutionDAO.Fn} {disputes : DisputeResolutionDAO.State} {r : Option Nat}
      (ok : DisputeResolutionDAO.exec b s.core.world.disputes ⟨a, fn⟩ = .ok (disputes, r)) :
      Starts keccak256 b s a (.core (.world (.direct fn))) (.done (s.setDisputes disputes) (.id r))
  | fileDispute {defendant : Address} {subjectHash description : Bytes}
      {disputes : DisputeResolutionDAO.State} {r : Option Nat}
      (unpaused : s.core.world.facade.paused = false)
      (ok : DisputeResolutionDAO.exec b s.core.world.disputes
        ⟨s.core.world.self, .fileDispute defendant subjectHash description⟩ = .ok (disputes, r)) :
      Starts keccak256 b s a (.core (.world (.fileDispute defendant subjectHash description)))
        (.done (s.setDisputes disputes) (.id r))
  | facadeRole {call : RoleCall} {roles : Roles}
      (ok : call.exec s.core.world.facade.roles a = .ok roles) :
      Starts keccak256 b s a (.core (.world (.role call)))
        (.done (s.setFacadeRoles roles) (.id none))
  | reputation {fn : ReputationOracle.Fn} {reputation : ReputationOracle.State} {r : Unit}
      (ok : ReputationOracle.exec b s.reputation ⟨a, fn⟩ = .ok (reputation, r)) :
      Starts keccak256 b s a (.reputation fn) (.done { s with reputation } .unit)
  | endorsements {fn : EndorsementRegistry.Fn} {endorsements : EndorsementRegistry.State}
      {r : Option Nat}
      (ok : EndorsementRegistry.exec b s.endorsements ⟨a, fn⟩ = .ok (endorsements, r)) :
      Starts keccak256 b s a (.endorsements fn) (.done { s with endorsements } (.id r))
  | attestations {fn : AttestationRegistry.Fn} {attestations : AttestationRegistry.State}
      {r : Option Bytes32}
      (ok : AttestationRegistry.exec keccak256 b s.attestations ⟨a, fn⟩ = .ok (attestations, r)) :
      Starts keccak256 b s a (.attestations fn) (.done { s with attestations } (.uid r))

variable {keccak256 : Bytes → Bytes32} {b : Block} {s s' : State} {c : Message Call}
  {p : Progress State PassportSBT.Rest Value} {rest : PassportSBT.Rest} {v : Value}

/-- Through the core, a call of the token gets as far as it gets. -/
theorem withCore_withPassport (s : State) (q : PassportSBT.Outcome) :
    s.withCore (s.core.withPassport q) = s.withPassport q := by
  cases q <;> rfl

/-- **Inversion of a start.** -/
theorem starts_of_start (h : start keccak256 b s c = .ok p) :
    Starts keccak256 b s c.sender c.fn p := by
  obtain ⟨a, fn⟩ := c
  cases fn with
  | core call =>
      simp only [start, bind_eq_ok, pure_eq_ok] at h
      obtain ⟨q, hq, rfl⟩ := h
      cases call with
      | world fn =>
          cases fn with
          | direct fn =>
              simp only [PassportFacade.start, PassportFacade.exec, bind_eq_ok, pure_eq_ok,
                Prod.exists, Prod.mk.injEq] at hq
              obtain ⟨w, r, ⟨disputes, r', hok, rfl, rfl⟩, rfl⟩ := hq
              exact .direct hok
          | fileDispute defendant subjectHash description =>
              simp only [PassportFacade.start, PassportFacade.exec, PassportFacade.fileDispute,
                bind_eq_ok, pure_eq_ok, whenNotPaused_eq_ok, Prod.exists, Prod.mk.injEq,
                exists_const] at hq
              obtain ⟨w, r, ⟨w', id, ⟨hp, disputes, id', hok, rfl, rfl⟩, rfl, rfl⟩, rfl⟩ := hq
              refine .fileDispute hp ?_
              simp [DisputeResolutionDAO.exec, hok]
          | role call =>
              simp only [PassportFacade.start, PassportFacade.exec, bind_eq_ok, pure_eq_ok,
                Prod.exists, Prod.mk.injEq] at hq
              obtain ⟨w, r, ⟨roles, hok, rfl, rfl⟩, rfl⟩ := hq
              exact .facadeRole hok
      | passport fn =>
          simp only [PassportFacade.start, bind_eq_ok, pure_eq_ok] at hq
          obtain ⟨q', hok, rfl⟩ := hq
          rw [withCore_withPassport]
          exact .passport hok
      | issuePassport to' subjectHash credentialType uri expiresAt =>
          simp only [PassportFacade.start, PassportFacade.issuePassport, bind_eq_ok, pure_eq_ok,
            onlyRole_eq_ok, exists_const] at hq
          obtain ⟨hrole, q', hok, rfl⟩ := hq
          rw [withCore_withPassport]
          exact .issuePassport hrole hok
  | reputation fn =>
      simp only [start, bind_eq_ok, pure_eq_ok, Prod.exists] at h
      obtain ⟨reputation, r, hok, rfl⟩ := h
      exact .reputation hok
  | endorsements fn =>
      simp only [start, bind_eq_ok, pure_eq_ok, Prod.exists] at h
      obtain ⟨endorsements, r, hok, rfl⟩ := h
      exact .endorsements hok
  | attestations fn =>
      simp only [start, bind_eq_ok, pure_eq_ok, Prod.exists] at h
      obtain ⟨attestations, r, hok, rfl⟩ := h
      exact .attestations hok

/-- **Inversion of a resumption**: it is the rest of a call of the token. -/
theorem resume_eq_ok (h : resume b s rest = .ok (s', v)) :
    ∃ passport r, PassportSBT.resume b s.core.passport rest = .ok (passport, r) ∧
      s' = s.setPassport passport ∧ v = .id r := by
  simp only [resume, PassportFacade.resume, bind_eq_ok, pure_eq_ok, Prod.exists,
    Prod.mk.injEq] at h
  obtain ⟨core, r, ⟨passport, r', hok, rfl, rfl⟩, rfl, rfl⟩ := h
  exact ⟨passport, r', hok, rfl, rfl⟩

end ReputationPassport.System
