import ReputationPassport.Machine.Ledger
import ReputationPassport.OpenZeppelin.AccessControl

/-! # The dispute resolution DAO

`DisputeResolutionDAO.sol`: disputes are filed, collect evidence, are deliberated, voted on by
jurors and resolved by a mediator. A slot of `_disputes` that nobody wrote reads as the default
record, whose status is `Filed`, and only `getDispute` compares an id with the counter.

No function hands control to another contract, so the reentrancy flag is set and cleared within
one call. `Step` restates the functions as a relation with one constructor for each way a call can
succeed (`exec_eq_ok`), which is what the proofs about runs split on. -/

namespace ReputationPassport.DisputeResolutionDAO

open Evm Machine OpenZeppelin

/-- `MEDIATOR_ROLE = keccak256("MEDIATOR_ROLE")`. -/
def mediatorRole : Bytes32 :=
  0x1ba245b189ee1a18861983b83d5f02ae53fc6d341d4875b61b075054f9d34d09

/-- `JUROR_ROLE = keccak256("JUROR_ROLE")`. -/
def jurorRole : Bytes32 :=
  0x2ea44624af573c71d23003c0751808a79f405c6b5fddb794897688d59c07918b

/-- `DisputeStatus`. -/
inductive DisputeStatus where
  | filed | evidence | deliberation | resolved | dismissed
  deriving DecidableEq

/-- `Resolution`; `inPart` is the source's `Partial`. -/
inductive Resolution where
  | none | uphold | reject | inPart
  deriving DecidableEq

structure Dispute where
  id : Nat
  plaintiff : Address
  defendant : Address
  subjectHash : Bytes
  description : Bytes
  status : DisputeStatus
  resolution : Resolution
  resolutionNotes : Bytes
  createdAt : Nat
  resolvedAt : Nat
  mediator : Address
  deriving DecidableEq

/-- The record read from a slot nobody wrote: every word is zero, so the status is `Filed`. -/
instance : Inhabited Dispute := ⟨⟨0, 0, 0, [], [], .filed, .none, [], 0, 0, 0⟩⟩

structure Evidence where
  submitter : Address
  uri : Bytes
  description : Bytes
  timestamp : Nat
  deriving DecidableEq

structure Vote where
  juror : Address
  vote : Resolution
  rationale : Bytes
  timestamp : Nat
  deriving DecidableEq

inductive Event where
  | disputeFiled (disputeId : Nat) (plaintiff : Address) (subjectHash : Bytes)
  | evidenceSubmitted (disputeId : Nat) (submitter : Address) (uri : Bytes)
  | voteCast (disputeId : Nat) (juror : Address) (vote : Resolution)
  | disputeResolved (disputeId : Nat) (resolution : Resolution) (notes : Bytes)

/-- The storage of the contract, with the events it has emitted. -/
structure State where
  roles : Roles
  paused : Bool
  entered : Bool
  nextDisputeId : Nat
  disputes : Nat → Dispute
  evidence : Nat → List Evidence
  votes : Nat → List Vote
  hasVoted : Nat → Address → Bool
  votingPeriod : Nat
  logs : List Event

/-- The constructor: the deployer is admin, mediator and juror; the voting period is `7 days`. -/
def deploy (deployer : Account) : State where
  roles := grantRoleTo (grantRoleTo (grantRoleTo noRoles defaultAdminRole deployer)
    mediatorRole deployer) jurorRole deployer
  paused := false
  entered := false
  nextDisputeId := 0
  disputes := fun _ => default
  evidence := fun _ => []
  votes := fun _ => []
  hasVoted := fun _ _ => false
  votingPeriod := 7 * 24 * 60 * 60
  logs := []

/-- The record `fileDispute` stores. -/
def newDispute (b : Block) (disputeId : Nat) (plaintiff defendant : Address)
    (subjectHash description : Bytes) : Dispute where
  id := disputeId
  plaintiff := plaintiff
  defendant := defendant
  subjectHash := subjectHash
  description := description
  status := .filed
  resolution := .none
  resolutionNotes := []
  createdAt := b.timestamp
  resolvedAt := 0
  mediator := 0

/-! ## The writes of the functions -/

/-- The writes of `fileDispute`. -/
def State.file (s : State) (d : Dispute) : State :=
  { s with
    entered := false
    nextDisputeId := s.nextDisputeId + 1
    disputes := Function.update s.disputes s.nextDisputeId d
    logs := s.logs ++ [.disputeFiled s.nextDisputeId d.plaintiff d.subjectHash] }

/-- The writes of `submitEvidence`: the status moves on only from `Filed`. -/
def State.addEvidence (s : State) (disputeId : Nat) (e : Evidence) : State :=
  let d := s.disputes disputeId
  { s with
    evidence := Function.update s.evidence disputeId (s.evidence disputeId ++ [e])
    disputes := Function.update s.disputes disputeId
      (if d.status = .filed then { d with status := .evidence } else d)
    logs := s.logs ++ [.evidenceSubmitted disputeId e.submitter e.uri] }

/-- The write of `startDeliberation`. -/
def State.deliberate (s : State) (disputeId : Nat) : State :=
  { s with
    disputes := Function.update s.disputes disputeId
      { s.disputes disputeId with status := .deliberation } }

/-- The writes of `castVote`. -/
def State.addVote (s : State) (disputeId : Nat) (v : Vote) : State :=
  { s with
    hasVoted := Function.update s.hasVoted disputeId
      (Function.update (s.hasVoted disputeId) v.juror true)
    votes := Function.update s.votes disputeId (s.votes disputeId ++ [v])
    logs := s.logs ++ [.voteCast disputeId v.juror v.vote] }

/-- The writes of `resolveDispute`. -/
def State.resolve (s : State) (disputeId : Nat) (resolution : Resolution) (notes : Bytes)
    (now : Nat) : State :=
  { s with
    entered := false
    disputes := Function.update s.disputes disputeId
      { s.disputes disputeId with
        status := .resolved
        resolution := resolution
        resolutionNotes := notes
        resolvedAt := now }
    logs := s.logs ++ [.disputeResolved disputeId resolution notes] }

/-! ## The functions -/

/-- `fileDispute`. -/
def fileDispute (b : Block) (s : State) (sender : Account) (defendant : Address)
    (subjectHash description : Bytes) : Result (State × Nat) := do
  whenNotPaused s.paused
  nonReentrant s.entered
  let disputeId := s.nextDisputeId
  let _ ← checkedAdd disputeId 1
  pure (s.file (newDispute b disputeId sender defendant subjectHash description), disputeId)

/-- `submitEvidence`. It does not check that the dispute was filed. -/
def submitEvidence (b : Block) (s : State) (sender : Account) (disputeId : Nat)
    (uri description : Bytes) : Result State := do
  whenNotPaused s.paused
  -- under an unfiled id the default record passes as `Filed`
  let d := s.disputes disputeId
  require (d.status = .filed ∨ d.status = .evidence) "Wrong status"
  require (sender = d.plaintiff ∨ sender = d.defendant ∨ s.roles mediatorRole sender = true)
    "Not authorized"
  pure (s.addEvidence disputeId ⟨sender, uri, description, b.timestamp⟩)

/-- `startDeliberation`. -/
def startDeliberation (s : State) (sender : Account) (disputeId : Nat) : Result State := do
  onlyRole s.roles mediatorRole sender
  whenNotPaused s.paused
  require ((s.disputes disputeId).status = .evidence) "Not in evidence phase"
  pure (s.deliberate disputeId)

/-- `castVote`. -/
def castVote (b : Block) (s : State) (sender : Account) (disputeId : Nat) (vote : Resolution)
    (rationale : Bytes) : Result State := do
  onlyRole s.roles jurorRole sender
  whenNotPaused s.paused
  require ((s.disputes disputeId).status = .deliberation) "Not in deliberation"
  require (s.hasVoted disputeId sender = false) "Already voted"
  require (vote ≠ .none) "Must choose a resolution"
  pure (s.addVote disputeId ⟨sender, vote, rationale, b.timestamp⟩)

/-- `resolveDispute`. -/
def resolveDispute (b : Block) (s : State) (sender : Account) (disputeId : Nat)
    (resolution : Resolution) (notes : Bytes) : Result State := do
  onlyRole s.roles mediatorRole sender
  whenNotPaused s.paused
  nonReentrant s.entered
  require ((s.disputes disputeId).status = .deliberation) "Not in deliberation"
  require (resolution ≠ .none) "Must choose a resolution"
  pure (s.resolve disputeId resolution notes b.timestamp)

/-- `getDispute`, the one function that compares the id with the counter. -/
def getDispute (s : State) (disputeId : Nat) : Result Dispute := do
  require (disputeId < s.nextDisputeId) "Dispute does not exist"
  pure (s.disputes disputeId)

/-- `getEvidence`. -/
def getEvidence (s : State) (disputeId : Nat) : List Evidence := s.evidence disputeId

/-- `getVotes`. -/
def getVotes (s : State) (disputeId : Nat) : List Vote := s.votes disputeId

/-- `setVotingPeriod`. -/
def setVotingPeriod (s : State) (sender : Account) (period : Nat) : Result State := do
  onlyRole s.roles defaultAdminRole sender
  pure { s with votingPeriod := period }

/-- `getVotingPeriod`. -/
def getVotingPeriod (s : State) : Nat := s.votingPeriod

/-- The functions that change the state. -/
inductive Fn where
  | fileDispute (defendant : Address) (subjectHash description : Bytes)
  | submitEvidence (disputeId : Nat) (uri description : Bytes)
  | startDeliberation (disputeId : Nat)
  | castVote (disputeId : Nat) (vote : Resolution) (rationale : Bytes)
  | resolveDispute (disputeId : Nat) (resolution : Resolution) (notes : Bytes)
  | setVotingPeriod (period : Nat)
  | role (call : RoleCall)

/-- Execute a call; only `fileDispute` returns a value, the new id. -/
def exec (b : Block) (s : State) (c : Message Fn) : Result (State × Option Nat) :=
  match c.fn with
  | .fileDispute defendant subjectHash description => do
      let (s', id) ← fileDispute b s c.sender defendant subjectHash description
      pure (s', some id)
  | .submitEvidence disputeId uri description => do
      let s' ← submitEvidence b s c.sender disputeId uri description
      pure (s', none)
  | .startDeliberation disputeId => do
      let s' ← startDeliberation s c.sender disputeId
      pure (s', none)
  | .castVote disputeId vote rationale => do
      let s' ← castVote b s c.sender disputeId vote rationale
      pure (s', none)
  | .resolveDispute disputeId resolution notes => do
      let s' ← resolveDispute b s c.sender disputeId resolution notes
      pure (s', none)
  | .setVotingPeriod period => do
      let s' ← setVotingPeriod s c.sender period
      pure (s', none)
  | .role call => do
      let roles ← call.exec s.roles c.sender
      pure ({ s with roles }, none)

/-! ## What a successful call can do -/

/-- **The ways a call can succeed**, one constructor for each function, with the guards it has
passed, the state it leaves and the value it returns. -/
inductive Step (b : Block) (s : State) (a : Account) : Fn → State → Option Nat → Prop where
  | fileDispute {defendant : Address} {subjectHash description : Bytes}
      (unpaused : s.paused = false) (idle : s.entered = false)
      (room : s.nextDisputeId + 1 < wordSize) :
      Step b s a (.fileDispute defendant subjectHash description)
        (s.file (newDispute b s.nextDisputeId a defendant subjectHash description))
        (some s.nextDisputeId)
  | submitEvidence {id : Nat} {uri description : Bytes} (unpaused : s.paused = false)
      (status : (s.disputes id).status = .filed ∨ (s.disputes id).status = .evidence)
      (auth : a = (s.disputes id).plaintiff ∨ a = (s.disputes id).defendant ∨
        s.roles mediatorRole a = true) :
      Step b s a (.submitEvidence id uri description)
        (s.addEvidence id ⟨a, uri, description, b.timestamp⟩) none
  | startDeliberation {id : Nat} (role : s.roles mediatorRole a = true)
      (unpaused : s.paused = false) (status : (s.disputes id).status = .evidence) :
      Step b s a (.startDeliberation id) (s.deliberate id) none
  | castVote {id : Nat} {vote : Resolution} {rationale : Bytes}
      (role : s.roles jurorRole a = true) (unpaused : s.paused = false)
      (status : (s.disputes id).status = .deliberation) (fresh : s.hasVoted id a = false)
      (chosen : vote ≠ .none) :
      Step b s a (.castVote id vote rationale)
        (s.addVote id ⟨a, vote, rationale, b.timestamp⟩) none
  | resolveDispute {id : Nat} {resolution : Resolution} {notes : Bytes}
      (role : s.roles mediatorRole a = true) (unpaused : s.paused = false)
      (idle : s.entered = false) (status : (s.disputes id).status = .deliberation)
      (chosen : resolution ≠ .none) :
      Step b s a (.resolveDispute id resolution notes)
        (s.resolve id resolution notes b.timestamp) none
  | setVotingPeriod {period : Nat} (role : s.roles defaultAdminRole a = true) :
      Step b s a (.setVotingPeriod period) { s with votingPeriod := period } none
  | role {call : RoleCall} {roles : Roles} (ok : call.exec s.roles a = .ok roles) :
      Step b s a (.role call) { s with roles } none

/-- **`Step` is the execution of a call.** -/
theorem exec_eq_ok {b : Block} {s s' : State} {c : Message Fn} {r : Option Nat} :
    exec b s c = .ok (s', r) ↔ Step b s c.sender c.fn s' r := by
  obtain ⟨a, fn⟩ := c
  constructor
  · intro h
    cases fn <;>
      simp only [exec, fileDispute, submitEvidence, startDeliberation, castVote, resolveDispute,
        setVotingPeriod, bind_eq_ok, pure_eq_ok, whenNotPaused_eq_ok, nonReentrant_eq_ok,
        onlyRole_eq_ok, require_eq_ok, checkedAdd_eq_ok, exists_const, Prod.exists,
        Prod.mk.injEq] at h
    case fileDispute =>
      obtain ⟨t, id, ⟨hp, he, -, ⟨hroom, -⟩, rfl, rfl⟩, rfl, rfl⟩ := h
      exact .fileDispute hp he hroom
    case submitEvidence =>
      obtain ⟨t, ⟨hp, hs, ha, rfl⟩, rfl, rfl⟩ := h
      exact .submitEvidence hp hs ha
    case startDeliberation =>
      obtain ⟨t, ⟨hr, hp, hs, rfl⟩, rfl, rfl⟩ := h
      exact .startDeliberation hr hp hs
    case castVote =>
      obtain ⟨t, ⟨hr, hp, hs, hf, hc, rfl⟩, rfl, rfl⟩ := h
      exact .castVote hr hp hs hf hc
    case resolveDispute =>
      obtain ⟨t, ⟨hr, hp, he, hs, hc, rfl⟩, rfl, rfl⟩ := h
      exact .resolveDispute hr hp he hs hc
    case setVotingPeriod =>
      obtain ⟨t, ⟨hr, rfl⟩, rfl, rfl⟩ := h
      exact .setVotingPeriod hr
    case role =>
      obtain ⟨roles, hroles, rfl, rfl⟩ := h
      exact .role hroles
  · intro h
    cases h <;>
      simp_all [exec, fileDispute, submitEvidence, startDeliberation, castVote, resolveDispute,
        setVotingPeriod]

/-- The outcome of `fileDispute` while the contract is neither paused nor entered: it reverts only
when the counter is exhausted. -/
theorem fileDispute_eq_ite {b : Block} {s : State} {a : Account} {defendant : Address}
    {subjectHash description : Bytes} (hp : s.paused = false) (he : s.entered = false) :
    fileDispute b s a defendant subjectHash description =
      if s.nextDisputeId + 1 < wordSize then
        .ok (s.file (newDispute b s.nextDisputeId a defendant subjectHash description),
          s.nextDisputeId)
      else .error (.panic 0x11) := by
  by_cases hroom : s.nextDisputeId + 1 < wordSize
  · have hadd : (checkedAdd s.nextDisputeId 1 : Result Nat) = .ok _ := if_pos hroom
    simp only [fileDispute, hp, he, hadd, if_pos hroom]
    rfl
  · have hadd : (checkedAdd s.nextDisputeId 1 : Result Nat) = .error _ := if_neg hroom
    simp only [fileDispute, hp, he, hadd, if_neg hroom]
    rfl

end ReputationPassport.DisputeResolutionDAO
