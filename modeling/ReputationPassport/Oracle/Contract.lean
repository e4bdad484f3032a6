import ReputationPassport.Machine.Ledger
import ReputationPassport.OpenZeppelin.AccessControl

/-! # The reputation oracle

`ReputationOracle.sol`: one record of scores for each subject, which an oracle overwrites and an
admin slashes. `_historyTimestamps` and `_historyValues` are declared in the source and used by no
function, so they have no counterpart here. The contract inherits `Pausable` but exposes no function
that pauses it; the flag is carried because both functions check it. -/

namespace ReputationPassport.ReputationOracle

open Evm Machine OpenZeppelin

/-- `ORACLE_ROLE = keccak256("ORACLE_ROLE")`. -/
def oracleRole : Bytes32 :=
  0x68e79a7bf1e0bc45d0a330c573bc367f9cf464fd326078812f301165fbda4ef1

/-- `ADMIN_ROLE = keccak256("ADMIN_ROLE")`. -/
def adminRole : Bytes32 :=
  0xa49807205ce4d355092ef5a8a18f56e8913cf4a201fbe287825b095693c21775

/-- The record of a subject. -/
@[ext] structure ReputationData where
  overallScore : Nat
  reliabilityScore : Nat
  professionalismScore : Nat
  communityTrustScore : Nat
  totalEndorsements : Nat
  totalReviews : Nat
  lastUpdated : Nat
  proofHash : Bytes32
  deriving DecidableEq

/-- The value of a storage slot nobody wrote. -/
instance : Inhabited ReputationData := ⟨⟨0, 0, 0, 0, 0, 0, 0, 0⟩⟩

/-- The events of the oracle. -/
inductive Event where
  | reputationUpdated (subjectHash : Bytes) (overallScore lastUpdated : Nat) (proofHash : Bytes32)
  | reputationSlashed (subjectHash : Bytes) (amount : Nat) (reason : Bytes)

/-- The storage of the contract, with the events it has emitted. -/
structure State where
  roles : Roles
  paused : Bool
  reputations : Bytes → ReputationData
  logs : List Event

/-- The constructor: the deployer is default admin, oracle and admin. -/
def deploy (deployer : Account) : State where
  roles := grantRoleTo (grantRoleTo (grantRoleTo noRoles defaultAdminRole deployer)
    oracleRole deployer) adminRole deployer
  paused := false
  reputations := fun _ => default
  logs := []

/-- Write the record of a subject and emit events. -/
def State.write (s : State) (subjectHash : Bytes) (rep : ReputationData) (events : List Event) :
    State :=
  { s with
    reputations := Function.update s.reputations subjectHash rep
    logs := s.logs ++ events }

@[simp] theorem State.write_reputations (s : State) (subjectHash : Bytes) (rep : ReputationData)
    (events : List Event) : (s.write subjectHash rep events).reputations =
      Function.update s.reputations subjectHash rep := rfl

/-- `updateReputation`: every field of the record is overwritten. -/
def updateReputation (b : Block) (s : State) (sender : Account) (subjectHash : Bytes)
    (overallScore reliabilityScore professionalismScore communityTrustScore totalEndorsements
      totalReviews : Nat) (proofHash : Bytes32) : Result State := do
  onlyRole s.roles oracleRole sender
  whenNotPaused s.paused
  pure (s.write subjectHash
    { overallScore, reliabilityScore, professionalismScore, communityTrustScore,
      totalEndorsements, totalReviews, lastUpdated := b.timestamp, proofHash }
    [.reputationUpdated subjectHash overallScore b.timestamp proofHash])

/-- The branch of `slashReputation` that computes the new score. Its subtraction is checked. -/
def slashed (overallScore amount : Nat) : Result Nat :=
  if overallScore ≥ amount then checkedSub overallScore amount else pure 0

/-- `slashReputation`: lower the score and stamp the record, and leave its other fields. -/
def slashReputation (b : Block) (s : State) (sender : Account) (subjectHash : Bytes)
    (amount : Nat) (reason : Bytes) : Result State := do
  onlyRole s.roles adminRole sender
  whenNotPaused s.paused
  let rep := s.reputations subjectHash
  let overallScore ← slashed rep.overallScore amount
  pure (s.write subjectHash { rep with overallScore, lastUpdated := b.timestamp }
    [.reputationSlashed subjectHash amount reason,
      .reputationUpdated subjectHash overallScore b.timestamp rep.proofHash])

/-- `getReputation`. -/
def getReputation (s : State) (subjectHash : Bytes) : ReputationData := s.reputations subjectHash

/-- `getReputationScore`. -/
def getReputationScore (s : State) (subjectHash : Bytes) : Nat :=
  (s.reputations subjectHash).overallScore

/-- `verifyReputationProof`. -/
def verifyReputationProof (s : State) (subjectHash : Bytes) (proofHash : Bytes32) : Bool :=
  (s.reputations subjectHash).proofHash == proofHash

/-- The functions that change the state. -/
inductive Fn where
  | updateReputation (subjectHash : Bytes) (overallScore reliabilityScore professionalismScore
      communityTrustScore totalEndorsements totalReviews : Nat) (proofHash : Bytes32)
  | slashReputation (subjectHash : Bytes) (amount : Nat) (reason : Bytes)
  | role (call : RoleCall)

/-- Execute a call; none of the functions returns a value. -/
def exec (b : Block) (s : State) (c : Message Fn) : Result (State × Unit) :=
  match c.fn with
  | .updateReputation subjectHash overallScore reliabilityScore professionalismScore
      communityTrustScore totalEndorsements totalReviews proofHash => do
      let s' ← updateReputation b s c.sender subjectHash overallScore reliabilityScore
        professionalismScore communityTrustScore totalEndorsements totalReviews proofHash
      pure (s', ())
  | .slashReputation subjectHash amount reason => do
      let s' ← slashReputation b s c.sender subjectHash amount reason
      pure (s', ())
  | .role call => do
      let roles ← call.exec s.roles c.sender
      pure ({ s with roles }, ())

/-! ## What the functions do -/

/-- **The subtraction of `slashReputation` never reverts**: the branch computes the truncated
difference. -/
theorem slashed_eq (overallScore amount : Nat) :
    slashed overallScore amount = .ok (overallScore - amount) := by
  by_cases h : amount ≤ overallScore
  · rw [slashed, if_pos h, checkedSub, if_pos h]
  · rw [slashed, if_neg h, Nat.sub_eq_zero_of_le (by omega)]
    rfl

/-- **Effect of `updateReputation`**: an oracle overwrites the record. -/
theorem updateReputation_eq_ok {b : Block} {s s' : State} {sender : Account} {subjectHash : Bytes}
    {overallScore reliabilityScore professionalismScore communityTrustScore totalEndorsements
      totalReviews : Nat} {proofHash : Bytes32} :
    updateReputation b s sender subjectHash overallScore reliabilityScore professionalismScore
        communityTrustScore totalEndorsements totalReviews proofHash = .ok s' ↔
      s.roles oracleRole sender = true ∧ s.paused = false ∧
      s' = s.write subjectHash
        ⟨overallScore, reliabilityScore, professionalismScore, communityTrustScore,
          totalEndorsements, totalReviews, b.timestamp, proofHash⟩
        [.reputationUpdated subjectHash overallScore b.timestamp proofHash] := by
  simp only [updateReputation, bind_eq_ok, onlyRole_eq_ok, whenNotPaused_eq_ok, pure_eq_ok,
    exists_const, eq_comm (b := s')]

/-- **Effect of `slashReputation`**: an admin lowers the score by the amount, down to `0`. -/
theorem slashReputation_eq_ok {b : Block} {s s' : State} {sender : Account} {subjectHash : Bytes}
    {amount : Nat} {reason : Bytes} :
    slashReputation b s sender subjectHash amount reason = .ok s' ↔
      s.roles adminRole sender = true ∧ s.paused = false ∧
      s' = s.write subjectHash
        { s.reputations subjectHash with
          overallScore := (s.reputations subjectHash).overallScore - amount
          lastUpdated := b.timestamp }
        [.reputationSlashed subjectHash amount reason,
          .reputationUpdated subjectHash ((s.reputations subjectHash).overallScore - amount)
            b.timestamp (s.reputations subjectHash).proofHash] := by
  simp only [slashReputation, slashed_eq, bind_eq_ok, onlyRole_eq_ok, whenNotPaused_eq_ok,
    pure_eq_ok, exists_const, Except.ok.injEq, exists_eq_left', eq_comm (b := s')]

/-- `slashReputation` never panics: it reverts for a missing role or while paused, and for no other
reason. -/
theorem slashReputation_ne_panic (b : Block) (s : State) (sender : Account) (subjectHash : Bytes)
    (amount : Nat) (reason : Bytes) (code : Nat) :
    slashReputation b s sender subjectHash amount reason ≠ .error (.panic code) := by
  simp only [slashReputation, slashed_eq, bind_eq_error, onlyRole, whenNotPaused, ne_eq,
    ensure_ne_panic, false_or, not_exists, not_and]
  -- past the two modifiers nothing is left that could revert
  rintro ⟨⟩ - ⟨⟩ - (h | ⟨overallScore, -, h⟩)
  · cases h
  · cases h

end ReputationPassport.ReputationOracle
