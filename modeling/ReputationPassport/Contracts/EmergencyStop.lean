import ReputationPassport.Attestation.Registry
import ReputationPassport.Dispute.CleanStart
import ReputationPassport.Endorsement.Registry
import ReputationPassport.Facade.Deployment
import ReputationPassport.OpenZeppelin.EmergencyStop
import ReputationPassport.Oracle.Contract

/-! # Which contracts can be stopped

Six contracts inherit `Pausable` and guard functions with `whenNotPaused`. Only `PassportSBT` has
functions that call `_pause` and `_unpause`; in the other five the modifier reads a flag that no
function writes. Each is a `PausableContract` here: its calls, its guarded functions, and the proof
that these revert while the flag is set. `canStop_iff` says which of them has an emergency stop. -/

open Evm Machine OpenZeppelin OpenZeppelin.PausableContract

namespace ReputationPassport.ReputationOracle

/-- The functions that carry `whenNotPaused`. -/
def guarded : Fn → Bool
  | .updateReputation .. => true
  | .slashReputation .. => true
  | .role _ => false

theorem unpaused_of_exec {b : Block} {s s' : State} {c : Message Fn} {r : Unit}
    (h : exec b s c = .ok (s', r)) (hg : guarded c.fn = true) : s.paused = false := by
  obtain ⟨sender, fn⟩ := c
  cases fn with
  | updateReputation =>
      simp only [exec, bind_eq_ok, updateReputation_eq_ok] at h
      obtain ⟨_, ⟨-, hp, -⟩, -⟩ := h
      exact hp
  | slashReputation =>
      simp only [exec, bind_eq_ok, slashReputation_eq_ok] at h
      obtain ⟨_, ⟨-, hp, -⟩, -⟩ := h
      exact hp
  | role call => exact absurd hg Bool.false_ne_true

/-- No function writes the flag. -/
theorem paused_of_exec {b : Block} {s s' : State} {c : Message Fn} {r : Unit}
    (h : exec b s c = .ok (s', r)) : s'.paused = s.paused := by
  obtain ⟨sender, fn⟩ := c
  cases fn with
  | updateReputation =>
      simp only [exec, bind_eq_ok, updateReputation_eq_ok, pure_eq_ok, Prod.mk.injEq] at h
      obtain ⟨_, ⟨-, -, rfl⟩, rfl, -⟩ := h
      rfl
  | slashReputation =>
      simp only [exec, bind_eq_ok, slashReputation_eq_ok, pure_eq_ok, Prod.mk.injEq] at h
      obtain ⟨_, ⟨-, -, rfl⟩, rfl, -⟩ := h
      rfl
  | role call =>
      simp only [exec, bind_eq_ok, pure_eq_ok, Prod.mk.injEq] at h
      obtain ⟨_, -, rfl, -⟩ := h
      rfl

/-- The oracle as a pausable contract. -/
def pausable : PausableContract :=
  ofExec exec (fun s => ∃ deployer, s = deploy deployer) State.paused State.roles guarded
    (fun _ => false) (by rintro s ⟨deployer, rfl⟩; rfl) fun _ _ _ _ _ => unpaused_of_exec

theorem neverPauses : NeverPauses pausable :=
  ofExec_neverPauses fun _ _ _ _ _ => paused_of_exec

end ReputationPassport.ReputationOracle

namespace ReputationPassport.EndorsementRegistry

/-- The functions that carry `whenNotPaused`. -/
def guarded : Fn → Bool
  | .addEndorsement .. => true
  | .role _ => false

theorem unpaused_of_exec {b : Block} {s s' : State} {c : Message Fn} {r : Option Nat}
    (h : exec b s c = .ok (s', r)) (hg : guarded c.fn = true) : s.paused = false := by
  obtain ⟨sender, fn⟩ := c
  cases fn with
  | addEndorsement =>
      simp only [exec, bind_eq_ok, Prod.exists, addEndorsement_eq_ok] at h
      obtain ⟨_, _, ⟨-, hp, -⟩, -⟩ := h
      exact hp
  | role call => exact absurd hg Bool.false_ne_true

/-- No function writes the flag. -/
theorem paused_of_exec {b : Block} {s s' : State} {c : Message Fn} {r : Option Nat}
    (h : exec b s c = .ok (s', r)) : s'.paused = s.paused := by
  rcases exec_cases h with ⟨_, _, _, _, -, -, -, rfl⟩ | ⟨_, _, -, -, rfl⟩
  · rfl
  · rfl

/-- The endorsement registry as a pausable contract. -/
def pausable : PausableContract :=
  ofExec exec (fun s => ∃ deployer, s = deploy deployer) State.paused State.roles guarded
    (fun _ => false) (by rintro s ⟨deployer, rfl⟩; rfl) fun _ _ _ _ _ => unpaused_of_exec

theorem neverPauses : NeverPauses pausable :=
  ofExec_neverPauses fun _ _ _ _ _ => paused_of_exec

end ReputationPassport.EndorsementRegistry

namespace ReputationPassport.DisputeResolutionDAO

/-- The functions that carry `whenNotPaused`. -/
def guarded : Fn → Bool
  | .fileDispute .. => true
  | .submitEvidence .. => true
  | .startDeliberation _ => true
  | .castVote .. => true
  | .resolveDispute .. => true
  | .setVotingPeriod _ => false
  | .role _ => false

theorem Step.unpaused {b : Block} {s s' : State} {a : Account} {fn : Fn} {r : Option Nat}
    (h : Step b s a fn s' r) (hg : guarded fn = true) : s.paused = false := by
  cases h with
  | fileDispute unpaused => exact unpaused
  | submitEvidence unpaused => exact unpaused
  | startDeliberation _ unpaused => exact unpaused
  | castVote _ unpaused => exact unpaused
  | resolveDispute _ unpaused => exact unpaused
  | setVotingPeriod => exact absurd hg Bool.false_ne_true
  | role => exact absurd hg Bool.false_ne_true

/-- The DAO as a pausable contract. -/
def pausable : PausableContract :=
  ofExec exec (fun s => ∃ deployer, s = deploy deployer) State.paused State.roles guarded
    (fun _ => false) (by rintro s ⟨deployer, rfl⟩; rfl)
    fun _ _ _ _ _ h => (exec_eq_ok.mp h).unpaused

theorem neverPauses : NeverPauses pausable :=
  ofExec_neverPauses fun _ _ _ _ _ h => (exec_eq_ok.mp h).paused_eq

end ReputationPassport.DisputeResolutionDAO

namespace ReputationPassport.AttestationRegistry

/-- The functions that carry `whenNotPaused`. -/
def guarded : Fn → Bool
  | .attest .. => true
  | .revoke _ => true
  | .role _ => false

variable (keccak256 : Bytes → Bytes32)

theorem Step.unpaused {b : Block} {s s' : State} {a : Account} {fn : Fn} {r : Option Bytes32}
    (h : Step keccak256 b s a fn s' r) (hg : guarded fn = true) : s.paused = false := by
  cases h with
  | attest _ unpaused => exact unpaused
  | revoke unpaused => exact unpaused
  | role => exact absurd hg Bool.false_ne_true

/-- The attestation registry as a pausable contract. -/
def pausable : PausableContract :=
  ofExec (exec keccak256) (fun s => ∃ deployer, s = deploy deployer) State.paused State.roles
    guarded (fun _ => false) (by rintro s ⟨deployer, rfl⟩; rfl)
    fun _ _ _ _ _ h => (exec_eq_ok.mp h).unpaused

theorem neverPauses : NeverPauses (pausable keccak256) :=
  ofExec_neverPauses fun _ _ _ _ _ h => (exec_eq_ok.mp h).paused

end ReputationPassport.AttestationRegistry

namespace ReputationPassport.PassportFacade

/-- The functions of the facade that carry `whenNotPaused`. -/
def guarded : Call → Bool
  | .world (.fileDispute ..) => true
  | _ => false

theorem unpaused_of_start {b : Block} {d : Deployment} {c : Message Call}
    {p : Progress Deployment PassportSBT.Rest (Option Nat)} (h : start b d c = .ok p)
    (hg : guarded c.fn = true) : d.world.facade.paused = false := by
  obtain ⟨sender, fn⟩ := c
  cases fn with
  | world fn =>
      cases fn with
      | fileDispute defendant subjectHash description =>
          simp only [start, exec, fileDispute, bind_eq_ok, whenNotPaused_eq_ok] at h
          obtain ⟨_, ⟨_, ⟨_, hp, -⟩, -⟩, -⟩ := h
          exact hp
      | direct fn => exact absurd hg Bool.false_ne_true
      | role call => exact absurd hg Bool.false_ne_true
  | passport fn => exact absurd hg Bool.false_ne_true
  | issuePassport => exact absurd hg Bool.false_ne_true

/-- The facade as a pausable contract, with the two contracts it forwards to. -/
def pausable : PausableContract where
  σ := Deployment
  φ := Call
  κ := PassportSBT.Rest
  ρ := Option Nat
  contract := contract
  Deployed d := ∃ self facadeDeployer daoDeployer passportDeployer,
    d = Deployment.deploy self facadeDeployer daoDeployer passportDeployer
  paused d := d.world.facade.paused
  roles d := d.world.facade.roles
  guarded := guarded
  unpauses _ := false
  starts_unpaused := by
    rintro d ⟨self, facadeDeployer, daoDeployer, passportDeployer, rfl⟩
    rfl
  whenNotPaused _ _ _ _ := unpaused_of_start

theorem neverPauses : NeverPauses pausable where
  done _ _ _ _ _ hp ok := (facade_paused_of_done ok).trans hp
  calls _ _ _ _ _ hp ok := (facade_paused_of_calls ok).trans hp
  resume _ _ _ _ _ hp ok := (congrArg (·.facade.paused) (world_of_resume ok)).trans hp

end ReputationPassport.PassportFacade

namespace ReputationPassport.PassportSBT

/-- The functions that carry `whenNotPaused`. -/
def guarded : Fn → Bool
  | .safeMint .. => true
  | _ => false

/-- The function that calls `_pause`. -/
def pauses : Fn → Bool
  | .pause => true
  | _ => false

/-- The function that calls `_unpause`. -/
def unpauses : Fn → Bool
  | .unpause => true
  | _ => false

theorem Starts.unpaused_of_guarded {s : State} {a : Account} {fn : Fn} {p : Outcome}
    (h : Starts s a fn p) (hg : guarded fn = true) : s.paused = false := by
  cases h with
  | safeMint _ unpaused => exact unpaused
  | _ => exact absurd hg Bool.false_ne_true

/-- The passport token as a pausable contract. -/
def pausable : PausableContract where
  σ := State
  φ := Fn
  κ := Rest
  ρ := Option Nat
  contract := contract
  Deployed s := ∃ deployer, s = deploy deployer
  paused := State.paused
  roles := State.roles
  guarded := guarded
  unpauses := unpauses
  starts_unpaused := by
    rintro s ⟨deployer, rfl⟩
    rfl
  whenNotPaused b _ _ _ h := (start_eq_ok (b := b).mp h).unpaused_of_guarded

/-- **The token has a switch**: `pause` and `unpause`. -/
theorem switch : Switch pausable pauses where
  done b s call s' r ok := by
    obtain ⟨a, fn⟩ := call
    have hstart : Starts s a fn (.done s' r) := start_eq_ok (b := b).mp ok
    cases hstart <;> rfl
  calls b s call s' rest ok := by
    obtain ⟨a, fn⟩ := call
    have hstart : Starts s a fn (.calls s' rest) := start_eq_ok (b := b).mp ok
    cases hstart <;> exact ⟨rfl, rfl, rfl⟩
  resume b s rest s' r ok := by
    cases (rest : Rest) with
    | mint =>
        obtain ⟨rfl, -⟩ := Prod.mk.inj (Except.ok.inj ok)
        rfl
    | transfer =>
        obtain ⟨rfl, -⟩ := Prod.mk.inj (Except.ok.inj ok)
        rfl

/-- An admin can pause the token in every unpaused state. -/
theorem start_pause (b : Block) {s : State} {a : Account}
    (hadmin : s.roles defaultAdminRole a = true) (hp : s.paused = false) :
    start b s ⟨a, .pause⟩ = .ok (.done { s with paused := true } none) :=
  start_eq_ok.mpr (.pause hadmin hp)

end ReputationPassport.PassportSBT

namespace ReputationPassport

/-- The contracts that guard functions with `whenNotPaused`. -/
inductive GuardedContract where
  | reputationOracle
  | endorsementRegistry
  | disputeResolutionDAO
  | attestationRegistry
  | passportFacade
  | passportSBT
  deriving DecidableEq

/-- The contract with its flag; the attestation registry hashes with `keccak256`. -/
def GuardedContract.pausable (keccak256 : Bytes → Bytes32) : GuardedContract → PausableContract
  | .reputationOracle => ReputationOracle.pausable
  | .endorsementRegistry => EndorsementRegistry.pausable
  | .disputeResolutionDAO => DisputeResolutionDAO.pausable
  | .attestationRegistry => AttestationRegistry.pausable keccak256
  | .passportFacade => PassportFacade.pausable
  | .passportSBT => PassportSBT.pausable

/-- **Only the token has an emergency stop.** In every reachable unpaused state of each contract, an
account with `DEFAULT_ADMIN_ROLE` can stop it if and only if the contract is `PassportSBT`. -/
theorem canStop_iff (keccak256 : Bytes → Bytes32) (k : GuardedContract)
    (c : (k.pausable keccak256).Stack) (hc : (k.pausable keccak256).Reachable c)
    (hp : (k.pausable keccak256).paused c.ledger.state = false) (a : Account)
    (hadmin : (k.pausable keccak256).roles c.ledger.state defaultAdminRole a = true) :
    (k.pausable keccak256).CanStop c a ↔ k = .passportSBT := by
  cases k with
  | reputationOracle =>
      exact iff_of_false (ReputationOracle.neverPauses.not_canStop hc a) (by decide)
  | endorsementRegistry =>
      exact iff_of_false (EndorsementRegistry.neverPauses.not_canStop hc a) (by decide)
  | disputeResolutionDAO =>
      exact iff_of_false (DisputeResolutionDAO.neverPauses.not_canStop hc a) (by decide)
  | attestationRegistry =>
      exact iff_of_false ((AttestationRegistry.neverPauses keccak256).not_canStop hc a) (by decide)
  | passportFacade => exact iff_of_false (PassportFacade.neverPauses.not_canStop hc a) (by decide)
  | passportSBT =>
      refine iff_of_true ?_ rfl
      exact PassportSBT.switch.canStop hc PassportSBT.Fn.pause rfl
        (PassportSBT.start_pause c.ledger.block hadmin hp)

/-- The equivalence for the oracle and for the token, each right after its deployment. -/
theorem canStop_iff_deployed :
    ((GuardedContract.reputationOracle.pausable AttestationRegistry.sampleHash).CanStop
        (CallStack.deployed (blockAt 1 1) (ReputationOracle.deploy (acct 1))) (acct 1) ↔
      GuardedContract.reputationOracle = .passportSBT) ∧
    ((GuardedContract.passportSBT.pausable AttestationRegistry.sampleHash).CanStop
        (CallStack.deployed (blockAt 1 1) (PassportSBT.deploy (acct 1))) (acct 1) ↔
      GuardedContract.passportSBT = .passportSBT) :=
  ⟨canStop_iff AttestationRegistry.sampleHash .reputationOracle _
      ⟨_, _, [], ⟨acct 1, rfl⟩, rfl⟩ rfl (acct 1) rfl,
    canStop_iff AttestationRegistry.sampleHash .passportSBT _
      ⟨_, _, [], ⟨acct 1, rfl⟩, rfl⟩ rfl (acct 1) rfl⟩

/-- **The oracle cannot be stopped**: its admin has nothing to call, right after the deployment. -/
theorem oracle_without_stop :
    ¬ ∀ (k : GuardedContract) (c : (k.pausable AttestationRegistry.sampleHash).Stack),
        (k.pausable AttestationRegistry.sampleHash).Reachable c →
        (k.pausable AttestationRegistry.sampleHash).paused c.ledger.state = false →
        ∀ a : Account, (k.pausable AttestationRegistry.sampleHash).roles c.ledger.state
          defaultAdminRole a = true →
        (k.pausable AttestationRegistry.sampleHash).CanStop c a := by
  intro h
  have hreach : ReputationOracle.pausable.Reachable
      (CallStack.deployed (blockAt 1 1) (ReputationOracle.deploy (acct 1))) :=
    ⟨_, _, [], ⟨acct 1, rfl⟩, rfl⟩
  exact ReputationOracle.neverPauses.not_canStop hreach (acct 1)
    (h .reputationOracle _ hreach rfl (acct 1) rfl)

end ReputationPassport
