import ReputationPassport.System.Contracts

/-! # Each contract within the system

The token, the DAO, the oracle and the two registries are components of the system. A call of the
facade that reaches one of them is, to it, a call by the facade's address; all other calls are not
its business. -/

namespace ReputationPassport.System

open Evm Machine OpenZeppelin

variable {keccak256 : Bytes → Bytes32} {b : Block} {s s' : State} {c : Message Call} {v : Value}
  {rest : PassportSBT.Rest} {passport : PassportSBT.State}

/-! ## What a call does to the parts of the state -/

/-- **Effect of a call that is done at once**: it is a call of one contract, which changes that
contract alone, or it changes the roles of the facade. -/
inductive Done (keccak256 : Bytes → Bytes32) (b : Block) (s : State) (c : Message Call) :
    State → Value → Prop where
  | passport {m : Message PassportSBT.Fn} {t : PassportSBT.State} {r : Option Nat}
      (target : c.fn.target = .passport)
      (call : passportCall s.core.world.self c = some m)
      (ok : PassportSBT.start b s.core.passport m = .ok (.done t r)) :
      Done keccak256 b s c (s.setPassport t) (.id r)
  | disputes {m : Message DisputeResolutionDAO.Fn} {t : DisputeResolutionDAO.State}
      {r : Option Nat} (target : c.fn.target = .disputes)
      (call : disputesCall s.core.world.self c = some m)
      (ok : DisputeResolutionDAO.exec b s.core.world.disputes m = .ok (t, r)) :
      Done keccak256 b s c (s.setDisputes t) (.id r)
  | facadeRole {rc : RoleCall} {roles : Roles} (target : c.fn.target = .facade)
      (call : c.fn = .core (.world (.role rc)))
      (ok : rc.exec s.core.world.facade.roles c.sender = .ok roles) :
      Done keccak256 b s c (s.setFacadeRoles roles) (.id none)
  | reputation {m : Message ReputationOracle.Fn} {t : ReputationOracle.State} {r : Unit}
      (target : c.fn.target = .reputation)
      (call : reputationCall c = some m)
      (ok : ReputationOracle.exec b s.reputation m = .ok (t, r)) :
      Done keccak256 b s c { s with reputation := t } .unit
  | endorsements {m : Message EndorsementRegistry.Fn} {t : EndorsementRegistry.State}
      {r : Option Nat} (target : c.fn.target = .endorsements)
      (call : endorsementsCall c = some m)
      (ok : EndorsementRegistry.exec b s.endorsements m = .ok (t, r)) :
      Done keccak256 b s c { s with endorsements := t } (.id r)
  | attestations {m : Message AttestationRegistry.Fn} {t : AttestationRegistry.State}
      {r : Option Bytes32} (target : c.fn.target = .attestations)
      (call : attestationsCall c = some m)
      (ok : AttestationRegistry.exec keccak256 b s.attestations m = .ok (t, r)) :
      Done keccak256 b s c { s with attestations := t } (.uid r)

/-- A call that is done at once has one of these effects. -/
theorem done_of_start (h : start keccak256 b s c = .ok (.done s' v)) :
    Done keccak256 b s c s' v := by
  have hstarts := starts_of_start h
  obtain ⟨a, fn⟩ := c
  generalize hp : Progress.done s' v = p at hstarts
  cases hstarts with
  | @passport fn q ok =>
      cases q with
      | done t r =>
          obtain ⟨rfl, rfl⟩ := Progress.done.inj hp
          exact .passport rfl rfl ok
      | calls t rest => cases hp
  | @issuePassport to' subjectHash credentialType uri expiresAt q role ok =>
      cases q with
      | done t r =>
          obtain ⟨rfl, rfl⟩ := Progress.done.inj hp
          exact .passport rfl rfl ok
      | calls t rest => cases hp
  | direct ok =>
      obtain ⟨rfl, rfl⟩ := Progress.done.inj hp
      exact .disputes rfl rfl ok
  | fileDispute unpaused ok =>
      obtain ⟨rfl, rfl⟩ := Progress.done.inj hp
      exact .disputes rfl rfl ok
  | facadeRole ok =>
      obtain ⟨rfl, rfl⟩ := Progress.done.inj hp
      exact .facadeRole rfl rfl ok
  | reputation ok =>
      obtain ⟨rfl, rfl⟩ := Progress.done.inj hp
      exact .reputation rfl rfl ok
  | endorsements ok =>
      obtain ⟨rfl, rfl⟩ := Progress.done.inj hp
      exact .endorsements rfl rfl ok
  | attestations ok =>
      obtain ⟨rfl, rfl⟩ := Progress.done.inj hp
      exact .attestations rfl rfl ok

/-- A call that hands over control is a call of the token. -/
theorem calls_of_start (h : start keccak256 b s c = .ok (.calls s' rest)) :
    ∃ m t, passportCall s.core.world.self c = some m ∧
      PassportSBT.start b s.core.passport m = .ok (.calls t rest) ∧ s' = s.setPassport t := by
  have hstarts := starts_of_start h
  obtain ⟨a, fn⟩ := c
  generalize hp : Progress.calls s' rest = p at hstarts
  cases hstarts with
  | @passport fn q ok =>
      cases q with
      | done t r => cases hp
      | calls t rest =>
          obtain ⟨rfl, rfl⟩ := Progress.calls.inj hp
          exact ⟨_, t, rfl, ok, rfl⟩
  | @issuePassport to' subjectHash credentialType uri expiresAt q role ok =>
      cases q with
      | done t r => cases hp
      | calls t rest =>
          obtain ⟨rfl, rfl⟩ := Progress.calls.inj hp
          exact ⟨_, t, rfl, ok, rfl⟩
  | direct => cases hp
  | fileDispute => cases hp
  | facadeRole => cases hp
  | reputation => cases hp
  | endorsements => cases hp
  | attestations => cases hp

/-- A call of the token concerns no other contract. -/
theorem target_of_passportCall {self : Account} {m : Message PassportSBT.Fn}
    (h : passportCall self c = some m) : c.fn.target = .passport := by
  by_contra hne
  rw [passportCall_eq_none_iff.mpr hne] at h
  cases h

namespace Done

variable (h : Done keccak256 b s c s' v)

include h

/-- The facade stays where it is. -/
theorem self_eq : s'.core.world.self = s.core.world.self := by
  cases h <;> rfl

/-- **What a call does to the token**: it is a call of the token, or leaves it. -/
theorem passport_cases : (∃ m, passportCall s.core.world.self c = some m ∧
      PassportSBT.start b s.core.passport m = .ok (.done s'.core.passport v.toId)) ∨
    (passportCall s.core.world.self c = none ∧ s'.core.passport = s.core.passport) := by
  cases h with
  | passport _ call ok => exact Or.inl ⟨_, call, ok⟩
  | _ =>
      refine Or.inr ⟨passportCall_eq_none_iff.mpr ?_, rfl⟩
      rw [‹c.fn.target = _›]
      decide

/-- What a call does to the DAO. -/
theorem disputes_cases : (∃ m, disputesCall s.core.world.self c = some m ∧
      DisputeResolutionDAO.exec b s.core.world.disputes m =
        .ok (s'.core.world.disputes, v.toId)) ∨
    (disputesCall s.core.world.self c = none ∧
      s'.core.world.disputes = s.core.world.disputes) := by
  cases h with
  | disputes _ call ok => exact Or.inl ⟨_, call, ok⟩
  | _ =>
      refine Or.inr ⟨disputesCall_eq_none_iff.mpr ?_, rfl⟩
      rw [‹c.fn.target = _›]
      decide

/-- What a call does to the oracle. -/
theorem reputation_cases : (∃ m, reputationCall c = some m ∧
      ReputationOracle.exec b s.reputation m = .ok (s'.reputation, ())) ∨
    (reputationCall c = none ∧ s'.reputation = s.reputation) := by
  cases h with
  | reputation _ call ok => exact Or.inl ⟨_, call, ok⟩
  | _ =>
      refine Or.inr ⟨reputationCall_eq_none_iff.mpr ?_, rfl⟩
      rw [‹c.fn.target = _›]
      decide

/-- What a call does to the endorsement registry. -/
theorem endorsements_cases : (∃ m, endorsementsCall c = some m ∧
      EndorsementRegistry.exec b s.endorsements m = .ok (s'.endorsements, v.toId)) ∨
    (endorsementsCall c = none ∧ s'.endorsements = s.endorsements) := by
  cases h with
  | endorsements _ call ok => exact Or.inl ⟨_, call, ok⟩
  | _ =>
      refine Or.inr ⟨endorsementsCall_eq_none_iff.mpr ?_, rfl⟩
      rw [‹c.fn.target = _›]
      decide

/-- What a call does to the attestation registry. -/
theorem attestations_cases : (∃ m, attestationsCall c = some m ∧
      AttestationRegistry.exec keccak256 b s.attestations m = .ok (s'.attestations, v.toUid)) ∨
    (attestationsCall c = none ∧ s'.attestations = s.attestations) := by
  cases h with
  | attestations _ call ok => exact Or.inl ⟨_, call, ok⟩
  | _ =>
      refine Or.inr ⟨attestationsCall_eq_none_iff.mpr ?_, rfl⟩
      rw [‹c.fn.target = _›]
      decide

end Done

/-! ## The components -/

variable (keccak256)

/-- The token; the facade at `self` mints through it. -/
def passportComponent (self : Account) :
    Component (contract keccak256) PassportSBT.contract where
  Inv s := s.core.world.self = self
  state s := s.core.passport
  call := passportCall self
  rest := some
  result := Value.toId
  done b s c s' v hself h := by
    have hdone := done_of_start h
    refine ⟨hdone.self_eq.trans hself, ?_⟩
    rcases hdone.passport_cases with ⟨m, hm, ok⟩ | ⟨hnone, hstate⟩
    · rw [← hself, hm]
      exact ok
    · rw [← hself, hnone]
      exact hstate
  calls b s c s' q hself h := by
    obtain ⟨m, t, call, ok, rfl⟩ := calls_of_start h
    rw [hself] at call
    rw [call]
    exact ⟨hself, ok⟩
  resume b s q s' v hself h := by
    obtain ⟨t, r, ok, rfl, rfl⟩ := resume_eq_ok h
    exact ⟨hself, ok⟩

/-- The DAO; the facade at `self` files through it. -/
def disputesComponent (self : Account) :
    Component (contract keccak256) (Contract.ofExec DisputeResolutionDAO.exec) :=
  .atomic (fun s => s.core.world.self = self) (fun s => s.core.world.disputes) (disputesCall self)
    Value.toId
    (fun b s c s' v hself h => by
      have hdone := done_of_start h
      refine ⟨hdone.self_eq.trans hself, ?_⟩
      rw [← hself]
      exact hdone.disputes_cases)
    (fun b s c s' q hself h => by
      obtain ⟨m, t, call, -, rfl⟩ := calls_of_start h
      refine ⟨hself, disputesCall_eq_none_iff.mpr ?_, rfl⟩
      rw [target_of_passportCall call]
      decide)
    (fun b s q s' v hself h => by
      obtain ⟨t, r, -, rfl, -⟩ := resume_eq_ok h
      exact ⟨hself, rfl⟩)

/-- The oracle. -/
def reputationComponent :
    Component (contract keccak256) (Contract.ofExec ReputationOracle.exec) :=
  .atomic (fun _ => True) State.reputation reputationCall (fun _ => ())
    (fun b s c s' v _ h => ⟨trivial, (done_of_start h).reputation_cases⟩)
    (fun b s c s' q _ h => by
      obtain ⟨m, t, call, -, rfl⟩ := calls_of_start h
      refine ⟨trivial, reputationCall_eq_none_iff.mpr ?_, rfl⟩
      rw [target_of_passportCall call]
      decide)
    (fun b s q s' v _ h => by
      obtain ⟨t, r, -, rfl, -⟩ := resume_eq_ok h
      exact ⟨trivial, rfl⟩)

/-- The endorsement registry. -/
def endorsementsComponent :
    Component (contract keccak256) (Contract.ofExec EndorsementRegistry.exec) :=
  .atomic (fun _ => True) State.endorsements endorsementsCall Value.toId
    (fun b s c s' v _ h => ⟨trivial, (done_of_start h).endorsements_cases⟩)
    (fun b s c s' q _ h => by
      obtain ⟨m, t, call, -, rfl⟩ := calls_of_start h
      refine ⟨trivial, endorsementsCall_eq_none_iff.mpr ?_, rfl⟩
      rw [target_of_passportCall call]
      decide)
    (fun b s q s' v _ h => by
      obtain ⟨t, r, -, rfl, -⟩ := resume_eq_ok h
      exact ⟨trivial, rfl⟩)

/-- The attestation registry. -/
def attestationsComponent :
    Component (contract keccak256) (Contract.ofExec (AttestationRegistry.exec keccak256)) :=
  .atomic (fun _ => True) State.attestations attestationsCall Value.toUid
    (fun b s c s' v _ h => ⟨trivial, (done_of_start h).attestations_cases⟩)
    (fun b s c s' q _ h => by
      obtain ⟨m, t, call, -, rfl⟩ := calls_of_start h
      refine ⟨trivial, attestationsCall_eq_none_iff.mpr ?_, rfl⟩
      rw [target_of_passportCall call]
      decide)
    (fun b s q s' v _ h => by
      obtain ⟨t, r, -, rfl, -⟩ := resume_eq_ok h
      exact ⟨trivial, rfl⟩)

/-! ## Each contract on its own -/

section Alone

variable {keccak256} {facade deployer : Account} {as : List (CallStack.Action (Message Call))}
  {d : Stack}
  (hrun : run (CallStack.step (contract keccak256))
    (CallStack.deployed b (deploy facade deployer)) as = some d)

include hrun

/-- The facade stays at its address. -/
theorem self_run : d.ledger.state.core.world.self = facade := by
  have hself : (deploy facade deployer).core.world.self = facade := rfl
  exact (passportComponent keccak256 facade).inv_run_deployed hself hrun

/-- The token runs on its own; what it sees of the other contracts are accounts that call it. -/
theorem passport_alone : ∃ as', run (CallStack.step PassportSBT.contract)
    (CallStack.deployed b (PassportSBT.deploy deployer)) as' =
      some ((passportComponent keccak256 facade).stack d) := by
  have hself : (deploy facade deployer).core.world.self = facade := rfl
  exact (passportComponent keccak256 facade).exists_run_deployed hself hrun

/-- The DAO runs on its own. -/
theorem disputes_alone : ∃ as', run (Ledger.step DisputeResolutionDAO.exec)
    (Ledger.deployed b (DisputeResolutionDAO.deploy deployer)) as' =
      some ((disputesComponent keccak256 facade).ledger d.ledger) := by
  have hself : (deploy facade deployer).core.world.self = facade := rfl
  obtain ⟨as', h⟩ := (disputesComponent keccak256 facade).exists_run_deployed hself hrun
  exact exists_ledger_run rfl h

/-- The oracle runs on its own. -/
theorem reputation_alone : ∃ as', run (Ledger.step ReputationOracle.exec)
    (Ledger.deployed b (ReputationOracle.deploy deployer)) as' =
      some ((reputationComponent keccak256).ledger d.ledger) := by
  obtain ⟨as', h⟩ := (reputationComponent keccak256).exists_run_deployed trivial hrun
  exact exists_ledger_run rfl h

/-- The endorsement registry runs on its own. -/
theorem endorsements_alone : ∃ as', run (Ledger.step EndorsementRegistry.exec)
    (Ledger.deployed b (EndorsementRegistry.deploy deployer)) as' =
      some ((endorsementsComponent keccak256).ledger d.ledger) := by
  obtain ⟨as', h⟩ := (endorsementsComponent keccak256).exists_run_deployed trivial hrun
  exact exists_ledger_run rfl h

/-- The attestation registry runs on its own. -/
theorem attestations_alone : ∃ as', run (Ledger.step (AttestationRegistry.exec keccak256))
    (Ledger.deployed b (AttestationRegistry.deploy deployer)) as' =
      some ((attestationsComponent keccak256).ledger d.ledger) := by
  obtain ⟨as', h⟩ := (attestationsComponent keccak256).exists_run_deployed trivial hrun
  exact exists_ledger_run rfl h

end Alone

/-- **A state of the system, contract by contract**: what each of them sees is where it gets to by a
run of its own from its deployment. -/
structure Projects (keccak256 : Bytes → Bytes32) (facade deployer : Account) (b : Block)
    (c : Stack) : Prop where
  passport : ∃ as, run (CallStack.step PassportSBT.contract)
    (CallStack.deployed b (PassportSBT.deploy deployer)) as =
      some ((passportComponent keccak256 facade).stack c)
  disputes : ∃ as, run (Ledger.step DisputeResolutionDAO.exec)
    (Ledger.deployed b (DisputeResolutionDAO.deploy deployer)) as =
      some ((disputesComponent keccak256 facade).ledger c.ledger)
  reputation : ∃ as, run (Ledger.step ReputationOracle.exec)
    (Ledger.deployed b (ReputationOracle.deploy deployer)) as =
      some ((reputationComponent keccak256).ledger c.ledger)
  endorsements : ∃ as, run (Ledger.step EndorsementRegistry.exec)
    (Ledger.deployed b (EndorsementRegistry.deploy deployer)) as =
      some ((endorsementsComponent keccak256).ledger c.ledger)
  attestations : ∃ as, run (Ledger.step (AttestationRegistry.exec keccak256))
    (Ledger.deployed b (AttestationRegistry.deploy deployer)) as =
      some ((attestationsComponent keccak256).ledger c.ledger)

/-- **The system refines its contracts**: every state it reaches, in between and inside
transactions, rollbacks included, is to each contract a state that it reaches alone. -/
theorem system_projects (keccak256 : Bytes → Bytes32) (facade deployer : Account) (b : Block)
    (as : List (CallStack.Action (Message Call))) (c : Stack)
    (hrun : run (CallStack.step (contract keccak256))
      (CallStack.deployed b (deploy facade deployer)) as = some c) :
    Projects keccak256 facade deployer b c where
  passport := passport_alone hrun
  disputes := disputes_alone hrun
  reputation := reputation_alone hrun
  endorsements := endorsements_alone hrun
  attestations := attestations_alone hrun

/-- The facade is made a minter and issues a passport, whose receiver files a dispute through it. -/
def issueAndFile : List (CallStack.Action (Message Call)) :=
  [.call ⟨acct 1, .core (.passport (.role (.grantRole PassportSBT.minterRole (acct 9))))⟩ true,
    .call ⟨acct 1, .core (.issuePassport 7 [0x73] [0x6b] [0x75] 99)⟩ true,
    .call ⟨acct 7, .core (.world (.fileDispute 8 [0x73] []))⟩ true, .accept]

/-- The contracts after a passport was issued and a dispute filed. -/
theorem system_projects_issueAndFile :
    ∃ c : Stack, run (CallStack.step (contract AttestationRegistry.sampleHash))
        (CallStack.deployed (blockAt 1 1) (deploy (acct 9) (acct 1))) issueAndFile = some c ∧
      c.ledger.history.length = 3 ∧
      Projects AttestationRegistry.sampleHash (acct 9) (acct 1) (blockAt 1 1) c := by
  obtain ⟨c, hrun, hlength⟩ : ∃ c : Stack,
      run (CallStack.step (contract AttestationRegistry.sampleHash))
        (CallStack.deployed (blockAt 1 1) (deploy (acct 9) (acct 1))) issueAndFile = some c ∧
        c.ledger.history.length = 3 := ⟨_, rfl, rfl⟩
  exact ⟨c, hrun, hlength,
    system_projects AttestationRegistry.sampleHash (acct 9) (acct 1) (blockAt 1 1) issueAndFile c
      hrun⟩

end ReputationPassport.System
