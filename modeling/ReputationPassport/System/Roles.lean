import ReputationPassport.OpenZeppelin.RoleHistory
import ReputationPassport.System.Projection

/-! # The roles of the six contracts

Each of the six contracts inherits AccessControl, and no other function of any of them writes a
membership. So AccessControl is a component of the system six times over (`rolesComponent`), and the
memberships of every contract are read off the calls of its three role functions
(`roles_of_history`), also while calls are open and after rollbacks. -/

namespace ReputationPassport

open Evm Machine OpenZeppelin

/-- A call leads from one set of memberships to another: it is a call of AccessControl, or leaves
them. -/
def RolesStep (roles : Roles) (call : Option (Message RoleCall)) (roles' : Roles) : Prop :=
  (∃ m, call = some m ∧ m.fn.exec roles m.sender = .ok roles') ∨ (call = none ∧ roles' = roles)

/-- The call of AccessControl a call of the token is. -/
def PassportSBT.roleCall (c : Message PassportSBT.Fn) : Option (Message RoleCall) :=
  match c.fn with
  | .role call => some ⟨c.sender, call⟩
  | _ => none

/-- The call of AccessControl a call of the DAO is. -/
def DisputeResolutionDAO.roleCall (c : Message DisputeResolutionDAO.Fn) :
    Option (Message RoleCall) :=
  match c.fn with
  | .role call => some ⟨c.sender, call⟩
  | _ => none

/-- The call of AccessControl a call of the oracle is. -/
def ReputationOracle.roleCall (c : Message ReputationOracle.Fn) : Option (Message RoleCall) :=
  match c.fn with
  | .role call => some ⟨c.sender, call⟩
  | _ => none

/-- The call of AccessControl a call of the endorsement registry is. -/
def EndorsementRegistry.roleCall (c : Message EndorsementRegistry.Fn) :
    Option (Message RoleCall) :=
  match c.fn with
  | .role call => some ⟨c.sender, call⟩
  | _ => none

/-- The call of AccessControl a call of the attestation registry is. -/
def AttestationRegistry.roleCall (c : Message AttestationRegistry.Fn) :
    Option (Message RoleCall) :=
  match c.fn with
  | .role call => some ⟨c.sender, call⟩
  | _ => none

/-! ## What the calls of the contracts do to their roles -/

section Steps

variable {b : Block}

theorem PassportSBT.rolesStep_done {s s' : PassportSBT.State} {c : Message PassportSBT.Fn}
    {r : Option Nat} (h : PassportSBT.start b s c = .ok (.done s' r)) :
    RolesStep s.roles (PassportSBT.roleCall c) s'.roles := by
  obtain ⟨a, fn⟩ := c
  cases PassportSBT.start_eq_ok.mp h with
  | role ok => exact Or.inl ⟨_, rfl, ok⟩
  | _ => exact Or.inr ⟨rfl, rfl⟩

theorem PassportSBT.rolesStep_calls {s s' : PassportSBT.State} {c : Message PassportSBT.Fn}
    {rest : PassportSBT.Rest} (h : PassportSBT.start b s c = .ok (.calls s' rest)) :
    PassportSBT.roleCall c = none ∧ s'.roles = s.roles := by
  obtain ⟨a, fn⟩ := c
  cases PassportSBT.start_eq_ok.mp h with
  | safeMint => exact ⟨rfl, rfl⟩
  | safeTransferFrom => exact ⟨rfl, rfl⟩

theorem PassportSBT.roles_resume {s s' : PassportSBT.State} {rest : PassportSBT.Rest}
    {r : Option Nat} (h : PassportSBT.resume b s rest = .ok (s', r)) : s'.roles = s.roles := by
  cases rest with
  | mint sender tokenId subjectHash credentialType uri expiresAt =>
      obtain ⟨rfl, -⟩ := Prod.mk.inj (Except.ok.inj h)
      rfl
  | transfer =>
      obtain ⟨rfl, -⟩ := Prod.mk.inj (Except.ok.inj h)
      rfl

theorem DisputeResolutionDAO.rolesStep {s s' : DisputeResolutionDAO.State}
    {c : Message DisputeResolutionDAO.Fn} {r : Option Nat}
    (h : DisputeResolutionDAO.exec b s c = .ok (s', r)) :
    RolesStep s.roles (DisputeResolutionDAO.roleCall c) s'.roles := by
  obtain ⟨a, fn⟩ := c
  cases DisputeResolutionDAO.exec_eq_ok.mp h with
  | role ok => exact Or.inl ⟨_, rfl, ok⟩
  | _ => exact Or.inr ⟨rfl, rfl⟩

theorem ReputationOracle.rolesStep {s s' : ReputationOracle.State}
    {c : Message ReputationOracle.Fn} {r : Unit}
    (h : ReputationOracle.exec b s c = .ok (s', r)) :
    RolesStep s.roles (ReputationOracle.roleCall c) s'.roles := by
  obtain ⟨a, fn⟩ := c
  cases fn with
  | updateReputation =>
      simp only [ReputationOracle.exec, bind_eq_ok, pure_eq_ok, Prod.mk.injEq, and_true] at h
      obtain ⟨t, hupdate, rfl⟩ := h
      obtain ⟨-, -, rfl⟩ := ReputationOracle.updateReputation_eq_ok.mp hupdate
      exact Or.inr ⟨rfl, rfl⟩
  | slashReputation =>
      simp only [ReputationOracle.exec, bind_eq_ok, pure_eq_ok, Prod.mk.injEq, and_true] at h
      obtain ⟨t, hslash, rfl⟩ := h
      obtain ⟨-, -, rfl⟩ := ReputationOracle.slashReputation_eq_ok.mp hslash
      exact Or.inr ⟨rfl, rfl⟩
  | role call =>
      simp only [ReputationOracle.exec, bind_eq_ok, pure_eq_ok, Prod.mk.injEq, and_true] at h
      obtain ⟨roles, ok, rfl⟩ := h
      exact Or.inl ⟨_, rfl, ok⟩

theorem EndorsementRegistry.rolesStep {s s' : EndorsementRegistry.State}
    {c : Message EndorsementRegistry.Fn} {r : Option Nat}
    (h : EndorsementRegistry.exec b s c = .ok (s', r)) :
    RolesStep s.roles (EndorsementRegistry.roleCall c) s'.roles := by
  obtain ⟨a, fn⟩ := c
  cases fn with
  | addEndorsement subjectHash weight category comment =>
      simp only [EndorsementRegistry.exec, bind_eq_ok, pure_eq_ok, Prod.exists,
        Prod.mk.injEq] at h
      obtain ⟨t, id, hadd, rfl, rfl⟩ := h
      obtain ⟨-, -, -, -, -, rfl, -⟩ := EndorsementRegistry.addEndorsement_eq_ok.mp hadd
      exact Or.inr ⟨rfl, rfl⟩
  | role call =>
      simp only [EndorsementRegistry.exec, bind_eq_ok, pure_eq_ok, Prod.mk.injEq] at h
      obtain ⟨roles, ok, rfl, -⟩ := h
      exact Or.inl ⟨_, rfl, ok⟩

theorem AttestationRegistry.rolesStep {keccak256 : Bytes → Bytes32}
    {s s' : AttestationRegistry.State} {c : Message AttestationRegistry.Fn} {r : Option Bytes32}
    (h : AttestationRegistry.exec keccak256 b s c = .ok (s', r)) :
    RolesStep s.roles (AttestationRegistry.roleCall c) s'.roles := by
  obtain ⟨a, fn⟩ := c
  cases AttestationRegistry.exec_eq_ok.mp h with
  | role ok => exact Or.inl ⟨_, rfl, ok⟩
  | _ => exact Or.inr ⟨rfl, rfl⟩

end Steps

namespace System

/-- The memberships of a contract. -/
def State.rolesOf (s : State) : Target → Roles
  | .passport => s.core.passport.roles
  | .disputes => s.core.world.disputes.roles
  | .facade => s.core.world.facade.roles
  | .reputation => s.reputation.roles
  | .endorsements => s.endorsements.roles
  | .attestations => s.attestations.roles

/-- The call of AccessControl that a call of the system is, on the given contract. -/
def roleCall (t : Target) (c : Message Call) : Option (Message RoleCall) :=
  match t, c.fn with
  | .passport, .core (.passport fn) => PassportSBT.roleCall ⟨c.sender, fn⟩
  | .disputes, .core (.world (.direct fn)) => DisputeResolutionDAO.roleCall ⟨c.sender, fn⟩
  | .facade, .core (.world (.role call)) => some ⟨c.sender, call⟩
  | .reputation, .reputation fn => ReputationOracle.roleCall ⟨c.sender, fn⟩
  | .endorsements, .endorsements fn => EndorsementRegistry.roleCall ⟨c.sender, fn⟩
  | .attestations, .attestations fn => AttestationRegistry.roleCall ⟨c.sender, fn⟩
  | _, _ => none

variable {keccak256 : Bytes → Bytes32} {b : Block} {s s' : State} {c : Message Call} {v : Value}
  {rest : PassportSBT.Rest}

/-- **What a call does to the roles of a contract.** -/
theorem rolesStep_done (h : start keccak256 b s c = .ok (.done s' v)) (t : Target) :
    RolesStep (s.rolesOf t) (roleCall t c) (s'.rolesOf t) := by
  have hstarts := starts_of_start h
  obtain ⟨a, fn⟩ := c
  generalize hp : Progress.done s' v = p at hstarts
  cases hstarts with
  | @passport fn q ok =>
      cases q with
      | done q r =>
          obtain ⟨rfl, rfl⟩ := Progress.done.inj hp
          cases t with
          | passport => exact PassportSBT.rolesStep_done ok
          | _ => exact Or.inr ⟨rfl, rfl⟩
      | calls q rest => cases hp
  | @issuePassport to' subjectHash credentialType uri expiresAt q role ok =>
      cases q with
      -- a mint hands over control
      | done q r => exact absurd (PassportSBT.start_eq_ok.mp ok) nofun
      | calls q rest => cases hp
  | direct ok =>
      obtain ⟨rfl, rfl⟩ := Progress.done.inj hp
      cases t with
      | disputes => exact DisputeResolutionDAO.rolesStep ok
      | _ => exact Or.inr ⟨rfl, rfl⟩
  | fileDispute unpaused ok =>
      obtain ⟨rfl, rfl⟩ := Progress.done.inj hp
      cases t with
      | disputes =>
          -- what the facade calls is no function of AccessControl
          cases DisputeResolutionDAO.exec_eq_ok.mp ok with
          | fileDispute => exact Or.inr ⟨rfl, rfl⟩
      | _ => exact Or.inr ⟨rfl, rfl⟩
  | facadeRole ok =>
      obtain ⟨rfl, rfl⟩ := Progress.done.inj hp
      cases t with
      | facade => exact Or.inl ⟨_, rfl, ok⟩
      | _ => exact Or.inr ⟨rfl, rfl⟩
  | reputation ok =>
      obtain ⟨rfl, rfl⟩ := Progress.done.inj hp
      cases t with
      | reputation => exact ReputationOracle.rolesStep ok
      | _ => exact Or.inr ⟨rfl, rfl⟩
  | endorsements ok =>
      obtain ⟨rfl, rfl⟩ := Progress.done.inj hp
      cases t with
      | endorsements => exact EndorsementRegistry.rolesStep ok
      | _ => exact Or.inr ⟨rfl, rfl⟩
  | attestations ok =>
      obtain ⟨rfl, rfl⟩ := Progress.done.inj hp
      cases t with
      | attestations => exact AttestationRegistry.rolesStep ok
      | _ => exact Or.inr ⟨rfl, rfl⟩

/-- A call that hands over control is no call of AccessControl and leaves all roles. -/
theorem rolesOf_calls (h : start keccak256 b s c = .ok (.calls s' rest)) (t : Target) :
    roleCall t c = none ∧ s'.rolesOf t = s.rolesOf t := by
  have hstarts := starts_of_start h
  obtain ⟨a, fn⟩ := c
  generalize hp : Progress.calls s' rest = p at hstarts
  cases hstarts with
  | @passport fn q ok =>
      cases q with
      | done q r => cases hp
      | calls q rest =>
          obtain ⟨rfl, rfl⟩ := Progress.calls.inj hp
          cases t with
          | passport => exact PassportSBT.rolesStep_calls ok
          | _ => exact ⟨rfl, rfl⟩
  | @issuePassport to' subjectHash credentialType uri expiresAt q role ok =>
      cases q with
      | done q r => cases hp
      | calls q rest =>
          obtain ⟨rfl, rfl⟩ := Progress.calls.inj hp
          cases t with
          | passport => exact ⟨rfl, (PassportSBT.rolesStep_calls ok).2⟩
          | _ => exact ⟨rfl, rfl⟩
  | direct => cases hp
  | fileDispute => cases hp
  | facadeRole => cases hp
  | reputation => cases hp
  | endorsements => cases hp
  | attestations => cases hp

/-- The rest of a call leaves all roles. -/
theorem rolesOf_resume (h : resume b s rest = .ok (s', v)) (t : Target) :
    s'.rolesOf t = s.rolesOf t := by
  obtain ⟨passport, r, ok, rfl, rfl⟩ := resume_eq_ok h
  cases t with
  | passport => exact PassportSBT.roles_resume ok
  | _ => rfl

variable (keccak256)

/-- AccessControl, as a part of each contract. -/
def rolesComponent (t : Target) : Component (contract keccak256) (Contract.ofExec execRole) :=
  .atomic (fun _ => True) (fun s => s.rolesOf t) (roleCall t) (fun _ => ())
    (fun b s c s' v _ h => by
      refine ⟨trivial, (rolesStep_done h t).imp_left ?_⟩
      rintro ⟨m, hm, ok⟩
      exact ⟨m, hm, by simp only [execRole, ok]; rfl⟩)
    (fun b s c s' q _ h => ⟨trivial, rolesOf_calls h t⟩)
    (fun b s q s' v _ h => ⟨trivial, rolesOf_resume h t⟩)

/-! ## Roles over runs -/

/-- **The roles of a contract, read off the history of the system.** -/
def rolesOfHistory (facade deployer : Account) (t : Target) (history : List SystemCall) : Roles :=
  rolesAfter ((deploy facade deployer).rolesOf t) ((rolesComponent keccak256 t).history history)

variable {keccak256}

/-- The memberships of a contract are those of its history, made by right. -/
theorem roles_alone {facade deployer : Account} {as : List (CallStack.Action (Message Call))}
    {d : Stack} (hrun : run (CallStack.step (contract keccak256))
      (CallStack.deployed b (deploy facade deployer)) as = some d) (t : Target) :
    d.ledger.state.rolesOf t = rolesOfHistory keccak256 facade deployer t d.ledger.history ∧
      Authorised ((deploy facade deployer).rolesOf t)
        ((rolesComponent keccak256 t).history d.ledger.history) := by
  obtain ⟨as', h⟩ := (rolesComponent keccak256 t).exists_run_deployed trivial hrun
  obtain ⟨as'', h⟩ := exists_ledger_run rfl h
  exact roles_run h

/-- What the roles of a contract owe to the history of the system. -/
structure RolesMatch (keccak256 : Bytes → Bytes32) (facade deployer : Account) (t : Target)
    (l : Ledger State (Message Call) Value) : Prop where
  /-- An account has a role if the last call that names the two granted it, or if the deployment did
  and no call names them. -/
  membership : l.state.rolesOf t = rolesOfHistory keccak256 facade deployer t l.history
  /-- Every call was made by an admin, after the calls before it, or gave up a role of its own. -/
  authorised : Authorised ((deploy facade deployer).rolesOf t)
    ((rolesComponent keccak256 t).history l.history)

/-- **The roles of every contract are its history**, after any run of the six contracts, also while
calls are open and for what a rollback restores. -/
theorem roles_of_history (keccak256 : Bytes → Bytes32) (facade deployer : Account) (b : Block)
    (as : List (CallStack.Action (Message Call))) (c : Stack)
    (hrun : run (CallStack.step (contract keccak256))
      (CallStack.deployed b (deploy facade deployer)) as = some c) (t : Target) :
    RolesMatch keccak256 facade deployer t c.ledger := by
  obtain ⟨hstate, hauth⟩ := roles_alone hrun t
  exact ⟨hstate, hauth⟩

/-- A grant, a revocation by the new admin of the old one, and a call nobody is entitled to. -/
def changeAdmins : List (CallStack.Action (Message Call)) :=
  [.call ⟨acct 1, .reputation (.role (.grantRole defaultAdminRole (acct 2)))⟩ true,
    .call ⟨acct 2, .reputation (.role (.revokeRole defaultAdminRole (acct 1)))⟩ true,
    .call ⟨acct 1, .reputation (.role (.grantRole ReputationOracle.oracleRole (acct 3)))⟩ true,
    .call ⟨acct 2, .reputation (.role (.renounceRole defaultAdminRole (acct 2)))⟩ true]

/-- The roles of the oracle after its admins changed. -/
theorem roles_of_history_changeAdmins :
    ∃ c : Stack, run (CallStack.step (contract AttestationRegistry.sampleHash))
        (CallStack.deployed (blockAt 1 1) (deploy (acct 9) (acct 1))) changeAdmins = some c ∧
      c.ledger.state.rolesOf .reputation defaultAdminRole (acct 2) = false ∧
      c.ledger.history.length = 3 ∧
      RolesMatch AttestationRegistry.sampleHash (acct 9) (acct 1) .reputation c.ledger := by
  obtain ⟨c, hrun, hrole, hlength⟩ : ∃ c : Stack,
      run (CallStack.step (contract AttestationRegistry.sampleHash))
        (CallStack.deployed (blockAt 1 1) (deploy (acct 9) (acct 1))) changeAdmins = some c ∧
        c.ledger.state.rolesOf .reputation defaultAdminRole (acct 2) = false ∧
        c.ledger.history.length = 3 := ⟨_, rfl, rfl, rfl⟩
  exact ⟨c, hrun, hrole, hlength, roles_of_history AttestationRegistry.sampleHash (acct 9) (acct 1)
    (blockAt 1 1) changeAdmins c hrun .reputation⟩

/-! ## Who can still gain a role -/

/-- The call of the system that calls AccessControl on a contract. -/
def Target.roleCall : Target → RoleCall → Call
  | .passport, call => .core (.passport (.role call))
  | .disputes, call => .core (.world (.direct (.role call)))
  | .facade, call => .core (.world (.role call))
  | .reputation, call => .reputation (.role call)
  | .endorsements, call => .endorsements (.role call)
  | .attestations, call => .attestations (.role call)

/-- A role function of a contract does on the system what AccessControl does. -/
theorem start_roleCall {b : Block} {s : State} {a : Account} {call : RoleCall} {roles : Roles}
    (t : Target) (ok : call.exec (s.rolesOf t) a = .ok roles) :
    ∃ s' v, start keccak256 b s ⟨a, t.roleCall call⟩ = .ok (.done s' v) ∧
      s'.rolesOf t = roles := by
  cases t with
  | passport =>
      have hstart : PassportSBT.start b s.core.passport ⟨a, .role call⟩ = .ok (.done _ none) :=
        PassportSBT.start_eq_ok.mpr (.role ok)
      refine ⟨_, _, by simp only [Target.roleCall, start, PassportFacade.start, hstart]; rfl, rfl⟩
  | disputes =>
      have hexec : DisputeResolutionDAO.exec b s.core.world.disputes ⟨a, .role call⟩ =
          .ok (_, none) := DisputeResolutionDAO.exec_eq_ok.mpr (.role ok)
      refine ⟨_, _, by
        simp only [Target.roleCall, start, PassportFacade.start, PassportFacade.exec, hexec]
        rfl, rfl⟩
  | facade =>
      have hexec : call.exec s.core.world.facade.roles a = .ok roles := ok
      refine ⟨_, _, by
        simp only [Target.roleCall, start, PassportFacade.start, PassportFacade.exec, hexec]
        rfl, rfl⟩
  | reputation =>
      have hexec : call.exec s.reputation.roles a = .ok roles := ok
      refine ⟨_, _, by simp only [Target.roleCall, start, ReputationOracle.exec, hexec]; rfl, rfl⟩
  | endorsements =>
      have hexec : call.exec s.endorsements.roles a = .ok roles := ok
      refine ⟨_, _, by
        simp only [Target.roleCall, start, EndorsementRegistry.exec, hexec]
        rfl, rfl⟩
  | attestations =>
      have hexec : call.exec s.attestations.roles a = .ok roles := ok
      refine ⟨_, _, by
        simp only [Target.roleCall, start, AttestationRegistry.exec, hexec]
        rfl, rfl⟩

/-- Whether anybody can still gain a role of a contract. -/
structure RoleGains (keccak256 : Bytes → Bytes32) (t : Target) (c : Stack) : Prop where
  /-- Once no account is admin of the contract, nobody gains a role of it, in any later run. -/
  closed : NoAdmin (c.ledger.state.rolesOf t) → ∀ as c',
    run (CallStack.step (contract keccak256)) c as = some c' →
    ∀ role account, c'.ledger.state.rolesOf t role account = true →
      c.ledger.state.rolesOf t role account = true
  /-- An admin can give any account any role of the contract. -/
  admin : ∀ a : Account, c.ledger.state.rolesOf t defaultAdminRole a = true →
    ∀ role account, ∃ d, CallStack.step (contract keccak256) c
        (.call ⟨a, t.roleCall (.grantRole role account)⟩ true) = some d ∧
      d.ledger.state.rolesOf t role account = true

/-- **A contract without admins is closed for good**, whatever is called on the other contracts; and
one with an admin is not. -/
theorem role_gains (keccak256 : Bytes → Bytes32) (c : Stack) (hclosed : c.frames = [])
    (t : Target) : RoleGains keccak256 t c where
  closed hadmin as c' hrun role account hrole := by
    -- whatever the system does, AccessControl of this contract makes a run of its own
    obtain ⟨as', h⟩ := Component.exists_run (p := rolesComponent keccak256 t)
      (Component.kept_closed hclosed trivial) hrun
    have hframes : ((rolesComponent keccak256 t).stack c).frames = [] := by
      simp only [Component.stack, hclosed, List.map_nil]
    obtain ⟨as'', h⟩ := exists_ledger_run hframes h
    exact le_of_run hadmin h role account hrole
  admin a ha role account := by
    have hgrant : (RoleCall.grantRole role account).exec (c.ledger.state.rolesOf t) a =
        .ok _ := RoleCall.exec_eq_ok.mpr ⟨ha, rfl⟩
    obtain ⟨s', v, hstart, hroles⟩ := start_roleCall (b := c.ledger.block) t hgrant
    refine ⟨_, CallStack.step_call_done hstart, ?_⟩
    rw [Ledger.commit_state, hroles]
    simp [RoleCall.sets]

/-- After the change of admins nobody is an admin of the oracle, and nobody gains a role of it; the
token has its admin, who can make another account a minter. -/
theorem role_gains_changeAdmins : ∃ c : Stack,
    run (CallStack.step (contract AttestationRegistry.sampleHash))
      (CallStack.deployed (blockAt 1 1) (deploy (acct 9) (acct 1))) changeAdmins = some c ∧
    NoAdmin (c.ledger.state.rolesOf .reputation) ∧
    (∀ as c', run (CallStack.step (contract AttestationRegistry.sampleHash)) c as = some c' →
      ∀ role account, c'.ledger.state.rolesOf .reputation role account = true →
        c.ledger.state.rolesOf .reputation role account = true) ∧
    ∃ d, CallStack.step (contract AttestationRegistry.sampleHash) c (.call ⟨acct 1,
        Target.passport.roleCall (.grantRole PassportSBT.minterRole (acct 2))⟩ true) = some d ∧
      d.ledger.state.rolesOf .passport PassportSBT.minterRole (acct 2) = true := by
  obtain ⟨c, hrun, hclosed, hadmins, hadmin⟩ : ∃ c : Stack,
      run (CallStack.step (contract AttestationRegistry.sampleHash))
        (CallStack.deployed (blockAt 1 1) (deploy (acct 9) (acct 1))) changeAdmins = some c ∧
      c.frames = [] ∧
      c.ledger.state.rolesOf .reputation defaultAdminRole =
        Function.update (Function.update (Function.update (Function.update (fun _ => false)
          (acct 1).1 true) (acct 2) true) (acct 1) false) (acct 2) false ∧
      c.ledger.state.rolesOf .passport defaultAdminRole (acct 1) = true :=
    ⟨_, rfl, rfl, rfl, rfl⟩
  have hgone : NoAdmin (c.ledger.state.rolesOf .reputation) := by
    intro a
    rw [hadmins]
    by_cases h1 : (a : Address) = acct 1 <;> by_cases h2 : (a : Address) = acct 2 <;>
      simp [Function.update_apply, h1, h2]
  exact ⟨c, hrun, hgone,
    (role_gains AttestationRegistry.sampleHash c hclosed .reputation).closed hgone,
    (role_gains AttestationRegistry.sampleHash c hclosed .passport).admin (acct 1) hadmin
      PassportSBT.minterRole (acct 2)⟩

end System

end ReputationPassport
