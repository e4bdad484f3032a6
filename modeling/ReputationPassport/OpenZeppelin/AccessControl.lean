import ReputationPassport.Evm.Basic

/-! # OpenZeppelin 5.x: AccessControl, Pausable, ReentrancyGuard

The three abstract contracts the repository's contracts inherit their modifiers from. A modifier is
a computation that returns `()` or reverts, and each has a lemma that says when it passes.

No contract of the repository calls `_setRoleAdmin`, so the admin role of every role is
`DEFAULT_ADMIN_ROLE`; the library's own events are not recorded. -/

namespace OpenZeppelin

open Evm

/-- The custom errors of the OpenZeppelin contracts in use. -/
inductive OzError where
  | accessControlUnauthorizedAccount (account : Address) (neededRole : Bytes32)
  | accessControlBadConfirmation
  | enforcedPause
  | expectedPause
  | reentrancyGuardReentrantCall
  | erc721IncorrectOwner (sender : Address) (tokenId : Nat) (owner : Address)
  | erc721InsufficientApproval (operator : Address) (tokenId : Nat)
  | erc721InvalidApprover (approver : Address)
  | erc721InvalidOperator (operator : Address)
  | erc721InvalidReceiver (receiver : Address)
  | erc721InvalidSender (sender : Address)
  | erc721NonexistentToken (tokenId : Nat)
  deriving DecidableEq

/-- A call that reverts with a string, a panic or an OpenZeppelin error, or returns. -/
abbrev Result (α : Type) : Type := Except (Revert OzError) α

/-- Revert with the custom error unless the condition holds. -/
def ensure (p : Prop) [Decidable p] (e : OzError) : Result Unit :=
  if p then .ok () else .error (.custom e)

@[simp] theorem ensure_eq_ok {p : Prop} [Decidable p] {e : OzError} {u : Unit} :
    ensure p e = .ok u ↔ p := by
  unfold ensure; split <;> simp_all

/-- A failed `ensure` is a custom error, never a panic. -/
theorem ensure_ne_panic {p : Prop} [Decidable p] {e : OzError} {code : Nat} :
    ensure p e ≠ .error (.panic code) := by
  unfold ensure; split <;> simp

/-! ## Modifiers -/

/-- The role memberships, `role ↦ account ↦ member`. -/
abbrev Roles : Type := Bytes32 → Address → Bool

/-- `DEFAULT_ADMIN_ROLE`, the admin role of every role. -/
def defaultAdminRole : Bytes32 := 0x00

/-- No role has a member. -/
def noRoles : Roles := fun _ _ => false

/-- `onlyRole(role)`, which is `_checkRole(role, _msgSender())`. -/
def onlyRole (roles : Roles) (role : Bytes32) (sender : Address) : Result Unit :=
  ensure (roles role sender = true) (.accessControlUnauthorizedAccount sender role)

@[simp] theorem onlyRole_eq_ok {roles : Roles} {role : Bytes32} {sender : Address} {u : Unit} :
    onlyRole roles role sender = .ok u ↔ roles role sender = true := ensure_eq_ok

/-- `whenNotPaused`. -/
def whenNotPaused (paused : Bool) : Result Unit := ensure (paused = false) .enforcedPause

@[simp] theorem whenNotPaused_eq_ok {paused : Bool} {u : Unit} :
    whenNotPaused paused = .ok u ↔ paused = false := ensure_eq_ok

/-- `whenPaused`. -/
def whenPaused (paused : Bool) : Result Unit := ensure (paused = true) .expectedPause

@[simp] theorem whenPaused_eq_ok {paused : Bool} {u : Unit} :
    whenPaused paused = .ok u ↔ paused = true := ensure_eq_ok

/-- The check `nonReentrant` makes on entry; setting and clearing the flag around the body is left
to the function that carries the modifier. -/
def nonReentrant (entered : Bool) : Result Unit :=
  ensure (entered = false) .reentrancyGuardReentrantCall

@[simp] theorem nonReentrant_eq_ok {entered : Bool} {u : Unit} :
    nonReentrant entered = .ok u ↔ entered = false := ensure_eq_ok

/-! ## Granting and revoking roles -/

/-- `_grantRole(role, account)`. -/
def grantRoleTo (roles : Roles) (role : Bytes32) (account : Address) : Roles :=
  Function.update roles role (Function.update (roles role) account true)

/-- `_revokeRole(role, account)`. -/
def revokeRoleFrom (roles : Roles) (role : Bytes32) (account : Address) : Roles :=
  Function.update roles role (Function.update (roles role) account false)

/-- The external functions of AccessControl that change memberships. -/
inductive RoleCall where
  | grantRole (role : Bytes32) (account : Address)
  | revokeRole (role : Bytes32) (account : Address)
  | renounceRole (role : Bytes32) (callerConfirmation : Address)

/-- Execute an external function of AccessControl. Granting and revoking need the admin role of
the role; renouncing needs the caller to name itself. -/
def RoleCall.exec (roles : Roles) (sender : Address) : RoleCall → Result Roles
  | .grantRole role account => do
      onlyRole roles defaultAdminRole sender
      pure (grantRoleTo roles role account)
  | .revokeRole role account => do
      onlyRole roles defaultAdminRole sender
      pure (revokeRoleFrom roles role account)
  | .renounceRole role callerConfirmation => do
      ensure (callerConfirmation = sender) .accessControlBadConfirmation
      pure (revokeRoleFrom roles role callerConfirmation)

end OpenZeppelin
