import ReputationPassport.Machine.History
import ReputationPassport.Machine.Ledger
import ReputationPassport.OpenZeppelin.AccessControl

/-! # Who holds a role, and since which call

The memberships of AccessControl, seen without the contract that inherits them, are a ledger of
their own: the calls of its three functions that succeeded. `rolesAfter` reads the memberships off
that history: of each, what the last call made of it that concerns it. `Authorised` says that each
call was made by an account that was entitled to make it, judged by the calls before.

An account comes to hold a role only through an admin, so a contract without admins is closed:
nobody gains a role any more (`le_of_run`). -/

namespace OpenZeppelin

open Evm Machine

/-- A successful call of AccessControl. -/
abbrev RoleEntry : Type := Entry (Message RoleCall) Unit

/-- Memberships with the calls that made them. -/
abbrev RoleLedger : Type := Ledger Roles (Message RoleCall) Unit

/-- Execute a call of AccessControl. -/
def execRole (_ : Block) (roles : Roles) (c : Message RoleCall) : Result (Roles × Unit) := do
  let roles' ← c.fn.exec roles c.sender
  pure (roles', ())

/-- What a call makes of a membership, if it concerns it. -/
def RoleCall.sets (role : Bytes32) (account : Address) : RoleCall → Option Bool
  | .grantRole r a => if r = role ∧ a = account then some true else none
  | .revokeRole r a => if r = role ∧ a = account then some false else none
  | .renounceRole r a => if r = role ∧ a = account then some false else none

/-- The sender is entitled to a call: an admin grants and revokes, everyone renounces. -/
def RoleCall.Entitled (roles : Roles) (sender : Address) : RoleCall → Prop
  | .grantRole _ _ => roles defaultAdminRole sender = true
  | .revokeRole _ _ => roles defaultAdminRole sender = true
  | .renounceRole _ callerConfirmation => callerConfirmation = sender

/-- **The memberships after a history**: of each, what the last call made of it that concerns it. -/
def rolesAfter (initial : Roles) (history : List RoleEntry) : Roles := fun role account =>
  (lastOf (fun e => e.call.fn.sets role account) history).getD (initial role account)

/-- **Every call of the history was made by right**: its sender was entitled to it after the calls
before. -/
def Authorised (initial : Roles) (history : List RoleEntry) : Prop :=
  ∀ before e after, history = before ++ e :: after →
    e.call.fn.Entitled (rolesAfter initial before) e.call.sender

/-- No account is admin any more. -/
def NoAdmin (roles : Roles) : Prop := ∀ a : Account, roles defaultAdminRole a = false

section Update

variable {roles : Roles} {r role : Bytes32} {a account : Address}

/-- Writing one membership. -/
theorem update_role (v : Bool) :
    Function.update roles r (Function.update (roles r) a v) role account =
      if r = role ∧ a = account then v else roles role account := by
  by_cases hr : r = role
  · subst hr
    rw [Function.update_self]
    by_cases ha : a = account
    · subst ha
      rw [Function.update_self, if_pos ⟨rfl, rfl⟩]
    · rw [Function.update_of_ne (Ne.symm ha), if_neg fun h => ha h.2]
  · rw [Function.update_of_ne (Ne.symm hr), if_neg fun h => hr h.1]

/-- Writing one membership, as a value that may be there or not. -/
theorem update_role_getD (v : Bool) :
    Function.update roles r (Function.update (roles r) a v) = fun role account =>
      (if r = role ∧ a = account then some v else none).getD (roles role account) := by
  funext role account
  rw [update_role]
  split <;> rfl

end Update

/-- **Effect of a call of AccessControl**: an entitled sender writes the membership it names. -/
theorem RoleCall.exec_eq_ok {call : RoleCall} {roles roles' : Roles} {sender : Address} :
    call.exec roles sender = .ok roles' ↔ call.Entitled roles sender ∧
      roles' = fun role account => (call.sets role account).getD (roles role account) := by
  cases call with
  | grantRole r a =>
      have hwrite : grantRoleTo roles r a = fun role account =>
          ((RoleCall.grantRole r a).sets role account).getD (roles role account) :=
        update_role_getD true
      simp only [RoleCall.exec, bind_eq_ok, onlyRole_eq_ok, pure_eq_ok, exists_const, Entitled,
        hwrite, eq_comm (b := roles')]
  | revokeRole r a =>
      have hwrite : revokeRoleFrom roles r a = fun role account =>
          ((RoleCall.revokeRole r a).sets role account).getD (roles role account) :=
        update_role_getD false
      simp only [RoleCall.exec, bind_eq_ok, onlyRole_eq_ok, pure_eq_ok, exists_const, Entitled,
        hwrite, eq_comm (b := roles')]
  | renounceRole r a =>
      -- the account that is named need not be the sender; the check makes it so
      have hwrite : revokeRoleFrom roles r a = fun role account =>
          ((RoleCall.renounceRole r a).sets role account).getD (roles role account) :=
        update_role_getD false
      simp only [RoleCall.exec, bind_eq_ok, ensure_eq_ok, pure_eq_ok, exists_const, Entitled,
        hwrite, eq_comm (b := roles')]

/-- The same for AccessControl as a contract. -/
theorem execRole_eq_ok {b : Block} {roles roles' : Roles} {c : Message RoleCall} {u : Unit} :
    execRole b roles c = .ok (roles', u) ↔ c.fn.Entitled roles c.sender ∧
      roles' = fun role account => (c.fn.sets role account).getD (roles role account) := by
  simp only [execRole, bind_eq_ok, pure_eq_ok, Prod.mk.injEq, and_true, exists_eq_right,
    RoleCall.exec_eq_ok]

/-! ## Reading the memberships off a history -/

/-- The last call of a history writes the membership it names. -/
theorem rolesAfter_concat (initial : Roles) (history : List RoleEntry) (e : RoleEntry) :
    rolesAfter initial (history ++ [e]) = fun role account =>
      (e.call.fn.sets role account).getD (rolesAfter initial history role account) := by
  funext role account
  rw [rolesAfter, lastOf_concat]
  cases e.call.fn.sets role account with
  | none => rfl
  | some v => rfl

/-- A history stays authorised when an entitled sender adds a call. -/
theorem Authorised.concat {initial : Roles} {history : List RoleEntry} {e : RoleEntry}
    (h : Authorised initial history)
    (he : e.call.fn.Entitled (rolesAfter initial history) e.call.sender) :
    Authorised initial (history ++ [e]) := by
  intro before d after hsplit
  -- the call is the added one, or stands in the history before
  rcases List.eq_nil_or_concat' after with rfl | ⟨rest, f, rfl⟩
  · obtain ⟨rfl, hd⟩ := List.append_inj' hsplit rfl
    obtain rfl := List.singleton_inj.mp hd
    exact he
  · rw [← List.cons_append, ← List.append_assoc] at hsplit
    obtain ⟨hbefore, -⟩ := List.append_inj' hsplit rfl
    exact h before d rest hbefore

/-- **The memberships are the history**, and every call in it was made by right. -/
theorem roles_run {b : Block} {initial : Roles} {as : List (Ledger.Action (Message RoleCall))}
    {l : RoleLedger} (hrun : run (Ledger.step execRole) (Ledger.deployed b initial) as = some l) :
    l.state = rolesAfter initial l.history ∧ Authorised initial l.history := by
  refine Ledger.invariant (I := fun l : RoleLedger =>
    l.state = rolesAfter initial l.history ∧ Authorised initial l.history) ?_ ?_ ?_ hrun
  · intro l b hl _
    exact hl
  · rintro l c roles u ⟨hstate, hauth⟩ hc
    obtain ⟨hentitled, rfl⟩ := execRole_eq_ok.mp hc
    rw [hstate] at hentitled
    refine ⟨?_, hauth.concat hentitled⟩
    rw [Ledger.commit_state, Ledger.commit_history, rolesAfter_concat, hstate]
  · refine ⟨rfl, fun before e after hsplit => ?_⟩
    exact absurd hsplit.symm (List.append_ne_nil_of_right_ne_nil _ (List.cons_ne_nil _ _))

/-! ## Gaining a role -/

/-- Without an admin, a call takes a role from its sender or does nothing. -/
theorem le_of_execRole {b : Block} {roles roles' : Roles} {c : Message RoleCall} {u : Unit}
    (h : NoAdmin roles) (hc : execRole b roles c = .ok (roles', u)) (role : Bytes32)
    (account : Address) (hrole : roles' role account = true) : roles role account = true := by
  obtain ⟨a, call⟩ := c
  obtain ⟨hentitled, rfl⟩ := execRole_eq_ok.mp hc
  cases call with
  | grantRole r x => exact absurd hentitled (by simp [RoleCall.Entitled, h a])
  | revokeRole r x => exact absurd hentitled (by simp [RoleCall.Entitled, h a])
  | renounceRole r x =>
      by_cases hx : r = role ∧ x = account
      · simp [RoleCall.sets, hx] at hrole
      · simpa [RoleCall.sets, hx] using hrole

/-- **Once no account is admin, nobody gains a role.** -/
theorem le_of_run {l l' : RoleLedger} {as : List (Ledger.Action (Message RoleCall))}
    (h : NoAdmin l.state) (hrun : run (Ledger.step execRole) l as = some l') (role : Bytes32)
    (account : Address) (hrole : l'.state role account = true) : l.state role account = true := by
  refine Ledger.invariant (I := fun l' : RoleLedger =>
    ∀ role account, l'.state role account = true → l.state role account = true)
    (fun _ _ hl _ => hl) ?_ (fun _ _ hrole => hrole) hrun role account hrole
  intro l' c roles u hl hc role account hrole
  -- an admin now would have been one before
  have hadmin : NoAdmin l'.state := by
    intro a
    by_contra hne
    rw [Bool.not_eq_false] at hne
    exact Bool.false_ne_true ((h a).symm.trans (hl _ _ hne))
  exact hl role account (le_of_execRole hadmin hc role account hrole)

end OpenZeppelin
