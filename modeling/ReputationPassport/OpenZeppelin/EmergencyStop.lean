import ReputationPassport.Machine.CallStack
import ReputationPassport.OpenZeppelin.AccessControl

/-! # The emergency stop of a pausable contract

A `PausableContract` is a contract with the flag of `Pausable`, the functions that carry
`whenNotPaused`, and the functions that call `_unpause`. `CanStop` says what an emergency stop is
for: an account can bring the contract, by calls of its own, into a state from which on every
guarded function reverts until a call unpauses it.

Two rules decide it. A contract none of whose calls sets the flag can never be stopped
(`NeverPauses.not_canStop`); a contract whose flag follows its calls to two functions, one that
pauses and one that unpauses, is stopped by one call (`Switch.canStop`). -/

namespace OpenZeppelin

open Evm Machine

/-- A contract that inherits `Pausable` and `AccessControl`. -/
structure PausableContract where
  /-- The storage. -/
  σ : Type
  /-- The functions with their arguments. -/
  φ : Type
  /-- What a call has still to do when the account it called returns. -/
  κ : Type
  /-- What a call returns. -/
  ρ : Type
  contract : Contract σ (Message φ) κ ρ (Revert OzError)
  /-- The storage a constructor leaves. -/
  Deployed : σ → Prop
  paused : σ → Bool
  roles : σ → Roles
  /-- The function carries the modifier `whenNotPaused`. -/
  guarded : φ → Bool
  /-- The function calls `_unpause`. -/
  unpauses : φ → Bool
  starts_unpaused : ∀ s, Deployed s → paused s = false
  /-- A guarded function gets nowhere while the flag is set. -/
  whenNotPaused : ∀ b s (c : Message φ) p, contract.start b s c = .ok p → guarded c.fn = true →
    paused s = false

namespace PausableContract

variable (k : PausableContract)

/-- A state of the contract, in between or inside transactions. -/
abbrev Stack : Type := CallStack k.σ (Message k.φ) k.κ k.ρ

/-- The state is reached by a run from a deployment. -/
def Reachable (c : k.Stack) : Prop :=
  ∃ b s as, k.Deployed s ∧ run (CallStack.step k.contract) (CallStack.deployed b s) as = some c

/-- The contract is paused, and in every later state in which what was done up to here stands and no
call has unpaused it, every guarded function reverts for any caller and arguments. -/
def Stopped (c : k.Stack) : Prop :=
  k.paused c.ledger.state = true ∧
    ∀ as d rest, run (CallStack.step k.contract) c as = some d →
      d.ledger.history = c.ledger.history ++ rest →
      (∀ e ∈ rest, k.unpauses e.call.fn = false) →
      ∀ call : Message k.φ, k.guarded call.fn = true →
        ∃ e, k.contract.start d.ledger.block d.ledger.state call = .error e

/-- **The emergency stop can be pulled** by the account: some sequence of its calls stops the
contract. -/
def CanStop (c : k.Stack) (a : Account) : Prop :=
  ∃ as d, (∀ x ∈ as, ∃ fn code, x = .call ⟨a, fn⟩ code) ∧
    run (CallStack.step k.contract) c as = some d ∧ k.Stopped d

variable {k}

/-! ## Contracts that never pause -/

/-- No part of a call sets the flag. -/
structure NeverPauses (k : PausableContract) : Prop where
  done : ∀ b s call s' r, k.paused s = false → k.contract.start b s call = .ok (.done s' r) →
    k.paused s' = false
  calls : ∀ b s call s' rest, k.paused s = false →
    k.contract.start b s call = .ok (.calls s' rest) → k.paused s' = false
  resume : ∀ b s rest s' r, k.paused s = false → k.contract.resume b s rest = .ok (s', r) →
    k.paused s' = false

/-- A contract that never pauses is unpaused in every reachable state. -/
theorem NeverPauses.unpaused (h : NeverPauses k) {c : k.Stack} (hc : k.Reachable c) :
    k.paused c.ledger.state = false := by
  obtain ⟨b, s, as, hs, hrun⟩ := hc
  have hlayers := CallStack.layered_run (I := fun l _ => k.paused l.state = false)
    (fun _ _ hl _ => hl) (fun _ _ _ _ _ hl ok => h.done _ _ _ _ _ hl ok)
    (fun _ _ _ _ _ hl ok => h.calls _ _ _ _ _ hl ok)
    (fun _ _ _ _ _ _ hl ok => h.resume _ _ _ _ _ hl ok)
    (CallStack.layered_closed _ rfl (k.starts_unpaused s hs)) hrun
  exact hlayers.1

/-- **A contract that never pauses cannot be stopped**, by any account in any reachable state. -/
theorem NeverPauses.not_canStop (h : NeverPauses k) {c : k.Stack} (hc : k.Reachable c)
    (a : Account) : ¬ k.CanStop c a := by
  rintro ⟨as, d, -, hrun, hpaused, -⟩
  obtain ⟨b, s, bs, hs, hbefore⟩ := hc
  have hreach : k.Reachable d := ⟨b, s, bs ++ as, hs, run_append_eq_some.mpr ⟨c, hbefore, hrun⟩⟩
  have hunpaused := h.unpaused hreach
  exact Bool.false_ne_true (hunpaused.symm.trans hpaused)

/-- A pausable contract whose calls run to completion. -/
def ofExec {σ φ ρ : Type} (exec : Block → σ → Message φ → Result (σ × ρ)) (Deployed : σ → Prop)
    (paused : σ → Bool) (roles : σ → Roles) (guarded unpauses : φ → Bool)
    (starts_unpaused : ∀ s, Deployed s → paused s = false)
    (whenNotPaused : ∀ b s c s' r, exec b s c = .ok (s', r) → guarded c.fn = true →
      paused s = false) : PausableContract where
  σ := σ
  φ := φ
  κ := Empty
  ρ := ρ
  contract := Contract.ofExec exec
  Deployed := Deployed
  paused := paused
  roles := roles
  guarded := guarded
  unpauses := unpauses
  starts_unpaused := starts_unpaused
  whenNotPaused b s c p hp := by
    obtain ⟨s', r, hexec, -⟩ := Contract.ofExec_start_eq_ok.mp hp
    exact whenNotPaused b s c s' r hexec

/-- A contract whose calls run to completion never pauses if each of them leaves the flag. -/
theorem ofExec_neverPauses {σ φ ρ : Type} {exec : Block → σ → Message φ → Result (σ × ρ)}
    {Deployed : σ → Prop} {paused : σ → Bool} {roles : σ → Roles} {guarded unpauses : φ → Bool}
    {starts_unpaused : ∀ s, Deployed s → paused s = false}
    {whenNotPaused : ∀ b s c s' r, exec b s c = .ok (s', r) → guarded c.fn = true →
      paused s = false}
    (hkeep : ∀ b s c s' r, exec b s c = .ok (s', r) → paused s' = paused s) :
    NeverPauses (ofExec exec Deployed paused roles guarded unpauses starts_unpaused
      whenNotPaused) where
  done b s c s' r hs ok := by
    obtain ⟨t, r', hexec, hp⟩ := Contract.ofExec_start_eq_ok.mp ok
    obtain ⟨rfl, -⟩ := Progress.done.inj hp
    exact (hkeep b s c s' r' hexec).trans hs
  calls b s c s' rest := rest.elim
  resume b s rest := rest.elim

/-! ## Contracts with a switch -/

/-- The flag after some calls: what the last one that switched it said. -/
def flagAfter (pauses unpauses : k.φ → Bool) (start : Bool) (fns : List k.φ) : Bool :=
  fns.foldl (fun flag fn => if pauses fn then true else if unpauses fn then false else flag) start

/-- The calls that pause the contract set the flag, those that unpause it clear it, and no other
part of a call touches it. -/
structure Switch (k : PausableContract) (pauses : k.φ → Bool) : Prop where
  done : ∀ b s call s' r, k.contract.start b s call = .ok (.done s' r) →
    k.paused s' = flagAfter pauses k.unpauses (k.paused s) [call.fn]
  calls : ∀ b s call s' rest, k.contract.start b s call = .ok (.calls s' rest) →
    k.paused s' = k.paused s ∧ pauses call.fn = false ∧ k.unpauses call.fn = false
  resume : ∀ b s rest s' r, k.contract.resume b s rest = .ok (s', r) → k.paused s' = k.paused s

variable {pauses : k.φ → Bool}

/-- Calls that do not unpause a contract leave a flag that is set. -/
theorem flagAfter_of_no_unpause {fns : List k.φ} (h : ∀ fn ∈ fns, k.unpauses fn = false) :
    flagAfter pauses k.unpauses true fns = true := by
  unfold flagAfter
  induction fns with
  | nil => rfl
  | cons fn fns ih =>
      obtain ⟨hfn, hfns⟩ := List.forall_mem_cons.mp h
      rw [List.foldl_cons, hfn, if_neg Bool.false_ne_true, ite_self]
      exact ih hfns

/-- The functions that were called with success, oldest first. -/
def called (l : Ledger k.σ (Message k.φ) k.ρ) : List k.φ := l.history.map (·.call.fn)

/-- The flag of a contract with a switch is the one its history leaves, and no call that switches it
is pending. -/
def Follows (pauses : k.φ → Bool) (l : Ledger k.σ (Message k.φ) k.ρ)
    (ps : List (Message k.φ × k.κ)) : Prop :=
  k.paused l.state = flagAfter pauses k.unpauses false (called l) ∧
    ∀ p ∈ ps, pauses p.1.fn = false ∧ k.unpauses p.1.fn = false

/-- **Run rule for the flag**: it follows the history through every run, layer by layer. -/
theorem Switch.follows_run (h : Switch k pauses) {c d : k.Stack}
    (hc : CallStack.Layered (Follows pauses) c) {as : List (CallStack.Action (Message k.φ))}
    (hrun : run (CallStack.step k.contract) c as = some d) :
    CallStack.Layered (Follows pauses) d := by
  -- the flag follows the finished calls; a pending call is not one, and switches nothing later
  refine CallStack.layered_run ?_ ?_ ?_ ?_ hc hrun
  · exact fun _ _ hl _ => hl
  · rintro l ps call s r ⟨hflag, hps⟩ ok
    refine ⟨?_, hps⟩
    rw [Ledger.commit_state, h.done _ _ _ _ _ ok, hflag]
    simp only [flagAfter, called, Ledger.commit_history, List.map_append, List.foldl_append,
      List.map_cons, List.map_nil]
  · rintro l ps call s rest ⟨hflag, hps⟩ ok
    obtain ⟨hsame, hquiet⟩ := h.calls _ _ _ _ _ ok
    exact ⟨hsame.trans hflag, List.forall_mem_cons.mpr ⟨hquiet, hps⟩⟩
  · rintro l call rest ps s r ⟨hflag, hps⟩ ok
    obtain ⟨⟨hpauses, hunpauses⟩, hrest⟩ := List.forall_mem_cons.mp hps
    refine ⟨?_, hrest⟩
    rw [Ledger.commit_state, h.resume _ _ _ _ _ ok, hflag]
    simp only [flagAfter, called, Ledger.commit_history, List.map_append, List.foldl_append,
      List.map_cons, List.map_nil, List.foldl_cons, List.foldl_nil, hpauses, hunpauses,
      Bool.false_eq_true, if_false]

/-- In a reachable state the flag is the one the history leaves. -/
theorem Switch.follows (h : Switch k pauses) {c : k.Stack} (hc : k.Reachable c) :
    CallStack.Layered (Follows pauses) c := by
  obtain ⟨b, s, as, hs, hrun⟩ := hc
  refine h.follows_run (CallStack.layered_closed _ rfl ⟨k.starts_unpaused s hs, ?_⟩) hrun
  exact fun p hp => absurd hp List.not_mem_nil

/-- A reachable state in which a contract with a switch is paused is stopped. -/
theorem Switch.stopped (h : Switch k pauses) {c : k.Stack} (hc : k.Reachable c)
    (hpaused : k.paused c.ledger.state = true) : k.Stopped c := by
  refine ⟨hpaused, fun as d rest hrun hhistory hrest call hguarded => ?_⟩
  have hbefore := (h.follows hc).1.1
  have hafter := (h.follows_run (h.follows hc) hrun).1.1
  -- the history up to `c` leaves the flag set, and nothing after it clears it
  have hstill : k.paused d.ledger.state = true := by
    rw [hafter, called, hhistory, List.map_append, flagAfter, List.foldl_append]
    rw [hpaused, flagAfter, called] at hbefore
    rw [← hbefore]
    refine flagAfter_of_no_unpause fun fn hfn => ?_
    obtain ⟨e, he, rfl⟩ := List.mem_map.mp hfn
    exact hrest e he
  refine isError_iff.mpr fun p hp => ?_
  exact Bool.false_ne_true ((k.whenNotPaused _ _ call p hp hguarded).symm.trans hstill)

/-- **A contract with a switch can be stopped** by every account that can call the function that
pauses it. -/
theorem Switch.canStop (h : Switch k pauses) {c : k.Stack} (hc : k.Reachable c) {a : Account}
    (fn : k.φ) {s : k.σ} {r : k.ρ} (hfn : pauses fn = true)
    (ok : k.contract.start c.ledger.block c.ledger.state ⟨a, fn⟩ = .ok (.done s r)) :
    k.CanStop c a := by
  have hstep : CallStack.step k.contract c (.call ⟨a, fn⟩ false) =
      some ⟨c.ledger.commit s ⟨a, fn⟩ r, c.frames⟩ := CallStack.step_call_done ok
  have hrun : run (CallStack.step k.contract) c [.call ⟨a, fn⟩ false] =
      some ⟨c.ledger.commit s ⟨a, fn⟩ r, c.frames⟩ := run_cons_eq_some.mpr ⟨_, hstep, rfl⟩
  refine ⟨[.call ⟨a, fn⟩ false], _, ?_, hrun, h.stopped ?_ ?_⟩
  · exact fun x hx => ⟨fn, false, List.mem_singleton.mp hx⟩
  · obtain ⟨b, s₀, as, hs, hbefore⟩ := hc
    exact ⟨b, s₀, as ++ [.call ⟨a, fn⟩ false], hs, run_append_eq_some.mpr ⟨_, hbefore, hrun⟩⟩
  · rw [Ledger.commit_state, h.done _ _ _ _ _ ok, flagAfter, List.foldl_cons, List.foldl_nil,
      hfn, if_pos rfl]

end PausableContract

end OpenZeppelin
