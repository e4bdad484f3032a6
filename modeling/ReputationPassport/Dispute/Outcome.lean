import ReputationPassport.Dispute.Period
import ReputationPassport.Dispute.Lifecycle
import ReputationPassport.Machine.Erasure

/-! # What decides a dispute

A dispute is decided by its mediator. `resolveDispute` reads neither the votes nor the voting
period, and nothing else that it reads depends on them, so all votes and all periods can be erased
from a run without a change to any dispute (`decided_without_votes`). Conversely one mediator is
enough: as long as a filed dispute is open it can bring it to any resolution by calls of its own
(`resolvable_iff`). -/

namespace ReputationPassport.DisputeResolutionDAO

open Evm Machine OpenZeppelin

/-- The ledger of the contract. -/
abbrev DisputeLedger : Type := Ledger State (Message Fn) (Option Nat)

/-- A successful call. -/
abbrev DisputeCall : Type := Entry (Message Fn) (Option Nat)

/-! ## The votes -/

/-- What there is besides votes and voting period. -/
structure Outcome where
  roles : Roles
  paused : Bool
  entered : Bool
  nextDisputeId : Nat
  disputes : Nat → Dispute
  evidence : Nat → List Evidence

/-- The outcome in a state. -/
def outcome (s : State) : Outcome :=
  ⟨s.roles, s.paused, s.entered, s.nextDisputeId, s.disputes, s.evidence⟩

/-- The call is neither a vote nor a change of the voting period. -/
def Fn.decides : Fn → Bool
  | .castVote .. => false
  | .setVotingPeriod _ => false
  | _ => true

/-- Votes and periods leave the outcome. -/
theorem outcome_eq_of_not_decides {b : Block} {s s' : State} {a : Account} {fn : Fn}
    {r : Option Nat} (h : Step b s a fn s' r) (hfn : fn.decides = false) :
    outcome s' = outcome s := by
  cases h with
  | castVote => rfl
  | setVotingPeriod => rfl
  | _ => cases hfn

/-- **What any other call does to the outcome depends on the outcome alone.** -/
theorem exists_step_of_outcome_eq {b : Block} {s s' t : State} {a : Account} {fn : Fn}
    {r : Option Nat} (h : Step b s a fn s' r) (hfn : fn.decides = true)
    (hview : outcome s = outcome t) : ∃ t', Step b t a fn t' r ∧ outcome t' = outcome s' := by
  simp only [outcome, Outcome.mk.injEq] at hview
  obtain ⟨hroles, hpaused, hentered, hnext, hdisputes, hevidence⟩ := hview
  -- each guard reads the outcome only, so it lets the call pass in the other state as well
  cases h with
  | fileDispute unpaused idle room =>
      rw [hpaused] at unpaused
      rw [hentered] at idle
      rw [hnext] at room ⊢
      refine ⟨_, .fileDispute unpaused idle room, ?_⟩
      simp only [outcome, State.file, hroles, hpaused, hnext, hdisputes, hevidence]
  | submitEvidence unpaused status auth =>
      rw [hpaused] at unpaused
      rw [hdisputes] at status auth
      rw [hroles] at auth
      refine ⟨_, .submitEvidence unpaused status auth, ?_⟩
      simp only [outcome, State.addEvidence, hroles, hpaused, hentered, hnext, hdisputes, hevidence]
  | startDeliberation role unpaused status =>
      rw [hroles] at role
      rw [hpaused] at unpaused
      rw [hdisputes] at status
      refine ⟨_, .startDeliberation role unpaused status, ?_⟩
      simp only [outcome, State.deliberate, hroles, hpaused, hentered, hnext, hdisputes, hevidence]
  | resolveDispute role unpaused idle status chosen =>
      rw [hroles] at role
      rw [hpaused] at unpaused
      rw [hentered] at idle
      rw [hdisputes] at status
      refine ⟨_, .resolveDispute role unpaused idle status chosen, ?_⟩
      simp only [outcome, State.resolve, hroles, hpaused, hnext, hdisputes, hevidence]
  | role ok =>
      rw [hroles] at ok
      refine ⟨_, .role ok, ?_⟩
      simp only [outcome, hpaused, hentered, hnext, hdisputes, hevidence]
  | castVote => cases hfn
  | setVotingPeriod => cases hfn

/-- Votes and periods are not seen in the outcome. -/
theorem unseen : Unseen exec outcome fun c : Message Fn => c.fn.decides where
  leaves _ _ _ _ _ hfn hc := outcome_eq_of_not_decides (exec_eq_ok.mp hc) hfn
  depends _ _ _ _ _ _ hfn hview hc := by
    obtain ⟨t', hstep, houtcome⟩ := exists_step_of_outcome_eq (exec_eq_ok.mp hc) hfn hview
    exact ⟨t', exec_eq_ok.mpr hstep, houtcome⟩

/-- The actions of a run without its votes and its changes of the voting period. -/
def withoutVotes (as : List (Ledger.Action (Message Fn))) : List (Ledger.Action (Message Fn)) :=
  Ledger.erase (fun c => c.fn.decides) as

/-- **Disputes are decided without the votes**: the run without them is a run, and it leaves every
dispute, every evidence list, every role and the counter as the run with them does; its calls are
the others, with the same results. -/
theorem decided_without_votes (deployer : Account) (b : Block)
    (as : List (Ledger.Action (Message Fn))) (l : DisputeLedger)
    (hrun : run (Ledger.step exec) (Ledger.deployed b (deploy deployer)) as = some l) :
    ∃ m, run (Ledger.step exec) (Ledger.deployed b (deploy deployer)) (withoutVotes as) = some m ∧
      outcome m.state = outcome l.state ∧
      m.history = l.history.filter fun e => e.call.fn.decides := by
  obtain ⟨m, hm, halike⟩ := Ledger.exists_erased_run unseen hrun
  exact ⟨m, hm, halike.view, halike.history⟩

/-- A run with votes and a change of the period, and what it is without them. -/
def voteAndResolve : List (Ledger.Action (Message Fn)) :=
  [.call ⟨acct 2, .fileDispute 3 [0x73] []⟩, .call ⟨acct 2, .submitEvidence 0 [0x75] []⟩,
    .call ⟨acct 1, .startDeliberation 0⟩, .call ⟨acct 1, .setVotingPeriod 0⟩,
    .call ⟨acct 1, .castVote 0 .reject []⟩, .mine (blockAt 9 2),
    .call ⟨acct 1, .resolveDispute 0 .uphold [0x6e]⟩]

/-- The only vote was to reject, and the dispute is upheld with the vote and without. -/
theorem decided_without_votes_voteAndResolve : ∃ l : DisputeLedger,
    run (Ledger.step exec) (Ledger.deployed (blockAt 1 1) (deploy (acct 1))) voteAndResolve =
      some l ∧
    (l.state.disputes 0).resolution = .uphold ∧ (getVotes l.state 0).length = 1 ∧
    ∃ m, run (Ledger.step exec) (Ledger.deployed (blockAt 1 1) (deploy (acct 1)))
        (withoutVotes voteAndResolve) = some m ∧
      outcome m.state = outcome l.state ∧
      m.history = l.history.filter fun e => e.call.fn.decides := by
  obtain ⟨l, hrun, hresolution, hvotes⟩ : ∃ l : DisputeLedger,
      run (Ledger.step exec) (Ledger.deployed (blockAt 1 1) (deploy (acct 1))) voteAndResolve =
        some l ∧
      (l.state.disputes 0).resolution = .uphold ∧ (getVotes l.state 0).length = 1 :=
    ⟨_, rfl, rfl, rfl⟩
  exact ⟨l, hrun, hresolution, hvotes,
    decided_without_votes (acct 1) (blockAt 1 1) voteAndResolve l hrun⟩

/-! ## The mediator -/

/-- A mediator is about to call, and nothing but the status of a dispute can stop it. -/
structure Ready (s : State) (a : Account) : Prop where
  role : s.roles mediatorRole a = true
  unpaused : s.paused = false
  idle : s.entered = false

/-- No call leaves the guard closed. -/
theorem idle_run {deployer : Account} {b : Block} {as : List (Ledger.Action (Message Fn))}
    {l : DisputeLedger}
    (hrun : run (Ledger.step exec) (Ledger.deployed b (deploy deployer)) as = some l) :
    l.state.entered = false := by
  refine Ledger.invariant (I := fun l : DisputeLedger => l.state.entered = false) ?_ ?_ rfl hrun
  · exact fun _ _ h _ => h
  · rintro l ⟨a, fn⟩ s r h hc
    cases exec_eq_ok.mp hc with
    | fileDispute => rfl
    | resolveDispute => rfl
    | _ => exact h

/-- All actions are calls of one account. -/
def CallsOf (a : Account) (as : List (Ledger.Action (Message Fn))) : Prop :=
  ∀ x ∈ as, ∃ fn, x = .call ⟨a, fn⟩

/-- **The account can bring the dispute to the resolution** by calls of its own. -/
def CanResolve (l : DisputeLedger) (a : Account) (id : Nat) (resolution : Resolution)
    (notes : Bytes) : Prop :=
  ∃ as l', CallsOf a as ∧ run (Ledger.step exec) l as = some l' ∧
    (l'.state.disputes id).status = .resolved ∧ (l'.state.disputes id).resolution = resolution ∧
    (l'.state.disputes id).resolutionNotes = notes

variable {l : DisputeLedger} {a : Account} {id : Nat} {resolution : Resolution} {notes : Bytes}

/-- A successful call of the account, and then whatever it can do. -/
theorem CanResolve.of_step {s : State} {fn : Fn} {r : Option Nat}
    (hstep : Step l.block l.state a fn s r)
    (h : CanResolve (l.commit s ⟨a, fn⟩ r) a id resolution notes) :
    CanResolve l a id resolution notes := by
  obtain ⟨as, l', has, hrun, hresolved⟩ := h
  have hexec : exec l.block l.state ⟨a, fn⟩ = .ok (s, r) := exec_eq_ok.mpr hstep
  refine ⟨.call ⟨a, fn⟩ :: as, l', List.forall_mem_cons.mpr ⟨⟨fn, rfl⟩, has⟩, ?_, hresolved⟩
  exact run_cons_eq_some.mpr ⟨_, Ledger.step_call_ok hexec, hrun⟩

/-- In deliberation the mediator resolves. -/
theorem canResolve_of_deliberation (h : Ready l.state a)
    (hstatus : (l.state.disputes id).status = .deliberation) (hchosen : resolution ≠ .none) :
    CanResolve l a id resolution notes := by
  have hresolve : Step l.block l.state a (.resolveDispute id resolution notes) _ none :=
    .resolveDispute h.role h.unpaused h.idle hstatus hchosen
  refine .of_step hresolve ⟨[], _, fun _ hx => absurd hx List.not_mem_nil, rfl, ?_⟩
  simp [State.resolve]

/-- With evidence it starts the deliberation first. -/
theorem canResolve_of_evidence (h : Ready l.state a)
    (hstatus : (l.state.disputes id).status = .evidence) (hchosen : resolution ≠ .none) :
    CanResolve l a id resolution notes := by
  refine .of_step (.startDeliberation h.role h.unpaused hstatus) ?_
  refine canResolve_of_deliberation ⟨h.role, h.unpaused, h.idle⟩ ?_ hchosen
  simp [State.deliberate]

/-- Right after the filing it submits evidence first: a mediator is entitled to. -/
theorem canResolve_of_filed (h : Ready l.state a)
    (hstatus : (l.state.disputes id).status = .filed) (hchosen : resolution ≠ .none) :
    CanResolve l a id resolution notes := by
  have hsubmit : Step l.block l.state a (.submitEvidence id [] []) _ none :=
    .submitEvidence h.unpaused (Or.inl hstatus) (Or.inr (Or.inr h.role))
  refine .of_step hsubmit (canResolve_of_evidence ⟨h.role, h.unpaused, h.idle⟩ ?_ hchosen)
  simp [State.addEvidence, hstatus]

/-- **One mediator decides**: in every reachable state it can bring a filed dispute to a given
resolution by calls of its own if and only if the dispute is not resolved, or resolved that way
already. No vote is needed, and none can prevent it. -/
theorem resolvable_iff (deployer : Account) (b : Block) (as : List (Ledger.Action (Message Fn)))
    (l : DisputeLedger)
    (hrun : run (Ledger.step exec) (Ledger.deployed b (deploy deployer)) as = some l) (id : Nat)
    (hid : id < l.state.nextDisputeId) (a : Account) (ha : l.state.roles mediatorRole a = true)
    (resolution : Resolution) (hchosen : resolution ≠ .none) (notes : Bytes) :
    CanResolve l a id resolution notes ↔ (l.state.disputes id).status ≠ .resolved ∨
      (l.state.disputes id).resolution = resolution ∧
        (l.state.disputes id).resolutionNotes = notes := by
  have hready : Ready l.state a := ⟨ha, unpaused_run hrun, idle_run hrun⟩
  have hsound := sound_run hrun id hid
  constructor
  · rintro ⟨as', l', -, hrun', -, hresolution, hnotes⟩
    by_cases hresolved : (l.state.disputes id).status = .resolved
    · -- a resolved record stays as it is
      have hfinal := ((later_run hrun').2 id hid).final hresolved
      rw [hfinal] at hresolution hnotes
      exact Or.inr ⟨hresolution, hnotes⟩
    · exact Or.inl hresolved
  · intro h
    -- how far the dispute has got says which calls are still to be made
    cases hstatus : (l.state.disputes id).status with
    | filed => exact canResolve_of_filed hready hstatus hchosen
    | evidence => exact canResolve_of_evidence hready hstatus hchosen
    | deliberation => exact canResolve_of_deliberation hready hstatus hchosen
    | resolved =>
        have hsame := h.resolve_left (not_not.mpr hstatus)
        exact ⟨[], l, fun _ hx => absurd hx List.not_mem_nil, rfl, hstatus, hsame⟩
    | dismissed => exact absurd hstatus hsound.notDismissed

/-- The mediator of a run that has filed a dispute and has no evidence yet. -/
theorem resolvable_iff_filed : ∃ l : DisputeLedger,
    run (Ledger.step exec) (Ledger.deployed (blockAt 1 1) (deploy (acct 1)))
      [.call ⟨acct 2, .fileDispute 3 [0x73] []⟩] = some l ∧
    (CanResolve l (acct 1) 0 .uphold [0x6e] ↔ (l.state.disputes 0).status ≠ .resolved ∨
      (l.state.disputes 0).resolution = .uphold ∧
        (l.state.disputes 0).resolutionNotes = [0x6e]) := by
  obtain ⟨l, hrun, hid, hrole⟩ : ∃ l : DisputeLedger,
      run (Ledger.step exec) (Ledger.deployed (blockAt 1 1) (deploy (acct 1)))
        [.call ⟨acct 2, .fileDispute 3 [0x73] []⟩] = some l ∧
      0 < l.state.nextDisputeId ∧ l.state.roles mediatorRole (acct 1) = true :=
    ⟨_, rfl, by decide, rfl⟩
  exact ⟨l, hrun, resolvable_iff (acct 1) (blockAt 1 1) _ l hrun 0 hid (acct 1) hrole .uphold
    (by decide) [0x6e]⟩

end ReputationPassport.DisputeResolutionDAO
