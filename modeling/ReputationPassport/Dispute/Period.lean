import ReputationPassport.Dispute.CleanStart

/-! # The voting period

The DAO has a voting period, which an admin can change, and no function compares a time with it:
`castVote` asks for the role, the status, a fresh mark and a choice. A vote that comes when the
period is over is therefore cast unless one of these refuses it, and `votesInPeriod_iff` says that
the votes of a run fall into the period exactly when each of its late calls is refused so. -/

namespace ReputationPassport.DisputeResolutionDAO

open Evm Machine OpenZeppelin

/-- **The run deliberates on the id since `start`**: a `startDeliberation` on it succeeded at that
time, and the voting period has been `period` ever since. -/
def DeliberatesSince (l₀ : Ledger State (Message Fn) (Option Nat))
    (as : List (Ledger.Action (Message Fn))) (id start period : Nat) : Prop :=
  ∃ before after, ∃ m : Account, ∃ l s r,
    as = before ++ .call ⟨m, .startDeliberation id⟩ :: after ∧
    run (Ledger.step exec) l₀ before = some l ∧
    exec l.block l.state ⟨m, .startDeliberation id⟩ = .ok (s, r) ∧ l.block.timestamp = start ∧
    Always (Ledger.step exec) (fun t => getVotingPeriod t.state = period)
      (l.commit s ⟨m, .startDeliberation id⟩ r) after

/-- **A call of the run**: it is made in the ledger `l`, after the actions `before`. -/
def MakesCall (l₀ : Ledger State (Message Fn) (Option Nat))
    (as before : List (Ledger.Action (Message Fn))) (l : Ledger State (Message Fn) (Option Nat))
    (c : Message Fn) : Prop :=
  (∃ after, as = before ++ .call c :: after) ∧ run (Ledger.step exec) l₀ before = some l

/-- **Votes are cast within the voting period**: a `castVote` of the run that succeeds comes at most
`period` after the start of the deliberation. -/
def VotesInPeriod (l₀ : Ledger State (Message Fn) (Option Nat))
    (as : List (Ledger.Action (Message Fn))) : Prop :=
  ∀ before l (juror : Account) id vote rationale,
    MakesCall l₀ as before l ⟨juror, .castVote id vote rationale⟩ →
    (∃ s r, exec l.block l.state ⟨juror, .castVote id vote rationale⟩ = .ok (s, r)) →
    ∀ start period, DeliberatesSince l₀ before id start period →
      l.block.timestamp ≤ start + period

/-- **What keeps a vote from being cast**, whenever it comes. -/
inductive Refused (s : State) (juror : Account) (id : Nat) (vote : Resolution) : Prop where
  | closed (status : (s.disputes id).status ≠ .deliberation)
  | stranger (role : s.roles jurorRole juror = false)
  | voted (mark : s.hasVoted id juror = true)
  | undecided (choice : vote = .none)

/-- **Late votes are refused**: a `castVote` that the run calls when the period is over finds the
dispute out of the deliberation, its caller without the role or with a mark, or no choice. -/
def LateVotesRefused (l₀ : Ledger State (Message Fn) (Option Nat))
    (as : List (Ledger.Action (Message Fn))) : Prop :=
  ∀ before l (juror : Account) id vote rationale,
    MakesCall l₀ as before l ⟨juror, .castVote id vote rationale⟩ →
    ∀ start period, DeliberatesSince l₀ before id start period →
      start + period < l.block.timestamp → Refused l.state juror id vote

variable {l : Ledger State (Message Fn) (Option Nat)}

/-- Nothing pauses the contract. -/
theorem unpaused_run {deployer : Account} {b : Block} {as : List (Ledger.Action (Message Fn))}
    (hrun : run (Ledger.step exec) (Ledger.deployed b (deploy deployer)) as = some l) :
    l.state.paused = false := by
  refine Ledger.invariant (I := fun l => l.state.paused = false) ?_ ?_ rfl hrun
  · intro l b hl _
    exact hl
  · intro l c s r hl hc
    exact (exec_eq_ok.mp hc).paused_eq.trans hl

/-- **When a vote is cast**: while the contract is not paused, unless it is refused. No time is
asked for. -/
theorem exists_castVote_iff (hp : l.state.paused = false) {juror : Account} {id : Nat}
    {vote : Resolution} {rationale : Bytes} :
    (∃ s r, exec l.block l.state ⟨juror, .castVote id vote rationale⟩ = .ok (s, r)) ↔
      ¬ Refused l.state juror id vote := by
  constructor
  · rintro ⟨s, r, hexec⟩ hrefused
    cases exec_eq_ok.mp hexec with
    | castVote role _ status fresh chosen =>
        cases hrefused with
        | closed h => exact h status
        | stranger h => exact Bool.false_ne_true (h.symm.trans role)
        | voted h => exact Bool.false_ne_true (fresh.symm.trans h)
        | undecided h => exact chosen h
  · intro hpasses
    have role : l.state.roles jurorRole juror = true := by
      by_contra h
      exact hpasses (.stranger (Bool.eq_false_iff.mpr h))
    have status : (l.state.disputes id).status = .deliberation := by
      by_contra h
      exact hpasses (.closed h)
    have fresh : l.state.hasVoted id juror = false := by
      by_contra h
      exact hpasses (.voted ((Bool.not_eq_false _).mp h))
    have chosen : vote ≠ .none := fun h => hpasses (.undecided h)
    exact ⟨_, _, exec_eq_ok.mpr (.castVote role hp status fresh chosen)⟩

/-- **Votes are cast within the voting period exactly in the runs whose late votes are refused.**
For every run from a deployment: each successful `castVote` comes within the voting period after the
start of the deliberation on its dispute, if and only if each `castVote` that is called when the
period is over meets a dispute that is no longer in the deliberation, comes from an account that is
no juror or has voted on it already, or makes no choice. -/
theorem votesInPeriod_iff (deployer : Account) (b : Block)
    (as : List (Ledger.Action (Message Fn))) :
    VotesInPeriod (Ledger.deployed b (deploy deployer)) as ↔
      LateVotesRefused (Ledger.deployed b (deploy deployer)) as := by
  constructor
  · intro h before l juror id vote rationale hcall start period hsince hlate
    -- a late vote that is not refused would be cast
    by_contra hpasses
    have hcast : ∃ s r, exec l.block l.state ⟨juror, .castVote id vote rationale⟩ = .ok (s, r) :=
      (exists_castVote_iff (unpaused_run hcall.2)).mpr hpasses
    have hintime := h before l juror id vote rationale hcall hcast start period hsince
    omega
  · intro h before l juror id vote rationale hcall hcast start period hsince
    by_contra hlate
    have hpasses := (exists_castVote_iff (unpaused_run hcall.2)).mp hcast
    exact hpasses (h before l juror id vote rationale hcall start period hsince (by omega))

/-- A deliberation that starts at time `1`, and a vote on it eight days later. -/
def eightDays : List (Ledger.Action (Message Fn)) :=
  [.call ⟨acct 2, .fileDispute 3 [0x73] []⟩, .call ⟨acct 2, .submitEvidence 0 [0x75] []⟩,
    .call ⟨acct 1, .startDeliberation 0⟩, .mine (blockAt 691201 2),
    .call ⟨acct 1, .castVote 0 .uphold []⟩]

/-- **A vote is cast after the voting period**: on the eighth day of a period of seven. -/
theorem vote_after_period :
    (∃ l, run (Ledger.step exec) (Ledger.deployed (blockAt 1 1) (deploy (acct 1))) eightDays =
      some l ∧ getVotes l.state 0 = [⟨1, .uphold, [], 691201⟩]) ∧
    ¬ ∀ (deployer : Account) (b : Block) (as : List (Ledger.Action (Message Fn)))
        (l : Ledger State (Message Fn) (Option Nat)),
      run (Ledger.step exec) (Ledger.deployed b (deploy deployer)) as = some l →
      VotesInPeriod (Ledger.deployed b (deploy deployer)) as := by
  have hvotes : ∃ l, run (Ledger.step exec) (Ledger.deployed (blockAt 1 1) (deploy (acct 1)))
      eightDays = some l ∧ getVotes l.state 0 = [⟨1, .uphold, [], 691201⟩] := ⟨_, rfl, rfl⟩
  refine ⟨hvotes, fun h => ?_⟩
  obtain ⟨l, hrun, -⟩ := hvotes
  obtain ⟨l', hbefore, hlate, hcast⟩ : ∃ l', run (Ledger.step exec)
      (Ledger.deployed (blockAt 1 1) (deploy (acct 1))) (eightDays.take 4) = some l' ∧
      l'.block.timestamp = 691201 ∧
      ∃ s r, exec l'.block l'.state ⟨acct 1, .castVote 0 .uphold []⟩ = .ok (s, r) :=
    ⟨_, rfl, rfl, _, _, rfl⟩
  have hsince : DeliberatesSince (Ledger.deployed (blockAt 1 1) (deploy (acct 1)))
      (eightDays.take 4) 0 1 604800 := by
    refine ⟨eightDays.take 2, [.mine (blockAt 691201 2)], acct 1, _, _, _, rfl, rfl, rfl, rfl,
      rfl, fun t ht => ?_⟩
    obtain rfl := Option.some.inj ht
    rfl
  have hintime := h (acct 1) (blockAt 1 1) eightDays l hrun (eightDays.take 4) l' (acct 1) 0
    .uphold [] ⟨⟨[], rfl⟩, hbefore⟩ hcast 1 604800 hsince
  omega

end ReputationPassport.DisputeResolutionDAO
