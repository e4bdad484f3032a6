import Mathlib.Data.List.Nodup
import ReputationPassport.Dispute.Contract

/-! # The votes on a dispute

Who has voted on a dispute is stored twice, as a list of votes and as a mark for each juror. Only
`castVote` writes either, and it writes both; the mark it asks for first keeps a juror from voting
again. This holds of every id alike, also of one that nobody has filed yet, and `fileDispute` does
not touch the votes it finds. -/

namespace ReputationPassport.DisputeResolutionDAO

open Evm Machine OpenZeppelin

/-- **Sound votes** on an id: no juror occurs twice, every vote is a choice, and the marks are those
of the jurors in the list. -/
structure VotesSound (s : State) (id : Nat) : Prop where
  distinct : ((getVotes s id).map Vote.juror).Nodup
  chosen : ∀ v ∈ getVotes s id, v.vote ≠ .none
  marked : ∀ a, s.hasVoted id a = true ↔ ∃ v ∈ getVotes s id, v.juror = a

/-- **The run cast the vote**: at some point its juror, who held `JUROR_ROLE` then, called
`castVote` on the id while its status was `Deliberation`. -/
def CastIn (l₀ : Ledger State (Message Fn) (Option Nat)) (as : List (Ledger.Action (Message Fn)))
    (id : Nat) (v : Vote) : Prop :=
  ∃ bs, ∃ a : Account, ∃ cs l, as = bs ++ .call ⟨a, .castVote id v.vote v.rationale⟩ :: cs ∧
    run (Ledger.step exec) l₀ bs = some l ∧ (a : Address) = v.juror ∧
    l.block.timestamp = v.timestamp ∧ l.state.roles jurorRole a = true ∧
    (l.state.disputes id).status = .deliberation

/-! ## What a call does to the votes -/

/-- **The one way votes change**: a call leaves all votes and marks alone, or it is a `castVote`
that has passed its checks. -/
theorem Step.votes_cases {b : Block} {s s' : State} {a : Account} {fn : Fn} {r : Option Nat}
    (h : Step b s a fn s' r) :
    (s'.votes = s.votes ∧ s'.hasVoted = s.hasVoted) ∨
      ∃ id vote rationale, fn = .castVote id vote rationale ∧ s.roles jurorRole a = true ∧
        (s.disputes id).status = .deliberation ∧ s.hasVoted id a = false ∧ vote ≠ .none ∧
        s' = s.addVote id ⟨a, vote, rationale, b.timestamp⟩ := by
  cases h with
  | fileDispute => exact Or.inl ⟨rfl, rfl⟩
  | submitEvidence => exact Or.inl ⟨rfl, rfl⟩
  | startDeliberation => exact Or.inl ⟨rfl, rfl⟩
  | @castVote id vote rationale role _ status fresh chosen =>
      exact Or.inr ⟨id, vote, rationale, rfl, role, status, fresh, chosen, rfl⟩
  | resolveDispute => exact Or.inl ⟨rfl, rfl⟩
  | setVotingPeriod => exact Or.inl ⟨rfl, rfl⟩
  | role => exact Or.inl ⟨rfl, rfl⟩

/-- A vote is appended to the list of its id. -/
theorem getVotes_addVote (s : State) (id : Nat) (v : Vote) (j : Nat) :
    getVotes (s.addVote id v) j = getVotes s j ++ if j = id then [v] else [] := by
  unfold getVotes State.addVote
  dsimp only
  by_cases hj : j = id
  · subst hj
    rw [Function.update_self, if_pos rfl]
  · rw [Function.update_of_ne hj, if_neg hj, List.append_nil]

/-- A vote marks its juror on its id. -/
theorem hasVoted_addVote (s : State) (id : Nat) (v : Vote) (j : Nat) (a : Address) :
    (s.addVote id v).hasVoted j a = true ↔ s.hasVoted j a = true ∨ j = id ∧ a = v.juror := by
  unfold State.addVote
  dsimp only
  by_cases hj : j = id
  · subst hj
    rw [Function.update_self]
    by_cases ha : a = v.juror
    · rw [ha, Function.update_self]
      simp
    · rw [Function.update_of_ne ha]
      simp [ha]
  · rw [Function.update_of_ne hj]
    simp [hj]

/-- Soundness only reads the votes and the marks. -/
theorem VotesSound.congr {s s' : State} {id : Nat} (h : VotesSound s id)
    (hv : s'.votes = s.votes) (hm : s'.hasVoted = s.hasVoted) : VotesSound s' id := by
  have hlist : getVotes s' id = getVotes s id := congrFun hv id
  refine ⟨?_, ?_, fun a => ?_⟩
  · rw [hlist]
    exact h.distinct
  · rw [hlist]
    exact h.chosen
  · rw [hlist, hm]
    exact h.marked a

/-- A vote by a juror without a mark keeps the votes on every id sound. -/
theorem VotesSound.addVote {s : State} {id target : Nat} (h : VotesSound s id) {v : Vote}
    (hfresh : s.hasVoted target v.juror = false) (hchosen : v.vote ≠ .none) :
    VotesSound (s.addVote target v) id := by
  by_cases ht : id = target
  · subst ht
    have hlist : getVotes (s.addVote id v) id = getVotes s id ++ [v] := by
      rw [getVotes_addVote, if_pos rfl]
    refine ⟨?_, ?_, fun a => ?_⟩
    · -- a juror in the list would have a mark
      rw [hlist, List.map_append, List.map_singleton, ← List.concat_eq_append, List.nodup_concat]
      refine ⟨fun hmem => ?_, h.distinct⟩
      obtain ⟨w, hw, hjuror⟩ := List.mem_map.mp hmem
      have hmark := (h.marked v.juror).mpr ⟨w, hw, hjuror⟩
      exact Bool.false_ne_true (hfresh.symm.trans hmark)
    · rw [hlist]
      intro w hw
      rcases List.mem_append.mp hw with hw | hw
      · exact h.chosen w hw
      · rw [List.mem_singleton.mp hw]
        exact hchosen
    · rw [hasVoted_addVote, h.marked, hlist]
      simp only [List.mem_append, List.mem_singleton, or_and_right, exists_or, exists_eq_left,
        true_and, eq_comm (a := a)]
  · have hlist : getVotes (s.addVote target v) id = getVotes s id := by
      rw [getVotes_addVote, if_neg ht, List.append_nil]
    refine ⟨?_, ?_, fun a => ?_⟩
    · rw [hlist]
      exact h.distinct
    · rw [hlist]
      exact h.chosen
    · rw [hasVoted_addVote, h.marked, hlist, or_iff_left fun hid => ht hid.1]

/-- **A successful call keeps the votes on every id sound.** -/
theorem Step.votesSound {b : Block} {s s' : State} {a : Account} {fn : Fn} {r : Option Nat}
    (h : Step b s a fn s' r) {id : Nat} (hs : VotesSound s id) : VotesSound s' id := by
  rcases h.votes_cases with ⟨hv, hm⟩ | ⟨target, vote, rationale, -, -, -, hfresh, hchosen, rfl⟩
  · exact hs.congr hv hm
  · exact hs.addVote hfresh hchosen

/-- A successful call only appends to the votes on an id. -/
theorem Step.votes_grow {b : Block} {s s' : State} {a : Account} {fn : Fn} {r : Option Nat}
    (h : Step b s a fn s' r) (id : Nat) : getVotes s id <+: getVotes s' id := by
  rcases h.votes_cases with ⟨hv, -⟩ | ⟨target, vote, rationale, -, -, -, -, -, rfl⟩
  · rw [getVotes, getVotes, hv]
  · rw [getVotes_addVote]
    exact List.prefix_append _ _

/-! ## Every run -/

variable {l l' : Ledger State (Message Fn) (Option Nat)}

/-- The votes on every id are sound after every run. -/
theorem votesSound_run {deployer : Account} {b : Block} {as : List (Ledger.Action (Message Fn))}
    (hrun : run (Ledger.step exec) (Ledger.deployed b (deploy deployer)) as = some l) (id : Nat) :
    VotesSound l.state id := by
  refine Ledger.invariant (I := fun l => VotesSound l.state id) ?_ ?_ ?_ hrun
  · intro l b hl _
    exact hl
  · intro l c s r hl hc
    exact (exec_eq_ok.mp hc).votesSound hl
  · exact ⟨List.nodup_nil, fun _ hv => absurd hv List.not_mem_nil,
      fun a => iff_of_false Bool.false_ne_true fun ⟨_, hv, _⟩ => absurd hv List.not_mem_nil⟩

/-- The votes on an id only grow, over any run. -/
theorem votes_grow_run {as : List (Ledger.Action (Message Fn))}
    (hrun : run (Ledger.step exec) l as = some l') (id : Nat) :
    getVotes l.state id <+: getVotes l'.state id := by
  refine run_rel (I := fun _ => True)
    (R := fun l l' : Ledger State (Message Fn) (Option Nat) =>
      getVotes l.state id <+: getVotes l'.state id)
    (fun _ => List.prefix_refl _) (fun _ _ _ h k => h.trans k) (fun _ _ _ _ _ => trivial) ?_
    trivial hrun
  intro l a t _ hstep
  rcases Ledger.step_cases hstep with ⟨b, -, -, rfl⟩ | ⟨c, s, r, -, hc, rfl⟩ | ⟨c, e, -, -, rfl⟩
  · exact List.prefix_refl _
  · exact (exec_eq_ok.mp hc).votes_grow id
  · exact List.prefix_refl _

/-- **A vote enters the list by being cast**: the step after which it is there is a `castVote` by
its juror, who holds the role, in the deliberation. -/
theorem castVote_of_new {a : Ledger.Action (Message Fn)}
    (hstep : Ledger.step exec l a = some l') {id : Nat} {v : Vote}
    (hold : v ∉ getVotes l.state id) (hnew : v ∈ getVotes l'.state id) :
    ∃ m : Account, a = .call ⟨m, .castVote id v.vote v.rationale⟩ ∧ (m : Address) = v.juror ∧
      l.block.timestamp = v.timestamp ∧ l.state.roles jurorRole m = true ∧
      (l.state.disputes id).status = .deliberation := by
  rcases Ledger.step_cases hstep with ⟨b, -, -, rfl⟩ | ⟨c, s, r, rfl, hc, rfl⟩ | ⟨c, e, -, -, rfl⟩
  · exact absurd hnew hold
  · rcases (exec_eq_ok.mp hc).votes_cases with
      ⟨hv, -⟩ | ⟨target, vote, rationale, hfn, hrole, hstatus, -, -, rfl⟩
    · rw [Ledger.commit_state, getVotes, hv] at hnew
      exact absurd hnew hold
    · rw [Ledger.commit_state, getVotes_addVote] at hnew
      have hmem := (List.mem_append.mp hnew).resolve_left hold
      by_cases ht : id = target
      · subst ht
        rw [if_pos rfl, List.mem_singleton] at hmem
        obtain ⟨m, fn⟩ := c
        obtain rfl : fn = .castVote id vote rationale := hfn
        subst hmem
        exact ⟨m, rfl, rfl, rfl, hrole, hstatus⟩
      · rw [if_neg ht] at hmem
        exact absurd hmem List.not_mem_nil
  · exact absurd hnew hold

/-- **One juror, one valid vote.** After every run and for every id, filed or not: the votes are
sound, each of them was cast in the run by an account with the role in the deliberation, and over
every further run they are only appended to. -/
theorem one_juror_one_vote (deployer : Account) (b : Block)
    (as : List (Ledger.Action (Message Fn))) (l : Ledger State (Message Fn) (Option Nat))
    (hrun : run (Ledger.step exec) (Ledger.deployed b (deploy deployer)) as = some l) :
    ∀ id, VotesSound l.state id ∧
      (∀ v ∈ getVotes l.state id, CastIn (Ledger.deployed b (deploy deployer)) as id v) ∧
      ∀ bs l', run (Ledger.step exec) l bs = some l' →
        getVotes l.state id <+: getVotes l'.state id := by
  intro id
  refine ⟨votesSound_run hrun id, fun v hv => ?_, fun bs l' h => votes_grow_run h id⟩
  obtain ⟨bs, a, cs, u, w, rfl, hbs, hstep, hold, hnew⟩ :=
    exists_crossing (P := fun t : Ledger State (Message Fn) (Option Nat) =>
      v ∈ getVotes t.state id) List.not_mem_nil hv hrun
  obtain ⟨m, rfl, hcast⟩ := castVote_of_new hstep hold hnew
  exact ⟨bs, m, cs, u, rfl, hbs, hcast⟩

/-- A juror votes on a dispute, and is refused a second vote. -/
def voteTwice : List (Ledger.Action (Message Fn)) :=
  [.call ⟨acct 2, .fileDispute 3 [0x73] []⟩, .call ⟨acct 2, .submitEvidence 0 [0x75] []⟩,
    .call ⟨acct 1, .startDeliberation 0⟩, .call ⟨acct 1, .castVote 0 .uphold []⟩,
    .call ⟨acct 1, .castVote 0 .reject []⟩]

/-- The votes after a juror has tried to vote twice. -/
theorem one_juror_one_vote_voteTwice :
    ∃ l, run (Ledger.step exec) (Ledger.deployed (blockAt 1 1) (deploy (acct 1))) voteTwice =
        some l ∧
      getVotes l.state 0 = [⟨1, .uphold, [], 1⟩] ∧
      ∀ id, VotesSound l.state id ∧
        (∀ v ∈ getVotes l.state id,
          CastIn (Ledger.deployed (blockAt 1 1) (deploy (acct 1))) voteTwice id v) ∧
        ∀ bs l', run (Ledger.step exec) l bs = some l' →
          getVotes l.state id <+: getVotes l'.state id := by
  obtain ⟨l, hrun, hvotes⟩ : ∃ l, run (Ledger.step exec)
      (Ledger.deployed (blockAt 1 1) (deploy (acct 1))) voteTwice = some l ∧
      getVotes l.state 0 = [⟨1, .uphold, [], 1⟩] := ⟨_, rfl, rfl⟩
  exact ⟨l, hrun, hvotes, one_juror_one_vote (acct 1) (blockAt 1 1) voteTwice l hrun⟩

end ReputationPassport.DisputeResolutionDAO
