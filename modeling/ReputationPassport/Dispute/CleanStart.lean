import ReputationPassport.Dispute.Contract

/-! # Disputes that start clean, and those that do not

An unfiled id should have no evidence, no votes and no record, so that the dispute filed under it
starts clean and every juror has a vote. `submitEvidence` does not ask whether the dispute was
filed: on an unfiled id the default record reads as `Filed`, and a mediator passes the
authorisation check. `cleanStart_iff` shows that this is the only way out: a run keeps every
unfiled id blank, and every filed dispute clean, exactly when no mediator ever submits evidence
under an id that is not filed yet. -/

namespace ReputationPassport.DisputeResolutionDAO

open Evm Machine OpenZeppelin

/-- A successful `fileDispute` that returned the id. -/
def Files (e : Entry (Message Fn) (Option Nat)) (id : Nat) : Prop :=
  (∃ defendant subjectHash description,
    e.call.fn = .fileDispute defendant subjectHash description) ∧
    e.result = some id

/-- A successful `castVote` on the id by the account. -/
def VotesOn (e : Entry (Message Fn) (Option Nat)) (id : Nat) (juror : Address) : Prop :=
  (∃ vote rationale, e.call.fn = .castVote id vote rationale) ∧ (e.call.sender : Address) = juror

/-- The account voted on the dispute after it was filed. -/
def VotedSinceFiling (history : List (Entry (Message Fn) (Option Nat))) (id : Nat)
    (juror : Address) : Prop :=
  ∃ pre e post, history = pre ++ e :: post ∧ Files e id ∧ ∃ f ∈ post, VotesOn f id juror

/-- A later history extends the votes. -/
theorem VotedSinceFiling.append {history : List (Entry (Message Fn) (Option Nat))} {id : Nat}
    {juror : Address} (h : VotedSinceFiling history id juror)
    (e : Entry (Message Fn) (Option Nat)) : VotedSinceFiling (history ++ [e]) id juror := by
  obtain ⟨pre, f, post, rfl, hf, g, hg, hv⟩ := h
  exact ⟨pre, f, post ++ [e], by simp, hf, g, List.mem_append_left _ hg, hv⟩

/-- **A blank id**: the default record, no evidence, no votes, nobody marked as having voted. -/
structure Blank (s : State) (id : Nat) : Prop where
  dispute : s.disputes id = default
  evidence : getEvidence s id = []
  votes : getVotes s id = []
  hasVoted : ∀ a, s.hasVoted id a = false

/-- Blankness only reads the four slots of the id. -/
theorem Blank.congr {s s' : State} {id : Nat} (h : Blank s id)
    (hd : s'.disputes id = s.disputes id) (he : s'.evidence id = s.evidence id)
    (hv : s'.votes id = s.votes id) (hh : s'.hasVoted id = s.hasVoted id) : Blank s' id where
  dispute := hd.trans h.dispute
  evidence := he.trans h.evidence
  votes := hv.trans h.votes
  hasVoted a := (congrFun hh a).trans (h.hasVoted a)

/-- **A dispute exists only by being filed, and starts clean.** -/
structure CleanStart (l : Ledger State (Message Fn) (Option Nat)) : Prop where
  /-- Every unfiled id is blank. -/
  unfiled : ∀ id, l.state.nextDisputeId ≤ id → Blank l.state id
  /-- Right after a filing there is no evidence, no vote and no mark. -/
  justFiled : ∀ pre e id, l.history = pre ++ [e] → Files e id →
    getEvidence l.state id = [] ∧ getVotes l.state id = [] ∧ ∀ a, l.state.hasVoted id a = false
  /-- In the deliberation every juror who has not voted since the filing can cast a vote. -/
  canVote : ∀ id < l.state.nextDisputeId, (l.state.disputes id).status = .deliberation →
    ∀ a : Account, l.state.roles jurorRole a = true → ¬ VotedSinceFiling l.history id a →
    ∀ vote rationale, vote ≠ .none →
      ∃ s, exec l.block l.state ⟨a, .castVote id vote rationale⟩ = .ok (s, none)

/-- The condition on a step: a mediator who submits evidence names a filed dispute. -/
def NamesFiled (l : Ledger State (Message Fn) (Option Nat)) (a : Ledger.Action (Message Fn)) :
    Prop :=
  ∀ (m : Account) (id : Nat) (uri description : Bytes),
    a = .call ⟨m, .submitEvidence id uri description⟩ → l.state.roles mediatorRole m = true →
      id < l.state.nextDisputeId

/-! ## The invariant -/

/-- The invariant behind `CleanStart`: marks on filed disputes stem from votes cast since the
filing, and the contract is never paused (nothing in it can pause it). -/
structure CleanInv (l : Ledger State (Message Fn) (Option Nat)) : Prop where
  unpaused : l.state.paused = false
  unfiled : ∀ id, l.state.nextDisputeId ≤ id → Blank l.state id
  marked : ∀ id < l.state.nextDisputeId, ∀ a, l.state.hasVoted id a = true →
    VotedSinceFiling l.history id a
  filed : ∀ id < l.state.nextDisputeId, ∃ e ∈ l.history, Files e id
  justFiled : ∀ pre e id, l.history = pre ++ [e] → Files e id →
    getEvidence l.state id = [] ∧ getVotes l.state id = [] ∧ ∀ a, l.state.hasVoted id a = false

/-- A call by an account that is not a mediator cannot add evidence under a blank id: the default
record names nobody. -/
theorem Blank.mediator_of_auth {s : State} {id : Nat} (h : Blank s id) {a : Account}
    (auth : a = (s.disputes id).plaintiff ∨ a = (s.disputes id).defendant ∨
      s.roles mediatorRole a = true) : s.roles mediatorRole a = true := by
  rw [h.dispute] at auth
  rcases auth with ha | ha | ha
  · exact absurd ha a.property
  · exact absurd ha a.property
  · exact ha

/-- The status of a blank id is `Filed`. -/
theorem Blank.status {s : State} {id : Nat} (h : Blank s id) :
    (s.disputes id).status = .filed := by
  rw [h.dispute]
  rfl

/-- A call that asks for a later status than `Filed` does not concern a blank id. -/
theorem Blank.ne_of_status {s : State} {id target : Nat} (h : Blank s id)
    (hstatus : (s.disputes target).status ≠ .filed) : id ≠ target := by
  rintro rfl
  exact hstatus h.status

/-- **A call that meets the condition keeps unfiled ids blank.** -/
theorem Step.blank {b : Block} {s s' : State} {a : Account} {fn : Fn} {r : Option Nat}
    (h : Step b s a fn s' r) (hblank : ∀ id, s.nextDisputeId ≤ id → Blank s id)
    (hnames : ∀ id uri description, fn = .submitEvidence id uri description →
      s.roles mediatorRole a = true → id < s.nextDisputeId) :
    ∀ id, s'.nextDisputeId ≤ id → Blank s' id := by
  intro id hid
  cases h with
  | fileDispute =>
      have hlt : s.nextDisputeId < id := hid
      refine (hblank id (Nat.le_of_lt hlt)).congr ?_ rfl rfl rfl
      exact Function.update_of_ne (Nat.ne_of_gt hlt) _ _
  | @submitEvidence target uri description _ _ auth =>
      -- here the status does not help: the condition on the step does
      have hne : id ≠ target := by
        rintro rfl
        have hrole := (hblank id hid).mediator_of_auth auth
        exact absurd (hnames id uri description rfl hrole) (Nat.not_lt.mpr hid)
      exact (hblank id hid).congr (Function.update_of_ne hne _ _)
        (Function.update_of_ne hne _ _) rfl rfl
  | @startDeliberation target _ _ status =>
      have hne : id ≠ target := (hblank id hid).ne_of_status (by rw [status]; decide)
      exact (hblank id hid).congr (Function.update_of_ne hne _ _) rfl rfl rfl
  | @castVote target _ _ _ _ status _ _ =>
      have hne : id ≠ target := (hblank id hid).ne_of_status (by rw [status]; decide)
      exact (hblank id hid).congr rfl rfl (Function.update_of_ne hne _ _)
        (Function.update_of_ne hne _ _)
  | @resolveDispute target _ _ _ _ _ status _ =>
      have hne : id ≠ target := (hblank id hid).ne_of_status (by rw [status]; decide)
      exact (hblank id hid).congr (Function.update_of_ne hne _ _) rfl rfl rfl
  | setVotingPeriod => exact (hblank id hid).congr rfl rfl rfl rfl
  | role => exact (hblank id hid).congr rfl rfl rfl rfl

/-- No call pauses the contract. -/
theorem Step.paused_eq {b : Block} {s s' : State} {a : Account} {fn : Fn} {r : Option Nat}
    (h : Step b s a fn s' r) : s'.paused = s.paused := by
  cases h <;> rfl

/-- The marks after a call: those before it, and that of the vote it cast. -/
theorem Step.hasVoted_cases {b : Block} {s s' : State} {a : Account} {fn : Fn} {r : Option Nat}
    (h : Step b s a fn s' r) {id : Nat} {juror : Address} (hv : s'.hasVoted id juror = true) :
    s.hasVoted id juror = true ∨
      ((∃ vote rationale, fn = .castVote id vote rationale) ∧ (a : Address) = juror) := by
  cases h with
  | @castVote target vote rationale _ _ _ _ _ =>
      by_cases ht : id = target
      · subst ht
        by_cases hj : juror = a
        · exact Or.inr ⟨⟨vote, rationale, rfl⟩, hj.symm⟩
        · simp only [State.addVote, Function.update_self] at hv
          rw [Function.update_of_ne hj] at hv
          exact Or.inl hv
      · simp only [State.addVote] at hv
        rw [Function.update_of_ne ht] at hv
        exact Or.inl hv
  | fileDispute => exact Or.inl hv
  | submitEvidence => exact Or.inl hv
  | startDeliberation => exact Or.inl hv
  | resolveDispute => exact Or.inl hv
  | setVotingPeriod => exact Or.inl hv
  | role => exact Or.inl hv

/-- The counter moves only when a dispute is filed, and then by one, from the id returned. -/
theorem Step.counter_cases {b : Block} {s s' : State} {a : Account} {fn : Fn} {r : Option Nat}
    (h : Step b s a fn s' r) :
    (s'.nextDisputeId = s.nextDisputeId ∧ r = none) ∨
      (s'.nextDisputeId = s.nextDisputeId + 1 ∧ r = some s.nextDisputeId ∧
        (∃ d t u, fn = .fileDispute d t u) ∧ s'.evidence = s.evidence ∧ s'.votes = s.votes ∧
        s'.hasVoted = s.hasVoted) := by
  cases h with
  | fileDispute => exact Or.inr ⟨rfl, rfl, ⟨_, _, _, rfl⟩, rfl, rfl, rfl⟩
  | submitEvidence => exact Or.inl ⟨rfl, rfl⟩
  | startDeliberation => exact Or.inl ⟨rfl, rfl⟩
  | castVote => exact Or.inl ⟨rfl, rfl⟩
  | resolveDispute => exact Or.inl ⟨rfl, rfl⟩
  | setVotingPeriod => exact Or.inl ⟨rfl, rfl⟩
  | role => exact Or.inl ⟨rfl, rfl⟩

/-- **A successful call that meets the condition keeps the invariant.** -/
theorem CleanInv.commit {l : Ledger State (Message Fn) (Option Nat)} (h : CleanInv l)
    {c : Message Fn} {s : State} {r : Option Nat} (hstep : Step l.block l.state c.sender c.fn s r)
    (hnames : NamesFiled l (.call c)) : CleanInv (l.commit s c r) where
  unpaused := hstep.paused_eq.trans h.unpaused
  unfiled := by
    refine hstep.blank h.unfiled fun id uri description hfn hrole => ?_
    exact hnames c.sender id uri description (by rw [← hfn]) hrole
  marked id hid a hv := by
    -- an old vote has its entry already; a new one is the entry committed
    rcases hstep.hasVoted_cases hv with hold | ⟨hvote, hjuror⟩
    · by_cases hlt : id < l.state.nextDisputeId
      · exact (h.marked id hlt a hold).append _
      · rw [(h.unfiled id (Nat.le_of_not_lt hlt)).hasVoted a] at hold
        exact absurd hold (by decide)
    · -- a vote: its dispute was filed by an entry of the history
      have hlt : id < l.state.nextDisputeId := by
        rcases hstep.counter_cases with ⟨hn, -⟩ | ⟨-, -, ⟨d, t, u, hfile⟩, -⟩
        · exact hn ▸ hid
        · obtain ⟨vote, rationale, hvote⟩ := hvote
          rw [hfile] at hvote
          exact absurd hvote (by simp)
      obtain ⟨e, he, hfiles⟩ := h.filed id hlt
      obtain ⟨pre, post, hpp⟩ := List.append_of_mem he
      refine ⟨pre, e, post ++ [⟨l.block, c, r⟩], ?_, hfiles, ⟨l.block, c, r⟩, ?_, hvote, hjuror⟩
      · rw [Ledger.commit_history, hpp, List.append_assoc, List.cons_append]
      · exact List.mem_append_right _ (List.mem_singleton_self _)
  filed id hid := by
    by_cases hlt : id < l.state.nextDisputeId
    · obtain ⟨e, he, hfiles⟩ := h.filed id hlt
      exact ⟨e, List.mem_append_left _ he, hfiles⟩
    · rcases hstep.counter_cases with ⟨hn, -⟩ | ⟨hn, hr, hfn, -⟩
      · exact absurd (hn ▸ hid) hlt
      · have hid' : id < s.nextDisputeId := hid
        have hideq : id = l.state.nextDisputeId := by omega
        exact ⟨⟨l.block, c, r⟩, List.mem_append_right _ (List.mem_singleton_self _), hfn,
          hideq ▸ hr⟩
  justFiled pre e id hhist hfiles := by
    obtain ⟨-, hlast⟩ := List.append_inj' hhist rfl
    obtain rfl : ⟨l.block, c, r⟩ = e := (List.cons.inj hlast).1
    obtain ⟨⟨d, t, u, hfn⟩, hr⟩ := hfiles
    rcases hstep.counter_cases with ⟨-, hnone⟩ | ⟨-, hsome, -, hev, hvo, hhv⟩
    · exact absurd (hnone.symm.trans hr) (by simp)
    · -- the dispute took the first unfiled id, which was blank
      obtain rfl : l.state.nextDisputeId = id := Option.some.inj (hsome.symm.trans hr)
      have hblank := h.unfiled _ (Nat.le_refl _)
      exact ⟨(congrFun hev _).trans hblank.evidence, (congrFun hvo _).trans hblank.votes,
        fun a => (congrFun (congrFun hhv _) a).trans (hblank.hasVoted a)⟩

/-- A step that meets the condition keeps the invariant. -/
theorem CleanInv.step {l l' : Ledger State (Message Fn) (Option Nat)}
    {a : Ledger.Action (Message Fn)} (h : CleanInv l) (hnames : NamesFiled l a)
    (hstep : Ledger.step exec l a = some l') : CleanInv l' := by
  rcases Ledger.step_cases hstep with ⟨b, -, -, rfl⟩ | ⟨c, s, r, rfl, hc, rfl⟩ | ⟨c, e, -, -, rfl⟩
  · exact ⟨h.unpaused, h.unfiled, h.marked, h.filed, h.justFiled⟩
  · exact h.commit (exec_eq_ok.mp hc) hnames
  · exact h

/-- The invariant holds at deployment. -/
theorem cleanInv_deployed (deployer : Account) (b : Block) :
    CleanInv (Ledger.deployed b (deploy deployer)) where
  unpaused := rfl
  unfiled _ _ := ⟨rfl, rfl, rfl, fun _ => rfl⟩
  marked _ hid := absurd hid (Nat.not_lt_zero _)
  filed _ hid := absurd hid (Nat.not_lt_zero _)
  justFiled pre e _ h := absurd h.symm (by simp [Ledger.deployed])

/-- The invariant gives clean starts: a juror without a mark passes every check of `castVote`. -/
theorem CleanInv.cleanStart {l : Ledger State (Message Fn) (Option Nat)} (h : CleanInv l) :
    CleanStart l where
  unfiled := h.unfiled
  justFiled := h.justFiled
  canVote id hid hstatus a hrole hnot vote rationale hvote := by
    have hfresh : l.state.hasVoted id a = false := by
      rw [← Bool.not_eq_true]
      exact fun hv => hnot (h.marked id hid a hv)
    exact ⟨_, exec_eq_ok.mpr (.castVote hrole h.unpaused hstatus hfresh hvote)⟩

/-- **A step that misses the condition succeeds and leaves an unfiled id with evidence.** -/
theorem CleanInv.not_cleanStart_of_step {l : Ledger State (Message Fn) (Option Nat)}
    {a : Ledger.Action (Message Fn)} (h : CleanInv l) (hmiss : ¬ NamesFiled l a) :
    ∃ l', Ledger.step exec l a = some l' ∧ ¬ CleanStart l' := by
  simp only [NamesFiled, not_forall, Nat.not_lt, exists_prop] at hmiss
  obtain ⟨m, id, uri, description, rfl, hrole, hid⟩ := hmiss
  have hexec : Step l.block l.state m (.submitEvidence id uri description) _ none :=
    .submitEvidence h.unpaused (Or.inl (h.unfiled id hid).status) (Or.inr (Or.inr hrole))
  refine ⟨_, Ledger.step_call_ok (exec_eq_ok.mpr hexec), fun hclean => ?_⟩
  have hev := (hclean.unfiled id hid).evidence
  simp [getEvidence, State.addEvidence] at hev

/-- **Disputes start clean exactly when mediators only name filed disputes.** Along a run from
deployment, every state has clean starts if and only if no step of the run is a `submitEvidence`
by a mediator under an id that is not filed yet. -/
theorem cleanStart_iff (deployer : Account) (b : Block)
    (as : List (Ledger.Action (Message Fn))) :
    Always (Ledger.step exec) CleanStart (Ledger.deployed b (deploy deployer)) as ↔
      Along (Ledger.step exec) NamesFiled (Ledger.deployed b (deploy deployer)) as :=
  always_iff_along (fun _ h => h.cleanStart) (fun _ _ _ h hC hstep => h.step hC hstep)
    (fun _ _ h hC => h.not_cleanStart_of_step hC) (cleanInv_deployed deployer b)

/-- **A dispute that does not start clean.** Account `1`, mediator and juror, takes the unfiled id
`0` through evidence and deliberation and votes on it; then account `2` files its dispute, which
gets the id `0` and starts with that evidence, that vote and a juror who cannot vote again. -/
theorem filed_dispute_not_clean :
    ∃ l, run (Ledger.step exec) (Ledger.deployed (blockAt 1 1) (deploy (acct 1)))
        [.call ⟨acct 1, .submitEvidence 0 [0x75] []⟩, .call ⟨acct 1, .startDeliberation 0⟩,
          .call ⟨acct 1, .castVote 0 .uphold []⟩,
          .call ⟨acct 2, .fileDispute 3 [0x73] []⟩] = some l ∧
      l.state.nextDisputeId = 1 ∧ getEvidence l.state 0 = [⟨1, [0x75], [], 1⟩] ∧
      getVotes l.state 0 = [⟨1, .uphold, [], 1⟩] ∧ l.state.hasVoted 0 1 = true ∧
      ¬ CleanStart l := by
  refine ⟨_, rfl, rfl, rfl, rfl, rfl, fun hclean => ?_⟩
  have hfiles := (hclean.justFiled [_, _, _] _ 0 rfl ⟨⟨3, [0x73], [], rfl⟩, rfl⟩).1
  exact absurd hfiles (by decide)

end ReputationPassport.DisputeResolutionDAO
