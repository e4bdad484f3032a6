import ReputationPassport.Dispute.Lifecycle

/-! # Filing a dispute through the facade

`PassportFacade.sol` forwards `fileDispute` to the DAO by a message call of its own, so the DAO
sees the facade as `msg.sender`. A `World` is the facade together with the DAO its `disputes`
reference points to; both can be called directly. `sameFiling_iff` says exactly when filing
through the facade is the same as filing directly.

Of the facade only `fileDispute` and the role functions are modelled here: `issuePassport` and the
two getters concern contracts other than the DAO. -/

namespace ReputationPassport.PassportFacade

open Evm Machine OpenZeppelin

/-- `FACADE_ADMIN_ROLE = keccak256("FACADE_ADMIN_ROLE")`. -/
def facadeAdminRole : Bytes32 :=
  0x3e22c2940c21ac9fe58745996a0a5c1571aad841dd27a91a3e22975e8198fba3

/-- The storage of the facade that its modelled functions use. -/
structure State where
  roles : Roles
  paused : Bool

/-- The facade, its own address, and the DAO behind its `disputes` reference. -/
structure World where
  /-- The address of the facade, the sender of the calls it makes. -/
  self : Account
  facade : State
  disputes : DisputeResolutionDAO.State

/-- Both contracts right after their deployment. -/
def World.deploy (self facadeDeployer daoDeployer : Account) : World where
  self := self
  facade :=
    { roles := grantRoleTo (grantRoleTo noRoles defaultAdminRole facadeDeployer)
        facadeAdminRole facadeDeployer
      paused := false }
  disputes := DisputeResolutionDAO.deploy daoDeployer

/-- `PassportFacade.fileDispute`: forward to the DAO, which sees the facade as the sender. -/
def fileDispute (b : Block) (w : World) (defendant : Address)
    (subjectHash description : Bytes) : Result (World × Nat) := do
  whenNotPaused w.facade.paused
  -- `msg.sender` in the DAO is the facade, not the caller of the facade
  let (disputes, id) ←
    DisputeResolutionDAO.fileDispute b w.disputes w.self defendant subjectHash description
  pure ({ w with disputes }, id)

/-- The calls that change the world: a direct call of the DAO, `fileDispute` of the facade, or a
role function of the facade. -/
inductive Fn where
  | direct (fn : DisputeResolutionDAO.Fn)
  | fileDispute (defendant : Address) (subjectHash description : Bytes)
  | role (call : RoleCall)

/-- Execute a call. -/
def exec (b : Block) (w : World) (c : Message Fn) : Result (World × Option Nat) :=
  match c.fn with
  | .direct fn => do
      let (disputes, r) ← DisputeResolutionDAO.exec b w.disputes ⟨c.sender, fn⟩
      pure ({ w with disputes }, r)
  | .fileDispute defendant subjectHash description => do
      let (w', id) ← fileDispute b w defendant subjectHash description
      pure (w', some id)
  | .role call => do
      let roles ← call.exec w.facade.roles c.sender
      pure ({ w with facade := { w.facade with roles } }, none)

/-! ## What a call does to the DAO -/

/-- A successful call leaves the DAO alone or is a call of the DAO; the address of the facade and
its flag stay. -/
theorem exec_cases {b : Block} {w w' : World} {c : Message Fn} {r : Option Nat}
    (h : exec b w c = .ok (w', r)) :
    w'.self = w.self ∧ w'.facade.paused = w.facade.paused ∧
      (w'.disputes = w.disputes ∨
        ∃ a fn r', DisputeResolutionDAO.Step b w.disputes a fn w'.disputes r') := by
  obtain ⟨a, fn⟩ := c
  cases fn with
  | direct fn =>
      simp only [exec, bind_eq_ok, pure_eq_ok, Prod.exists, Prod.mk.injEq] at h
      obtain ⟨s, r', hs, rfl, rfl⟩ := h
      exact ⟨rfl, rfl, Or.inr ⟨a, fn, r', DisputeResolutionDAO.exec_eq_ok.mp hs⟩⟩
  | fileDispute defendant subjectHash description =>
      simp only [exec, fileDispute, bind_eq_ok, pure_eq_ok, Prod.exists, Prod.mk.injEq,
        whenNotPaused_eq_ok] at h
      obtain ⟨_, id, ⟨-, -, s, id', hs, rfl, rfl⟩, rfl, rfl⟩ := h
      refine ⟨rfl, rfl, Or.inr ⟨w.self, .fileDispute defendant subjectHash description,
        some id', ?_⟩⟩
      refine DisputeResolutionDAO.exec_eq_ok (c := ⟨w.self, _⟩).mp ?_
      simp [DisputeResolutionDAO.exec, hs]
  | role call =>
      simp only [exec, bind_eq_ok, pure_eq_ok, Prod.mk.injEq] at h
      obtain ⟨roles, -, rfl, rfl⟩ := h
      exact ⟨rfl, rfl, Or.inl rfl⟩

/-- Neither contract is ever paused, and the guard of the DAO is open between calls. -/
structure Idle (w : World) : Prop where
  facade : w.facade.paused = false
  disputes : w.disputes.paused = false
  entered : w.disputes.entered = false

/-- No call of the DAO pauses it or leaves its guard closed. -/
theorem idle_of_step {b : Block} {s s' : DisputeResolutionDAO.State} {a : Account}
    {fn : DisputeResolutionDAO.Fn} {r : Option Nat}
    (h : DisputeResolutionDAO.Step b s a fn s' r) (hp : s.paused = false)
    (he : s.entered = false) : s'.paused = false ∧ s'.entered = false := by
  cases h with
  | fileDispute => exact ⟨hp, rfl⟩
  | submitEvidence => exact ⟨hp, he⟩
  | startDeliberation => exact ⟨hp, he⟩
  | castVote => exact ⟨hp, he⟩
  | resolveDispute => exact ⟨hp, rfl⟩
  | setVotingPeriod => exact ⟨hp, he⟩
  | role => exact ⟨hp, he⟩

theorem Idle.exec {b : Block} {w w' : World} {c : Message Fn} {r : Option Nat} (h : Idle w)
    (hc : PassportFacade.exec b w c = .ok (w', r)) : Idle w' := by
  obtain ⟨-, hfacade, hdao⟩ := exec_cases hc
  rcases hdao with hdao | ⟨a, fn, r', hstep⟩
  · exact ⟨hfacade.trans h.facade, hdao ▸ h.disputes, hdao ▸ h.entered⟩
  · obtain ⟨hp, he⟩ := idle_of_step hstep h.disputes h.entered
    exact ⟨hfacade.trans h.facade, hp, he⟩

/-- Idleness survives a step of the ledger. -/
theorem idle_step (l : Ledger World (Message Fn) (Option Nat)) (a : Ledger.Action (Message Fn))
    (l' : Ledger World (Message Fn) (Option Nat)) (hl : Idle l.state)
    (h : Ledger.step exec l a = some l') : Idle l'.state :=
  Ledger.step_preserves (I := fun l => Idle l.state) (fun _ _ h _ => h)
    (fun _ _ _ _ h hc => h.exec hc) l a l' hl h

/-- **The record of a filed dispute over a run of the world**: the fields of its filing stay. -/
theorem filing_run {l l' : Ledger World (Message Fn) (Option Nat)}
    {as : List (Ledger.Action (Message Fn))} (hrun : run (Ledger.step exec) l as = some l') :
    l.state.disputes.nextDisputeId ≤ l'.state.disputes.nextDisputeId ∧
      ∀ id < l.state.disputes.nextDisputeId,
        (l'.state.disputes.disputes id).filing = (l.state.disputes.disputes id).filing := by
  refine run_rel (I := fun _ => True)
    (R := fun l l' : Ledger World (Message Fn) (Option Nat) =>
      l.state.disputes.nextDisputeId ≤ l'.state.disputes.nextDisputeId ∧
      ∀ id < l.state.disputes.nextDisputeId,
        (l'.state.disputes.disputes id).filing = (l.state.disputes.disputes id).filing)
    ?_ ?_ (fun _ _ _ _ _ => trivial) ?_ trivial hrun
  · exact fun l => ⟨Nat.le_refl _, fun _ _ => rfl⟩
  · rintro l t u ⟨hn, h⟩ ⟨hn', k⟩
    refine ⟨Nat.le_trans hn hn', fun id hid => ?_⟩
    exact (k id (Nat.lt_of_lt_of_le hid hn)).trans (h id hid)
  · intro l a t _ hstep
    rcases Ledger.step_cases hstep with ⟨b, -, -, rfl⟩ | ⟨c, s, r, -, hc, rfl⟩ | ⟨c, e, -, -, rfl⟩
    · exact ⟨Nat.le_refl _, fun _ _ => rfl⟩
    · obtain ⟨-, -, hdao⟩ := exec_cases hc
      rcases hdao with hdao | ⟨a, fn, r', hdao⟩
      · rw [Ledger.commit_state, hdao]
        exact ⟨Nat.le_refl _, fun _ _ => rfl⟩
      · exact ⟨hdao.nextDisputeId_le, fun id hid => (hdao.advances hid).filing⟩
    · exact ⟨Nat.le_refl _, fun _ _ => rfl⟩

/-! ## The two ways to file -/

/-- **Filing through the facade is filing directly**, for the caller `u` and these arguments: both
calls have the same outcome; the plaintiff recorded is `u`; and in every later state in which the
dispute is `Filed` or in `Evidence`, `u` can submit evidence on it. -/
structure SameFiling (l : Ledger World (Message Fn) (Option Nat)) (u : Account)
    (defendant : Address) (subjectHash description : Bytes) : Prop where
  outcome : exec l.block l.state ⟨u, .fileDispute defendant subjectHash description⟩ =
    exec l.block l.state ⟨u, .direct (.fileDispute defendant subjectHash description)⟩
  plaintiff : ∀ w id,
    exec l.block l.state ⟨u, .fileDispute defendant subjectHash description⟩ = .ok (w, some id) →
      (w.disputes.disputes id).plaintiff = u
  evidence : ∀ w id,
    exec l.block l.state ⟨u, .fileDispute defendant subjectHash description⟩ = .ok (w, some id) →
      ∀ as l', run (Ledger.step exec)
          (l.commit w ⟨u, .fileDispute defendant subjectHash description⟩ (some id)) as = some l' →
        (l'.state.disputes.disputes id).status = .filed ∨
          (l'.state.disputes.disputes id).status = .evidence →
        ∀ uri evidenceDescription, ∃ w',
          exec l'.block l'.state ⟨u, .direct (.submitEvidence id uri evidenceDescription)⟩ =
            .ok (w', none)

/-- The outcome of filing directly while the DAO is idle. -/
theorem direct_fileDispute_eq {b : Block} {w : World} (h : Idle w) (u : Account)
    (defendant : Address) (subjectHash description : Bytes) :
    exec b w ⟨u, .direct (.fileDispute defendant subjectHash description)⟩ =
      if w.disputes.nextDisputeId + 1 < wordSize then
        .ok ({ w with disputes := w.disputes.file (DisputeResolutionDAO.newDispute b
          w.disputes.nextDisputeId u defendant subjectHash description) },
          some w.disputes.nextDisputeId)
      else .error (.panic 0x11) := by
  simp only [exec, DisputeResolutionDAO.exec,
    DisputeResolutionDAO.fileDispute_eq_ite h.disputes h.entered]
  split <;> rfl

/-- A dispute filed directly is below the counter, with the caller as its plaintiff. -/
theorem plaintiff_of_direct {b : Block} {w w' : World} (h : Idle w) {u : Account}
    {defendant : Address} {subjectHash description : Bytes} {id : Nat}
    (hok : exec b w ⟨u, .direct (.fileDispute defendant subjectHash description)⟩ =
      .ok (w', some id)) :
    id < w'.disputes.nextDisputeId ∧ (w'.disputes.disputes id).plaintiff = u := by
  rw [direct_fileDispute_eq h] at hok
  split at hok
  · obtain ⟨rfl, hid⟩ := Prod.mk.inj (Except.ok.inj hok)
    obtain rfl := Option.some.inj hid
    refine ⟨Nat.lt_succ_self _, ?_⟩
    simp only [DisputeResolutionDAO.State.file, Function.update_self,
      DisputeResolutionDAO.newDispute]
  · exact absurd hok (by simp)

/-- The plaintiff of a dispute in `Filed` or `Evidence` can submit evidence on it. -/
theorem Idle.submitEvidence {b : Block} {w : World} (h : Idle w) {u : Account} {id : Nat}
    (hplaintiff : (w.disputes.disputes id).plaintiff = u)
    (hstatus : (w.disputes.disputes id).status = .filed ∨
      (w.disputes.disputes id).status = .evidence) (uri description : Bytes) :
    ∃ w', PassportFacade.exec b w ⟨u, .direct (.submitEvidence id uri description)⟩ =
      .ok (w', none) := by
  have hstep : DisputeResolutionDAO.Step b w.disputes u (.submitEvidence id uri description) _ _ :=
    .submitEvidence h.disputes hstatus (Or.inl hplaintiff.symm)
  have hexec := DisputeResolutionDAO.exec_eq_ok
    (c := ⟨u, .submitEvidence id uri description⟩).mpr hstep
  exact ⟨_, by simp only [PassportFacade.exec, hexec]; rfl⟩

/-- The outcome of filing through the facade: that of filing directly as the facade. -/
theorem fileDispute_eq_direct {b : Block} {w : World} (h : Idle w) (u : Account)
    (defendant : Address) (subjectHash description : Bytes) :
    exec b w ⟨u, .fileDispute defendant subjectHash description⟩ =
      exec b w ⟨w.self, .direct (.fileDispute defendant subjectHash description)⟩ := by
  rw [direct_fileDispute_eq h]
  simp only [exec, fileDispute, h.facade,
    DisputeResolutionDAO.fileDispute_eq_ite h.disputes h.entered]
  split <;> rfl

/-- **Filing through the facade is filing directly only for the facade itself.** In every reachable
state, for every caller and arguments, the two ways to file agree exactly when the caller is the
facade's own address or the counter is exhausted and both revert. -/
theorem sameFiling_iff (self facadeDeployer daoDeployer : Account) (b : Block)
    (as : List (Ledger.Action (Message Fn))) (l : Ledger World (Message Fn) (Option Nat))
    (hrun : run (Ledger.step exec)
      (Ledger.deployed b (World.deploy self facadeDeployer daoDeployer)) as = some l)
    (u : Account) (defendant : Address) (subjectHash description : Bytes) :
    SameFiling l u defendant subjectHash description ↔
      u = l.state.self ∨ wordSize ≤ l.state.disputes.nextDisputeId + 1 := by
  have hidle : Idle l.state := run_invariant (I := fun l => Idle l.state) idle_step
    ⟨rfl, rfl, rfl⟩ hrun
  have hfacade := fileDispute_eq_direct (b := l.block) hidle u defendant subjectHash description
  have hdirect := fun v =>
    direct_fileDispute_eq (b := l.block) hidle v defendant subjectHash description
  constructor
  · -- the two plaintiffs differ when both calls succeed
    intro h
    by_contra hcon
    obtain ⟨hu, hroom⟩ := not_or.mp hcon
    have hsame := h.outcome
    rw [hfacade, hdirect, hdirect, if_pos (Nat.not_le.mp hroom), if_pos (Nat.not_le.mp hroom),
      Except.ok.injEq, Prod.mk.injEq] at hsame
    have hplaintiff := congrArg (fun w : World =>
      (w.disputes.disputes l.state.disputes.nextDisputeId).plaintiff) hsame.1
    simp only [DisputeResolutionDAO.State.file, Function.update_self,
      DisputeResolutionDAO.newDispute] at hplaintiff
    exact hu (Subtype.ext hplaintiff.symm)
  · intro h
    have houtcome : exec l.block l.state ⟨u, .fileDispute defendant subjectHash description⟩ =
        exec l.block l.state ⟨u, .direct (.fileDispute defendant subjectHash description)⟩ := by
      rcases h with rfl | hfull
      · exact hfacade
      · rw [hfacade, hdirect, hdirect, if_neg (Nat.not_lt.mpr hfull),
          if_neg (Nat.not_lt.mpr hfull)]
    have hok : ∀ w id, exec l.block l.state ⟨u, .fileDispute defendant subjectHash description⟩ =
        .ok (w, some id) → id < w.disputes.nextDisputeId ∧
          (w.disputes.disputes id).plaintiff = u :=
      fun w id hw => plaintiff_of_direct hidle (houtcome.symm.trans hw)
    refine ⟨houtcome, fun w id hw => (hok w id hw).2, ?_⟩
    intro w id hw bs l' hrun' hstatus uri evidenceDescription
    obtain ⟨hid, hplaintiff⟩ := hok w id hw
    -- the plaintiff is a field of the filing, so it is still `u` at the end of the run
    have hfiling := (filing_run hrun').2 id hid
    have hstill : (l'.state.disputes.disputes id).plaintiff = u := by
      have := congrArg (fun f => f.2.1) hfiling
      exact this.trans hplaintiff
    have hidle' : Idle l'.state :=
      run_invariant (I := fun l => Idle l.state) idle_step (hidle.exec hw) hrun'
    exact hidle'.submitEvidence hstill hstatus uri evidenceDescription

/-- The equivalence right after deployment, for a caller other than the facade. -/
theorem sameFiling_iff_deployed :
    SameFiling (Ledger.deployed (blockAt 1 1) (World.deploy (acct 9) (acct 1) (acct 1)))
        (acct 5) 3 [0x73] [] ↔ acct 5 = acct 9 ∨ wordSize ≤ 0 + 1 :=
  sameFiling_iff (acct 9) (acct 1) (acct 1) (blockAt 1 1) [] _ rfl (acct 5) 3 [0x73] []

/-- **Filing through the facade loses the plaintiff.** Account `5` files through the facade at
address `9`: the recorded plaintiff is `9`, and the evidence account `5` submits is refused. -/
theorem facade_filing_loses_plaintiff :
    ∃ l, run (Ledger.step exec)
        (Ledger.deployed (blockAt 1 1) (World.deploy (acct 9) (acct 1) (acct 1)))
        [.call ⟨acct 5, .fileDispute 3 [0x73] []⟩] = some l ∧
      (l.state.disputes.disputes 0).plaintiff = 9 ∧
      exec l.block l.state ⟨acct 5, .direct (.submitEvidence 0 [0x75] [])⟩ =
        .error (.reason "Not authorized") ∧
      ¬ SameFiling (Ledger.deployed (blockAt 1 1) (World.deploy (acct 9) (acct 1) (acct 1)))
        (acct 5) 3 [0x73] [] := by
  refine ⟨_, rfl, rfl, rfl, fun h => ?_⟩
  have hplaintiff := h.plaintiff _ 0 rfl
  exact absurd hplaintiff (by decide)

end ReputationPassport.PassportFacade
