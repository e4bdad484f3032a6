import ReputationPassport.Dispute.Contract

/-! # The life of a filed dispute

A dispute is *filed* when its id is below the counter. From then on its record only moves forward:
`Advances` says what one call can do to it, `Later` what any number of calls can, and `Sound` which
records occur at all. Unfiled ids are no obstacle to these three: whatever was written under an id
before its filing, `fileDispute` overwrites the record, and afterwards no function writes a record
but forward. -/

namespace ReputationPassport.DisputeResolutionDAO

open Evm Machine OpenZeppelin

/-- The position of a status in the source's enumeration. -/
def DisputeStatus.ordinal : DisputeStatus → Nat
  | .filed => 0
  | .evidence => 1
  | .deliberation => 2
  | .resolved => 3
  | .dismissed => 4

/-- The fields of a record that its filing fixes. -/
def Dispute.filing (d : Dispute) : Nat × Address × Address × Bytes × Bytes × Nat :=
  (d.id, d.plaintiff, d.defendant, d.subjectHash, d.description, d.createdAt)

/-- **What one call can do to a dispute**: keep or advance its status by one, never touch the
fields its filing fixed, add evidence only before the deliberation, and nothing once resolved. -/
structure Advances (s s' : State) (id : Nat) : Prop where
  filing : (s'.disputes id).filing = (s.disputes id).filing
  status : (s'.disputes id).status = (s.disputes id).status ∨
    (s'.disputes id).status.ordinal = (s.disputes id).status.ordinal + 1
  evidence : 2 ≤ (s.disputes id).status.ordinal → s'.evidence id = s.evidence id
  final : (s.disputes id).status = .resolved → s'.disputes id = s.disputes id

/-- A call that leaves record and evidence of a dispute alone advances it trivially. -/
theorem Advances.of_eq {s s' : State} {id : Nat} (hd : s'.disputes id = s.disputes id)
    (he : s'.evidence id = s.evidence id) : Advances s s' id :=
  ⟨congrArg Dispute.filing hd, Or.inl (congrArg Dispute.status hd), fun _ => he, fun _ => hd⟩

/-- So does a call that moves an unresolved dispute on by one status and leaves its filing and its
evidence alone. -/
theorem Advances.of_moved {s s' : State} {id : Nat}
    (hfiling : (s'.disputes id).filing = (s.disputes id).filing)
    (hstatus : (s'.disputes id).status.ordinal = (s.disputes id).status.ordinal + 1)
    (he : s'.evidence id = s.evidence id) (hopen : (s.disputes id).status ≠ .resolved) :
    Advances s s' id :=
  ⟨hfiling, Or.inr hstatus, fun _ => he, fun hres => absurd hres hopen⟩

/-- **Every successful call advances every filed dispute.** -/
theorem Step.advances {b : Block} {s s' : State} {a : Account} {fn : Fn} {r : Option Nat}
    (h : Step b s a fn s' r) {id : Nat} (hid : id < s.nextDisputeId) : Advances s s' id := by
  cases h with
  | fileDispute =>
      exact .of_eq (Function.update_of_ne (Nat.ne_of_lt hid) _ _) rfl
  | @submitEvidence target uri description _ hstatus _ =>
      by_cases ht : id = target
      · subst ht
        -- the status moves from `Filed` only, and neither status it can have here is final
        refine ⟨?_, ?_, fun h2 => ?_, fun hres => ?_⟩
        · simp only [State.addEvidence, Function.update_self]
          split <;> rfl
        · simp only [State.addEvidence, Function.update_self]
          rcases hstatus with hs | hs
          · exact Or.inr (by rw [if_pos hs, hs]; rfl)
          · exact Or.inl (by rw [if_neg (by rw [hs]; decide)])
        · rcases hstatus with hs | hs <;> rw [hs] at h2 <;> exact absurd h2 (by decide)
        · rcases hstatus with hs | hs <;> rw [hs] at hres <;> exact absurd hres (by decide)
      · exact .of_eq (Function.update_of_ne ht _ _) (Function.update_of_ne ht _ _)
  | @startDeliberation target _ _ hstatus =>
      by_cases ht : id = target
      · subst ht
        have hd : (s.deliberate id).disputes id = { s.disputes id with status := .deliberation } :=
          Function.update_self ..
        refine .of_moved ?_ ?_ rfl (by rw [hstatus]; decide)
        · rw [hd]
          rfl
        · rw [hd, hstatus]
          rfl
      · exact .of_eq (Function.update_of_ne ht _ _) rfl
  | castVote => exact .of_eq rfl rfl
  | @resolveDispute target resolution notes _ _ _ hstatus _ =>
      by_cases ht : id = target
      · subst ht
        have hd : (s.resolve id resolution notes b.timestamp).disputes id = _ :=
          Function.update_self ..
        refine .of_moved ?_ ?_ rfl (by rw [hstatus]; decide)
        · rw [hd]
          rfl
        · rw [hd, hstatus]
          rfl
      · exact .of_eq (Function.update_of_ne ht _ _) rfl
  | setVotingPeriod => exact .of_eq rfl rfl
  | role => exact .of_eq rfl rfl

/-- The counter never decreases. -/
theorem Step.nextDisputeId_le {b : Block} {s s' : State} {a : Account} {fn : Fn} {r : Option Nat}
    (h : Step b s a fn s' r) : s.nextDisputeId ≤ s'.nextDisputeId := by
  cases h with
  | fileDispute => exact Nat.le_succ _
  | submitEvidence => exact Nat.le_refl _
  | startDeliberation => exact Nat.le_refl _
  | castVote => exact Nat.le_refl _
  | resolveDispute => exact Nat.le_refl _
  | setVotingPeriod => exact Nat.le_refl _
  | role => exact Nat.le_refl _

/-! ## Runs -/

/-- **What any number of calls can do to a dispute.** -/
structure Later (s s' : State) (id : Nat) : Prop where
  filing : (s'.disputes id).filing = (s.disputes id).filing
  status : (s.disputes id).status.ordinal ≤ (s'.disputes id).status.ordinal
  evidence : 2 ≤ (s.disputes id).status.ordinal → s'.evidence id = s.evidence id
  final : (s.disputes id).status = .resolved → s'.disputes id = s.disputes id

theorem Later.refl (s : State) (id : Nat) : Later s s id :=
  ⟨rfl, Nat.le_refl _, fun _ => rfl, fun _ => rfl⟩

theorem Later.trans {s t u : State} {id : Nat} (h : Later s t id) (k : Later t u id) :
    Later s u id where
  filing := k.filing.trans h.filing
  status := Nat.le_trans h.status k.status
  evidence h2 := (k.evidence (Nat.le_trans h2 h.status)).trans (h.evidence h2)
  final hres := by
    have hst := h.final hres
    exact (k.final (hst ▸ hres)).trans hst

theorem Advances.later {s s' : State} {id : Nat} (h : Advances s s' id) : Later s s' id where
  filing := h.filing
  status := by
    rcases h.status with hs | hs
    · rw [hs]
    · omega
  evidence := h.evidence
  final := h.final

/-- A step of the ledger advances every filed dispute. -/
theorem advances_step {l l' : Ledger State (Message Fn) (Option Nat)}
    {a : Ledger.Action (Message Fn)} (h : Ledger.step exec l a = some l') {id : Nat}
    (hid : id < l.state.nextDisputeId) : Advances l.state l'.state id := by
  rcases Ledger.step_cases h with ⟨b, -, -, rfl⟩ | ⟨c, s, r, -, hc, rfl⟩ | ⟨c, e, -, -, rfl⟩
  · exact .of_eq rfl rfl
  · exact (exec_eq_ok.mp hc).advances hid
  · exact .of_eq rfl rfl

/-- A step of the ledger never lowers the counter. -/
theorem nextDisputeId_le_step {l l' : Ledger State (Message Fn) (Option Nat)}
    {a : Ledger.Action (Message Fn)} (h : Ledger.step exec l a = some l') :
    l.state.nextDisputeId ≤ l'.state.nextDisputeId := by
  rcases Ledger.step_cases h with ⟨b, -, -, rfl⟩ | ⟨c, s, r, -, hc, rfl⟩ | ⟨c, e, -, -, rfl⟩
  · exact Nat.le_refl _
  · exact (exec_eq_ok.mp hc).nextDisputeId_le
  · exact Nat.le_refl _

/-- **A filed dispute only moves forward, over any run.** -/
theorem later_run {l l' : Ledger State (Message Fn) (Option Nat)}
    {as : List (Ledger.Action (Message Fn))} (hrun : run (Ledger.step exec) l as = some l') :
    l.state.nextDisputeId ≤ l'.state.nextDisputeId ∧
      ∀ id < l.state.nextDisputeId, Later l.state l'.state id := by
  -- the relation carries the counter, so that a dispute filed at the start stays filed
  refine run_rel (I := fun _ => True)
    (R := fun l l' => l.state.nextDisputeId ≤ l'.state.nextDisputeId ∧
      ∀ id < l.state.nextDisputeId, Later l.state l'.state id)
    ?_ ?_ (fun _ _ _ _ _ => trivial) ?_ trivial hrun
  · exact fun l => ⟨Nat.le_refl _, fun id _ => Later.refl l.state id⟩
  · rintro l t u ⟨hn, h⟩ ⟨hn', k⟩
    exact ⟨Nat.le_trans hn hn', fun id hid => (h id hid).trans (k id (Nat.lt_of_lt_of_le hid hn))⟩
  · intro l a t _ hstep
    exact ⟨nextDisputeId_le_step hstep, fun id hid => (advances_step hstep hid).later⟩

/-! ## The records that occur -/

/-- **A sound record** at a block time: never `Dismissed`, with evidence once it left `Filed`,
resolved exactly when it has a resolution, and then not before it was created. -/
structure Sound (now : Nat) (s : State) (id : Nat) : Prop where
  notDismissed : (s.disputes id).status ≠ .dismissed
  evidence : 1 ≤ (s.disputes id).status.ordinal → s.evidence id ≠ []
  resolved_iff : (s.disputes id).status = .resolved ↔ (s.disputes id).resolution ≠ .none
  created : (s.disputes id).createdAt ≤ now
  order : (s.disputes id).status = .resolved →
    (s.disputes id).createdAt ≤ (s.disputes id).resolvedAt

/-- Soundness only reads the record and the evidence of the dispute. -/
theorem Sound.congr {now : Nat} {s s' : State} {id : Nat} (h : Sound now s id)
    (hd : s'.disputes id = s.disputes id) (he : s'.evidence id = s.evidence id) :
    Sound now s' id := by
  obtain ⟨h1, h2, h3, h4, h5⟩ := h
  constructor <;> rw [hd] <;> first | assumption | rwa [he]

/-- Soundness survives the passage of time. -/
theorem Sound.mono {now now' : Nat} {s : State} {id : Nat} (h : Sound now s id)
    (hle : now ≤ now') : Sound now' s id :=
  { h with created := Nat.le_trans h.created hle }

/-- **A successful call leaves every filed dispute sound**, the one it files included. -/
theorem Step.sound {b : Block} {s s' : State} {a : Account} {fn : Fn} {r : Option Nat}
    (h : Step b s a fn s' r) (hs : ∀ id < s.nextDisputeId, Sound b.timestamp s id) :
    ∀ id < s'.nextDisputeId, Sound b.timestamp s' id := by
  intro id hid
  cases h with
  | fileDispute =>
      by_cases hnew : id = s.nextDisputeId
      · -- the record just filed
        subst hnew
        have hd : ∀ d, (s.file d).disputes s.nextDisputeId = d := fun d => Function.update_self ..
        refine ⟨?_, ?_, ?_, ?_, ?_⟩ <;> rw [hd] <;>
          simp [newDispute, DisputeStatus.ordinal]
      · have hlt : id < s.nextDisputeId := Nat.lt_of_le_of_ne (Nat.le_of_lt_succ hid) hnew
        exact (hs id hlt).congr (Function.update_of_ne hnew _ _) rfl
  | @submitEvidence target uri description _ hstatus _ =>
      have hsound : Sound b.timestamp s id := hs id hid
      by_cases ht : id = target
      · subst ht
        have hres : ¬ (s.disputes id).status = .resolved := by
          rcases hstatus with h | h <;> rw [h] <;> decide
        have hnone := hsound.resolved_iff.not.mp hres
        refine ⟨?_, ?_, ?_, ?_, ?_⟩ <;>
          simp only [State.addEvidence, Function.update_self]
        · rcases hstatus with h | h <;> simp [h]
        · simp
        · rcases hstatus with h | h <;> simpa [h] using hnone
        · rcases hstatus with h | h <;> simpa [h] using hsound.created
        · rcases hstatus with h | h <;> simp [h]
      · exact hsound.congr (Function.update_of_ne ht _ _) (Function.update_of_ne ht _ _)
  | @startDeliberation target _ _ hstatus =>
      have hsound : Sound b.timestamp s id := hs id hid
      by_cases ht : id = target
      · subst ht
        have hres : ¬ (s.disputes id).status = .resolved := by rw [hstatus]; decide
        have hnone := hsound.resolved_iff.not.mp hres
        have hev := hsound.evidence (by rw [hstatus]; decide)
        refine ⟨?_, fun _ => hev, ?_, ?_, ?_⟩ <;>
          simp only [State.deliberate, Function.update_self]
        · decide
        · simpa using hnone
        · exact hsound.created
        · simp
      · exact hsound.congr (Function.update_of_ne ht _ _) rfl
  | castVote => exact (hs id hid).congr rfl rfl
  | @resolveDispute target _ _ _ _ _ hstatus hchosen =>
      have hsound : Sound b.timestamp s id := hs id hid
      by_cases ht : id = target
      · subst ht
        have hev := hsound.evidence (by rw [hstatus]; decide)
        refine ⟨?_, fun _ => hev, ?_, ?_, ?_⟩ <;> simp only [State.resolve, Function.update_self]
        · decide
        · simpa using hchosen
        · exact hsound.created
        · exact fun _ => hsound.created
      · exact hsound.congr (Function.update_of_ne ht _ _) rfl
  | setVotingPeriod => exact (hs id hid).congr rfl rfl
  | role => exact (hs id hid).congr rfl rfl

/-- **After every run every filed dispute is sound.** -/
theorem sound_run {deployer : Account} {b : Block} {as : List (Ledger.Action (Message Fn))}
    {l : Ledger State (Message Fn) (Option Nat)}
    (hrun : run (Ledger.step exec) (Ledger.deployed b (deploy deployer)) as = some l) :
    ∀ id < l.state.nextDisputeId, Sound l.block.timestamp l.state id := by
  refine Ledger.invariant
    (I := fun l => ∀ id < l.state.nextDisputeId, Sound l.block.timestamp l.state id) ?_ ?_ ?_ hrun
  · intro l b hl hb id hid
    exact (hl id hid).mono hb.1
  · intro l c s r hl hc
    exact (exec_eq_ok.mp hc).sound hl
  · intro id hid
    exact absurd hid (Nat.not_lt_zero id)

/-- **Dispute lifecycle and finality.** In every reachable state every filed dispute is sound;
every further step advances it by at most one status; and over every further run it never moves
back, keeps the fields of its filing, keeps its evidence from the deliberation on, and keeps its
whole record once resolved. -/
theorem dispute_lifecycle (deployer : Account) (b : Block)
    (as : List (Ledger.Action (Message Fn))) (l : Ledger State (Message Fn) (Option Nat))
    (hrun : run (Ledger.step exec) (Ledger.deployed b (deploy deployer)) as = some l) :
    ∀ id < l.state.nextDisputeId, Sound l.block.timestamp l.state id ∧
      (∀ a l', Ledger.step exec l a = some l' → Advances l.state l'.state id) ∧
      ∀ bs l', run (Ledger.step exec) l bs = some l' → Later l.state l'.state id := by
  intro id hid
  refine ⟨sound_run hrun id hid, fun a l' h => advances_step h hid, fun bs l' h => ?_⟩
  exact (later_run h).2 id hid

/-- The lifecycle applied to a run that files a dispute and submits evidence on it. -/
theorem dispute_lifecycle_after_evidence :
    ∃ l, run (Ledger.step exec) (Ledger.deployed (blockAt 1 1) (deploy (acct 1)))
        [.call ⟨acct 2, .fileDispute 3 [0x73] []⟩, .mine (blockAt 5 2),
          .call ⟨acct 2, .submitEvidence 0 [0x75] []⟩] = some l ∧
      (l.state.disputes 0).status = .evidence ∧
      ∀ id < l.state.nextDisputeId, Sound l.block.timestamp l.state id ∧
        (∀ a l', Ledger.step exec l a = some l' → Advances l.state l'.state id) ∧
        ∀ bs l', run (Ledger.step exec) l bs = some l' → Later l.state l'.state id :=
  ⟨_, rfl, rfl, dispute_lifecycle (acct 1) (blockAt 1 1)
    [.call ⟨acct 2, .fileDispute 3 [0x73] []⟩, .mine (blockAt 5 2),
      .call ⟨acct 2, .submitEvidence 0 [0x75] []⟩] _ rfl⟩

end ReputationPassport.DisputeResolutionDAO
