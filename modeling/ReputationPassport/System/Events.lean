import ReputationPassport.Machine.EventLog
import ReputationPassport.Machine.History
import ReputationPassport.System.Projection

/-! # What the events tell

An observer of the chain sees the events of the contracts, not their storage. A `Mirror` is what it
can keep up to date by applying one event after another: the credentials, their index and the locks
of the token; the parties, evidence, votes and resolutions of the DAO; the endorsements; the
attestations with their revocations. In every state the system reaches the mirrors show the storage
(`events_tell`).

Three contracts index the subject of an event, so that the log holds its hash only. Their mirrors
hold the hash as well, and the events of the oracle speak of a subject as long as no other subject
in the log has its hash. -/

namespace ReputationPassport

open Evm Machine OpenZeppelin

/-! ## The passport token -/

namespace PassportSBT

/-- What the events of the token tell. -/
@[ext] structure Mirror where
  credential : Nat → Bytes × Bytes × Nat × Nat
  bySubject : Bytes → List Nat
  isLocked : Nat → Bool

/-- The mirror of the token before its first event. -/
def Mirror.blank : Mirror := ⟨fun _ => ([], [], 0, 0), fun _ => [], fun _ => false⟩

/-- The part of the storage that is mirrored. -/
def mirror (s : State) : Mirror where
  credential id := (s.subjectHashes id, s.credentialTypes id, s.issuedAt id, s.expiresAt id)
  bySubject := s.subjectCredentials
  isLocked := s.lockedTokens

/-- Apply an event. -/
def Mirror.apply (m : Mirror) : Event → Mirror
  | .locked tokenId => { m with isLocked := Function.update m.isLocked tokenId true }
  | .unlocked tokenId => { m with isLocked := Function.update m.isLocked tokenId false }
  | .credentialIssued tokenId _ subjectHash credentialType issuedAt expiresAt =>
      { m with
        credential := Function.update m.credential tokenId
          (subjectHash, credentialType, issuedAt, expiresAt)
        bySubject := Function.update m.bySubject subjectHash
          (m.bySubject subjectHash ++ [tokenId]) }
  | .credentialRevoked .. => m

/-- Updating four maps is updating the map to the four values. -/
theorem credential_finishMint (s : State) (sender : Address) (tokenId : Nat)
    (subjectHash credentialType uri : Bytes) (expiresAt timestamp : Nat) :
    (mirror (s.finishMint sender tokenId subjectHash credentialType uri expiresAt
      timestamp)).credential = Function.update (mirror s).credential tokenId
        (subjectHash, credentialType, timestamp, expiresAt) := by
  funext id
  by_cases h : id = tokenId
  · subst h
    simp [mirror, State.finishMint]
  · simp [mirror, State.finishMint, h]

theorem replays : Replays contract State.logs mirror Mirror.apply where
  done b s c s' r h := by
    obtain ⟨a, fn⟩ := c
    cases contract_start_eq_ok.mp h with
    | revoke => exact ⟨_, rfl, rfl⟩
    | burn => exact ⟨_, rfl, rfl⟩
    | _ => exact logged_of_eq rfl rfl
  calls b s c s' q h := by
    obtain ⟨a, fn⟩ := c
    cases contract_start_eq_ok.mp h with
    | safeMint => exact logged_of_eq rfl rfl
    | safeTransferFrom => exact logged_of_eq rfl rfl
  resume b s q s' r h := by
    cases q with
    | mint sender tokenId subjectHash credentialType uri expiresAt =>
        obtain ⟨rfl, rfl⟩ := Prod.mk.inj (Except.ok.inj h)
        refine ⟨_, rfl, Mirror.ext ?_ rfl rfl⟩
        exact credential_finishMint s sender tokenId subjectHash credentialType uri expiresAt _
    | transfer =>
        obtain ⟨rfl, rfl⟩ := Prod.mk.inj (Except.ok.inj h)
        exact logged_of_eq rfl rfl

end PassportSBT

/-! ## The DAO -/

namespace DisputeResolutionDAO

/-- What the events of the DAO tell. -/
@[ext] structure Mirror where
  nextDisputeId : Nat
  filing : Nat → Address × Bytes
  evidence : Nat → List (Address × Bytes)
  votes : Nat → List (Address × Resolution)
  resolution : Nat → Resolution × Bytes

/-- The mirror of the DAO before its first event. -/
def Mirror.blank : Mirror :=
  ⟨0, fun _ => (0, []), fun _ => [], fun _ => [], fun _ => (.none, [])⟩

/-- The part of the storage that is mirrored. -/
def mirror (s : State) : Mirror where
  nextDisputeId := s.nextDisputeId
  filing id := ((s.disputes id).plaintiff, (s.disputes id).subjectHash)
  evidence id := (s.evidence id).map fun e => (e.submitter, e.uri)
  votes id := (s.votes id).map fun v => (v.juror, v.vote)
  resolution id := ((s.disputes id).resolution, (s.disputes id).resolutionNotes)

/-- Apply an event. -/
def Mirror.apply (m : Mirror) : Event → Mirror
  | .disputeFiled disputeId plaintiff subjectHash =>
      { m with
        nextDisputeId := disputeId + 1
        filing := Function.update m.filing disputeId (plaintiff, subjectHash)
        resolution := Function.update m.resolution disputeId (.none, []) }
  | .evidenceSubmitted disputeId submitter uri =>
      { m with
        evidence := Function.update m.evidence disputeId
          (m.evidence disputeId ++ [(submitter, uri)]) }
  | .voteCast disputeId juror vote =>
      { m with votes := Function.update m.votes disputeId (m.votes disputeId ++ [(juror, vote)]) }
  | .disputeResolved disputeId resolution notes =>
      { m with resolution := Function.update m.resolution disputeId (resolution, notes) }

/-- Appending to the list of one id. -/
theorem map_update_append {α β : Type*} (f : α → β) (lists : Nat → List α) (id : Nat) (x : α) :
    (fun i => (Function.update lists id (lists id ++ [x]) i).map f) =
      Function.update (fun i => (lists i).map f) id ((lists id).map f ++ [f x]) := by
  have hshown := Function.comp_update (List.map f) lists id (lists id ++ [x])
  rwa [List.map_append, List.map_singleton] at hshown

theorem replays : Replays (Contract.ofExec exec) State.logs mirror Mirror.apply := by
  refine .ofExec ?_
  rintro b s ⟨a, fn⟩ s' r h
  cases exec_eq_ok.mp h with
  | fileDispute =>
      refine ⟨_, rfl, Mirror.ext rfl ?_ rfl rfl ?_⟩
      · exact Function.comp_update (fun d : Dispute => (d.plaintiff, d.subjectHash)) _ _ _
      · exact Function.comp_update (fun d : Dispute => (d.resolution, d.resolutionNotes)) _ _ _
  | @submitEvidence id uri description unpaused status auth =>
      -- the event says nothing of the status, and the mirror shows none
      refine ⟨_, rfl, Mirror.ext rfl ?_ (map_update_append _ _ _ _) rfl ?_⟩
      · exact comp_update_same (f := fun d : Dispute => (d.plaintiff, d.subjectHash))
          (by split <;> rfl)
      · exact comp_update_same (f := fun d : Dispute => (d.resolution, d.resolutionNotes))
          (by split <;> rfl)
  | startDeliberation =>
      -- no event, so nothing that is shown may change
      refine logged_of_eq rfl (Mirror.ext rfl ?_ rfl rfl ?_)
      · exact comp_update_same (f := fun d : Dispute => (d.plaintiff, d.subjectHash)) rfl
      · exact comp_update_same (f := fun d : Dispute => (d.resolution, d.resolutionNotes)) rfl
  | castVote => exact ⟨_, rfl, Mirror.ext rfl rfl rfl (map_update_append _ _ _ _) rfl⟩
  | resolveDispute =>
      refine ⟨_, rfl, Mirror.ext rfl ?_ rfl rfl ?_⟩
      · exact comp_update_same (f := fun d : Dispute => (d.plaintiff, d.subjectHash)) rfl
      · exact Function.comp_update (fun d : Dispute => (d.resolution, d.resolutionNotes)) _ _ _
  | setVotingPeriod => exact logged_of_eq rfl rfl
  | role => exact logged_of_eq rfl rfl

end DisputeResolutionDAO

variable (keccak256 : Bytes → Bytes32)

/-! ## The endorsement registry -/

namespace EndorsementRegistry

/-- What the events of the registry tell; the subject is known by its hash. -/
@[ext] structure Mirror where
  nextEndorsementId : Nat
  given : Nat → Address × Bytes32 × Nat × Bytes

/-- The mirror of the registry before its first event; no subject is the empty text. -/
def Mirror.blank : Mirror := ⟨0, fun _ => (0, keccak256 [], 0, [])⟩

/-- What is mirrored of an endorsement. -/
def Endorsement.seen (e : Endorsement) : Address × Bytes32 × Nat × Bytes :=
  (e.endorser, keccak256 e.subjectHash, e.weight, e.category)

/-- The part of the storage that is mirrored. -/
def mirror (s : State) : Mirror where
  nextEndorsementId := s.nextEndorsementId
  given id := (s.endorsements id).seen keccak256

/-- Apply an event. -/
def Mirror.apply (m : Mirror) : Event → Mirror
  | .endorsementAdded endorsementId endorser subjectHash weight category =>
      { nextEndorsementId := endorsementId + 1
        given := Function.update m.given endorsementId
          (endorser, keccak256 subjectHash, weight, category) }

theorem replays : Replays (Contract.ofExec exec) State.logs (mirror keccak256)
    (Mirror.apply keccak256) := by
  refine .ofExec fun b s c s' r h => ?_
  rcases exec_cases h with ⟨subjectHash, weight, category, comment, -, -, -, rfl⟩ |
    ⟨call, roles, -, -, rfl⟩
  · exact ⟨_, rfl, Mirror.ext rfl (Function.comp_update (Endorsement.seen keccak256) _ _ _)⟩
  · exact logged_of_eq rfl rfl

end EndorsementRegistry

/-! ## The attestation registry -/

namespace AttestationRegistry

/-- What the events of the registry tell; the subject is known by its hash. -/
@[ext] structure Mirror where
  uids : List Bytes32
  byAttester : Address → List Bytes32
  record : Bytes32 → Address × Bytes32 × Bytes × Nat
  revocation : Bytes32 → Bool × Nat

/-- The mirror of the registry before its first event. -/
def Mirror.blank : Mirror :=
  ⟨[], fun _ => [], fun _ => (0, keccak256 [], [], 0), fun _ => (false, 0)⟩

/-- The part of the storage that is mirrored. -/
def mirror (s : State) : Mirror where
  uids := s.allAttestations
  byAttester := s.attesterAttestations
  record uid := ((s.attestations uid).attester, keccak256 (s.attestations uid).subjectHash,
    (s.attestations uid).schema, (s.attestations uid).expirationTime)
  revocation uid := ((s.attestations uid).revoked, (s.attestations uid).revocationTime)

/-- Apply an event. -/
def Mirror.apply (m : Mirror) : Event → Mirror
  | .attestationCreated uid attester subjectHash schema expirationTime =>
      { uids := m.uids ++ [uid]
        byAttester := Function.update m.byAttester attester (m.byAttester attester ++ [uid])
        record := Function.update m.record uid
          (attester, keccak256 subjectHash, schema, expirationTime)
        revocation := Function.update m.revocation uid (false, 0) }
  | .attestationRevoked uid _ revocationTime =>
      { m with revocation := Function.update m.revocation uid (true, revocationTime) }

theorem replays : Replays (Contract.ofExec (exec keccak256)) State.logs (mirror keccak256)
    (Mirror.apply keccak256) := by
  refine .ofExec ?_
  rintro b s ⟨a, fn⟩ s' r h
  cases exec_eq_ok.mp h with
  | attest =>
      refine ⟨_, rfl, Mirror.ext rfl rfl ?_ ?_⟩
      · exact Function.comp_update
          (fun d : Attestation =>
            (d.attester, keccak256 d.subjectHash, d.schema, d.expirationTime)) _ _ _
      · exact Function.comp_update (fun d : Attestation => (d.revoked, d.revocationTime)) _ _ _
  | revoke =>
      -- of the record itself a revocation changes nothing that is shown
      refine ⟨_, rfl, Mirror.ext rfl rfl ?_ ?_⟩
      · exact comp_update_same
          (f := fun d : Attestation =>
            (d.attester, keccak256 d.subjectHash, d.schema, d.expirationTime)) rfl
      · exact Function.comp_update (fun d : Attestation => (d.revoked, d.revocationTime)) _ _ _
  | role => exact logged_of_eq rfl rfl

end AttestationRegistry

/-! ## The oracle -/

namespace ReputationOracle

/-- The score, the time and the proof an event reports of the subject with the given hash. -/
def updateSeen (topic : Bytes32) : Event → Option (Nat × Nat × Bytes32)
  | .reputationUpdated subjectHash overallScore lastUpdated proofHash =>
      if keccak256 subjectHash = topic then some (overallScore, lastUpdated, proofHash) else none
  | .reputationSlashed .. => none

/-- The subject an event speaks of. -/
def Event.subject : Event → Bytes
  | .reputationUpdated subjectHash _ _ _ => subjectHash
  | .reputationSlashed subjectHash _ _ => subjectHash

/-- What is reported of a record. -/
def ReputationData.seen (rep : ReputationData) : Nat × Nat × Bytes32 :=
  (rep.overallScore, rep.lastUpdated, rep.proofHash)

/-- The events of a call that writes the record of a subject report it, and nothing else. -/
theorem lastOf_write {topic : Bytes32} {s : State} {subjectHash : Bytes} {rep : ReputationData}
    {events : List Event}
    (hevents : events.filterMap (updateSeen keccak256 topic) =
      if keccak256 subjectHash = topic then [rep.seen] else []) :
    lastOf (updateSeen keccak256 topic) (s.write subjectHash rep events).logs =
      if keccak256 subjectHash = topic then some rep.seen
      else lastOf (updateSeen keccak256 topic) s.logs := by
  rw [lastOf, State.write, List.filterMap_append, hevents]
  split
  · exact List.getLast?_concat
  · rw [List.append_nil, ← lastOf]

/-- **What a call of the oracle does to the log**: it writes a record and reports it, or changes
only the roles. -/
theorem exec_reports {b : Block} {s s' : State} {c : Message Fn} {r : Unit}
    (h : exec b s c = .ok (s', r)) :
    (∃ subjectHash rep events, s' = s.write subjectHash rep events ∧
      (∀ topic, events.filterMap (updateSeen keccak256 topic) =
        if keccak256 subjectHash = topic then [rep.seen] else []) ∧
      ∃ e ∈ events, e.subject = subjectHash) ∨
    ∃ roles, s' = { s with roles } := by
  obtain ⟨sender, fn⟩ := c
  cases fn with
  | updateReputation subjectHash overallScore reliabilityScore professionalismScore
      communityTrustScore totalEndorsements totalReviews proofHash =>
      simp only [exec, bind_eq_ok, pure_eq_ok, Prod.mk.injEq, and_true] at h
      obtain ⟨t, hupdate, rfl⟩ := h
      obtain ⟨-, -, rfl⟩ := updateReputation_eq_ok.mp hupdate
      refine Or.inl ⟨subjectHash, _, _, rfl, fun topic => ?_, _, List.mem_singleton_self _, rfl⟩
      by_cases htopic : keccak256 subjectHash = topic
      · simp [updateSeen, ReputationData.seen, htopic]
      · simp [updateSeen, htopic]
  | slashReputation subjectHash amount reason =>
      simp only [exec, bind_eq_ok, pure_eq_ok, Prod.mk.injEq, and_true] at h
      obtain ⟨t, hslash, rfl⟩ := h
      obtain ⟨-, -, rfl⟩ := slashReputation_eq_ok.mp hslash
      refine Or.inl ⟨subjectHash, _, _, rfl, fun topic => ?_, _, List.mem_cons_self, rfl⟩
      -- the first event reports the slashing, the second the record
      rw [List.filterMap_cons_none rfl]
      by_cases htopic : keccak256 subjectHash = topic
      · simp [updateSeen, ReputationData.seen, htopic]
      · simp [updateSeen, htopic]
  | role call =>
      simp only [exec, bind_eq_ok, pure_eq_ok, Prod.mk.injEq, and_true] at h
      obtain ⟨roles, -, rfl⟩ := h
      exact Or.inr ⟨roles, rfl⟩

/-- No other subject in the log has the hash of this one. -/
def Unmistakable (logs : List Event) (subject : Bytes) : Prop :=
  ∀ e ∈ logs, keccak256 e.subject = keccak256 subject → e.subject = subject

/-- What the events report of a subject; the record of a subject nobody wrote is zero. -/
def reported (logs : List Event) (subject : Bytes) : Nat × Nat × Bytes32 :=
  (lastOf (updateSeen keccak256 (keccak256 subject)) logs).getD (0, 0, 0)

/-- **The events of the oracle report its records**, after every run. -/
theorem reported_run {deployer : Account} {b : Block} {as : List (Ledger.Action (Message Fn))}
    {l : Ledger State (Message Fn) Unit}
    (hrun : run (Ledger.step exec) (Ledger.deployed b (deploy deployer)) as = some l)
    (subject : Bytes) (hsubject : Unmistakable keccak256 l.state.logs subject) :
    reported keccak256 l.state.logs subject = (getReputation l.state subject).seen := by
  refine Ledger.invariant (I := fun l => ∀ subject, Unmistakable keccak256 l.state.logs subject →
    reported keccak256 l.state.logs subject = (getReputation l.state subject).seen)
    ?_ ?_ ?_ hrun subject hsubject
  · intro l b hl _
    exact hl
  · intro l c s r hl hc subject hsubject
    rcases exec_reports keccak256 hc with ⟨written, rep, events, rfl, hevents, e, he, rfl⟩ |
      ⟨roles, rfl⟩
    · have hbefore : Unmistakable keccak256 l.state.logs subject :=
        fun x hx => hsubject x (List.mem_append_left _ hx)
      have hlast : lastOf (updateSeen keccak256 (keccak256 subject))
          (l.state.write e.subject rep events).logs =
            if keccak256 e.subject = keccak256 subject then some rep.seen
            else lastOf (updateSeen keccak256 (keccak256 subject)) l.state.logs :=
        lastOf_write keccak256 (hevents (keccak256 subject))
      rw [reported]
      refine (congrArg (Option.getD · (0, 0, 0)) hlast).trans ?_
      by_cases htopic : keccak256 e.subject = keccak256 subject
      · have hsame := hsubject e (List.mem_append_right _ he) htopic
        simp [Ledger.commit, getReputation, hsame]
      · have hne : subject ≠ e.subject := fun heq => htopic (congrArg keccak256 heq).symm
        rw [if_neg htopic]
        exact (hl subject hbefore).trans
          (congrArg ReputationData.seen (Function.update_of_ne hne _ _).symm)
    · exact hl subject hsubject
  · intro subject _
    rfl

end ReputationOracle

/-! ## The system -/

namespace System

/-- **The mirrors of the contracts show their storage**, each by its own log. -/
structure EventsTell (keccak256 : Bytes → Bytes32) (s : State) : Prop where
  passport : PassportSBT.mirror s.core.passport =
    s.core.passport.logs.foldl PassportSBT.Mirror.apply .blank
  disputes : DisputeResolutionDAO.mirror s.core.world.disputes =
    s.core.world.disputes.logs.foldl DisputeResolutionDAO.Mirror.apply .blank
  endorsements : EndorsementRegistry.mirror keccak256 s.endorsements =
    s.endorsements.logs.foldl (EndorsementRegistry.Mirror.apply keccak256) (.blank keccak256)
  attestations : AttestationRegistry.mirror keccak256 s.attestations =
    s.attestations.logs.foldl (AttestationRegistry.Mirror.apply keccak256) (.blank keccak256)
  reputation : ∀ subject,
    ReputationOracle.Unmistakable keccak256 s.reputation.logs subject →
      ReputationOracle.reported keccak256 s.reputation.logs subject =
        (ReputationOracle.getReputation s.reputation subject).seen

/-- **The events tell the storage** in every state the system reaches, in between and inside
transactions, whatever was rolled back on the way. -/
theorem events_tell (facade deployer : Account) (b : Block)
    (as : List (CallStack.Action (Message Call))) (c : Stack)
    (hrun : run (CallStack.step (contract keccak256))
      (CallStack.deployed b (deploy facade deployer)) as = some c) :
    EventsTell keccak256 c.ledger.state where
  passport := by
    obtain ⟨as', h⟩ := passport_alone hrun
    exact PassportSBT.replays.run rfl h
  disputes := by
    have hself : (deploy facade deployer).core.world.self = facade := rfl
    obtain ⟨as', h⟩ := (disputesComponent keccak256 facade).exists_run_deployed hself hrun
    exact DisputeResolutionDAO.replays.run rfl h
  endorsements := by
    obtain ⟨as', h⟩ := (endorsementsComponent keccak256).exists_run_deployed trivial hrun
    exact (EndorsementRegistry.replays keccak256).run rfl h
  attestations := by
    obtain ⟨as', h⟩ := (attestationsComponent keccak256).exists_run_deployed trivial hrun
    exact (AttestationRegistry.replays keccak256).run rfl h
  reputation subject hsubject := by
    obtain ⟨as', h⟩ := reputation_alone hrun
    exact ReputationOracle.reported_run keccak256 h subject hsubject

/-- A passport is issued and a dispute filed: two events of the token, one of the DAO. -/
theorem events_tell_issueAndFile : ∃ c : Stack,
    run (CallStack.step (contract AttestationRegistry.sampleHash))
      (CallStack.deployed (blockAt 1 1) (deploy (acct 9) (acct 1))) issueAndFile = some c ∧
    c.ledger.state.core.passport.logs.length = 2 ∧
    c.ledger.state.core.world.disputes.logs.length = 1 ∧
    EventsTell AttestationRegistry.sampleHash c.ledger.state := by
  obtain ⟨c, hrun, htoken, hdao⟩ : ∃ c : Stack,
      run (CallStack.step (contract AttestationRegistry.sampleHash))
        (CallStack.deployed (blockAt 1 1) (deploy (acct 9) (acct 1))) issueAndFile = some c ∧
      c.ledger.state.core.passport.logs.length = 2 ∧
      c.ledger.state.core.world.disputes.logs.length = 1 := ⟨_, rfl, rfl, rfl⟩
  exact ⟨c, hrun, htoken, hdao,
    events_tell AttestationRegistry.sampleHash (acct 9) (acct 1) (blockAt 1 1) issueAndFile c
      hrun⟩

end System

end ReputationPassport
