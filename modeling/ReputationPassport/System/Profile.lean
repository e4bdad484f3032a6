import ReputationPassport.Attestation.Record
import ReputationPassport.Endorsement.Aggregates
import ReputationPassport.Oracle.Score
import ReputationPassport.System.Projection

/-! # What the facade reports about a subject

`getSubjectProfile` puts together what three contracts say about a subject. Each of them is
determined by the calls it has seen, and within the system these are the calls of its component. So
the profile is a function of the history of the whole system (`profileOf`), in every state of every
run, in between transactions and inside them. -/

namespace ReputationPassport.AttestationRegistry

open Evm Machine OpenZeppelin

/-- The uid a call issued for the subject. -/
def attestedFor (subject : Bytes) (e : Call) : Option Bytes32 :=
  match e.call.fn with
  | .attest subjectHash _ _ _ => if subjectHash = subject then e.result else none
  | _ => none

/-- A call adds the uid it issued for the subject to the list of the subject. -/
theorem subjectAttestations_exec {keccak256 : Bytes → Bytes32} {b : Block} {s s' : State}
    {c : Message Fn} {r : Option Bytes32} (h : exec keccak256 b s c = .ok (s', r))
    (subject : Bytes) : s'.subjectAttestations subject =
      s.subjectAttestations subject ++ (attestedFor subject ⟨b, c, r⟩).toList := by
  obtain ⟨a, fn⟩ := c
  cases exec_eq_ok.mp h with
  | @attest subjectHash schema data expirationTime _ _ =>
      by_cases hs : subjectHash = subject
      · subst hs
        simp only [State.record, newAttestation, attestedFor, if_true, Function.update_self,
          Option.toList_some]
      · simp only [State.record, newAttestation, attestedFor, if_neg hs,
          Function.update_of_ne (Ne.symm hs), Option.toList_none, List.append_nil]
  | revoke => exact (List.append_nil _).symm
  | role => exact (List.append_nil _).symm

/-- **The list of a subject** holds the uids that were issued for it, oldest first. -/
theorem subjectAttestations_run {keccak256 : Bytes → Bytes32} {deployer : Account} {b : Block}
    {as : List (Ledger.Action (Message Fn))} {l : RegistryLedger}
    (hrun : run (Ledger.step (exec keccak256)) (Ledger.deployed b (deploy deployer)) as = some l)
    (subject : Bytes) :
    getSubjectAttestations l.state subject = l.history.filterMap (attestedFor subject) := by
  refine Ledger.invariant (I := fun l : RegistryLedger =>
    l.state.subjectAttestations subject = l.history.filterMap (attestedFor subject)) ?_ ?_ rfl hrun
  · intro l b hl _
    exact hl
  · intro l c s r hl hc
    rw [Ledger.commit_state, Ledger.commit_history, List.filterMap_append,
      subjectAttestations_exec hc, hl]
    cases h : attestedFor subject ⟨l.block, c, r⟩ <;> simp [h]

end ReputationPassport.AttestationRegistry

namespace ReputationPassport.System

open Evm Machine OpenZeppelin

section Profile

variable (keccak256 : Bytes → Bytes32)

/-- **The profile of a subject, read off the history of the system.** -/
def profileOf (subject : Bytes) (history : List SystemCall) : SubjectProfile where
  repData := ReputationOracle.recordOf subject ((reputationComponent keccak256).history history)
  endorsementCount :=
    ((EndorsementRegistry.added ((endorsementsComponent keccak256).history history)).about
      subject).length
  totalEndorsementWeight :=
    (((EndorsementRegistry.added ((endorsementsComponent keccak256).history history)).about
      subject).map fun p => p.2.weight).sum
  attestationIds := ((attestationsComponent keccak256).history history).filterMap
    (AttestationRegistry.attestedFor subject)

/-- **The facade reports the history**: whatever calls of the six contracts were made in whatever
order, also by the receivers of tokens while a call was open, the profile of a subject is the record
of its last update lowered by the slashes since, the number and the weight of the endorsements added
for it, and the uids issued for it. -/
theorem profile_of_history (facade deployer : Account) (b : Block)
    (as : List (CallStack.Action (Message Call))) (c : Stack)
    (hrun : run (CallStack.step (contract keccak256))
      (CallStack.deployed b (deploy facade deployer)) as = some c) (subject : Bytes) :
    getSubjectProfile c.ledger.state subject = profileOf keccak256 subject c.ledger.history := by
  -- each part is determined by the history of one contract, which makes a run of its own
  have hrep : ReputationOracle.getReputation c.ledger.state.reputation subject =
      (profileOf keccak256 subject c.ledger.history).repData := by
    obtain ⟨as', hrep⟩ := reputation_alone hrun
    exact ReputationOracle.records_run hrep subject
  obtain ⟨as', hend⟩ := endorsements_alone hrun
  have hlog := EndorsementRegistry.represents_run hend
  have hcount : EndorsementRegistry.getEndorsementCount c.ledger.state.endorsements subject =
      (profileOf keccak256 subject c.ledger.history).endorsementCount :=
    (congrArg List.length (hlog.list subject)).trans (List.length_map _)
  have htotal : EndorsementRegistry.getTotalWeight c.ledger.state.endorsements subject =
      (profileOf keccak256 subject c.ledger.history).totalEndorsementWeight := hlog.total subject
  have hids : AttestationRegistry.getSubjectAttestations c.ledger.state.attestations subject =
      (profileOf keccak256 subject c.ledger.history).attestationIds := by
    obtain ⟨as', hatt⟩ := attestations_alone hrun
    exact AttestationRegistry.subjectAttestations_run hatt subject
  rw [getSubjectProfile, hrep, hcount, htotal, hids]

/-- An update, a mint whose receiver endorses and attests, and a slash. -/
def mintAndEndorse : List (CallStack.Action (Message Call)) :=
  [.call ⟨acct 1, .reputation (.updateReputation [0x73] 80 70 60 50 2 3 9)⟩ true,
    .call ⟨acct 1, .core (.passport (.safeMint 7 [0x73] [] [] 0))⟩ true,
    .call ⟨acct 1, .endorsements (.addEndorsement [0x73] 40 [] [])⟩ true,
    .call ⟨acct 1, .attestations (.attest [0x73] [] [] 0)⟩ true, .accept, .mine (blockAt 5 2),
    .call ⟨acct 1, .reputation (.slashReputation [0x73] 30 [])⟩ true]

/-- The profile after calls of four contracts. -/
theorem profile_of_history_mintAndEndorse :
    ∃ c : Stack, run (CallStack.step (contract AttestationRegistry.sampleHash))
        (CallStack.deployed (blockAt 1 1) (deploy (acct 9) (acct 1))) mintAndEndorse = some c ∧
      getSubjectProfile c.ledger.state [0x73] = ⟨⟨50, 70, 60, 50, 2, 3, 5, 9⟩, 1, 40,
        [0x70071c1cf2f0f683d7756f059ddf3c0b6b147db7c5bf2732317f0989da20d2f6]⟩ ∧
      getSubjectProfile c.ledger.state [0x73] =
        profileOf AttestationRegistry.sampleHash [0x73] c.ledger.history := by
  obtain ⟨c, hrun, hprofile⟩ : ∃ c : Stack,
      run (CallStack.step (contract AttestationRegistry.sampleHash))
        (CallStack.deployed (blockAt 1 1) (deploy (acct 9) (acct 1))) mintAndEndorse = some c ∧
      getSubjectProfile c.ledger.state [0x73] = ⟨⟨50, 70, 60, 50, 2, 3, 5, 9⟩, 1, 40,
        [0x70071c1cf2f0f683d7756f059ddf3c0b6b147db7c5bf2732317f0989da20d2f6]⟩ := ⟨_, rfl, rfl⟩
  exact ⟨c, hrun, hprofile, profile_of_history AttestationRegistry.sampleHash (acct 9) (acct 1)
    (blockAt 1 1) mintAndEndorse c hrun [0x73]⟩

end Profile

end ReputationPassport.System
