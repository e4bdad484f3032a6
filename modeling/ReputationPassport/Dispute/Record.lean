import ReputationPassport.Dispute.Outcome
import ReputationPassport.Machine.History

/-! # The records of the DAO are its history

What the contract stores under an id is read off the calls that succeeded. The record is that of the
filing, with the last status and the last resolution written since; a filing takes back what was
written before it. Evidence and votes are never taken back, so they are all that was submitted and
cast under the id, also before the filing (`record_of_history`). -/

namespace ReputationPassport.DisputeResolutionDAO

open Evm Machine OpenZeppelin

variable {a : Account} {id : Nat}

/-- The record a call filed under the id. -/
def filedBy (id : Nat) (e : DisputeCall) : Option Dispute :=
  match e.call.fn, e.result with
  | .fileDispute defendant subjectHash description, some disputeId =>
      if disputeId = id then
        some (newDispute e.block id e.call.sender defendant subjectHash description)
      else none
  | _, _ => none

/-- The evidence a call submitted on the id. -/
def evidenceBy (id : Nat) (e : DisputeCall) : Option Evidence :=
  match e.call.fn with
  | .submitEvidence disputeId uri description =>
      if disputeId = id then some ⟨e.call.sender, uri, description, e.block.timestamp⟩ else none
  | _ => none

/-- The vote a call cast on the id. -/
def voteBy (id : Nat) (e : DisputeCall) : Option Vote :=
  match e.call.fn with
  | .castVote disputeId vote rationale =>
      if disputeId = id then some ⟨e.call.sender, vote, rationale, e.block.timestamp⟩ else none
  | _ => none

/-- The status a call gave the dispute. -/
def statusBy (id : Nat) (e : DisputeCall) : Option DisputeStatus :=
  match e.call.fn with
  | .submitEvidence disputeId _ _ => if disputeId = id then some .evidence else none
  | .startDeliberation disputeId => if disputeId = id then some .deliberation else none
  | .resolveDispute disputeId _ _ => if disputeId = id then some .resolved else none
  | _ => none

/-- The resolution a call gave the dispute, with its notes and its time. -/
def resolvedBy (id : Nat) (e : DisputeCall) : Option (Resolution × Bytes × Nat) :=
  match e.call.fn with
  | .resolveDispute disputeId resolution notes =>
      if disputeId = id then some (resolution, notes, e.block.timestamp) else none
  | _ => none

/-- A record with the status and the resolution that calls gave it, where they did. -/
def Dispute.written (d : Dispute) (status : Option DisputeStatus)
    (resolved : Option (Resolution × Bytes × Nat)) : Dispute :=
  { d with
    status := status.getD d.status
    resolution := (resolved.map fun r => r.1).getD d.resolution
    resolutionNotes := (resolved.map fun r => r.2.1).getD d.resolutionNotes
    resolvedAt := (resolved.map fun r => r.2.2).getD d.resolvedAt }

/-- **The record of a dispute, read off the history**: that of its filing, or the default one, with
the last status and the last resolution written since. -/
def recordOf (id : Nat) (history : List DisputeCall) : Dispute :=
  ((lastOf (filedBy id) history).getD default).written
    (lastOf (statusBy id) (sinceLast (filedBy id) history))
    (lastOf (resolvedBy id) (sinceLast (filedBy id) history))

/-- Writing twice writes the later values, where there are any. -/
theorem Dispute.written_written (d : Dispute) (status status' : Option DisputeStatus)
    (resolved resolved' : Option (Resolution × Bytes × Nat)) :
    (d.written status resolved).written status' resolved' =
      d.written (status'.or status) (resolved'.or resolved) := by
  cases status' <;> cases resolved' <;> rfl

/-- A filing starts a new record. -/
theorem recordOf_concat_filed {history : List DisputeCall} {e : DisputeCall} {d : Dispute}
    (h : filedBy id e = some d) : recordOf id (history ++ [e]) = d := by
  rw [recordOf, lastOf_concat, h, sinceLast_concat_some h]
  rfl

/-- Any other call writes on the record there is. -/
theorem recordOf_concat {history : List DisputeCall} {e : DisputeCall} (h : filedBy id e = none) :
    recordOf id (history ++ [e]) =
      (recordOf id history).written (statusBy id e) (resolvedBy id e) := by
  rw [recordOf, lastOf_concat, h, sinceLast_concat_none h, lastOf_concat, lastOf_concat, recordOf,
    Dispute.written_written, Option.none_or]

/-- **What a call writes under an id** is what is read of it. -/
theorem Step.record {b : Block} {s s' : State} {fn : Fn} {r : Option Nat}
    (h : Step b s a fn s' r) (id : Nat) :
    s'.disputes id = ((filedBy id ⟨b, ⟨a, fn⟩, r⟩).getD (s.disputes id)).written
      (statusBy id ⟨b, ⟨a, fn⟩, r⟩) (resolvedBy id ⟨b, ⟨a, fn⟩, r⟩) := by
  cases h with
  | fileDispute =>
      by_cases hid : s.nextDisputeId = id
      · subst hid
        simp [State.file, filedBy, statusBy, resolvedBy, Dispute.written]
      · simp [State.file, filedBy, statusBy, resolvedBy, Dispute.written, hid, Ne.symm hid]
  | @submitEvidence target uri description unpaused status auth =>
      by_cases hid : target = id
      · subst hid
        rcases status with hs | hs
        · simp [State.addEvidence, filedBy, statusBy, resolvedBy, Dispute.written, hs]
        · -- the status stays, and is the one that is read
          have hsame : s.disputes target = { s.disputes target with status := .evidence } := by
            rw [← hs]
          simpa [State.addEvidence, filedBy, statusBy, resolvedBy, Dispute.written, hs] using hsame
      · simp [State.addEvidence, filedBy, statusBy, resolvedBy, Dispute.written, hid, Ne.symm hid]
  | @startDeliberation target role unpaused status =>
      by_cases hid : target = id
      · subst hid
        simp [State.deliberate, filedBy, statusBy, resolvedBy, Dispute.written]
      · simp [State.deliberate, filedBy, statusBy, resolvedBy, Dispute.written, hid, Ne.symm hid]
  | castVote => simp [State.addVote, filedBy, statusBy, resolvedBy, Dispute.written]
  | @resolveDispute target resolution notes role unpaused idle status chosen =>
      by_cases hid : target = id
      · subst hid
        simp [State.resolve, filedBy, statusBy, resolvedBy, Dispute.written]
      · simp [State.resolve, filedBy, statusBy, resolvedBy, Dispute.written, hid, Ne.symm hid]
  | setVotingPeriod => simp [filedBy, statusBy, resolvedBy, Dispute.written]
  | role => simp [filedBy, statusBy, resolvedBy, Dispute.written]

/-- A call appends the evidence it submits and the vote it casts. -/
theorem Step.lists {b : Block} {s s' : State} {fn : Fn} {r : Option Nat}
    (h : Step b s a fn s' r) (id : Nat) :
    s'.evidence id = s.evidence id ++ (evidenceBy id ⟨b, ⟨a, fn⟩, r⟩).toList ∧
      s'.votes id = s.votes id ++ (voteBy id ⟨b, ⟨a, fn⟩, r⟩).toList := by
  cases h with
  | @submitEvidence target uri description unpaused status auth =>
      by_cases hid : target = id
      · subst hid
        simp [State.addEvidence, evidenceBy, voteBy]
      · simp [State.addEvidence, evidenceBy, voteBy, hid, Ne.symm hid]
  | @castVote target vote rationale role unpaused status fresh chosen =>
      by_cases hid : target = id
      · subst hid
        simp [State.addVote, evidenceBy, voteBy]
      · simp [State.addVote, evidenceBy, voteBy, hid, Ne.symm hid]
  | fileDispute => simp [State.file, evidenceBy, voteBy]
  | startDeliberation => simp [State.deliberate, evidenceBy, voteBy]
  | resolveDispute => simp [State.resolve, evidenceBy, voteBy]
  | setVotingPeriod => simp [evidenceBy, voteBy]
  | role => simp [evidenceBy, voteBy]

/-- The id a call filed. -/
def filedId (e : DisputeCall) : Option Nat :=
  match e.call.fn with
  | .fileDispute .. => e.result
  | _ => none

/-- **What the contract stores, against the history.** -/
structure RecordsMatch (l : DisputeLedger) : Prop where
  /-- The ids that were returned are `0, 1, 2, …` up to the counter. -/
  ids : l.history.filterMap filedId = List.range l.state.nextDisputeId
  /-- Every record is that of the history. -/
  record : ∀ id, l.state.disputes id = recordOf id l.history
  /-- The evidence on an id is what was submitted on it, in order. -/
  evidence : ∀ id, getEvidence l.state id = l.history.filterMap (evidenceBy id)
  /-- The votes on an id are those that were cast on it, in order. -/
  votes : ∀ id, getVotes l.state id = l.history.filterMap (voteBy id)

/-- **The records are the history**, after every run: filings, evidence, votes and resolutions by
whatever accounts in whatever order, the filings of the facade included. -/
theorem record_of_history (deployer : Account) (b : Block)
    (as : List (Ledger.Action (Message Fn))) (l : DisputeLedger)
    (hrun : run (Ledger.step exec) (Ledger.deployed b (deploy deployer)) as = some l) :
    RecordsMatch l := by
  refine Ledger.invariant (I := RecordsMatch) ?_ ?_ ?_ hrun
  · exact fun l b h _ => ⟨h.ids, h.record, h.evidence, h.votes⟩
  · rintro l ⟨a, fn⟩ s r h hc
    have hstep := exec_eq_ok.mp hc
    refine ⟨?_, fun id => ?_, fun id => ?_, fun id => ?_⟩
    · rw [Ledger.commit_history, filterMap_concat, h.ids]
      cases hstep with
      | fileDispute => exact List.range_succ.symm
      | _ => exact List.append_nil _
    · rw [Ledger.commit_state, Ledger.commit_history, hstep.record id]
      cases hfiled : filedBy id ⟨l.block, ⟨a, fn⟩, r⟩ with
      | none => rw [recordOf_concat hfiled, Option.getD_none, h.record]
      | some d =>
          rw [recordOf_concat_filed hfiled, Option.getD_some]
          -- a filing writes neither a status nor a resolution
          cases hstep with
          | fileDispute => rfl
          | _ => cases hfiled
    · rw [getEvidence, Ledger.commit_state, Ledger.commit_history, filterMap_concat,
        (hstep.lists id).1, ← h.evidence id, getEvidence]
    · rw [getVotes, Ledger.commit_state, Ledger.commit_history, filterMap_concat,
        (hstep.lists id).2, ← h.votes id, getVotes]
  · exact ⟨rfl, fun _ => rfl, fun _ => rfl, fun _ => rfl⟩

/-- The records of a run with evidence, a vote and a resolution. -/
theorem record_of_history_voteAndResolve : ∃ l : DisputeLedger,
    run (Ledger.step exec) (Ledger.deployed (blockAt 1 1) (deploy (acct 1))) voteAndResolve =
      some l ∧
    l.state.disputes 0 = ⟨0, 2, 3, [0x73], [], .resolved, .uphold, [0x6e], 1, 9, 0⟩ ∧
    RecordsMatch l := by
  obtain ⟨l, hrun, hrecord⟩ : ∃ l : DisputeLedger,
      run (Ledger.step exec) (Ledger.deployed (blockAt 1 1) (deploy (acct 1))) voteAndResolve =
        some l ∧
      l.state.disputes 0 = ⟨0, 2, 3, [0x73], [], .resolved, .uphold, [0x6e], 1, 9, 0⟩ :=
    ⟨_, rfl, rfl⟩
  exact ⟨l, hrun, hrecord, record_of_history (acct 1) (blockAt 1 1) voteAndResolve l hrun⟩

end ReputationPassport.DisputeResolutionDAO
