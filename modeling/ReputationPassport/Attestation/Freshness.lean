import ReputationPassport.Attestation.Record
import Mathlib.Data.Set.Card

/-! # When every attestation is its own record

The uid of an attestation stands for its content: sender, block and the concatenation of the three
variable fields. Two attestations of one content in one block therefore share a uid; the second
overwrites the record of the first and is counted again. `ownRecords_iff` shows that this is the
only way two attestations can meet. -/

namespace ReputationPassport.AttestationRegistry

open Evm Machine OpenZeppelin

/-- The uid a successful `attest` returned. -/
def issuedBy (e : Call) : Option Bytes32 :=
  match e.call.fn with
  | .attest .. => e.result
  | _ => none

/-- The uids that were returned by `attest`, in the order of the calls. -/
def issuedUids (history : List Call) : List Bytes32 := history.filterMap issuedBy

/-- The slot of the uid holds an attestation: `attest` stores its sender, which is never zero. -/
def Stored (s : State) (uid : Bytes32) : Prop := (getAttestation s uid).attester ≠ 0

/-- **Every attestation is its own record**: no uid was returned twice, the list of all uids has no
duplicates, and the count is the number of attestations that are stored. -/
structure OwnRecords (l : RegistryLedger) : Prop where
  issued : (issuedUids l.history).Nodup
  all : l.state.allAttestations.Nodup
  count : getAttestationCount l.state = {uid | Stored l.state uid}.ncard

/-- **An `attest` is fresh in this step**: the uid it returns was not returned before, and every
stored attestation stays as it is. -/
def FreshAttest (keccak256 : Bytes → Bytes32) (l : RegistryLedger)
    (a : Ledger.Action (Message Fn)) : Prop :=
  ∀ (m : Account) (subjectHash schema data : Bytes) (expirationTime : Nat) (s : State)
    (uid : Bytes32), a = .call ⟨m, .attest subjectHash schema data expirationTime⟩ →
    exec keccak256 l.block l.state ⟨m, .attest subjectHash schema data expirationTime⟩ =
      .ok (s, some uid) →
    ¬ Issued l.history uid ∧
      ∀ uid', Stored l.state uid' → getAttestation s uid' = getAttestation l.state uid'

/-- **The condition on a step**: an attester does not attest the same content twice in one block. -/
def NoRepeat (l : RegistryLedger) (a : Ledger.Action (Message Fn)) : Prop :=
  ∀ (m : Account) (subjectHash schema data : Bytes) (expirationTime : Nat),
    a = .call ⟨m, .attest subjectHash schema data expirationTime⟩ →
    l.state.roles attesterRole m = true →
    ∀ e ∈ l.history, ¬ SameContent e l.block m subjectHash schema data

/-! ## The uids that were returned -/

theorem issuedBy_eq_some {e : Call} {uid : Bytes32} : issuedBy e = some uid ↔ Issues e uid := by
  unfold issuedBy Issues
  constructor
  · intro h
    split at h
    · next hfn => exact ⟨⟨_, _, _, _, hfn⟩, h⟩
    · exact absurd h (by simp)
  · rintro ⟨⟨subjectHash, schema, data, expirationTime, hfn⟩, hres⟩
    rw [hfn]
    exact hres

theorem mem_issuedUids {history : List Call} {uid : Bytes32} :
    uid ∈ issuedUids history ↔ Issued history uid := by
  simp only [issuedUids, List.mem_filterMap, issuedBy_eq_some]
  rfl

theorem issuedUids_concat (history : List Call) (e : Call) :
    issuedUids (history ++ [e]) = issuedUids history ++ (issuedBy e).toList := by
  rw [issuedUids, List.filterMap_append]
  cases h : issuedBy e <;> simp [issuedUids, h]

variable {keccak256 : Bytes → Bytes32} {l l' : RegistryLedger}

/-- A call appends the uid it returned to the list of all uids. -/
theorem Step.allAttestations {b : Block} {s s' : State} {c : Message Fn} {r : Option Bytes32}
    (h : Step keccak256 b s c.sender c.fn s' r) :
    s'.allAttestations = s.allAttestations ++ (issuedBy ⟨b, c, r⟩).toList := by
  obtain ⟨a, fn⟩ := c
  cases h with
  | attest role unpaused => rfl
  | revoke unpaused auth standing => exact (List.append_nil _).symm
  | role ok => exact (List.append_nil _).symm

/-- **The bookkeeping of the registry**: the storage replays the history, and the list of all uids
is the list of those that were returned. -/
structure Listed (keccak256 : Bytes → Bytes32) (l : RegistryLedger) : Prop where
  replayed : Replayed keccak256 l
  all : l.state.allAttestations = issuedUids l.history

/-- The bookkeeping survives a step of the ledger. -/
theorem Listed.step {a : Ledger.Action (Message Fn)} (h : Listed keccak256 l)
    (hstep : Ledger.step (exec keccak256) l a = some l') : Listed keccak256 l' := by
  refine ⟨h.replayed.step hstep, ?_⟩
  rcases Ledger.step_cases hstep with ⟨b, -, -, rfl⟩ | ⟨c, s, r, -, hc, rfl⟩ | ⟨c, e, -, -, rfl⟩
  · exact h.all
  · rw [Ledger.commit_state, Ledger.commit_history, (exec_eq_ok.mp hc).allAttestations, h.all,
      issuedUids_concat]
  · exact h.all

theorem listed_deployed (deployer : Account) (b : Block) :
    Listed keccak256 (Ledger.deployed b (deploy deployer)) := ⟨replayed_deployed deployer b, rfl⟩

/-- The record of a uid that was issued carries a sender. -/
theorem attester_ne_zero_of_issued (history : List Call) (uid : Bytes32) :
    Issued history uid → (recordOf history uid).attester ≠ 0 := by
  refine recordOf_induction (P := fun history r => Issued history uid → r.attester ≠ 0)
    ?_ ?_ ?_ ?_ history
  · rintro ⟨e, he, -⟩
    exact absurd he List.not_mem_nil
  · intro history e subjectHash schema data expirationTime _ _ _
    exact e.call.sender.property
  · intro history e r hi _ ih h
    exact ih ((issued_concat.mp h).resolve_right hi)
  · intro history e r hi _ ih h
    exact ih ((issued_concat.mp h).resolve_right hi)

/-- The attestations that are stored are those that were issued. -/
theorem Listed.stored_iff (h : Listed keccak256 l) (uid : Bytes32) :
    Stored l.state uid ↔ Issued l.history uid := by
  rw [Stored, getAttestation, h.replayed.records]
  constructor
  · intro hstored
    obtain ⟨e, he, hissues, -⟩ := (attester_recordOf l.history uid).resolve_left hstored
    exact ⟨e, he, hissues⟩
  · intro hissued
    exact attester_ne_zero_of_issued l.history uid hissued

/-- The count of the registry is the number of calls that returned a uid. -/
theorem Listed.ownRecords_iff_nodup (h : Listed keccak256 l) :
    OwnRecords l ↔ (issuedUids l.history).Nodup := by
  constructor
  · exact OwnRecords.issued
  · intro hnodup
    refine ⟨hnodup, h.all ▸ hnodup, ?_⟩
    have hstored : {uid | Stored l.state uid} =
        ((issuedUids l.history).toFinset : Set Bytes32) := by
      ext uid
      rw [Set.mem_ofPred_eq, h.stored_iff, List.coe_toFinset, Set.mem_ofPred_eq, mem_issuedUids]
    rw [hstored, Set.ncard_coe_finset, List.toFinset_card_of_nodup hnodup, ← h.all]
    rfl

/-! ## Fresh uids -/

/-- A successful call that meets the condition returns no uid that was returned before, if the hash
has no collision among the strings hashed so far. -/
theorem Listed.not_issued {s : State} {c : Message Fn} {r : Option Bytes32}
    (h : Listed keccak256 l) (hinj : Set.InjOn keccak256 (hashed (l.commit s c r).history))
    (hC : NoRepeat l (.call c)) (hstep : Step keccak256 l.block l.state c.sender c.fn s r)
    {uid : Bytes32} (hi : Issues ⟨l.block, c, r⟩ uid) : ¬ Issued l.history uid := by
  rintro ⟨e, he, hold⟩
  have hequal := (h.replayed.commit hstep).hashedBy_eq hinj (List.mem_append_left _ he)
    (List.mem_append_right _ (List.mem_singleton_self _)) hold hi
  obtain ⟨m, fn⟩ := c
  obtain ⟨⟨subject, schema, data, expirationTime, hfn⟩, -⟩ := hi
  obtain rfl : fn = .attest subject schema data expirationTime := hfn
  cases hstep with
  | attest role unpaused =>
      exact hC m subject schema data expirationTime rfl role e he
        (hashedBy_eq_preimage_iff.mp hequal)

/-- A step that meets the condition keeps the records apart. -/
theorem Listed.nodup_step {a : Ledger.Action (Message Fn)} (h : Listed keccak256 l)
    (hnodup : (issuedUids l.history).Nodup) (hinj : Set.InjOn keccak256 (hashed l'.history))
    (hC : NoRepeat l a) (hstep : Ledger.step (exec keccak256) l a = some l') :
    (issuedUids l'.history).Nodup := by
  rcases Ledger.step_cases hstep with ⟨b, -, -, rfl⟩ | ⟨c, s, r, rfl, hc, rfl⟩ | ⟨c, e, -, -, rfl⟩
  · exact hnodup
  · rw [Ledger.commit_history, issuedUids_concat]
    cases hissued : issuedBy ⟨l.block, c, r⟩ with
    | none => rwa [Option.toList_none, List.append_nil]
    | some uid =>
        have hfresh := h.not_issued hinj hC (exec_eq_ok.mp hc) (issuedBy_eq_some.mp hissued)
        rw [Option.toList_some, ← List.concat_eq_append, List.nodup_concat, mem_issuedUids]
        exact ⟨hfresh, hnodup⟩
  · exact hnodup

/-- **A step that misses the condition returns a uid twice.** -/
theorem Listed.not_ownRecords_of_step {a : Ledger.Action (Message Fn)} (h : Listed keccak256 l)
    (hC : ¬ NoRepeat l a) :
    ∃ l', Ledger.step (exec keccak256) l a = some l' ∧ ¬ OwnRecords l' := by
  simp only [NoRepeat, not_forall, not_not] at hC
  obtain ⟨m, subject, schema, data, expirationTime, rfl, hrole, e, he, hsame⟩ := hC
  have hstep : Step keccak256 l.block l.state m (.attest subject schema data expirationTime) _ _ :=
    .attest hrole h.replayed.unpaused
  refine ⟨_, Ledger.step_call_ok (exec_eq_ok.mpr hstep), fun hown => ?_⟩
  -- the earlier call hashed the same bytes, so it returned the same uid
  have hold : Issues e (keccak256 (preimage l.block m subject schema data)) := by
    refine ⟨?_, ?_⟩
    · obtain ⟨-, -, s, c, d, x, hfn, -⟩ := hsame
      exact ⟨s, c, d, x, hfn⟩
    · rw [h.replayed.results e he, hashedBy_eq_preimage_iff.mpr hsame]
      rfl
  have hnodup := hown.issued
  rw [Ledger.commit_history, issuedUids_concat] at hnodup
  exact (List.nodup_concat _ _).mp (List.concat_eq_append ▸ hnodup) |>.1
    (mem_issuedUids.mpr ⟨e, he, hold⟩)

/-- Where no uid is returned twice, an `attest` is fresh. -/
theorem Listed.freshAttest {a : Ledger.Action (Message Fn)} (h : Listed keccak256 l)
    (hnext : ∀ l', Ledger.step (exec keccak256) l a = some l' → OwnRecords l') :
    FreshAttest keccak256 l a := by
  rintro m subject schema data expirationTime s uid rfl hok
  have hnodup := (hnext _ (Ledger.step_call_ok hok)).issued
  have hissues : issuedBy ⟨l.block, ⟨m, .attest subject schema data expirationTime⟩, some uid⟩ =
      some uid := rfl
  rw [Ledger.commit_history, issuedUids_concat, hissues, Option.toList_some,
    ← List.concat_eq_append, List.nodup_concat, mem_issuedUids] at hnodup
  refine ⟨hnodup.1, fun uid' hstored => ?_⟩
  have hne : uid' ≠ uid := by
    rintro rfl
    exact hnodup.1 ((h.stored_iff uid').mp hstored)
  -- the call writes under the uid it returned, and under no other
  have hother : ¬ Issues ⟨l.block, ⟨m, .attest subject schema data expirationTime⟩, some uid⟩
      uid' := fun hi => hne (Option.some.inj hi.2).symm
  exact ((exec_eq_ok.mp hok).replays uid').trans
    (replay_of_other hother fun hrevoke => Fn.noConfusion hrevoke)

/-- **Attestations are their own records exactly in the runs without a repetition.** In every run,
no uid is returned twice, no stored attestation is overwritten and the count is right in every
state, if and only if no attester attests the same content twice in one block. The hash is assumed
to have no collision among the strings the run hashes into uids. -/
theorem ownRecords_iff (keccak256 : Bytes → Bytes32) (deployer : Account) (b : Block)
    (as : List (Ledger.Action (Message Fn))) (l : RegistryLedger)
    (hrun : run (Ledger.step (exec keccak256)) (Ledger.deployed b (deploy deployer)) as = some l)
    (hinj : Set.InjOn keccak256 (hashed l.history)) :
    Always (Ledger.step (exec keccak256)) OwnRecords (Ledger.deployed b (deploy deployer)) as ∧
        Along (Ledger.step (exec keccak256)) (FreshAttest keccak256)
          (Ledger.deployed b (deploy deployer)) as ↔
      Along (Ledger.step (exec keccak256)) NoRepeat (Ledger.deployed b (deploy deployer)) as := by
  have hlisted : Listed keccak256 (Ledger.deployed b (deploy deployer)) :=
    listed_deployed deployer b
  have hexact : Always (Ledger.step (exec keccak256)) OwnRecords
        (Ledger.deployed b (deploy deployer)) as ↔
      Along (Ledger.step (exec keccak256)) NoRepeat (Ledger.deployed b (deploy deployer)) as := by
    refine always_iff_along_of
      (I := fun t : RegistryLedger => Listed keccak256 t ∧ (issuedUids t.history).Nodup)
      (H := fun t : RegistryLedger => t.history <+: l.history)
      (fun t ht => ht.1.ownRecords_iff_nodup.mpr ht.2) ?_
      (fun t a ht hC => ht.1.not_ownRecords_of_step hC) ⟨hlisted, List.nodup_nil⟩
      (Ledger.history_prefix_always hrun)
    rintro s a t ⟨hs, hnodup⟩ ht hC hstep
    exact ⟨hs.step hstep, hs.nodup_step hnodup (hinj.mono (hashed_mono ht)) hC hstep⟩
  refine ⟨fun h => hexact.mp h.1, fun h => ⟨hexact.mpr h, ?_⟩⟩
  exact along_of_always (fun _ _ _ hs hstep => Listed.step hs hstep)
    (fun _ _ hs _ hnext => hs.freshAttest hnext) hlisted (hexact.mpr h)

/-- Account `1` attests the same content in two blocks. -/
def attestTwice : List (Ledger.Action (Message Fn)) :=
  [.call ⟨acct 1, .attest [0x73] [] [] 0⟩, .mine (blockAt 13 2),
    .call ⟨acct 1, .attest [0x73] [] [] 0⟩]

/-- The equivalence for these two attestations. -/
theorem ownRecords_iff_attestTwice :
    Always (Ledger.step (exec sampleHash)) OwnRecords
          (Ledger.deployed (blockAt 1 1) (deploy (acct 1))) attestTwice ∧
        Along (Ledger.step (exec sampleHash)) (FreshAttest sampleHash)
          (Ledger.deployed (blockAt 1 1) (deploy (acct 1))) attestTwice ↔
      Along (Ledger.step (exec sampleHash)) NoRepeat
        (Ledger.deployed (blockAt 1 1) (deploy (acct 1))) attestTwice := by
  obtain ⟨l, hrun, hinj⟩ : ∃ l, run (Ledger.step (exec sampleHash))
      (Ledger.deployed (blockAt 1 1) (deploy (acct 1))) attestTwice = some l ∧
      Set.InjOn sampleHash (hashed l.history) := by
    refine ⟨_, rfl, ?_⟩
    exact injOn_hashed sampleHash (by decide)
  exact ownRecords_iff sampleHash (acct 1) (blockAt 1 1) attestTwice l hrun hinj

/-- **Two attestations with one record.** Account `1` attests the same subject twice in one block,
the second time with an expiration time: both calls return one uid, which is counted twice, and the
record of the first is overwritten. -/
theorem repeated_attestation_overwrites :
    ∃ l, run (Ledger.step (exec sampleHash)) (Ledger.deployed (blockAt 1 1) (deploy (acct 1)))
        [.call ⟨acct 1, .attest [0x73] [] [] 0⟩, .call ⟨acct 1, .attest [0x73] [] [] 9⟩] = some l ∧
      Set.InjOn sampleHash (hashed l.history) ∧
      l.state.allAttestations = [sampleUid, sampleUid] ∧ getAttestationCount l.state = 2 ∧
      (getAttestation l.state sampleUid).expirationTime = 9 ∧ ¬ OwnRecords l := by
  refine ⟨_, rfl, ?_, rfl, rfl, rfl, fun h => ?_⟩
  · -- the expiration time is not hashed, so the run hashes one string only
    rintro x ⟨e, he, hx⟩ y ⟨f, hf, hy⟩ -
    rcases List.mem_pair.mp he with rfl | rfl <;> rcases List.mem_pair.mp hf with rfl | rfl <;>
      exact Option.some.inj (hx.symm.trans hy)
  · exact absurd h.all (by decide)

end ReputationPassport.AttestationRegistry
