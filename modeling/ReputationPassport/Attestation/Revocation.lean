import ReputationPassport.Attestation.Record

/-! # When a revocation is permanent

`attest` writes a fresh record under its uid without asking whether there is one already. The uid
is a hash of the sender, the block and the content, so a later block cannot reproduce it, but a
second `attest` with the same content in the same block does: the record it writes is not revoked,
whatever happened to the first one. `permanent_iff` gives the exact condition under which a run
never undoes a revocation. -/

namespace ReputationPassport.AttestationRegistry

open Evm Machine OpenZeppelin

/-- **Revocations are permanent so far**: for each revocation in the history, the record is revoked,
it carries the time of that revocation, and no subject is verified at any time. -/
def Permanent (keccak256 : Bytes → Bytes32) (l : RegistryLedger) : Prop :=
  ∀ e ∈ l.history, ∀ uid, Revokes e uid →
    (getAttestation l.state uid).revoked = true ∧
    (getAttestation l.state uid).revocationTime = e.block.timestamp ∧
    ∀ b subjectHash, verifyAttestation keccak256 b l.state uid subjectHash = false

/-- **The condition on a step**: an attester does not attest, for any revoked uid, the content that
an earlier call of the same sender in the same block issued it for; nor, if the uid was revoked
without ever being issued, a content that hashes to it. -/
def NoReissue (keccak256 : Bytes → Bytes32) (l : RegistryLedger)
    (a : Ledger.Action (Message Fn)) : Prop :=
  ∀ (m : Account) (subjectHash schema data : Bytes) (expirationTime : Nat),
    a = .call ⟨m, .attest subjectHash schema data expirationTime⟩ →
    l.state.roles attesterRole m = true →
    ∀ uid, (getAttestation l.state uid).revoked = true →
      (∀ e ∈ l.history, Issues e uid → ¬ SameContent e l.block m subjectHash schema data) ∧
      (¬ Issued l.history uid → keccak256 (preimage l.block m subjectHash schema data) ≠ uid)

variable {keccak256 : Bytes → Bytes32} {l l' : RegistryLedger}

/-- A replayed record is revoked only by a call that revoked it. -/
theorem revokes_of_recordOf (history : List Call) (uid : Bytes32) :
    (recordOf history uid).revoked = true → ∃ e ∈ history, Revokes e uid := by
  refine recordOf_induction (P := fun history r =>
    r.revoked = true → ∃ e ∈ history, Revokes e uid) ?_ ?_ ?_ ?_ history
  · exact fun h => absurd h Bool.false_ne_true
  · exact fun _ _ _ _ _ _ _ _ h => absurd h Bool.false_ne_true
  · exact fun history e r _ hr _ _ =>
      ⟨e, List.mem_append_right _ (List.mem_singleton_self e), hr⟩
  · intro history e r _ _ ih h
    obtain ⟨f, hf, hrevokes⟩ := ih h
    exact ⟨f, List.mem_append_left _ hf, hrevokes⟩

/-! ## The invariant -/

/-- **The invariant**: the storage replays the history, and each revoked record stands as its
revocation left it. -/
structure Standing (keccak256 : Bytes → Bytes32) (l : RegistryLedger) : Prop where
  replayed : Replayed keccak256 l
  revoked : ∀ e ∈ l.history, ∀ uid, Revokes e uid →
    (recordOf l.history uid).revoked = true ∧
    (recordOf l.history uid).revocationTime = e.block.timestamp

theorem Standing.permanent (h : Standing keccak256 l) : Permanent keccak256 l := by
  intro e he uid hr
  obtain ⟨hrevoked, htime⟩ := h.revoked e he uid hr
  rw [← h.replayed.records] at hrevoked htime
  refine ⟨hrevoked, htime, fun b s => ?_⟩
  rw [Bool.eq_false_iff, Ne, verifyAttestation_eq_true, hrevoked]
  exact fun hfalse => Bool.noConfusion hfalse.1

/-- The uid a call issues is not revoked, if the call meets the condition and the hash has no
collision among the strings hashed so far. -/
theorem Standing.fresh {s : State} {c : Message Fn} {r : Option Bytes32}
    (h : Standing keccak256 l) (hinj : Set.InjOn keccak256 (hashed (l.commit s c r).history))
    (hC : NoReissue keccak256 l (.call c))
    (hstep : Step keccak256 l.block l.state c.sender c.fn s r) {uid : Bytes32}
    (hi : Issues ⟨l.block, c, r⟩ uid) : (recordOf l.history uid).revoked = false := by
  have hnext := h.replayed.commit hstep
  obtain ⟨m, fn⟩ := c
  obtain ⟨⟨subject, schema, data, expirationTime, hfn⟩, hres⟩ := id hi
  obtain rfl : fn = .attest subject schema data expirationTime := hfn
  by_contra hrevoked
  rw [Bool.not_eq_false, ← h.replayed.records] at hrevoked
  have hlast : (⟨l.block, ⟨m, .attest subject schema data expirationTime⟩, r⟩ : Call) ∈
      l.history ++ [⟨l.block, ⟨m, .attest subject schema data expirationTime⟩, r⟩] :=
    List.mem_append_right _ (List.mem_singleton_self _)
  cases hstep with
  | attest role unpaused =>
      obtain ⟨hsame, hfirst⟩ := hC m subject schema data expirationTime rfl role uid hrevoked
      by_cases hissued : Issued l.history uid
      · -- an earlier call issued the uid, so it hashed the same string
        obtain ⟨e, he, hissues⟩ := hissued
        have hequal := hnext.hashedBy_eq hinj (List.mem_append_left _ he) hlast hissues hi
        exact hsame e he hissues (hashedBy_eq_preimage_iff.mp hequal)
      · exact hfirst hissued (Option.some.inj hres)

/-- A successful call that meets the condition keeps the invariant. -/
theorem Standing.commit {s : State} {c : Message Fn} {r : Option Bytes32}
    (h : Standing keccak256 l) (hinj : Set.InjOn keccak256 (hashed (l.commit s c r).history))
    (hC : NoReissue keccak256 l (.call c))
    (hstep : Step keccak256 l.block l.state c.sender c.fn s r) :
    Standing keccak256 (l.commit s c r) where
  replayed := h.replayed.commit hstep
  revoked := by
    intro e he uid hr
    rw [Ledger.commit_history, List.mem_append, List.mem_singleton] at he
    rw [Ledger.commit_history, recordOf_concat]
    rcases he with he | rfl
    · -- an earlier revocation: this call neither issues nor revokes its uid
      obtain ⟨hrevoked, htime⟩ := h.revoked e he uid hr
      have hissues : ¬ Issues ⟨l.block, c, r⟩ uid := fun hi =>
        Bool.false_ne_true ((h.fresh hinj hC hstep hi).symm.trans hrevoked)
      have hrevokes : ¬ Revokes ⟨l.block, c, r⟩ uid := by
        -- a second revocation of a revoked record is refused
        intro hfn
        obtain ⟨m, fn⟩ := c
        obtain rfl : fn = .revoke uid := hfn
        cases hstep with
        | revoke unpaused auth standing =>
            rw [h.replayed.records, hrevoked] at standing
            exact Bool.noConfusion standing
      rw [replay_of_other hissues hrevokes]
      exact ⟨hrevoked, htime⟩
    · rw [replay_of_revokes hr]
      exact ⟨rfl, rfl⟩

/-- A step that meets the condition keeps the invariant. -/
theorem Standing.step {a : Ledger.Action (Message Fn)} (h : Standing keccak256 l)
    (hinj : Set.InjOn keccak256 (hashed l'.history)) (hC : NoReissue keccak256 l a)
    (hstep : Ledger.step (exec keccak256) l a = some l') : Standing keccak256 l' := by
  rcases Ledger.step_cases hstep with ⟨b, -, -, rfl⟩ | ⟨c, s, r, rfl, hc, rfl⟩ | ⟨c, e, -, -, rfl⟩
  · exact ⟨h.replayed.mine b, h.revoked⟩
  · exact h.commit hinj hC (exec_eq_ok.mp hc)
  · exact h

/-- **A step that misses the condition undoes a revocation.** -/
theorem Standing.not_permanent_of_step {a : Ledger.Action (Message Fn)}
    (h : Standing keccak256 l) (hC : ¬ NoReissue keccak256 l a) :
    ∃ l', Ledger.step (exec keccak256) l a = some l' ∧ ¬ Permanent keccak256 l' := by
  simp only [NoReissue, not_forall] at hC
  obtain ⟨m, subject, schema, data, expirationTime, rfl, hrole, uid, hrevoked, hC⟩ := hC
  have huid : keccak256 (preimage l.block m subject schema data) = uid := by
    rcases not_and_or.mp hC with hsame | hfirst
    · -- the same bytes were hashed before
      simp only [not_forall, not_not] at hsame
      obtain ⟨e, he, hissues, hsame⟩ := hsame
      obtain ⟨x, hx, hkey⟩ := h.replayed.uid_eq he hissues
      rw [hashedBy_eq_preimage_iff.mpr hsame] at hx
      rw [Option.some.inj hx, hkey]
    · simp only [not_forall, not_not] at hfirst
      exact hfirst.2
  have hstep : Step keccak256 l.block l.state m (.attest subject schema data expirationTime) _ _ :=
    .attest hrole h.replayed.unpaused
  refine ⟨_, Ledger.step_call_ok (exec_eq_ok.mpr hstep), fun hpermanent => ?_⟩
  rw [getAttestation, h.replayed.records] at hrevoked
  obtain ⟨e, he, hr⟩ := revokes_of_recordOf l.history uid hrevoked
  have hstill := (hpermanent e (List.mem_append_left _ he) uid hr).1
  -- the fresh record sits under the revoked uid
  have hkey : (newAttestation keccak256 l.block m subject schema data expirationTime).uid = uid :=
    huid
  rw [getAttestation, Ledger.commit_state, State.record_attestations, hkey,
    Function.update_self] at hstill
  exact Bool.false_ne_true hstill

theorem standing_deployed (deployer : Account) (b : Block) :
    Standing keccak256 (Ledger.deployed b (deploy deployer)) :=
  ⟨replayed_deployed deployer b, fun _ he => absurd he List.not_mem_nil⟩

/-- **Revocations are permanent exactly in the runs that never reissue a revoked uid.** The hash is
assumed to have no collision among the strings the run hashes into uids. -/
theorem permanent_iff (keccak256 : Bytes → Bytes32) (deployer : Account) (b : Block)
    (as : List (Ledger.Action (Message Fn))) (l : RegistryLedger)
    (hrun : run (Ledger.step (exec keccak256)) (Ledger.deployed b (deploy deployer)) as = some l)
    (hinj : Set.InjOn keccak256 (hashed l.history)) :
    Always (Ledger.step (exec keccak256)) (Permanent keccak256)
        (Ledger.deployed b (deploy deployer)) as ↔
      Along (Ledger.step (exec keccak256)) (NoReissue keccak256)
        (Ledger.deployed b (deploy deployer)) as := by
  refine always_iff_along_of (I := Standing keccak256)
    (H := fun t : RegistryLedger => t.history <+: l.history) (fun _ h => h.permanent) ?_
    (fun _ _ h hC => h.not_permanent_of_step hC) (standing_deployed deployer b)
    (Ledger.history_prefix_always hrun)
  intro s a t hs ht hC hstep
  -- what the run has hashed so far it has hashed at its end
  exact hs.step (hinj.mono (hashed_mono ht)) hC hstep

/-- Account `1` attests, revokes, and attests the same content in a later block. -/
def attestAgain : List (Ledger.Action (Message Fn)) :=
  [.call ⟨acct 1, .attest [0x73] [] [] 0⟩, .call ⟨acct 1, .revoke sampleUid⟩,
    .mine (blockAt 13 2), .call ⟨acct 1, .attest [0x73] [] [] 0⟩]

/-- The equivalence for a run that attests the same content in two blocks. -/
theorem permanent_iff_attestAgain :
    Always (Ledger.step (exec sampleHash)) (Permanent sampleHash)
        (Ledger.deployed (blockAt 1 1) (deploy (acct 1))) attestAgain ↔
      Along (Ledger.step (exec sampleHash)) (NoReissue sampleHash)
        (Ledger.deployed (blockAt 1 1) (deploy (acct 1))) attestAgain := by
  obtain ⟨l, hrun, hinj⟩ : ∃ l, run (Ledger.step (exec sampleHash))
      (Ledger.deployed (blockAt 1 1) (deploy (acct 1))) attestAgain = some l ∧
      Set.InjOn sampleHash (hashed l.history) := by
    refine ⟨_, rfl, ?_⟩
    exact injOn_hashed sampleHash (by decide)
  exact permanent_iff sampleHash (acct 1) (blockAt 1 1) attestAgain l hrun hinj

/-- **A revocation undone.** Account `1` attests, revokes, and attests the same content again in
the same block: the record is no longer revoked and its subject is verified. -/
theorem revocation_undone :
    ∃ l, run (Ledger.step (exec sampleHash)) (Ledger.deployed (blockAt 1 1) (deploy (acct 1)))
        [.call ⟨acct 1, .attest [0x73] [] [] 0⟩, .call ⟨acct 1, .revoke sampleUid⟩,
          .call ⟨acct 1, .attest [0x73] [] [] 0⟩] = some l ∧
      (getAttestation l.state sampleUid).revoked = false ∧
      verifyAttestation sampleHash l.block l.state sampleUid [0x73] = true ∧
      ¬ Permanent sampleHash l := by
  refine ⟨_, rfl, rfl, rfl, fun h => ?_⟩
  have hstill := (h _ (List.mem_cons_of_mem _ List.mem_cons_self) _ rfl).1
  exact Bool.false_ne_true hstill

end ReputationPassport.AttestationRegistry
