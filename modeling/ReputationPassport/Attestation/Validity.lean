import ReputationPassport.Attestation.Record

/-! # What `verifyAttestation` accepts

An attestation is valid when its uid was issued for the subject, it has not been revoked since, and
it has not expired. For an issued uid `verifyAttestation` decides exactly this. For a uid that was
never issued it reads the empty record, which is neither revoked nor expired, and accepts it for
the empty subject; and an admin can revoke that empty record. `exactValidity_iff` shows that this is
the whole difference. -/

namespace ReputationPassport.AttestationRegistry

open Evm Machine OpenZeppelin

/-- **A valid attestation** at the time `now`, read off the history: the call that last issued the
uid named the subject, no later call revoked it, and its expiration time is `0` or not past. -/
def Valid (history : List Call) (uid : Bytes32) (subjectHash : Bytes) (now : Nat) : Prop :=
  ∃ pre e post schema data expirationTime, history = pre ++ e :: post ∧
    e.call.fn = .attest subjectHash schema data expirationTime ∧ e.result = some uid ∧
    (∀ f ∈ post, ¬ Issues f uid ∧ ¬ Revokes f uid) ∧ (expirationTime = 0 ∨ now ≤ expirationTime)

/-- The subjects the calls of a history named. -/
def subjects (history : List Call) : Set Bytes :=
  {subjectHash | ∃ e ∈ history, ∃ schema data expirationTime,
    e.call.fn = .attest subjectHash schema data expirationTime}

/-- **Validity of a uid is exact**, for the subjects in `S`: at every block time the verdict of
`verifyAttestation` is validity; and a uid that was never issued is inert, so that no subject is
verified and nobody can revoke it. -/
structure ExactValidity (keccak256 : Bytes → Bytes32) (S : Set Bytes) (l : RegistryLedger)
    (uid : Bytes32) : Prop where
  verdict : ∀ (b : Block), ∀ subjectHash ∈ S,
    verifyAttestation keccak256 b l.state uid subjectHash = true ↔
      Valid l.history uid subjectHash b.timestamp
  inert : ¬ Issued l.history uid →
    (∀ (b : Block), ∀ subjectHash ∈ S,
      verifyAttestation keccak256 b l.state uid subjectHash = false) ∧
    ∀ (b : Block) (a : Account), ∃ e, exec keccak256 b l.state ⟨a, .revoke uid⟩ = .error e

/-! ## Validity and the replayed record -/

theorem not_valid_nil {uid : Bytes32} {subjectHash : Bytes} {now : Nat} :
    ¬ Valid [] uid subjectHash now := by
  rintro ⟨pre, e, post, _, _, _, h, -⟩
  exact List.append_ne_nil_of_right_ne_nil pre (List.cons_ne_nil e post) h.symm

/-- Validity after one more call: the call issued the uid, or it left the uid alone. -/
theorem valid_concat {history : List Call} {e : Call} {uid : Bytes32} {subjectHash : Bytes}
    {now : Nat} :
    Valid (history ++ [e]) uid subjectHash now ↔
      (∃ schema data expirationTime, e.call.fn = .attest subjectHash schema data expirationTime ∧
        e.result = some uid ∧ (expirationTime = 0 ∨ now ≤ expirationTime)) ∨
      ¬ Issues e uid ∧ ¬ Revokes e uid ∧ Valid history uid subjectHash now := by
  constructor
  · rintro ⟨pre, f, post, schema, data, expirationTime, h, hfn, hres, hpost, hexp⟩
    rcases List.eq_nil_or_concat post with rfl | ⟨post, g, rfl⟩
    · -- the issuing call is the last one
      obtain ⟨-, hlast⟩ := List.append_inj' h rfl
      obtain rfl := List.singleton_inj.mp hlast
      exact Or.inl ⟨schema, data, expirationTime, hfn, hres, hexp⟩
    · -- it is an earlier one, and the last call left the uid alone
      rw [List.concat_eq_append, ← List.cons_append, ← List.append_assoc] at h
      rw [List.concat_eq_append] at hpost
      obtain ⟨rfl, hlast⟩ := List.append_inj' h rfl
      obtain rfl := List.singleton_inj.mp hlast
      obtain ⟨hi, hr⟩ := hpost e (List.mem_append_right _ (List.mem_singleton_self e))
      refine Or.inr ⟨hi, hr, pre, f, post, schema, data, expirationTime, rfl, hfn, hres, ?_, hexp⟩
      exact fun k hk => hpost k (List.mem_append_left _ hk)
  · rintro (⟨schema, data, expirationTime, hfn, hres, hexp⟩ | ⟨hi, hr, hvalid⟩)
    · exact ⟨history, e, [], schema, data, expirationTime, rfl, hfn, hres,
        fun f hf => absurd hf List.not_mem_nil, hexp⟩
    · obtain ⟨pre, f, post, schema, data, expirationTime, rfl, hfn, hres, hpost, hexp⟩ := hvalid
      refine ⟨pre, f, post ++ [e], schema, data, expirationTime, by simp, hfn, hres, ?_, hexp⟩
      intro k hk
      rcases List.mem_append.mp hk with hk | hk
      · exact hpost k hk
      · rw [List.mem_singleton.mp hk]
        exact ⟨hi, hr⟩

/-- **Validity is a property of the replayed record**, and of the uid having been issued. -/
theorem valid_iff (history : List Call) (uid : Bytes32) (subjectHash : Bytes) (now : Nat) :
    Valid history uid subjectHash now ↔
      Issued history uid ∧ (recordOf history uid).revoked = false ∧
      ((recordOf history uid).expirationTime = 0 ∨
        now ≤ (recordOf history uid).expirationTime) ∧
      (recordOf history uid).subjectHash = subjectHash := by
  refine recordOf_induction (P := fun history r => Valid history uid subjectHash now ↔
    Issued history uid ∧ r.revoked = false ∧
      (r.expirationTime = 0 ∨ now ≤ r.expirationTime) ∧ r.subjectHash = subjectHash)
    ?_ ?_ ?_ ?_ history
  · -- no call yet
    refine iff_of_false not_valid_nil ?_
    rintro ⟨⟨e, he, -⟩, -⟩
    exact absurd he List.not_mem_nil
  · intro history e subject schema data expirationTime hfn hres
    -- a fresh record: what was valid before no longer matters
    have hi : Issues e uid := ⟨⟨_, _, _, _, hfn⟩, hres⟩
    rw [valid_concat, issued_concat]
    simp only [hi, hfn, hres, Fn.attest.injEq, not_true_eq_false, false_and, or_false, or_true,
      true_and]
    constructor
    · rintro ⟨_, _, _, ⟨rfl, rfl, rfl, rfl⟩, hexp⟩
      exact ⟨hexp, rfl⟩
    · rintro ⟨hexp, rfl⟩
      exact ⟨schema, data, expirationTime, ⟨rfl, rfl, rfl, rfl⟩, hexp⟩
  · -- a revoked record is not valid, and a revocation issues nothing
    intro history e r _ hr _
    refine iff_of_false (fun hvalid => ?_) fun hstanding => Bool.noConfusion hstanding.2.1
    rcases valid_concat.mp hvalid with ⟨_, _, _, hfn, -⟩ | ⟨-, hr', -⟩
    · exact Fn.noConfusion (hfn.symm.trans hr)
    · exact hr' hr
  · intro history e r hi hr ih
    have hnew : ¬ ∃ schema data expirationTime,
        e.call.fn = .attest subjectHash schema data expirationTime ∧ e.result = some uid ∧
          (expirationTime = 0 ∨ now ≤ expirationTime) := by
      rintro ⟨_, _, _, hfn, hres, -⟩
      exact hi ⟨⟨_, _, _, _, hfn⟩, hres⟩
    rw [valid_concat, issued_concat, ih]
    simp only [hnew, hi, hr, not_false_eq_true, true_and, false_or, or_false]

/-- Until a uid is issued its record is empty but for the revocation. -/
theorem recordOf_of_not_issued (history : List Call) (uid : Bytes32) :
    ¬ Issued history uid → recordOf history uid =
      { (default : Attestation) with
        revoked := (recordOf history uid).revoked
        revocationTime := (recordOf history uid).revocationTime } := by
  refine recordOf_induction (P := fun history r => ¬ Issued history uid →
    r = { (default : Attestation) with
      revoked := r.revoked, revocationTime := r.revocationTime }) ?_ ?_ ?_ ?_ history
  · exact fun _ => rfl
  · intro history e subject schema data expirationTime hfn hres h
    exact absurd (issued_concat.mpr (Or.inr ⟨⟨_, _, _, _, hfn⟩, hres⟩)) h
  · intro history e r _ _ ih h
    have hempty := ih fun hissued => h (issued_concat.mpr (Or.inl hissued))
    rw [Attestation.revokeAt, hempty]
  · exact fun history e r _ _ ih h => ih fun hissued => h (issued_concat.mpr (Or.inl hissued))

/-- The subject of a replayed record is empty or was named by a call. -/
theorem subjectHash_recordOf (history : List Call) (uid : Bytes32) :
    (recordOf history uid).subjectHash ∈ insert [] (subjects history) := by
  have hlater : ∀ (history : List Call) (e : Call),
      insert [] (subjects history) ⊆ insert [] (subjects (history ++ [e])) := by
    refine fun history e => Set.insert_subset_insert ?_
    rintro s ⟨f, hf, hs⟩
    exact ⟨f, List.mem_append_left _ hf, hs⟩
  refine recordOf_induction (P := fun history r =>
    r.subjectHash ∈ insert [] (subjects history)) ?_ ?_ ?_ ?_ history
  · exact Set.mem_insert _ _
  · intro history e subject schema data expirationTime hfn _
    exact Set.mem_insert_of_mem _
      ⟨e, List.mem_append_right _ (List.mem_singleton_self e), _, _, _, hfn⟩
  · exact fun history e r _ _ ih => hlater history e ih
  · exact fun history e r _ _ ih => hlater history e ih

/-! ## The verdict -/

section

variable {keccak256 : Bytes → Bytes32} {l : RegistryLedger} {S : Set Bytes}

/-- **The verdict on a subject** is validity, but for the clause that the uid was issued. -/
theorem Replayed.verifyAttestation_iff (h : Replayed keccak256 l) (hS : Set.InjOn keccak256 S)
    (hsub : insert [] (subjects l.history) ⊆ S) (b : Block) (uid : Bytes32) {subjectHash : Bytes}
    (hmem : subjectHash ∈ S) :
    verifyAttestation keccak256 b l.state uid subjectHash = true ↔
      (recordOf l.history uid).revoked = false ∧
      ((recordOf l.history uid).expirationTime = 0 ∨
        b.timestamp ≤ (recordOf l.history uid).expirationTime) ∧
      (recordOf l.history uid).subjectHash = subjectHash := by
  rw [verifyAttestation_eq_true, h.records]
  rw [hS.eq_iff (hsub (subjectHash_recordOf l.history uid)) hmem]

/-- A revoked record cannot be revoked by anybody. -/
theorem revoke_error {uid : Bytes32}
    (hrevoked : (l.state.attestations uid).revoked = true) (b : Block) (a : Account) :
    ∃ e, exec keccak256 b l.state ⟨a, .revoke uid⟩ = .error e := by
  rw [isError_iff]
  rintro ⟨s, r⟩ hok
  cases exec_eq_ok.mp hok with
  | revoke unpaused auth standing => exact Bool.false_ne_true (standing.symm.trans hrevoked)

end

/-- **The verdict is exact for the uids that were issued.** After every run, and for every uid:
validity of the uid is exact if and only if it was issued, or its empty record has been revoked
beforehand. The hash is assumed to have no collision among the subjects in `S`, which are those
named in the run, the empty one, and any others one may ask about. -/
theorem exactValidity_iff (keccak256 : Bytes → Bytes32) (deployer : Account) (b : Block)
    (as : List (Ledger.Action (Message Fn))) (l : RegistryLedger)
    (hrun : run (Ledger.step (exec keccak256)) (Ledger.deployed b (deploy deployer)) as = some l)
    (S : Set Bytes) (hS : Set.InjOn keccak256 S) (hsub : insert [] (subjects l.history) ⊆ S)
    (uid : Bytes32) :
    ExactValidity keccak256 S l uid ↔
      Issued l.history uid ∨ (getAttestation l.state uid).revoked = true := by
  have hl := replayed_run hrun
  have hverdict := fun (b : Block) {s : Bytes} (hs : s ∈ S) =>
    hl.verifyAttestation_iff hS hsub b uid hs
  constructor
  · intro h
    by_contra hcon
    obtain ⟨hissued, hstanding⟩ := not_or.mp hcon
    rw [Bool.not_eq_true, getAttestation, hl.records] at hstanding
    have hempty : [] ∈ S := hsub (Set.mem_insert [] _)
    -- the empty record is accepted for the empty subject
    have haccept : verifyAttestation keccak256 b l.state uid [] = true := by
      rw [hverdict b hempty, recordOf_of_not_issued _ _ hissued]
      exact ⟨hstanding, Or.inl rfl, rfl⟩
    exact Bool.false_ne_true (((h.inert hissued).1 b [] hempty).symm.trans haccept)
  · intro h
    refine ⟨fun b' s hs => ?_, fun hissued => ?_⟩
    · -- the verdict is validity without the clause that the uid was issued
      rw [hverdict b' hs, valid_iff]
      rcases h with hissued | hrevoked
      · rw [and_iff_right hissued]
      · rw [getAttestation, hl.records] at hrevoked
        simp [hrevoked]
    · have hrevoked := h.resolve_left hissued
      refine ⟨fun b' s hs => ?_, revoke_error hrevoked⟩
      rw [getAttestation, hl.records] at hrevoked
      rw [Bool.eq_false_iff, Ne, hverdict b' hs, hrevoked]
      exact fun hfalse => Bool.noConfusion hfalse.1

/-- The equivalence for a uid that was issued. -/
theorem exactValidity_iff_after_attest :
    ∃ l, run (Ledger.step (exec sampleHash)) (Ledger.deployed (blockAt 1 1) (deploy (acct 1)))
        [.call ⟨acct 1, .attest [0x73] [] [] 0⟩] = some l ∧
      (ExactValidity sampleHash {[], [0x73]} l sampleUid ↔
        Issued l.history sampleUid ∨ (getAttestation l.state sampleUid).revoked = true) := by
  refine ⟨_, rfl, exactValidity_iff sampleHash (acct 1) (blockAt 1 1)
    [.call ⟨acct 1, .attest [0x73] [] [] 0⟩] _ rfl {[], [0x73]} ?_ ?_ sampleUid⟩
  · rintro x (rfl | rfl) y (rfl | rfl) h
    · rfl
    · exact absurd h (by decide)
    · exact absurd h (by decide)
    · rfl
  · rintro x (rfl | ⟨e, he, _, _, _, hfn⟩)
    · exact Or.inl rfl
    · rw [List.mem_singleton.mp he] at hfn
      exact Or.inr (Fn.attest.inj hfn).1.symm

/-- **A uid that was never issued is accepted, and can be revoked.** Right after deployment
`verifyAttestation` accepts the uid `1` for the empty subject, and the admin can revoke it. -/
theorem unissued_uid_not_inert :
    verifyAttestation sampleHash (blockAt 1 1) (deploy (acct 1)) 1 [] = true ∧
      (∃ s, exec sampleHash (blockAt 1 1) (deploy (acct 1)) ⟨acct 1, .revoke 1⟩ = .ok (s, none)) ∧
      ¬ ExactValidity sampleHash {[]} (Ledger.deployed (blockAt 1 1) (deploy (acct 1))) 1 := by
  refine ⟨rfl, ⟨_, rfl⟩, fun h => ?_⟩
  have hissued : ¬ Issued [] 1 := fun ⟨e, he, _⟩ => absurd he List.not_mem_nil
  exact Bool.false_ne_true ((h.inert hissued).1 (blockAt 1 1) [] rfl).symm

end ReputationPassport.AttestationRegistry
