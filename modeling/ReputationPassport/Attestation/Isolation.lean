import ReputationPassport.Attestation.Record

/-! # Who can change an attestation

The uid of an attestation is a hash in which the sender and the block stand at fixed places, so
another account, or the same one in another block, cannot attest under it: `attest` never collides
across senders or block numbers. What remains is `revoke`, open to the attester and to admins. -/

namespace ReputationPassport.AttestationRegistry

open Evm Machine OpenZeppelin

/-- **The attester of a record is isolated from the call** `c` that takes the ledger from `l` to
`l'`. -/
structure AttesterIsolated (l l' : RegistryLedger) (c : Message Fn) : Prop where
  /-- An account other than the attester that is not an admin leaves the record as it is. -/
  others : ∀ (uid : Bytes32) (a : Account), (getAttestation l.state uid).attester = a →
    c.sender ≠ a → l.state.roles defaultAdminRole c.sender = false →
    getAttestation l'.state uid = getAttestation l.state uid
  /-- An admin other than the attester changes only the revocation, and only by `revoke`. -/
  admins : ∀ (uid : Bytes32) (a : Account), (getAttestation l.state uid).attester = a →
    c.sender ≠ a → l.state.roles defaultAdminRole c.sender = true →
    (∃ revoked revocationTime, getAttestation l'.state uid =
      { getAttestation l.state uid with revoked, revocationTime }) ∧
    (getAttestation l'.state uid ≠ getAttestation l.state uid → c.fn = .revoke uid)
  /-- An `attest` in a block with another number than the one the uid was issued in leaves the
  record as it is, whoever calls it. -/
  otherBlocks : ∀ e ∈ l.history, ∀ uid, Issues e uid → e.block.number ≠ l.block.number →
    (∃ subjectHash schema data expirationTime,
      c.fn = .attest subjectHash schema data expirationTime) →
    getAttestation l'.state uid = getAttestation l.state uid

variable {keccak256 : Bytes → Bytes32} {l : RegistryLedger} {s : State} {c : Message Fn}
  {r : Option Bytes32}

/-- A call that issues a uid again has the sender and the block of the call that issued it
before. -/
theorem Replayed.same_origin (h : Replayed keccak256 l)
    (hinj : Set.InjOn keccak256 (hashed (l.commit s c r).history))
    (hstep : Step keccak256 l.block l.state c.sender c.fn s r) {e : Call} {uid : Bytes32}
    (he : e ∈ l.history) (hold : Issues e uid) (hnew : Issues ⟨l.block, c, r⟩ uid) :
    e.block = l.block ∧ e.call.sender = c.sender := by
  have hequal := (h.commit hstep).hashedBy_eq hinj (List.mem_append_left _ he)
    (List.mem_append_right _ (List.mem_singleton_self _)) hold hnew
  obtain ⟨⟨subject, schema, data, expirationTime, hfn⟩, -⟩ := hnew
  have hpreimage : hashedBy ⟨l.block, c, r⟩ =
      some (preimage l.block c.sender subject schema data) := by
    unfold hashedBy
    rw [hfn]
  rw [hpreimage] at hequal
  obtain ⟨hblock, hsender, -⟩ := hashedBy_eq_preimage_iff.mp hequal
  exact ⟨hblock, hsender⟩

/-- **What a call does to the record of another account**: nothing, or an admin revokes it. -/
theorem Replayed.foreign_call (h : Replayed keccak256 l)
    (hinj : Set.InjOn keccak256 (hashed (l.commit s c r).history))
    (hstep : Step keccak256 l.block l.state c.sender c.fn s r) {uid : Bytes32} {a : Account}
    (ha : (getAttestation l.state uid).attester = a) (hne : c.sender ≠ a) :
    s.attestations uid = l.state.attestations uid ∨
      l.state.roles defaultAdminRole c.sender = true ∧ c.fn = .revoke uid ∧
        s.attestations uid = (l.state.attestations uid).revokeAt l.block.timestamp := by
  rw [hstep.replays]
  by_cases hi : Issues ⟨l.block, c, r⟩ uid
  · -- the attester issued the uid, so the caller would be the attester
    have hattester := attester_recordOf l.history uid
    rw [← h.records, show (l.state.attestations uid).attester = a from ha] at hattester
    obtain ⟨e, he, hold, hsender⟩ := hattester.resolve_left a.property
    have hsame := (h.same_origin hinj hstep he hold hi).2
    exact absurd (hsame.symm.trans (Subtype.ext hsender.symm)) hne
  · by_cases hr : Revokes ⟨l.block, c, r⟩ uid
    · rw [replay_of_revokes hr]
      have hfn : c.fn = .revoke uid := hr
      rw [hfn] at hstep
      cases hstep with
      | revoke unpaused auth standing =>
          -- `revoke` lets the attester and admins pass, and the caller is not the attester
          refine Or.inr ⟨auth.resolve_left fun hown => hne ?_, hfn, rfl⟩
          exact Subtype.ext (hown.symm.trans ha)
    · rw [replay_of_other hi hr]
      exact Or.inl rfl

/-- A successful call isolates the attesters of all other accounts. -/
theorem Replayed.isolated (h : Replayed keccak256 l)
    (hinj : Set.InjOn keccak256 (hashed (l.commit s c r).history))
    (hstep : Step keccak256 l.block l.state c.sender c.fn s r) :
    AttesterIsolated l (l.commit s c r) c where
  others uid a ha hne hadmin := by
    rcases h.foreign_call hinj hstep ha hne with hsame | ⟨hrole, -⟩
    · exact hsame
    · exact absurd (hadmin.symm.trans hrole) Bool.false_ne_true
  admins uid a ha hne _ := by
    rcases h.foreign_call hinj hstep ha hne with hsame | ⟨-, hfn, hrevoked⟩
    · exact ⟨⟨_, _, hsame⟩, fun hchange => absurd hsame hchange⟩
    · exact ⟨⟨true, l.block.timestamp, hrevoked⟩, fun _ => hfn⟩
  otherBlocks e he uid hold hnumber hattest := by
    have hi : ¬ Issues ⟨l.block, c, r⟩ uid := fun hnew =>
      hnumber (congrArg Block.number (h.same_origin hinj hstep he hold hnew).1)
    have hr : ¬ Revokes ⟨l.block, c, r⟩ uid := by
      obtain ⟨_, _, _, _, hfn⟩ := hattest
      intro hrevoke
      exact Fn.noConfusion (hfn.symm.trans hrevoke)
    exact (hstep.replays uid).trans (replay_of_other hi hr)

/-- A call that changes nothing isolates every attester. -/
theorem attesterIsolated_refl (l : RegistryLedger) (c : Message Fn) : AttesterIsolated l l c where
  others _ _ _ _ _ := rfl
  admins _ _ _ _ _ := ⟨⟨_, _, rfl⟩, fun hchange => absurd rfl hchange⟩
  otherBlocks _ _ _ _ _ _ := rfl

/-- **Attester isolation.** In every reachable state, every call isolates the attester of every
record from all other accounts, and every record from attestations in other blocks. The hash is
assumed to have no collision among the strings hashed into uids, by the run and by this call. -/
theorem attester_isolation (keccak256 : Bytes → Bytes32) (deployer : Account) (b : Block)
    (as : List (Ledger.Action (Message Fn))) (l l' : RegistryLedger) (c : Message Fn)
    (hrun : run (Ledger.step (exec keccak256)) (Ledger.deployed b (deploy deployer)) as = some l)
    (hcall : Ledger.step (exec keccak256) l (.call c) = some l')
    (hinj : Set.InjOn keccak256 (hashed l'.history)) : AttesterIsolated l l' c := by
  have hl := replayed_run hrun
  rcases Ledger.step_cases hcall with ⟨b, hb, -⟩ | ⟨c', s, r, hc', hc, rfl⟩ | ⟨c', e, hc', -, rfl⟩
  · cases hb
  · obtain rfl := Ledger.Action.call.inj hc'
    exact hl.isolated hinj (exec_eq_ok.mp hc)
  · exact attesterIsolated_refl _ c

/-- Account `1` makes account `2` an attester and attests. -/
def attestByFirst : List (Ledger.Action (Message Fn)) :=
  [.call ⟨acct 1, .role (.grantRole attesterRole 2)⟩, .call ⟨acct 1, .attest [0x73] [] [] 0⟩]

/-- The isolation of the attestation by account `1` from one by account `2` with the same content
in the same block. -/
theorem attester_isolation_second_attester :
    ∃ l l', run (Ledger.step (exec sampleHash))
        (Ledger.deployed (blockAt 1 1) (deploy (acct 1))) attestByFirst = some l ∧
      Ledger.step (exec sampleHash) l (.call ⟨acct 2, .attest [0x73] [] [] 0⟩) = some l' ∧
      (getAttestation l.state sampleUid).attester = 1 ∧
      AttesterIsolated l l' ⟨acct 2, .attest [0x73] [] [] 0⟩ := by
  obtain ⟨l, l', hrun, hcall, hattester, hinj⟩ : ∃ l l', run (Ledger.step (exec sampleHash))
        (Ledger.deployed (blockAt 1 1) (deploy (acct 1))) attestByFirst = some l ∧
      Ledger.step (exec sampleHash) l (.call ⟨acct 2, .attest [0x73] [] [] 0⟩) = some l' ∧
      (getAttestation l.state sampleUid).attester = 1 ∧
      Set.InjOn sampleHash (hashed l'.history) := by
    refine ⟨_, _, rfl, rfl, rfl, ?_⟩
    exact injOn_hashed sampleHash (by decide)
  exact ⟨l, l', hrun, hcall, hattester,
    attester_isolation sampleHash (acct 1) (blockAt 1 1) attestByFirst l l' _ hrun hcall hinj⟩

end ReputationPassport.AttestationRegistry
