import ReputationPassport.Attestation.Registry
import Mathlib.Data.List.Nodup
import Mathlib.Data.Set.Function

/-! # Records as replays of the history

What the registry stores under a uid is determined by the calls that named it: an `attest` that
returned the uid writes a fresh record, a `revoke` marks the record it finds. `recordOf` replays a
history under this description, which knows nothing of storage, and `replayed_run` says that after
every run the storage agrees with it. -/

namespace ReputationPassport.AttestationRegistry

open Evm Machine OpenZeppelin

/-- The ledger of the registry. -/
abbrev RegistryLedger : Type := Ledger State (Message Fn) (Option Bytes32)

/-- A successful call of the registry. -/
abbrev Call : Type := Entry (Message Fn) (Option Bytes32)

/-- A successful `attest` that returned the uid. -/
def Issues (e : Call) (uid : Bytes32) : Prop :=
  (∃ subjectHash schema data expirationTime,
    e.call.fn = .attest subjectHash schema data expirationTime) ∧ e.result = some uid

/-- A successful `revoke` of the uid. -/
def Revokes (e : Call) (uid : Bytes32) : Prop := e.call.fn = .revoke uid

/-- Some call of the history issued the uid. -/
def Issued (history : List Call) (uid : Bytes32) : Prop := ∃ e ∈ history, Issues e uid

/-- The bytes a call hashed into a uid. -/
def hashedBy (e : Call) : Option Bytes :=
  match e.call.fn with
  | .attest subjectHash schema data _ =>
      some (preimage e.block e.call.sender subjectHash schema data)
  | _ => none

/-- The call attested the same content for the same sender in the given block: the three variable
fields may be cut differently. -/
def SameContent (e : Call) (b : Block) (sender : Account) (subjectHash schema data : Bytes) :
    Prop :=
  e.block = b ∧ e.call.sender = sender ∧ ∃ subjectHash' schema' data' expirationTime',
    e.call.fn = .attest subjectHash' schema' data' expirationTime' ∧
    subjectHash' ++ schema' ++ data' = subjectHash ++ schema ++ data

/-- The bytes the calls of a history hashed into uids. -/
def hashed (history : List Call) : Set Bytes := {m | ∃ e ∈ history, hashedBy e = some m}

/-- The effect of a call on the record of a uid. -/
def replay (uid : Bytes32) (r : Attestation) (e : Call) : Attestation :=
  match e.call.fn, e.result with
  | .attest subjectHash schema data expirationTime, some uid' =>
      if uid' = uid then
        ⟨uid, e.call.sender, subjectHash, schema, data, expirationTime, 0, false⟩
      else r
  | .revoke uid', _ => if uid' = uid then r.revokeAt e.block.timestamp else r
  | _, _ => r

/-- The record of a uid after a history, replayed from the empty record. -/
def recordOf (history : List Call) (uid : Bytes32) : Attestation :=
  history.foldl (replay uid) default

theorem recordOf_concat (history : List Call) (e : Call) (uid : Bytes32) :
    recordOf (history ++ [e]) uid = replay uid (recordOf history uid) e := by
  rw [recordOf, List.foldl_append]
  rfl

theorem issued_concat {history : List Call} {e : Call} {uid : Bytes32} :
    Issued (history ++ [e]) uid ↔ Issued history uid ∨ Issues e uid := by
  simp [Issued, or_and_right, exists_or]

theorem hashed_mono {history history' : List Call} (h : history <+: history') :
    hashed history ⊆ hashed history' := by
  rintro m ⟨e, he, hm⟩
  exact ⟨e, h.subset he, hm⟩

/-- A hash has no collision among the strings of a history if it tells them apart one by one. -/
theorem injOn_hashed {history : List Call} (keccak256 : Bytes → Bytes32)
    (h : ((history.filterMap hashedBy).map keccak256).Nodup) :
    Set.InjOn keccak256 (hashed history) := by
  rintro x ⟨e, he, hx⟩ y ⟨f, hf, hy⟩ hxy
  exact List.inj_on_of_nodup_map h (List.mem_filterMap.mpr ⟨e, he, hx⟩)
    (List.mem_filterMap.mpr ⟨f, hf, hy⟩) hxy

theorem hashedBy_eq_preimage_iff {e : Call} {b : Block} {m : Account}
    {subjectHash schema data : Bytes} :
    hashedBy e = some (preimage b m subjectHash schema data) ↔
      SameContent e b m subjectHash schema data := by
  unfold hashedBy
  constructor
  · intro h
    split at h
    · next s c d x hfn =>
      obtain ⟨hblock, hsender, hbody⟩ := preimage_inj.mp (Option.some.inj h)
      exact ⟨hblock, hsender, s, c, d, x, hfn, hbody⟩
    · exact absurd h (by simp)
  · rintro ⟨hblock, hsender, s, c, d, x, hfn, hbody⟩
    rw [hfn]
    exact congrArg some (preimage_inj.mpr ⟨hblock, hsender, hbody⟩)

/-! ## The three effects on one record -/

variable {e : Call} {uid : Bytes32} {r : Attestation}

theorem replay_of_attest {subjectHash schema data : Bytes} {expirationTime : Nat}
    (hfn : e.call.fn = .attest subjectHash schema data expirationTime)
    (hres : e.result = some uid) :
    replay uid r e = ⟨uid, e.call.sender, subjectHash, schema, data, expirationTime, 0, false⟩ := by
  rw [replay, hfn, hres]
  exact if_pos rfl

theorem replay_of_revokes (h : Revokes e uid) : replay uid r e = r.revokeAt e.block.timestamp := by
  have hfn : e.call.fn = .revoke uid := h
  unfold replay
  rw [hfn]
  exact if_pos rfl

theorem replay_of_other (hi : ¬ Issues e uid) (hr : ¬ Revokes e uid) : replay uid r e = r := by
  unfold replay
  split
  · next subjectHash schema data expirationTime uid' hfn hres =>
    refine if_neg fun hu => hi ⟨⟨_, _, _, _, hfn⟩, ?_⟩
    rw [hres, hu]
  · next uid' hfn =>
    refine if_neg fun hu => hr ?_
    rw [Revokes, hfn, hu]
  · rfl

/-- **Induction on the history of a record**: it starts empty, and each call writes a fresh record,
revokes the one there is, or leaves it alone. -/
theorem recordOf_induction {P : List Call → Attestation → Prop} (nil : P [] default)
    (attest : ∀ history e subjectHash schema data expirationTime,
      e.call.fn = .attest subjectHash schema data expirationTime → e.result = some uid →
      P (history ++ [e]) ⟨uid, e.call.sender, subjectHash, schema, data, expirationTime, 0, false⟩)
    (revoke : ∀ history e r, ¬ Issues e uid → Revokes e uid → P history r →
      P (history ++ [e]) (r.revokeAt e.block.timestamp))
    (other : ∀ history e r, ¬ Issues e uid → ¬ Revokes e uid → P history r →
      P (history ++ [e]) r)
    (history : List Call) : P history (recordOf history uid) := by
  -- from the last call backwards, since the last call that concerns the uid decides
  induction history using List.reverseRecOn with
  | nil => exact nil
  | append_singleton history e ih =>
      rw [recordOf_concat]
      by_cases hi : Issues e uid
      · obtain ⟨⟨subjectHash, schema, data, expirationTime, hfn⟩, hres⟩ := hi
        rw [replay_of_attest hfn hres]
        exact attest history e subjectHash schema data expirationTime hfn hres
      · by_cases hr : Revokes e uid
        · rw [replay_of_revokes hr]
          exact revoke history e _ hi hr ih
        · rw [replay_of_other hi hr]
          exact other history e _ hi hr ih

/-- The attester of a replayed record is the sender of a call that issued the uid. -/
theorem attester_recordOf (history : List Call) (uid : Bytes32) :
    (recordOf history uid).attester = 0 ∨
      ∃ e ∈ history, Issues e uid ∧ (recordOf history uid).attester = e.call.sender := by
  -- a later call keeps the one that issued the uid
  have hlater : ∀ (history : List Call) (e : Call) (a : Address),
      (a = 0 ∨ ∃ f ∈ history, Issues f uid ∧ a = f.call.sender) →
      a = 0 ∨ ∃ f ∈ history ++ [e], Issues f uid ∧ a = f.call.sender := by
    rintro history e a (hzero | ⟨f, hf, hissues, hattester⟩)
    · exact Or.inl hzero
    · exact Or.inr ⟨f, List.mem_append_left _ hf, hissues, hattester⟩
  refine recordOf_induction (P := fun history r =>
    r.attester = 0 ∨ ∃ f ∈ history, Issues f uid ∧ r.attester = f.call.sender) ?_ ?_ ?_ ?_ history
  · exact Or.inl rfl
  · intro history e subjectHash schema data expirationTime hfn hres
    exact Or.inr ⟨e, List.mem_append_right _ (List.mem_singleton_self e),
      ⟨⟨_, _, _, _, hfn⟩, hres⟩, rfl⟩
  · exact fun history e r _ _ ih => hlater history e _ ih
  · exact fun history e r _ _ ih => hlater history e _ ih

/-! ## The storage replays the history -/

variable {keccak256 : Bytes → Bytes32}

/-- **The storage of a registry that replays its history**: it is not paused, each record is the
replay of the history, and each call returned the hash of what it hashed. -/
structure Replayed (keccak256 : Bytes → Bytes32) (l : RegistryLedger) : Prop where
  unpaused : l.state.paused = false
  records : ∀ uid, l.state.attestations uid = recordOf l.history uid
  results : ∀ e ∈ l.history, e.result = (hashedBy e).map keccak256

/-- A call changes each record as the replay does. -/
theorem Step.replays {b : Block} {s s' : State} {c : Message Fn} {r : Option Bytes32}
    (h : Step keccak256 b s c.sender c.fn s' r) (uid : Bytes32) :
    s'.attestations uid = replay uid (s.attestations uid) ⟨b, c, r⟩ := by
  obtain ⟨a, fn⟩ := c
  cases h with
  | attest role unpaused =>
      simp only [State.record_attestations, newAttestation, replay, Function.update_apply,
        eq_comm (a := uid)]
      split
      · next h => rw [h]
      · rfl
  | revoke unpaused auth standing =>
      simp only [State.markRevoked_attestations, replay, Function.update_apply, eq_comm (a := uid)]
      split
      · next h => rw [h]
      · rfl
  | role ok => rfl

/-- A call returns the hash of what it hashed. -/
theorem Step.result {b : Block} {s s' : State} {c : Message Fn} {r : Option Bytes32}
    (h : Step keccak256 b s c.sender c.fn s' r) :
    r = (hashedBy ⟨b, c, r⟩).map keccak256 := by
  obtain ⟨a, fn⟩ := c
  cases h <;> rfl

theorem Replayed.mine {l : RegistryLedger} (h : Replayed keccak256 l) (b : Block) :
    Replayed keccak256 { l with block := b } := ⟨h.unpaused, h.records, h.results⟩

theorem Replayed.commit {l : RegistryLedger} {s : State} {c : Message Fn} {r : Option Bytes32}
    (h : Replayed keccak256 l) (hstep : Step keccak256 l.block l.state c.sender c.fn s r) :
    Replayed keccak256 (l.commit s c r) where
  unpaused := hstep.paused.trans h.unpaused
  records uid := by
    rw [Ledger.commit_state, Ledger.commit_history, recordOf_concat, hstep.replays, h.records]
  results e he := by
    rw [Ledger.commit_history, List.mem_append, List.mem_singleton] at he
    rcases he with he | rfl
    · exact h.results e he
    · exact hstep.result

/-- Replaying survives a step of the ledger. -/
theorem Replayed.step {l l' : RegistryLedger} {a : Ledger.Action (Message Fn)}
    (h : Replayed keccak256 l) (hstep : Ledger.step (exec keccak256) l a = some l') :
    Replayed keccak256 l' :=
  Ledger.step_preserves (I := Replayed keccak256) (fun _ b h _ => h.mine b)
    (fun _ _ _ _ h hc => h.commit (exec_eq_ok.mp hc)) l a l' h hstep

theorem replayed_deployed (deployer : Account) (b : Block) :
    Replayed keccak256 (Ledger.deployed b (deploy deployer)) :=
  ⟨rfl, fun _ => rfl, fun _ he => absurd he List.not_mem_nil⟩

/-- **After every run the storage is the replay of the history.** -/
theorem replayed_run {deployer : Account} {b : Block} {as : List (Ledger.Action (Message Fn))}
    {l : RegistryLedger}
    (hrun : run (Ledger.step (exec keccak256)) (Ledger.deployed b (deploy deployer)) as = some l) :
    Replayed keccak256 l :=
  run_invariant (fun _ _ _ h hstep => Replayed.step h hstep) (replayed_deployed deployer b) hrun

/-- A uid that was issued is the hash of bytes that were hashed. -/
theorem Replayed.uid_eq {l : RegistryLedger} (h : Replayed keccak256 l) (he : e ∈ l.history)
    (hi : Issues e uid) : ∃ m, hashedBy e = some m ∧ keccak256 m = uid := by
  have hres := h.results e he
  rw [hi.2] at hres
  exact Option.map_eq_some_iff.mp hres.symm

/-- Two calls that issued one uid hashed the same string, if the hash has no collision among the
strings of the history. -/
theorem Replayed.hashedBy_eq {l : RegistryLedger} (h : Replayed keccak256 l)
    (hinj : Set.InjOn keccak256 (hashed l.history)) {f : Call} (he : e ∈ l.history)
    (hf : f ∈ l.history) (hie : Issues e uid) (hif : Issues f uid) : hashedBy e = hashedBy f := by
  obtain ⟨x, hx, hxuid⟩ := h.uid_eq he hie
  obtain ⟨y, hy, hyuid⟩ := h.uid_eq hf hif
  rw [hx, hy, hinj ⟨e, he, hx⟩ ⟨f, hf, hy⟩ (hxuid.trans hyuid.symm)]

end ReputationPassport.AttestationRegistry
