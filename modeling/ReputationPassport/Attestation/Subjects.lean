import ReputationPassport.Attestation.Record

/-! # The subject of a uid

`attest` hashes the concatenation of subject, schema and data, without their lengths. Contents that
are cut differently and concatenate to the same bytes therefore share a uid, and `contentUid_ne_iff`
says that these are the only ones. When an attester uses two of them in one block, the second takes
over the record of the first, and the first subject lists a uid whose record names another
(`uid_injective_iff`). -/

namespace ReputationPassport.AttestationRegistry

open Evm Machine OpenZeppelin

/-- The three fields of an attestation that vary in length. -/
@[ext] structure Content where
  subjectHash : Bytes
  schema : Bytes
  data : Bytes

/-- The fields one after another, as `attest` hashes them. -/
def Content.joined (x : Content) : Bytes := x.subjectHash ++ x.schema ++ x.data

/-- The bytes `attest` hashes for this content. -/
def Content.preimage (x : Content) (b : Block) (sender : Account) : Bytes :=
  AttestationRegistry.preimage b sender x.subjectHash x.schema x.data

/-- The uid `attest` computes for this content, whatever the expiration time. -/
def contentUid (keccak256 : Bytes → Bytes32) (b : Block) (sender : Account) (x : Content) :
    Bytes32 :=
  (newAttestation keccak256 b sender x.subjectHash x.schema x.data 0).uid

/-- The subject a call attested. -/
def subjectOf (e : Call) : Option Bytes :=
  match e.call.fn with
  | .attest subjectHash _ _ _ => some subjectHash
  | _ => none

/-- **The uids of a subject are its own**: the record of a uid that is listed for a subject names
that subject. -/
def OwnSubject (l : RegistryLedger) : Prop :=
  ∀ subject, ∀ uid ∈ getSubjectAttestations l.state subject,
    (getAttestation l.state uid).subjectHash = subject

/-- **The condition on a step**: an attester does not attest, in one block, one concatenation under
two subjects. -/
def NoResplit (l : RegistryLedger) (a : Ledger.Action (Message Fn)) : Prop :=
  ∀ (m : Account) (subjectHash schema data : Bytes) (expirationTime : Nat),
    a = .call ⟨m, .attest subjectHash schema data expirationTime⟩ →
    l.state.roles attesterRole m = true →
    ∀ e ∈ l.history, SameContent e l.block m subjectHash schema data →
      subjectOf e = some subjectHash

/-! ## Uids of contents -/

section Contents

variable {keccak256 : Bytes → Bytes32} {b : Block} {m : Account} {x y : Content}

/-- The hashed bytes of two contents differ exactly when the contents concatenate differently. -/
theorem preimage_ne_iff : x.preimage b m ≠ y.preimage b m ↔ x.joined ≠ y.joined := by
  rw [Content.preimage, Content.preimage, Ne, preimage_inj]
  simp only [true_and]
  rfl

/-- **Different contents have different uids exactly when they concatenate differently**, if the
hash tells the two byte strings apart. -/
theorem contentUid_ne_iff
    (hinj : Set.InjOn keccak256 {x.preimage b m, y.preimage b m}) :
    (x ≠ y → contentUid keccak256 b m x ≠ contentUid keccak256 b m y) ↔
      x = y ∨ x.joined ≠ y.joined := by
  have huid : contentUid keccak256 b m x ≠ contentUid keccak256 b m y ↔ x.joined ≠ y.joined := by
    rw [← preimage_ne_iff (b := b) (m := m)]
    exact (hinj.eq_iff (Set.mem_insert _ _) (Set.mem_insert_of_mem _ rfl)).not
  rw [huid, ← or_iff_not_imp_left]

end Contents

/-! ## What is listed for a subject -/

variable {keccak256 : Bytes → Bytes32} {l l' : RegistryLedger}

/-- **The lists replay the history**: a subject lists the uids of the calls that attested it. -/
structure Indexes (keccak256 : Bytes → Bytes32) (l : RegistryLedger) : Prop where
  replayed : Replayed keccak256 l
  listed : ∀ subject uid, uid ∈ getSubjectAttestations l.state subject ↔
    ∃ e ∈ l.history, Issues e uid ∧ subjectOf e = some subject

/-- A call lists the uid it issued for the subject it attested. -/
theorem Step.mem_subjectAttestations {b : Block} {s s' : State} {c : Message Fn}
    {r : Option Bytes32} (h : Step keccak256 b s c.sender c.fn s' r) (subject : Bytes)
    (uid : Bytes32) : uid ∈ getSubjectAttestations s' subject ↔
      uid ∈ getSubjectAttestations s subject ∨
        Issues ⟨b, c, r⟩ uid ∧ subjectOf ⟨b, c, r⟩ = some subject := by
  obtain ⟨a, fn⟩ := c
  cases h with
  | @attest subjectHash schema data expirationTime role unpaused =>
      have hissues : Issues ⟨b, ⟨a, .attest subjectHash schema data expirationTime⟩,
          some (keccak256 (preimage b a subjectHash schema data))⟩ uid ↔
          uid = keccak256 (preimage b a subjectHash schema data) := by
        refine ⟨fun hi => (Option.some.inj hi.2).symm, fun hi => ⟨⟨_, _, _, _, rfl⟩, ?_⟩⟩
        rw [hi]
      rw [hissues]
      change uid ∈ Function.update s.subjectAttestations subjectHash _ subject ↔
        uid ∈ s.subjectAttestations subject ∨ _ ∧ some subjectHash = some subject
      by_cases hs : subject = subjectHash
      · subst hs
        rw [Function.update_self, List.mem_append, List.mem_singleton]
        simp only [and_true]
        rfl
      · rw [Function.update_of_ne hs]
        simp [Ne.symm hs]
  | revoke unpaused auth standing =>
      exact (or_iff_left fun h => absurd h.2 (by simp [subjectOf])).symm
  | role ok => exact (or_iff_left fun h => absurd h.2 (by simp [subjectOf])).symm

/-- The lists replay the history after a step. -/
theorem Indexes.step {a : Ledger.Action (Message Fn)} (h : Indexes keccak256 l)
    (hstep : Ledger.step (exec keccak256) l a = some l') : Indexes keccak256 l' := by
  refine ⟨h.replayed.step hstep, fun subject uid => ?_⟩
  rcases Ledger.step_cases hstep with ⟨b, -, -, rfl⟩ | ⟨c, s, r, -, hc, rfl⟩ | ⟨c, e, -, -, rfl⟩
  · exact h.listed subject uid
  · rw [Ledger.commit_state, (exec_eq_ok.mp hc).mem_subjectAttestations, h.listed]
    simp only [Ledger.commit_history, List.mem_append, List.mem_singleton, or_and_right, exists_or,
      exists_eq_left]
  · exact h.listed subject uid

theorem indexes_deployed (deployer : Account) (b : Block) :
    Indexes keccak256 (Ledger.deployed b (deploy deployer)) := by
  refine ⟨replayed_deployed deployer b, fun subject uid => ?_⟩
  exact iff_of_false List.not_mem_nil fun ⟨e, he, _⟩ => absurd he List.not_mem_nil

/-- A uid that was issued has the subject of a call that issued it. -/
theorem issued_subjectHash_recordOf (history : List Call) (uid : Bytes32) :
    Issued history uid →
      ∃ e ∈ history, Issues e uid ∧ subjectOf e = some (recordOf history uid).subjectHash := by
  refine recordOf_induction (P := fun history r => Issued history uid →
    ∃ e ∈ history, Issues e uid ∧ subjectOf e = some r.subjectHash) ?_ ?_ ?_ ?_ history
  · rintro ⟨e, he, -⟩
    exact absurd he List.not_mem_nil
  · intro history e subjectHash schema data expirationTime hfn hres _
    refine ⟨e, List.mem_append_right _ List.mem_cons_self, ⟨⟨_, _, _, _, hfn⟩, hres⟩, ?_⟩
    rw [subjectOf, hfn]
  · intro history e r hi _ ih h
    obtain ⟨f, hf, hrest⟩ := ih ((issued_concat.mp h).resolve_right hi)
    exact ⟨f, List.mem_append_left _ hf, hrest⟩
  · intro history e r hi _ ih h
    obtain ⟨f, hf, hrest⟩ := ih ((issued_concat.mp h).resolve_right hi)
    exact ⟨f, List.mem_append_left _ hf, hrest⟩

/-- **One subject for each uid**: the calls that issued it all attested the same subject. -/
def OneSubject (history : List Call) : Prop :=
  ∀ e ∈ history, ∀ f ∈ history, ∀ uid, Issues e uid → Issues f uid → subjectOf e = subjectOf f

/-- Where each uid has one subject, the uids of a subject are its own. -/
theorem Indexes.ownSubject (h : Indexes keccak256 l) (hone : OneSubject l.history) :
    OwnSubject l := by
  intro subject uid hmem
  obtain ⟨e, he, hissues, hsubject⟩ := (h.listed subject uid).mp hmem
  obtain ⟨f, hf, hissues', hsubject'⟩ :=
    issued_subjectHash_recordOf l.history uid ⟨e, he, hissues⟩
  rw [getAttestation, h.replayed.records]
  exact Option.some.inj
    (hsubject'.symm.trans ((hone f hf e he uid hissues' hissues).trans hsubject))

/-- **A step that meets the condition keeps one subject for each uid**, if the hash has no collision
among the strings hashed so far. -/
theorem Indexes.oneSubject_step {a : Ledger.Action (Message Fn)} (h : Indexes keccak256 l)
    (hone : OneSubject l.history) (hinj : Set.InjOn keccak256 (hashed l'.history))
    (hC : NoResplit l a) (hstep : Ledger.step (exec keccak256) l a = some l') :
    OneSubject l'.history := by
  rcases Ledger.step_cases hstep with ⟨b, -, -, rfl⟩ | ⟨c, s, r, rfl, hc, rfl⟩ | ⟨c, e, -, -, rfl⟩
  · exact hone
  · have hok := exec_eq_ok.mp hc
    have hlast : (⟨l.block, c, r⟩ : Call) ∈ (l.commit s c r).history :=
      List.mem_append_right _ List.mem_cons_self
    -- the new call attests the subject of every earlier call with its uid
    have hnew : ∀ e ∈ l.history, ∀ uid, Issues e uid → Issues ⟨l.block, c, r⟩ uid →
        subjectOf e = subjectOf ⟨l.block, c, r⟩ := by
      intro e he uid hissues hissues'
      have hequal := (h.replayed.commit hok).hashedBy_eq hinj (List.mem_append_left _ he) hlast
        hissues hissues'
      obtain ⟨m, fn⟩ := c
      obtain ⟨⟨subject, schema, data, expirationTime, hfn⟩, -⟩ := hissues'
      obtain rfl : fn = .attest subject schema data expirationTime := hfn
      cases hok with
      | attest role unpaused =>
          exact hC m subject schema data expirationTime rfl role e he
            (hashedBy_eq_preimage_iff.mp hequal)
    intro e he f hf uid hissues hissues'
    rw [Ledger.commit_history, List.mem_append, List.mem_singleton] at he hf
    rcases he with he | rfl <;> rcases hf with hf | rfl
    · exact hone e he f hf uid hissues hissues'
    · exact hnew e he uid hissues hissues'
    · exact (hnew f hf uid hissues' hissues).symm
    · rfl
  · exact hone

/-- **A step that misses the condition moves a uid to another subject**: it stays in the list of the
first. -/
theorem Indexes.not_ownSubject_of_step {a : Ledger.Action (Message Fn)} (h : Indexes keccak256 l)
    (hC : ¬ NoResplit l a) :
    ∃ l', Ledger.step (exec keccak256) l a = some l' ∧ ¬ OwnSubject l' := by
  simp only [NoResplit, not_forall] at hC
  obtain ⟨m, subject, schema, data, expirationTime, rfl, hrole, e, he, hsame, hsubject⟩ := hC
  have hok : Step keccak256 l.block l.state m (.attest subject schema data expirationTime) _ _ :=
    .attest hrole h.replayed.unpaused
  have hstep := Ledger.step_call_ok
    (exec_eq_ok (c := ⟨m, .attest subject schema data expirationTime⟩).mpr hok)
  refine ⟨_, hstep, fun hown => hsubject ?_⟩
  obtain ⟨hblock, hsender, first, c, d, x, hfn, hjoined⟩ := hsame
  have hissues : Issues e (keccak256 (preimage l.block m subject schema data)) := by
    refine ⟨⟨first, c, d, x, hfn⟩, ?_⟩
    rw [h.replayed.results e he,
      hashedBy_eq_preimage_iff.mpr ⟨hblock, hsender, first, c, d, x, hfn, hjoined⟩]
    rfl
  have hfirst : subjectOf e = some first := by
    rw [subjectOf, hfn]
  have hlisted := ((h.step hstep).listed first _).mpr
    ⟨e, List.mem_append_left _ he, hissues, hfirst⟩
  -- the record now names the subject of the second call
  have hrecord := hown first _ hlisted
  rw [getAttestation, Ledger.commit_state, State.record_attestations, newAttestation,
    Function.update_self] at hrecord
  rw [hfirst, ← hrecord]

/-- **When the uid encoding is injective.** For every block and sender, two different contents have
different uids exactly when their concatenations differ; and in every run, the record of each uid
listed for a subject names that subject, in every state, exactly when no attester attests one
concatenation under two subjects in one block. The hash is assumed to have no collision among the
strings it is applied to. -/
theorem uid_injective_iff (keccak256 : Bytes → Bytes32) (deployer : Account) (b : Block)
    (as : List (Ledger.Action (Message Fn))) (l : RegistryLedger)
    (hrun : run (Ledger.step (exec keccak256)) (Ledger.deployed b (deploy deployer)) as = some l)
    (hinj : Set.InjOn keccak256 (hashed l.history)) :
    (∀ (b' : Block) (m : Account) (x y : Content),
      Set.InjOn keccak256 {x.preimage b' m, y.preimage b' m} →
      ((x ≠ y → contentUid keccak256 b' m x ≠ contentUid keccak256 b' m y) ↔
        x = y ∨ x.joined ≠ y.joined)) ∧
    (Always (Ledger.step (exec keccak256)) OwnSubject (Ledger.deployed b (deploy deployer)) as ↔
      Along (Ledger.step (exec keccak256)) NoResplit (Ledger.deployed b (deploy deployer)) as) := by
  refine ⟨fun b' m x y => contentUid_ne_iff, ?_⟩
  refine always_iff_along_of
    (I := fun t : RegistryLedger => Indexes keccak256 t ∧ OneSubject t.history)
    (H := fun t : RegistryLedger => t.history <+: l.history)
    (fun t ht => ht.1.ownSubject ht.2) ?_ (fun t a ht hC => ht.1.not_ownSubject_of_step hC)
    ⟨indexes_deployed deployer b, fun e he => absurd he List.not_mem_nil⟩
    (Ledger.history_prefix_always hrun)
  rintro s a t ⟨hs, hone⟩ ht hC hstep
  exact ⟨hs.step hstep, hs.oneSubject_step hone (hinj.mono (hashed_mono ht)) hC hstep⟩

/-- Account `1` attests a subject in two blocks. -/
def attestInTwoBlocks : List (Ledger.Action (Message Fn)) :=
  [.call ⟨acct 1, .attest [0x73] [] [] 0⟩, .mine (blockAt 13 2),
    .call ⟨acct 1, .attest [0x73] [] [] 0⟩]

/-- The two equivalences for a content, another cut of it, and these two attestations. -/
theorem uid_injective_iff_attestInTwoBlocks :
    ((⟨[0x73], [], []⟩ : Content) ≠ ⟨[], [0x73], []⟩ →
        contentUid sampleHash (blockAt 1 1) (acct 1) ⟨[0x73], [], []⟩ ≠
          contentUid sampleHash (blockAt 1 1) (acct 1) ⟨[], [0x73], []⟩ ↔
      (⟨[0x73], [], []⟩ : Content) = ⟨[], [0x73], []⟩ ∨
        Content.joined ⟨[0x73], [], []⟩ ≠ Content.joined ⟨[], [0x73], []⟩) ∧
    (Always (Ledger.step (exec sampleHash)) OwnSubject
        (Ledger.deployed (blockAt 1 1) (deploy (acct 1))) attestInTwoBlocks ↔
      Along (Ledger.step (exec sampleHash)) NoResplit
        (Ledger.deployed (blockAt 1 1) (deploy (acct 1))) attestInTwoBlocks) := by
  obtain ⟨l, hrun, hinj⟩ : ∃ l, run (Ledger.step (exec sampleHash))
      (Ledger.deployed (blockAt 1 1) (deploy (acct 1))) attestInTwoBlocks = some l ∧
      Set.InjOn sampleHash (hashed l.history) := by
    refine ⟨_, rfl, ?_⟩
    exact injOn_hashed sampleHash (by decide)
  obtain ⟨hcontents, hruns⟩ :=
    uid_injective_iff sampleHash (acct 1) (blockAt 1 1) attestInTwoBlocks l hrun hinj
  refine ⟨hcontents (blockAt 1 1) (acct 1) _ _ ?_, hruns⟩
  -- the two contents are hashed as one string
  have hsame : Content.preimage ⟨[], [0x73], []⟩ (blockAt 1 1) (acct 1) =
      Content.preimage ⟨[0x73], [], []⟩ (blockAt 1 1) (acct 1) := rfl
  rw [hsame, Set.pair_eq_singleton]
  exact Set.injOn_singleton _ _

/-- **A uid that moves to another subject.** Account `1` attests the subject `"s"` and, in the same
block, the empty subject with the schema `"s"`: both contents have one uid, which stays listed for
`"s"` while its record names the empty subject. -/
theorem recut_content_moves_uid :
    ∃ l, run (Ledger.step (exec sampleHash)) (Ledger.deployed (blockAt 1 1) (deploy (acct 1)))
        [.call ⟨acct 1, .attest [0x73] [] [] 0⟩, .call ⟨acct 1, .attest [] [0x73] [] 0⟩] = some l ∧
      Set.InjOn sampleHash (hashed l.history) ∧
      (⟨[0x73], [], []⟩ : Content) ≠ ⟨[], [0x73], []⟩ ∧
      contentUid sampleHash (blockAt 1 1) (acct 1) ⟨[0x73], [], []⟩ = sampleUid ∧
      contentUid sampleHash (blockAt 1 1) (acct 1) ⟨[], [0x73], []⟩ = sampleUid ∧
      sampleUid ∈ getSubjectAttestations l.state [0x73] ∧
      (getAttestation l.state sampleUid).subjectHash = [] ∧ ¬ OwnSubject l := by
  obtain ⟨l, hrun, hinj, hlisted, hrecord⟩ : ∃ l, run (Ledger.step (exec sampleHash))
      (Ledger.deployed (blockAt 1 1) (deploy (acct 1)))
      [.call ⟨acct 1, .attest [0x73] [] [] 0⟩, .call ⟨acct 1, .attest [] [0x73] [] 0⟩] = some l ∧
      Set.InjOn sampleHash (hashed l.history) ∧
      sampleUid ∈ getSubjectAttestations l.state [0x73] ∧
      (getAttestation l.state sampleUid).subjectHash = [] := by
    refine ⟨_, rfl, ?_, List.mem_cons_self, rfl⟩
    rintro x ⟨e, he, hx⟩ y ⟨f, hf, hy⟩ -
    rcases List.mem_pair.mp he with rfl | rfl <;> rcases List.mem_pair.mp hf with rfl | rfl <;>
      exact Option.some.inj (hx.symm.trans hy)
  refine ⟨l, hrun, hinj, ?_, rfl, rfl, hlisted, hrecord, fun hown => ?_⟩
  · exact fun h => absurd (congrArg Content.subjectHash h) (by decide)
  · have hsubject := hown [0x73] sampleUid hlisted
    rw [hrecord] at hsubject
    cases hsubject

end ReputationPassport.AttestationRegistry
