import ReputationPassport.Passport.Invariant

/-! # The life of a credential

An id is unminted, then live, then gone: nothing but a rollback of the mint itself takes it back.
The credential stored under it is written once, when its mint returns, and reports what was passed
to `safeMint` for as long as the token lives. -/

namespace ReputationPassport.PassportSBT

open Evm Machine OpenZeppelin

/-- The stages of an id. -/
inductive Stage where
  | unminted
  | live
  | gone
  deriving DecidableEq

/-- The position of a stage in the life of an id. -/
def Stage.rank : Stage → Nat
  | .unminted => 0
  | .live => 1
  | .gone => 2

/-- The stage of an id: unminted from the counter on, and below it live while the token exists. -/
def stage (s : State) (id : Nat) : Stage :=
  if s.nextTokenId ≤ id then .unminted else if s.Exists id then .live else .gone

/-- The credential stored under an id: subject, type, time of issue, expiry. -/
def credential (s : State) (id : Nat) : Bytes × Bytes × Nat × Nat :=
  (s.subjectHashes id, s.credentialTypes id, s.issuedAt id, s.expiresAt id)

/-- The id a call issued, with the credential it was asked to store, dated with its block. -/
def issuedBy (e : Call) : Option (Nat × Bytes × Bytes × Nat × Nat) :=
  match e.call.fn, e.result with
  | .safeMint _ subjectHash credentialType _ expiresAt, some id =>
      some (id, subjectHash, credentialType, e.block.timestamp, expiresAt)
  | _, _ => none

/-- **The credentials match the history**, at the end of a transaction. -/
structure CredentialsMatch (l : PassportLedger) : Prop where
  /-- The ids returned by `safeMint` are `0, 1, 2, …` up to the counter. -/
  ids : minted l.history = List.range l.state.nextTokenId
  /-- A live id reports the arguments of the call that returned it and the time of its block. -/
  info : ∀ e ∈ l.history, ∀ to' subjectHash credentialType uri expiresAt id,
    e.call.fn = .safeMint to' subjectHash credentialType uri expiresAt → e.result = some id →
    stage l.state id = .live →
    getCredentialInfo l.state id = .ok ⟨subjectHash, credentialType, e.block.timestamp, expiresAt,
      true, l.state.token.owners id⟩
  /-- Later ids were not issued earlier. -/
  ordered : ∀ i j, stage l.state i = .live → stage l.state j = .live → i ≤ j →
    l.state.issuedAt i ≤ l.state.issuedAt j

/-! ## Stages only advance -/

/-- Every id keeps its stage or advances to the next one. -/
def Advances (s s' : State) : Prop :=
  ∀ id, (stage s id).rank ≤ (stage s' id).rank ∧ (stage s' id).rank ≤ (stage s id).rank + 1

theorem stage_eq_unminted {s : State} {id : Nat} (h : s.nextTokenId ≤ id) :
    stage s id = .unminted := if_pos h

theorem stage_eq_live {s : State} {id : Nat} (h : id < s.nextTokenId) (hlive : s.Exists id) :
    stage s id = .live := by
  rw [stage, if_neg (Nat.not_le.mpr h), if_pos hlive]

theorem stage_eq_gone {s : State} {id : Nat} (h : id < s.nextTokenId) (hgone : ¬ s.Exists id) :
    stage s id = .gone := by
  rw [stage, if_neg (Nat.not_le.mpr h), if_neg hgone]

theorem stage_congr {s s' : State} {id : Nat} (hnext : s'.nextTokenId = s.nextTokenId)
    (hexists : s'.Exists id ↔ s.Exists id) : stage s' id = stage s id := by
  simp only [stage, hnext, hexists]

/-- States with the same counter and the same tokens have the same stages. -/
theorem advances_of_same {s s' : State} (hnext : s'.nextTokenId = s.nextTokenId)
    (hexists : ∀ id, s'.Exists id ↔ s.Exists id) : Advances s s' := by
  intro id
  rw [stage_congr hnext (hexists id)]
  exact ⟨Nat.le_refl _, Nat.le_succ _⟩

variable {l : PassportLedger} {ps : List Pending} {s : State} {a : Account} {fn : Fn}
  {r : Option Nat} {rest : Rest} {id : Nat}

/-- A transfer keeps the tokens that exist. -/
theorem exists_move_iff {s : State} {to' : Address} (receiver : to' ≠ 0) (hlive : s.Exists id)
    (j : Nat) : ({ s with token := s.token.move to' id } : State).Exists j ↔ s.Exists j := by
  unfold State.Exists
  rw [ERC721.move_owners]
  by_cases hj : j = id
  · rw [hj, Function.update_self]
    exact iff_of_true receiver hlive
  · rw [Function.update_of_ne hj]

/-- Burning a token takes its id from live to gone. -/
theorem Inv.advances_unlock (h : Inv l ps) (live : l.state.token.owners id ≠ 0)
    (events : List Event) :
    Advances l.state (l.state.unlock (l.state.token.move 0 id) id events) := by
  intro j
  by_cases hj : j = id
  · subst hj
    have hlt : j < l.state.nextTokenId := by
      by_contra hle
      cases h.unminted_of_le (Nat.not_lt.mp hle) with
      | unminted owner => exact live owner
    have hgone : ¬ (l.state.unlock (l.state.token.move 0 j) j events).Exists j := by
      intro hexists
      exact hexists (Function.update_self ..)
    rw [stage_eq_live hlt live, stage_eq_gone (s := l.state.unlock _ j events) hlt hgone]
    exact ⟨Nat.le_succ _, Nat.le_refl _⟩
  · have howner : (l.state.unlock (l.state.token.move 0 id) id events).token.owners j =
        l.state.token.owners j := Function.update_of_ne hj ..
    have hstage : stage (l.state.unlock (l.state.token.move 0 id) id events) j =
        stage l.state j := by
      refine stage_congr rfl ?_
      unfold State.Exists
      rw [howner]
    rw [hstage]
    exact ⟨Nat.le_refl _, Nat.le_succ _⟩

/-- A call that is done at once advances stages. -/
theorem Inv.advances_done (h : Inv l ps) (hstart : Starts l.state a fn (.done s r)) :
    Advances l.state s := by
  cases hstart with
  | revoke role idle live islocked => exact h.advances_unlock live _
  | burn idle live auth => exact h.advances_unlock live _
  | transferFrom receiver free auth owner =>
      exact advances_of_same rfl (exists_move_iff receiver (h.live_of_authorized auth))
  | approve live auth => exact advances_of_same rfl fun _ => Iff.rfl
  | setApprovalForAll other => exact advances_of_same rfl fun _ => Iff.rfl
  | setContractURI role => exact advances_of_same rfl fun _ => Iff.rfl
  | pause role unpaused => exact advances_of_same rfl fun _ => Iff.rfl
  | unpause role paused => exact advances_of_same rfl fun _ => Iff.rfl
  | role ok => exact advances_of_same rfl fun _ => Iff.rfl

/-- A call that hands over control advances stages: a mint takes the next id from unminted to
live. -/
theorem Inv.advances_calls (h : Inv l ps) (hstart : Starts l.state a fn (.calls s rest)) :
    Advances l.state s := by
  cases hstart with
  | @safeMint to' subjectHash credentialType uri expiresAt role unpaused idle room receiver free =>
      intro j
      rcases Nat.lt_trichotomy j l.state.nextTokenId with hlt | rfl | hgt
      · -- an id below the counter keeps its owner
        have hsame : (l.state.beginMint (l.state.token.move to' l.state.nextTokenId)).Exists j ↔
            l.state.Exists j := by
          unfold State.Exists
          rw [show (l.state.beginMint (l.state.token.move to' l.state.nextTokenId)).token.owners j =
            _ from Function.update_of_ne (Nat.ne_of_lt hlt) ..]
        have hstage : stage (l.state.beginMint (l.state.token.move to' l.state.nextTokenId)) j =
            stage l.state j := by
          by_cases hexists : l.state.Exists j
          · rw [stage_eq_live hlt hexists,
              stage_eq_live (Nat.lt_succ_of_lt hlt) (hsame.mpr hexists)]
          · rw [stage_eq_gone hlt hexists,
              stage_eq_gone (Nat.lt_succ_of_lt hlt) (mt hsame.mp hexists)]
        rw [hstage]
        exact ⟨Nat.le_refl _, Nat.le_succ _⟩
      · -- the id the mint takes
        have hexists : (l.state.beginMint (l.state.token.move to'
            l.state.nextTokenId)).Exists l.state.nextTokenId := by
          unfold State.Exists
          rw [show (l.state.beginMint (l.state.token.move to' l.state.nextTokenId)).token.owners
            l.state.nextTokenId = to' from Function.update_self ..]
          exact receiver
        rw [stage_eq_unminted (s := l.state) (Nat.le_refl _),
          stage_eq_live (Nat.lt_succ_self l.state.nextTokenId) hexists]
        exact ⟨Nat.zero_le _, Nat.le_refl _⟩
      · rw [stage_eq_unminted (s := l.state) (Nat.le_of_lt hgt),
          stage_eq_unminted (s := l.state.beginMint _) hgt]
        exact ⟨Nat.le_refl _, Nat.le_succ _⟩
  | safeTransferFrom receiver free auth owner =>
      exact advances_of_same rfl (exists_move_iff receiver (h.live_of_authorized auth))

/-- The rest of a call keeps every stage. -/
theorem stage_resume {s s' : State} {b : Block} (hresume : resume b s rest = .ok (s', r))
    (id : Nat) : stage s' id = stage s id := by
  cases rest with
  | mint sender tokenId subjectHash credentialType uri expiresAt =>
      obtain ⟨rfl, rfl⟩ := Prod.mk.inj (Except.ok.inj hresume)
      exact stage_congr rfl Iff.rfl
  | transfer =>
      obtain ⟨rfl, rfl⟩ := Prod.mk.inj (Except.ok.inj hresume)
      rfl

/-- No rest of a call reverts. -/
theorem resume_ne_error {s : State} {b : Block} {e : Revert OzError} :
    resume b s rest ≠ .error e := by
  cases rest <;> exact fun h => nomatch h

/-- **A step that is not a rollback advances stages.** -/
theorem Inv.advances_step {c c' : PassportStack} {act : CallStack.Action (Message Fn)}
    (h : Inv c.ledger (CallStack.pendings c.frames)) (hstep : CallStack.Step contract c act c')
    (hreject : act ≠ .reject) (habort : act ≠ .abort) :
    Advances c.ledger.state c'.ledger.state := by
  have hsame : Advances c.ledger.state c.ledger.state := advances_of_same rfl fun _ => Iff.rfl
  cases hstep with
  | mine closed later => exact hsame
  | done ok => exact h.advances_done (contract_start_eq_ok.mp ok)
  | push ok => exact h.advances_calls (contract_start_eq_ok.mp ok)
  | through ok resumed =>
      intro id
      have hcalls := h.advances_calls (contract_start_eq_ok.mp ok) id
      rw [← stage_resume resumed id] at hcalls
      exact hcalls
  | reverted => exact hsame
  | accept top resumed =>
      intro id
      rw [show stage (c.ledger.commit _ _ _).state id = _ from stage_resume resumed id]
      exact hsame id
  | refused top resumed => exact absurd resumed resume_ne_error
  | reject top => exact absurd rfl hreject
  | enter => exact hsame
  | leave top => exact hsame
  | abort top => exact absurd rfl habort

/-! ## Credentials are written once -/

/-- **The record of the credentials**: the invariant, the credentials of the history in storage, and
the order of their times. -/
structure Recorded (l : PassportLedger) (ps : List Pending) : Prop where
  inv : Inv l ps
  stored : ∀ e ∈ l.history, ∀ id cred, issuedBy e = some (id, cred) → credential l.state id = cred
  past : ∀ i ∈ minted l.history, l.state.issuedAt i ≤ l.block.timestamp
  ordered : ∀ i ∈ minted l.history, ∀ j ∈ minted l.history, i ≤ j →
    l.state.issuedAt i ≤ l.state.issuedAt j

variable {call : Message Fn}

/-- A call that issued a credential returned its id. -/
theorem mintedBy_of_issuedBy {e : Call} {cred : Bytes × Bytes × Nat × Nat}
    (h : issuedBy e = some (id, cred)) : mintedBy e = some id := by
  unfold issuedBy at h
  split at h
  · next hfn hres =>
    rw [mintedBy, hfn, hres]
    exact congrArg some (Prod.mk.inj (Option.some.inj h)).1
  · exact absurd h (by simp)

/-- A call that is done at once is no mint. -/
theorem mintedBy_done {s s' : State} {b : Block}
    (hstart : Starts s call.sender call.fn (.done s' r)) : mintedBy ⟨b, call, r⟩ = none := by
  obtain ⟨a, fn⟩ := call
  cases hstart <;> rfl

/-- No start of a call writes a credential. -/
theorem credential_done {s s' : State} (hstart : Starts s a fn (.done s' r)) :
    credential s' = credential s := by
  cases hstart <;> rfl

theorem credential_calls {s s' : State} (hstart : Starts s a fn (.calls s' rest)) :
    credential s' = credential s := by
  cases hstart <;> rfl

/-- What neither mints nor writes a credential keeps the record. -/
theorem Recorded.frame (h : Recorded l ps) {l' : PassportLedger} {ps' : List Pending}
    (hinv : Inv l' ps') (hblock : l.block ≤ l'.block)
    (hcred : credential l'.state = credential l.state)
    (hhistory : ∀ e ∈ l'.history, e ∈ l.history ∨ mintedBy e = none)
    (hminted : minted l'.history = minted l.history) : Recorded l' ps' := by
  have hissued : ∀ i, l'.state.issuedAt i = l.state.issuedAt i := fun i =>
    congrArg (fun cred => cred.2.2.1) (congrFun hcred i)
  refine ⟨hinv, ?_, ?_, ?_⟩
  · intro e he i cred hi
    rcases hhistory e he with hold | hnone
    · exact (congrFun hcred i).trans (h.stored e hold i cred hi)
    · exact absurd (hnone.symm.trans (mintedBy_of_issuedBy hi)) (by simp)
  · intro i hi
    rw [hissued]
    exact Nat.le_trans (h.past i (hminted ▸ hi)) hblock.1
  · intro i hi j hj hij
    rw [hissued, hissued]
    exact h.ordered i (hminted ▸ hi) j (hminted ▸ hj) hij

/-- A recorded call that is no mint adds no id. -/
theorem Recorded.commit (h : Recorded l ps) {ps' : List Pending}
    (hinv : Inv (l.commit s call r) ps') (hcred : credential s = credential l.state)
    (hmint : mintedBy ⟨l.block, call, r⟩ = none) : Recorded (l.commit s call r) ps' := by
  refine h.frame hinv (le_refl _) hcred (fun e he => ?_) ?_
  · rw [Ledger.commit_history, List.mem_append, List.mem_singleton] at he
    refine he.imp_right ?_
    rintro rfl
    exact hmint
  · rw [Ledger.commit_history, minted_concat, hmint, Option.toList_none, List.append_nil]

/-- The id a waiting mint will return is greater than all that were returned. -/
theorem Inv.lt_of_minted {sender : Address} {subjectHash credentialType uri : Bytes}
    {expiresAt : Nat}
    (h : Inv l ((call, .mint sender id subjectHash credentialType uri expiresAt) :: ps))
    {j : Nat} (hj : j ∈ minted l.history) : j < id := by
  have hids := h.ids
  obtain ⟨k, hk⟩ : ∃ k, l.state.nextTokenId = k + 1 := by
    refine Nat.exists_eq_succ_of_ne_zero fun hzero => ?_
    rw [hzero] at hids
    exact List.append_ne_nil_of_left_ne_nil (List.ne_nil_of_mem hj) _ hids
  rw [hk, List.range_succ, h.minting_eq] at hids
  -- the waiting id is the last of `0, …, k`, and the returned ones are those before it
  obtain ⟨hminted, hid⟩ := List.append_inj' hids rfl
  rw [List.singleton_inj.mp hid, ← List.mem_range, ← hminted]
  exact hj

/-- **The rest of a mint writes the credential it was asked to store.** -/
theorem Recorded.finishMint {sender : Address} {subjectHash credentialType uri : Bytes}
    {expiresAt : Nat}
    (h : Recorded l ((call, .mint sender id subjectHash credentialType uri expiresAt) :: ps)) :
    Recorded (l.commit (l.state.finishMint sender id subjectHash credentialType uri expiresAt
      l.block.timestamp) call (some id)) ps := by
  have hcons := h.inv.pending _ List.mem_cons_self
  have ⟨_, to', hfn⟩ := hcons
  have hminted : ∀ j, j ∈ minted (l.history ++ [⟨l.block, call, some id⟩]) ↔
      j ∈ minted l.history ∨ j = id := by
    intro j
    rw [minted_concat, hcons.mintedBy_mint]
    simp
  have hold : ∀ j ∈ minted l.history, j ≠ id := fun j hj =>
    Nat.ne_of_lt (h.inv.lt_of_minted hj)
  refine ⟨h.inv.finishMint _, ?_, ?_, ?_⟩
  · intro e he i cred hi
    rw [Ledger.commit_history, List.mem_append, List.mem_singleton] at he
    rcases he with he | rfl
    · have hne : i ≠ id :=
        hold i (List.mem_filterMap.mpr ⟨e, he, mintedBy_of_issuedBy hi⟩)
      rw [← h.stored e he i cred hi]
      simp [credential, State.finishMint, hne]
    · rw [issuedBy, hfn] at hi
      obtain ⟨rfl, rfl⟩ := Prod.mk.inj (Option.some.inj hi)
      simp [credential, State.finishMint]
  · intro i hi
    rcases (hminted i).mp hi with hi | rfl
    · simp only [Ledger.commit_state, State.finishMint, Function.update_of_ne (hold i hi)]
      exact h.past i hi
    · simp [State.finishMint]
  · intro i hi j hj hij
    rcases (hminted j).mp hj with hj | rfl
    · have hjd := h.inv.lt_of_minted hj
      -- `i` is not the new id either, since it is not above `j`
      have hi' := ((hminted i).mp hi).resolve_right fun heq => by omega
      simp only [Ledger.commit_state, State.finishMint, Function.update_of_ne (hold i hi'),
        Function.update_of_ne (hold j hj)]
      exact h.ordered i hi' j hj hij
    · rcases (hminted i).mp hi with hi | rfl
      · simp only [Ledger.commit_state, State.finishMint, Function.update_of_ne (hold i hi),
          Function.update_self]
        exact h.past i hi
      · exact Nat.le_refl _

/-- The rest of a pending call keeps the record. -/
theorem Recorded.resumed (h : Recorded l ((call, rest) :: ps))
    (hresume : resume l.block l.state rest = .ok (s, r)) : Recorded (l.commit s call r) ps := by
  have hinv := h.inv.resumed hresume
  cases rest with
  | mint sender tokenId subjectHash credentialType uri expiresAt =>
      obtain ⟨rfl, rfl⟩ := Prod.mk.inj (Except.ok.inj hresume)
      exact h.finishMint
  | transfer =>
      obtain ⟨rfl, rfl⟩ := Prod.mk.inj (Except.ok.inj hresume)
      have hcons := h.inv.pending _ List.mem_cons_self
      exact h.commit hinv rfl (hcons.mintedBy_transfer _ _)

/-- **The record holds after every run**, and of every ledger that an open frame would restore; from
the end of a transaction on, no id falls behind its stage. -/
theorem recorded_run {c c' : PassportStack} {as : List (CallStack.Action (Message Fn))}
    (hclosed : c.frames = []) (h : Recorded c.ledger [])
    (hrun : run (CallStack.step contract) c as = some c') :
    CallStack.Layered (fun l ps => Recorded l ps ∧
      ∀ id, (stage c.ledger.state id).rank ≤ (stage l.state id).rank) c' := by
  refine CallStack.layered_run ?_ ?_ ?_ ?_ ?_ hrun
  · rintro l b ⟨h, hstage⟩ hb
    exact ⟨h.frame (h.inv.mine b) hb rfl (fun e he => Or.inl he) rfl, hstage⟩
  · rintro l ps call s r ⟨h, hstage⟩ hstart
    have hstarts := contract_start_eq_ok.mp hstart
    exact ⟨h.commit (h.inv.start_done hstarts) (credential_done hstarts) (mintedBy_done hstarts),
      fun id => Nat.le_trans (hstage id) (h.inv.advances_done hstarts id).1⟩
  · rintro l ps call s rest ⟨h, hstage⟩ hstart
    have hstarts := contract_start_eq_ok.mp hstart
    exact ⟨h.frame (h.inv.start_calls hstarts) (le_refl _) (credential_calls hstarts)
      (fun e he => Or.inl he) rfl,
      fun id => Nat.le_trans (hstage id) (h.inv.advances_calls hstarts id).1⟩
  · rintro l call rest ps s r ⟨h, hstage⟩ hresume
    refine ⟨h.resumed hresume, fun id => ?_⟩
    rw [show stage (l.commit s call r).state id = _ from stage_resume hresume id]
    exact hstage id
  · exact CallStack.layered_closed c hclosed ⟨h, fun _ => Nat.le_refl _⟩

theorem recorded_deployed (deployer : Account) (b : Block) :
    Recorded (Ledger.deployed b (deploy deployer)) [] :=
  ⟨inv_deployed deployer b, fun _ he => absurd he List.not_mem_nil,
    fun _ hi => absurd hi List.not_mem_nil, fun _ hi => absurd hi List.not_mem_nil⟩

/-- A live id was returned by a mint, at the end of a transaction. -/
theorem Recorded.credentialsMatch (h : Recorded l []) : CredentialsMatch l := by
  have hids : minted l.history = List.range l.state.nextTokenId := by
    rw [← h.inv.ids, minting_nil, List.append_nil]
  have hlive : ∀ id, stage l.state id = .live → id ∈ minted l.history ∧ l.state.Exists id := by
    intro id hstage
    unfold stage at hstage
    split at hstage
    · exact absurd hstage (by simp)
    · next hle =>
      split at hstage
      · next hexists =>
        rw [hids, List.mem_range]
        exact ⟨Nat.not_le.mp hle, hexists⟩
      · exact absurd hstage (by simp)
  refine ⟨hids, ?_, fun i j hi hj hij => h.ordered i (hlive i hi).1 j (hlive j hj).1 hij⟩
  intro e he to' subjectHash credentialType uri expiresAt id hfn hres hstage
  obtain ⟨hmem, hexists⟩ := hlive id hstage
  have hstored := h.stored e he id (subjectHash, credentialType, e.block.timestamp, expiresAt)
    (by rw [issuedBy, hfn, hres])
  simp only [credential, Prod.mk.injEq] at hstored
  obtain ⟨hsubject, htype, htime, hexpiry⟩ := hstored
  have hlocked := (h.inv.lock_iff id).mpr ⟨hexists, List.not_mem_nil⟩
  have howner : l.state.token.ownerOf id = .ok (l.state.token.owners id) :=
    ERC721.ownerOf_eq_ok.mpr ⟨hexists, rfl⟩
  simp only [getCredentialInfo, bind_eq_ok, require_eq_ok, exists_const, pure_eq_ok]
  exact ⟨hexists, _, howner, by rw [hsubject, htype, htime, hexpiry, hlocked]⟩

/-- **The life of the credentials** in a reachable call stack. -/
structure CredentialLifecycle (c : PassportStack) : Prop where
  /-- The ids returned so far are `0, 1, 2, …` in this order. -/
  returned : minted c.ledger.history = List.range (minted c.ledger.history).length
  /-- At the end of a transaction the credentials match the history. -/
  credentials : c.frames = [] → CredentialsMatch c.ledger
  /-- A step that is not a rollback takes no id back and skips no stage. -/
  advances : ∀ act c', CallStack.step contract c act = some c' → act ≠ .reject → act ≠ .abort →
    Advances c.ledger.state c'.ledger.state
  /-- From the end of a transaction to the end of a later one no id is taken back: what is gone
  stays gone. -/
  monotone : c.frames = [] → ∀ as c', run (CallStack.step contract) c as = some c' →
    c'.frames = [] → ∀ id, (stage c.ledger.state id).rank ≤ (stage c'.ledger.state id).rank

/-- **Credential lifecycle and immutability.** -/
theorem credential_lifecycle (deployer : Account) (b : Block)
    (as : List (CallStack.Action (Message Fn))) (c : PassportStack)
    (hrun : run (CallStack.step contract) (CallStack.deployed b (deploy deployer)) as = some c) :
    CredentialLifecycle c := by
  have h := (recorded_run rfl (recorded_deployed deployer b) hrun).1.1
  refine ⟨?_, fun hframes => ?_, ?_, fun hframes as' c' hrun' _ => ?_⟩
  · have hinitial : minted c.ledger.history <+: List.range c.ledger.state.nextTokenId :=
      ⟨_, h.inv.ids⟩
    have htake := List.prefix_iff_eq_take.mp hinitial
    rw [List.take_range, Nat.min_eq_left (by simpa using hinitial.length_le)] at htake
    exact htake
  · rw [hframes] at h
    exact h.credentialsMatch
  · exact fun act c' hstep hreject habort =>
      h.inv.advances_step (CallStack.step_cases hstep) hreject habort
  · rw [hframes] at h
    exact (recorded_run hframes h hrun').1.2

/-- A refused mint, a mint whose receiver calls back, a later mint, and the end of the first
token. -/
def twoMints : List (CallStack.Action (Message Fn)) :=
  [.call ⟨acct 1, .safeMint 7 [0x61] [0x6b] [] 0⟩ true, .reject,
    .call ⟨acct 1, .safeMint 7 [0x73] [0x6b] [] 0⟩ true,
    .call ⟨acct 7, .setApprovalForAll 8 true⟩ true, .accept, .mine (blockAt 13 2),
    .call ⟨acct 1, .safeMint 9 [0x74] [0x6b] [] 99⟩ false, .call ⟨acct 1, .revoke 0 []⟩ false]

/-- The life of the credentials of two mints. -/
theorem credential_lifecycle_twoMints :
    ∃ c : PassportStack, run (CallStack.step contract)
        (CallStack.deployed (blockAt 1 1) (deploy (acct 1))) twoMints = some c ∧
      minted c.ledger.history = [0, 1] ∧ stage c.ledger.state 0 = .gone ∧
      getCredentialInfo c.ledger.state 1 = .ok ⟨[0x74], [0x6b], 13, 99, true, 9⟩ ∧
      CredentialLifecycle c := by
  obtain ⟨c, hrun, hminted, hgone, hinfo⟩ : ∃ c : PassportStack,
      run (CallStack.step contract) (CallStack.deployed (blockAt 1 1) (deploy (acct 1)))
        twoMints = some c ∧
      minted c.ledger.history = [0, 1] ∧ stage c.ledger.state 0 = .gone ∧
      getCredentialInfo c.ledger.state 1 = .ok ⟨[0x74], [0x6b], 13, 99, true, 9⟩ :=
    ⟨_, rfl, rfl, rfl, rfl⟩
  exact ⟨c, hrun, hminted, hgone, hinfo,
    credential_lifecycle (acct 1) (blockAt 1 1) twoMints c hrun⟩

end ReputationPassport.PassportSBT
