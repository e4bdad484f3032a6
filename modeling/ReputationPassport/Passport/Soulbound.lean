import ReputationPassport.Passport.Invariant

/-! # When a passport token is bound to its receiver

The lock forbids to transfer a token, but `safeMint` sets it only after the receiver has been
called. The guard keeps the receiver from minting, revoking and burning in between; `transferFrom`
and `safeTransferFrom` are not guarded, so whoever may transfer the new token can do so once.
`soulbound_iff` shows that this is the only way a token can leave the address it was minted to. -/

namespace ReputationPassport.PassportSBT

open Evm Machine OpenZeppelin

/-- A call of `safeMint` for the given address. -/
def MintsTo (call : Message Fn) (to' : Address) : Prop :=
  ∃ subjectHash credentialType uri expiresAt,
    call.fn = .safeMint to' subjectHash credentialType uri expiresAt

/-- The id was created by a `safeMint` for the given address, which has returned it or is still
waiting for the receiver. -/
def CreatedFor (l : PassportLedger) (ps : List Pending) (id : Nat) (to' : Address) : Prop :=
  (∃ e ∈ l.history, mintedBy e = some id ∧ MintsTo e.call to') ∨
    ∃ p ∈ ps, mintingBy p = some id ∧ MintsTo p.1 to'

/-- **Soulbound**: every token that exists was created by a `safeMint`, and its owner is the address
that was passed to it. -/
structure Soulbound (c : PassportStack) : Prop where
  created : ∀ id, c.ledger.state.Exists id →
    ∃ to', CreatedFor c.ledger (CallStack.pendings c.frames) id to'
  bound : ∀ id to', CreatedFor c.ledger (CallStack.pendings c.frames) id to' →
    c.ledger.state.Exists id → c.ledger.state.token.owners id = to'

/-- **Ownership does not move in this step**: unless the step is a rollback, a token that exists
before and after it keeps its owner. -/
def Unmoved (c : PassportStack) (act : CallStack.Action (Message Fn)) : Prop :=
  ∀ c', CallStack.step contract c act = some c' → act ≠ .reject → act ≠ .abort →
    ∀ id, c.ledger.state.Exists id → c'.ledger.state.Exists id →
      c'.ledger.state.token.owners id = c.ledger.state.token.owners id

/-- A call of `transferFrom` or `safeTransferFrom`. -/
def Transfers (call : Message Fn) (from' to' : Address) (id : Nat) : Prop :=
  call.fn = .transferFrom from' to' id ∨ ∃ data, call.fn = .safeTransferFrom from' to' id data

/-- **The condition on a step**: nobody who is authorised for a token transfers it from its owner to
another address while the `safeMint` of this token waits for the receiver. -/
def NoPendingTransfer (c : PassportStack) (act : CallStack.Action (Message Fn)) : Prop :=
  ∀ call code from' to' id, act = .call call code → Transfers call from' to' id →
    id ∈ minting (CallStack.pendings c.frames) →
    c.ledger.state.token.Authorized call.sender id →
    c.ledger.state.token.owners id = from' → to' ≠ 0 → to' = from'

variable {l l' : PassportLedger} {ps ps' : List Pending} {s : State} {call : Message Fn}
  {r : Option Nat} {rest : Rest} {id : Nat} {to' : Address}

/-! ## How a token was created -/

/-- What created a token stays on record. -/
theorem CreatedFor.mono (h : CreatedFor l ps id to') (hhistory : l.history ⊆ l'.history)
    (hps : ps ⊆ ps') : CreatedFor l' ps' id to' := by
  rcases h with ⟨e, he, hcreated⟩ | ⟨p, hp, hcreated⟩
  · exact Or.inl ⟨e, hhistory he, hcreated⟩
  · exact Or.inr ⟨p, hps hp, hcreated⟩

/-- A recorded call that is no mint creates nothing. -/
theorem createdFor_commit (hmint : mintedBy ⟨l.block, call, r⟩ = none) :
    CreatedFor (l.commit s call r) ps id to' ↔ CreatedFor l ps id to' := by
  constructor
  · rintro (⟨e, he, hid, hto⟩ | hpending)
    · rw [Ledger.commit_history, List.mem_append, List.mem_singleton] at he
      rcases he with he | rfl
      · exact Or.inl ⟨e, he, hid, hto⟩
      · exact absurd (hmint.symm.trans hid) (by simp)
    · exact Or.inr hpending
  · exact fun h => h.mono (List.subset_append_left _ _) (List.Subset.refl _)

/-- The new pending call creates a token if it is a mint. -/
theorem createdFor_cons :
    CreatedFor l ((call, rest) :: ps) id to' ↔
      CreatedFor l ps id to' ∨ mintingBy (call, rest) = some id ∧ MintsTo call to' := by
  simp only [CreatedFor, List.mem_cons, exists_eq_or_imp]
  rw [or_assoc]
  exact or_congr_right or_comm

/-- What the rest of a call returns is what it was minting. -/
theorem mintedBy_resume {b : Block} {s s' : State} (hcons : Consistent (call, rest))
    (hresume : resume b s rest = .ok (s', r)) :
    mintedBy ⟨b, call, r⟩ = mintingBy (call, rest) := by
  cases rest with
  | mint sender tokenId subjectHash credentialType uri expiresAt =>
      obtain ⟨-, rfl⟩ := Prod.mk.inj (Except.ok.inj hresume)
      exact hcons.mintedBy_mint b _
  | transfer => exact hcons.mintedBy_transfer b r

/-- A call that returns goes from the pending calls to the history, and creates what it created. -/
theorem createdFor_resume (hcons : Consistent (call, rest))
    (hresume : resume l.block l.state rest = .ok (s, r)) :
    CreatedFor (l.commit s call r) ps id to' ↔ CreatedFor l ((call, rest) :: ps) id to' := by
  have hmint := mintedBy_resume hcons hresume
  rw [createdFor_cons]
  simp only [CreatedFor, Ledger.commit_history, List.mem_append, List.mem_singleton]
  constructor
  · rintro (⟨e, he | rfl, hid, hto⟩ | hpending)
    · exact Or.inl (Or.inl ⟨e, he, hid, hto⟩)
    · exact Or.inr ⟨hmint.symm.trans hid, hto⟩
    · exact Or.inl (Or.inr hpending)
  · rintro ((⟨e, he, hid, hto⟩ | hpending) | ⟨hid, hto⟩)
    · exact Or.inl ⟨e, Or.inl he, hid, hto⟩
    · exact Or.inr hpending
    · exact Or.inl ⟨_, Or.inr rfl, hmint.trans hid, hto⟩

/-- A created id was returned or is being minted. -/
theorem CreatedFor.mem (h : CreatedFor l ps id to') :
    id ∈ minted l.history ∨ id ∈ minting ps := by
  rcases h with ⟨e, he, hid, -⟩ | ⟨p, hp, hid, -⟩
  · exact Or.inl (List.mem_filterMap.mpr ⟨e, he, hid⟩)
  · exact Or.inr (List.mem_filterMap.mpr ⟨p, hp, hid⟩)

/-! ## The invariant -/

/-- **The invariant**: every token that exists belongs to the address it was created for. -/
structure Bound (l : PassportLedger) (ps : List Pending) : Prop where
  inv : Inv l ps
  created : ∀ id, l.state.Exists id → ∃ to', CreatedFor l ps id to'
  bound : ∀ id to', CreatedFor l ps id to' → l.state.Exists id → l.state.token.owners id = to'

/-- What creates no token, and moves none but to the zero address, keeps the invariant. -/
theorem Bound.frame (h : Bound l ps) (hinv : Inv l' ps')
    (hcreated : ∀ id to', CreatedFor l' ps' id to' ↔ CreatedFor l ps id to')
    (howner : ∀ id, l'.state.Exists id →
      l'.state.token.owners id = l.state.token.owners id) : Bound l' ps' := by
  have hexists : ∀ id, l'.state.Exists id → l.state.Exists id := by
    intro id hlive
    unfold State.Exists at hlive ⊢
    rwa [← howner id hlive]
  refine ⟨hinv, fun id hlive => ?_, fun id to' hto hlive => ?_⟩
  · obtain ⟨to', hto⟩ := h.created id (hexists id hlive)
    exact ⟨to', (hcreated id to').mpr hto⟩
  · rw [howner id hlive]
    exact h.bound id to' ((hcreated id to').mp hto) (hexists id hlive)

/-- A transfer that meets the condition leaves the token where it is. -/
theorem Inv.owner_of_transfer (h : Inv l ps) {a : Account} {from' : Address}
    (receiver : to' ≠ 0) (free : l.state.token.owners id ≠ 0 → l.state.lockedTokens id = false)
    (auth : l.state.token.Authorized a id) (owner : l.state.token.owners id = from')
    (hC : id ∈ minting ps → l.state.token.Authorized a id → l.state.token.owners id = from' →
      to' ≠ 0 → to' = from') (j : Nat) :
    (l.state.token.move to' id).owners j = l.state.token.owners j := by
  have hlive := h.live_of_authorized auth
  -- the override let the transfer pass, so the token is not locked yet
  have hminting : id ∈ minting ps := by
    by_contra hnot
    have hlocked := (h.lock_iff id).mpr ⟨hlive, hnot⟩
    exact Bool.false_ne_true ((free hlive).symm.trans hlocked)
  rw [ERC721.move_owners]
  by_cases hj : j = id
  · rw [hj, Function.update_self, hC hminting auth owner receiver, owner]
  · exact Function.update_of_ne hj ..

/-- A call that is done at once and meets the condition keeps the invariant. -/
theorem Bound.start_done (h : Bound l ps)
    (hstart : Starts l.state call.sender call.fn (.done s r))
    (hC : ∀ from' to' id, Transfers call from' to' id → id ∈ minting ps →
      l.state.token.Authorized call.sender id → l.state.token.owners id = from' → to' ≠ 0 →
      to' = from') : Bound (l.commit s call r) ps := by
  have hinv := h.inv.start_done hstart
  obtain ⟨a, fn⟩ := call
  have hunlock : ∀ id events j, (l.state.unlock (l.state.token.move 0 id) id events).Exists j →
      (l.state.token.move 0 id).owners j = l.state.token.owners j := by
    intro id events j hlive
    refine Function.update_of_ne (fun heq => hlive ?_) ..
    exact heq ▸ Function.update_self ..
  cases hstart with
  | revoke => exact h.frame hinv (fun _ _ => createdFor_commit rfl) (hunlock _ _)
  | burn => exact h.frame hinv (fun _ _ => createdFor_commit rfl) (hunlock _ _)
  | transferFrom receiver free auth owner =>
      refine h.frame hinv (fun _ _ => createdFor_commit rfl) fun j _ => ?_
      exact h.inv.owner_of_transfer receiver free auth owner (hC _ _ _ (Or.inl rfl)) j
  | approve => exact h.frame hinv (fun _ _ => createdFor_commit rfl) fun _ _ => rfl
  | setApprovalForAll => exact h.frame hinv (fun _ _ => createdFor_commit rfl) fun _ _ => rfl
  | setContractURI => exact h.frame hinv (fun _ _ => createdFor_commit rfl) fun _ _ => rfl
  | pause => exact h.frame hinv (fun _ _ => createdFor_commit rfl) fun _ _ => rfl
  | unpause => exact h.frame hinv (fun _ _ => createdFor_commit rfl) fun _ _ => rfl
  | role => exact h.frame hinv (fun _ _ => createdFor_commit rfl) fun _ _ => rfl

/-- The start of a mint keeps the invariant: the new token belongs to the receiver. -/
theorem Bound.beginMint (h : Bound l ps) {sender : Address} {token : ERC721}
    {subjectHash credentialType uri : Bytes} {expiresAt : Nat}
    (htoken : token.owners = Function.update l.state.token.owners l.state.nextTokenId to')
    (hto : ∀ t, MintsTo call t → t = to') (hmints : MintsTo call to')
    (hinv : Inv { l with state := l.state.beginMint token }
      ((call, .mint sender l.state.nextTokenId subjectHash credentialType uri expiresAt) :: ps)) :
    Bound { l with state := l.state.beginMint token }
      ((call, .mint sender l.state.nextTokenId subjectHash credentialType uri expiresAt) ::
        ps) := by
  -- the counter is above every id that was returned or is being minted
  have hfresh : ∀ t, ¬ CreatedFor l ps l.state.nextTokenId t := fun t hcreated =>
    Nat.lt_irrefl _ (h.inv.mem_iff.mp hcreated.mem)
  have hnew : (l.state.beginMint token).token.owners l.state.nextTokenId = to' :=
    (congrFun htoken _).trans (Function.update_self ..)
  have hold : ∀ j, j ≠ l.state.nextTokenId →
      (l.state.beginMint token).token.owners j = l.state.token.owners j := fun j hj =>
    (congrFun htoken j).trans (Function.update_of_ne hj ..)
  refine ⟨hinv, fun j hlive => ?_, fun j t hcreated hlive => ?_⟩
  · by_cases hj : j = l.state.nextTokenId
    · exact ⟨to', createdFor_cons.mpr (Or.inr ⟨congrArg some hj.symm, hmints⟩)⟩
    · unfold State.Exists at hlive
      rw [hold j hj] at hlive
      obtain ⟨t, ht⟩ := h.created j hlive
      exact ⟨t, createdFor_cons.mpr (Or.inl ht)⟩
  · by_cases hj : j = l.state.nextTokenId
    · subst hj
      rcases createdFor_cons.mp hcreated with hbefore | ⟨-, ht⟩
      · exact absurd hbefore (hfresh t)
      · exact hnew.trans (hto t ht).symm
    · unfold State.Exists at hlive
      rw [hold j hj] at hlive
      rcases createdFor_cons.mp hcreated with hbefore | ⟨hid, -⟩
      · exact (hold j hj).trans (h.bound j t hbefore hlive)
      · exact absurd (Option.some.inj hid).symm hj

/-- A call that hands over control and meets the condition keeps the invariant. -/
theorem Bound.start_calls (h : Bound l ps)
    (hstart : Starts l.state call.sender call.fn (.calls s rest))
    (hC : ∀ from' to' id, Transfers call from' to' id → id ∈ minting ps →
      l.state.token.Authorized call.sender id → l.state.token.owners id = from' → to' ≠ 0 →
      to' = from') : Bound { l with state := s } ((call, rest) :: ps) := by
  have hinv := h.inv.start_calls hstart
  obtain ⟨a, fn⟩ := call
  cases hstart with
  | safeMint role unpaused idle room receiver free =>
      refine h.beginMint rfl ?_ ⟨_, _, _, _, rfl⟩ hinv
      rintro t ⟨_, _, _, _, hfn⟩
      exact (Fn.safeMint.inj hfn).1.symm
  | safeTransferFrom receiver free auth owner =>
      refine h.frame hinv (fun j t => ?_) fun j _ => ?_
      · rw [createdFor_cons]
        exact or_iff_left fun hfalse => nomatch hfalse.1
      · exact h.inv.owner_of_transfer receiver free auth owner (hC _ _ _ (Or.inr ⟨_, rfl⟩)) j

/-- The rest of a pending call keeps the invariant. -/
theorem Bound.resumed (h : Bound l ((call, rest) :: ps))
    (hresume : resume l.block l.state rest = .ok (s, r)) : Bound (l.commit s call r) ps := by
  have hcons := h.inv.pending _ List.mem_cons_self
  refine h.frame (h.inv.resumed hresume) (fun _ _ => createdFor_resume hcons hresume) ?_
  cases rest with
  | mint =>
      obtain ⟨rfl, rfl⟩ := Prod.mk.inj (Except.ok.inj hresume)
      exact fun _ _ => rfl
  | transfer =>
      obtain ⟨rfl, rfl⟩ := Prod.mk.inj (Except.ok.inj hresume)
      exact fun _ _ => rfl

/-! ## Steps -/

variable {c c' : PassportStack} {act : CallStack.Action (Message Fn)}

/-- **A step that meets the condition keeps the invariant**, in every layer. -/
theorem layered_bound_step (h : CallStack.Layered Bound c) (hC : NoPendingTransfer c act)
    (hstep : CallStack.step contract c act = some c') : CallStack.Layered Bound c' := by
  refine h.step (CallStack.step_cases hstep) ?_ ?_ ?_ ?_
  · exact fun b _ _ hI => ⟨hI.inv.mine b, hI.created, hI.bound⟩
  · intro call code s r hact hstart
    refine h.1.start_done (contract_start_eq_ok.mp hstart) ?_
    exact fun from' to' id => hC call code from' to' id hact
  · intro call code s rest hact hstart
    refine h.1.start_calls (contract_start_eq_ok.mp hstart) ?_
    exact fun from' to' id => hC call code from' to' id hact
  · exact fun l call rest ps s r hI hresume => hI.resumed hresume

theorem soulbound_of_layered (h : CallStack.Layered Bound c) : Soulbound c :=
  ⟨h.1.created, h.1.bound⟩

/-- What created a token stays on record in every step that is not a rollback. -/
theorem CreatedFor.step (h : CreatedFor c.ledger (CallStack.pendings c.frames) id to')
    (hinv : Inv c.ledger (CallStack.pendings c.frames)) (hstep : CallStack.Step contract c act c')
    (hreject : act ≠ .reject) (habort : act ≠ .abort) :
    CreatedFor c'.ledger (CallStack.pendings c'.frames) id to' := by
  cases hstep with
  | mine closed later =>
      rw [closed] at h
      exact h
  | done ok => exact h.mono (List.subset_append_left _ _) (List.Subset.refl _)
  | push ok => exact h.mono (List.Subset.refl _) (List.subset_cons_self _ _)
  | through ok resumed => exact h.mono (List.subset_append_left _ _) (List.Subset.refl _)
  | reverted => exact h
  | accept top resumed =>
      rw [top] at h hinv
      exact (createdFor_resume (hinv.pending _ List.mem_cons_self) resumed).mpr h
  | @refused call rest saved frames e top resumed => cases rest <;> exact nomatch resumed
  | reject top => exact absurd rfl hreject
  | enter => exact h
  | leave top =>
      rw [top] at h
      exact h
  | abort top => exact absurd rfl habort

/-- Where the invariant holds before and after a step, the step moves no token. -/
theorem unmoved_of_layered (h : CallStack.Layered Bound c) (hC : NoPendingTransfer c act) :
    Unmoved c act := by
  intro c' hstep hreject habort id hlive hlive'
  obtain ⟨to', hcreated⟩ := h.1.created id hlive
  have hlater := hcreated.step h.1.inv (CallStack.step_cases hstep) hreject habort
  have hnext := (layered_bound_step h hC hstep).1
  rw [h.1.bound id to' hcreated hlive, hnext.bound id to' hlater hlive']

/-- **A step that misses the condition takes the token away** from the address it was minted to. -/
theorem not_soulbound_of_step (h : CallStack.Layered Bound c) (hC : ¬ NoPendingTransfer c act) :
    ∃ c', CallStack.step contract c act = some c' ∧ ¬ Soulbound c' := by
  simp only [NoPendingTransfer, not_forall] at hC
  obtain ⟨⟨m, fn⟩, code, from', to', id, rfl, htransfers, hminting, auth, howner, receiver, hne⟩ :=
    hC
  cases h.1.inv.minting_of_mem hminting with
  | minting hlive hunlocked _ _ _ =>
    obtain ⟨t, hcreated⟩ := h.1.created id hlive
    have hbefore := h.1.bound id t hcreated hlive
    -- the token now belongs to `to'`, and was created for its owner before
    suffices hmoved : ∃ c', CallStack.step contract c (.call ⟨m, fn⟩ code) = some c' ∧
        c'.ledger.state.token.owners id = to' ∧
        CreatedFor c'.ledger (CallStack.pendings c'.frames) id t by
      obtain ⟨c', hstep, hafter, hcreated'⟩ := hmoved
      refine ⟨c', hstep, fun hsoulbound => hne ?_⟩
      have hlive' : c'.ledger.state.Exists id := fun hzero => receiver (hafter.symm.trans hzero)
      rw [← hafter, hsoulbound.bound id t hcreated' hlive', ← hbefore, howner]
    have hself : (c.ledger.state.token.move to' id).owners id = to' := Function.update_self ..
    rcases htransfers with hfn | ⟨data, hfn⟩
    · obtain rfl : fn = .transferFrom from' to' id := hfn
      have hstart := (start_eq_ok (b := c.ledger.block) (c := ⟨m, .transferFrom from' to' id⟩)).mpr
        (.transferFrom receiver (fun _ => hunlocked) auth howner)
      refine ⟨_, CallStack.step_call_done hstart, hself, ?_⟩
      exact hcreated.mono (List.subset_append_left _ _) (List.Subset.refl _)
    · obtain rfl : fn = .safeTransferFrom from' to' id data := hfn
      have hstart := (start_eq_ok (b := c.ledger.block)
        (c := ⟨m, .safeTransferFrom from' to' id data⟩)).mpr
        (.safeTransferFrom receiver (fun _ => hunlocked) auth howner)
      cases code with
      | true =>
          refine ⟨_, CallStack.step_call_push hstart, hself, ?_⟩
          exact hcreated.mono (List.Subset.refl _) (List.subset_cons_self _ _)
      | false =>
          refine ⟨_, CallStack.step_call_through hstart rfl, hself, ?_⟩
          exact hcreated.mono (List.subset_append_left _ _) (List.Subset.refl _)

/-! ## Runs -/

theorem bound_deployed (deployer : Account) (b : Block) :
    Bound (Ledger.deployed b (deploy deployer)) [] where
  inv := inv_deployed deployer b
  created _ hlive := absurd rfl hlive
  bound _ _ _ hlive := absurd rfl hlive

/-- **Tokens are soulbound exactly in the runs without a transfer during the mint.** In every run,
tokens belong to the addresses they were minted to in every state and no step moves one, if and only
if nobody transfers a token to another address while its own mint waits for the receiver. -/
theorem soulbound_iff (deployer : Account) (b : Block)
    (as : List (CallStack.Action (Message Fn))) :
    Always (CallStack.step contract) Soulbound (CallStack.deployed b (deploy deployer)) as ∧
        Along (CallStack.step contract) Unmoved (CallStack.deployed b (deploy deployer)) as ↔
      Along (CallStack.step contract) NoPendingTransfer
        (CallStack.deployed b (deploy deployer)) as := by
  have hstart : CallStack.Layered Bound (CallStack.deployed b (deploy deployer)) :=
    CallStack.layered_closed _ rfl (bound_deployed deployer b)
  have hexact : Always (CallStack.step contract) Soulbound
        (CallStack.deployed b (deploy deployer)) as ↔
      Along (CallStack.step contract) NoPendingTransfer
        (CallStack.deployed b (deploy deployer)) as :=
    always_iff_along (fun _ h => soulbound_of_layered h)
      (fun _ _ _ h hC hstep => layered_bound_step h hC hstep)
      (fun _ _ h hC => not_soulbound_of_step h hC) hstart
  refine ⟨fun h => hexact.mp h.1, fun h => ⟨hexact.mpr h, ?_⟩⟩
  exact along_of_along (fun _ _ _ h hC hstep => layered_bound_step h hC hstep)
    (fun _ _ h hC => unmoved_of_layered h hC) hstart h

/-- **A token moved during its mint.** Account `7` is minted a token and transfers it to address
`8` before the mint is done: the token ends up locked with an owner it was not minted to. -/
theorem token_moved_during_mint :
    ∃ c : PassportStack, run (CallStack.step contract)
        (CallStack.deployed (blockAt 1 1) (deploy (acct 1)))
        [.call ⟨acct 1, .safeMint 7 [0x73] [0x6b] [] 0⟩ true,
          .call ⟨acct 7, .transferFrom 7 8 0⟩ true, .accept] = some c ∧
      c.frames = [] ∧ c.ledger.state.token.owners 0 = 8 ∧ c.ledger.state.lockedTokens 0 = true ∧
      ¬ Soulbound c := by
  obtain ⟨c, hrun, hframes, howner, hlocked, hcreated⟩ : ∃ c : PassportStack,
      run (CallStack.step contract) (CallStack.deployed (blockAt 1 1) (deploy (acct 1)))
        [.call ⟨acct 1, .safeMint 7 [0x73] [0x6b] [] 0⟩ true,
          .call ⟨acct 7, .transferFrom 7 8 0⟩ true, .accept] = some c ∧
      c.frames = [] ∧ c.ledger.state.token.owners 0 = 8 ∧ c.ledger.state.lockedTokens 0 = true ∧
      CreatedFor c.ledger (CallStack.pendings c.frames) 0 7 :=
    ⟨_, rfl, rfl, rfl, rfl, Or.inl ⟨_, List.mem_cons_of_mem _ List.mem_cons_self, rfl,
      _, _, _, _, rfl⟩⟩
  refine ⟨c, hrun, hframes, howner, hlocked, fun h => ?_⟩
  have hexists : c.ledger.state.Exists 0 := by
    rw [State.Exists, howner]
    decide
  have hbound := h.bound 0 7 hcreated hexists
  rw [howner] at hbound
  exact absurd hbound (by decide)

end ReputationPassport.PassportSBT
