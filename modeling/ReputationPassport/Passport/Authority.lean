import ReputationPassport.Passport.Lifecycle

/-! # Who can create and destroy passports

Of all entry points, inherited ones included, only `safeMint` lets a token come into existence and
only `revoke` and `burn` let one cease to exist: `exists_done` and `exists_calls` say exactly which
tokens exist after the start of any call, and the rest of a call changes none
(`exists_resume`). Each of the three functions checks its caller in the state it starts in. At the
end of a transaction the tokens that exist are those the history minted and did not remove, and
every call in the history was authorised when it was made. -/

namespace ReputationPassport.PassportSBT

open Evm Machine OpenZeppelin

/-- The token a function asks to destroy. -/
def Fn.target : Fn → Option Nat
  | .revoke tokenId _ => some tokenId
  | .burn tokenId => some tokenId
  | _ => none

/-- The function is `safeMint`. -/
def Fn.IsMint (fn : Fn) : Prop :=
  ∃ to' subjectHash credentialType uri expiresAt,
    fn = .safeMint to' subjectHash credentialType uri expiresAt

/-- The tokens that successful calls removed, in the order of the calls. -/
def removed (history : List Call) : List Nat := history.filterMap fun e => e.call.fn.target

/-- The call mints, its caller is a minter and the contract is not paused. -/
def MayMint (s : State) (call : Message Fn) : Prop :=
  call.fn.IsMint ∧ s.roles minterRole call.sender = true ∧ s.paused = false

/-- The call revokes the token and its caller is a revoker, or it burns the token and its caller is
the owner or a revoker. -/
def MayRemove (s : State) (call : Message Fn) (id : Nat) : Prop :=
  (∃ reason, call.fn = .revoke id reason ∧ s.roles revokerRole call.sender = true) ∨
    call.fn = .burn id ∧
      (s.token.owners id = call.sender ∨ s.roles revokerRole call.sender = true)

@[simp] theorem removed_concat (history : List Call) (e : Call) :
    removed (history ++ [e]) = removed history ++ e.call.fn.target.toList := by
  rw [removed, List.filterMap_append]
  cases h : e.call.fn.target <;> simp [removed, h]

variable {l : PassportLedger} {ps : List Pending} {s : State} {a : Account} {fn : Fn}
  {call : Message Fn} {r : Option Nat} {rest : Rest} {id : Nat}

/-! ## Which tokens exist after a call -/

/-- Burning a token removes it and no other. -/
theorem exists_unlock_iff (s : State) (id : Nat) (events : List Event) (j : Nat) :
    (s.unlock (s.token.move 0 id) id events).Exists j ↔ s.Exists j ∧ some id ≠ some j := by
  have howners : (s.unlock (s.token.move 0 id) id events).token.owners =
      Function.update s.token.owners id 0 := rfl
  unfold State.Exists
  rw [howners]
  by_cases hj : j = id
  · rw [hj, Function.update_self]
    simp
  · rw [Function.update_of_ne hj]
    simp [Ne.symm hj]

/-- **After a call that is done at once** the tokens that exist are those before it, less the one
it names if it is a `revoke` or a `burn`. -/
theorem Inv.exists_done (h : Inv l ps) (hstart : Starts l.state a fn (.done s r)) (j : Nat) :
    s.Exists j ↔ l.state.Exists j ∧ fn.target ≠ some j := by
  cases hstart with
  | @revoke id reason role idle live islocked => exact exists_unlock_iff l.state id _ j
  | @burn id idle live auth => exact exists_unlock_iff l.state id _ j
  | transferFrom receiver free auth owner =>
      rw [exists_move_iff receiver (h.live_of_authorized auth)]
      simp [Fn.target]
  | approve live auth => exact (and_iff_left (by simp [Fn.target])).symm
  | setApprovalForAll other => exact (and_iff_left (by simp [Fn.target])).symm
  | setContractURI role => exact (and_iff_left (by simp [Fn.target])).symm
  | pause role unpaused => exact (and_iff_left (by simp [Fn.target])).symm
  | unpause role paused => exact (and_iff_left (by simp [Fn.target])).symm
  | role ok => exact (and_iff_left (by simp [Fn.target])).symm

/-- **After a call that hands over control** the tokens that exist are those before it, and the one
it is minting. -/
theorem Inv.exists_calls (h : Inv l ps)
    (hstart : Starts l.state call.sender call.fn (.calls s rest)) (j : Nat) :
    s.Exists j ↔ l.state.Exists j ∨ mintingBy (call, rest) = some j := by
  obtain ⟨a, fn⟩ := call
  cases hstart with
  | @safeMint to' subjectHash credentialType uri expiresAt role unpaused idle room receiver free =>
      have howners : (l.state.beginMint (l.state.token.move to' l.state.nextTokenId)).token.owners =
          Function.update l.state.token.owners l.state.nextTokenId to' := rfl
      unfold State.Exists
      rw [howners]
      by_cases hj : j = l.state.nextTokenId
      · rw [hj, Function.update_self]
        exact iff_of_true receiver (Or.inr rfl)
      · rw [Function.update_of_ne hj]
        simp [mintingBy, Ne.symm hj]
  | safeTransferFrom receiver free auth owner =>
      rw [exists_move_iff receiver (h.live_of_authorized auth)]
      simp [mintingBy]

/-- The rest of a call creates and destroys nothing. -/
theorem exists_resume {s s' : State} {b : Block} (hresume : resume b s rest = .ok (s', r))
    (j : Nat) : s'.Exists j ↔ s.Exists j := by
  cases rest with
  | mint sender tokenId subjectHash credentialType uri expiresAt =>
      obtain ⟨rfl, rfl⟩ := Prod.mk.inj (Except.ok.inj hresume)
      exact Iff.rfl
  | transfer =>
      obtain ⟨rfl, rfl⟩ := Prod.mk.inj (Except.ok.inj hresume)
      exact Iff.rfl

/-! ## Authority -/

/-- A call that starts a mint may mint, and mints the next id. -/
theorem mayMint_of_starts {s' : State}
    (hstart : Starts s call.sender call.fn (.calls s' rest))
    (hmint : mintingBy (call, rest) = some id) :
    MayMint s call ∧ id = s.nextTokenId ∧ ¬ s.Exists id := by
  obtain ⟨a, fn⟩ := call
  cases hstart with
  | safeMint role unpaused idle room receiver free =>
      obtain rfl := Option.some.inj hmint
      exact ⟨⟨⟨_, _, _, _, _, rfl⟩, role, unpaused⟩, rfl, not_not_intro free⟩
  | safeTransferFrom => exact absurd hmint (by simp [mintingBy])

/-- A call that names a token to destroy is done at once; the token exists and the call may remove
it. -/
theorem mayRemove_of_starts {p : Outcome} (hstart : Starts s call.sender call.fn p)
    (htarget : call.fn.target = some id) :
    MayRemove s call id ∧ s.Exists id ∧ s.entered = false ∧ ∃ s', p = .done s' none := by
  obtain ⟨a, fn⟩ := call
  cases hstart with
  | revoke role idle live islocked =>
      obtain rfl := Option.some.inj htarget
      exact ⟨Or.inl ⟨_, rfl, role⟩, live, idle, _, rfl⟩
  | burn idle live auth =>
      obtain rfl := Option.some.inj htarget
      exact ⟨Or.inr ⟨rfl, auth⟩, live, idle, _, rfl⟩
  | _ => exact absurd htarget (by simp [Fn.target])

/-- A `safeMint` that starts with success hands over control with the next id as the token it
mints. -/
theorem calls_of_isMint {p : Outcome} (hstart : Starts s call.sender call.fn p)
    (hmint : call.fn.IsMint) : ∃ s' rest, p = .calls s' rest ∧
      mintingBy (call, rest) = some s.nextTokenId := by
  obtain ⟨a, fn⟩ := call
  obtain ⟨to', subjectHash, credentialType, uri, expiresAt, hfn⟩ := hmint
  simp only at hfn hstart
  subst hfn
  cases hstart
  exact ⟨_, _, rfl, rfl⟩

/-- What a call that handed over control returns as minted is the token it was minting. -/
theorem mintingBy_of_mintedBy {s s' s₁ s₂ : State} {e : Call} {b : Block}
    (hstart : Starts s e.call.sender e.call.fn (.calls s' rest))
    (hresume : resume b s₁ rest = .ok (s₂, e.result)) (hminted : mintedBy e = some id) :
    mintingBy (e.call, rest) = some id := by
  obtain ⟨block, ⟨a, fn⟩, result⟩ := e
  cases hstart with
  | safeMint role unpaused idle room receiver free =>
      obtain ⟨-, rfl⟩ := Prod.mk.inj (Except.ok.inj hresume)
      exact hminted
  | safeTransferFrom => exact absurd hminted (by simp [mintedBy])

/-- **What a step does to the tokens**: it changes none, or it is the start of a call and changes
what that start changes. -/
theorem Inv.exists_step {c c' : PassportStack} {act : CallStack.Action (Message Fn)}
    (h : Inv c.ledger (CallStack.pendings c.frames)) (hstep : CallStack.Step contract c act c')
    (hreject : act ≠ .reject) (habort : act ≠ .abort) :
    (∀ j, c'.ledger.state.Exists j ↔ c.ledger.state.Exists j) ∨
    (∃ call code s r, act = .call call code ∧
      Starts c.ledger.state call.sender call.fn (.done s r) ∧
      ∀ j, c'.ledger.state.Exists j ↔ c.ledger.state.Exists j ∧ call.fn.target ≠ some j) ∨
    (∃ call code s rest, act = .call call code ∧
      Starts c.ledger.state call.sender call.fn (.calls s rest) ∧
      ∀ j, c'.ledger.state.Exists j ↔
        c.ledger.state.Exists j ∨ mintingBy (call, rest) = some j) := by
  cases hstep with
  | mine closed later => exact Or.inl fun _ => Iff.rfl
  | @done call code s r ok =>
      have hstart := contract_start_eq_ok.mp ok
      exact Or.inr (Or.inl ⟨call, code, s, r, rfl, hstart, h.exists_done hstart⟩)
  | @push call s rest ok =>
      have hstart := contract_start_eq_ok.mp ok
      exact Or.inr (Or.inr ⟨call, true, s, rest, rfl, hstart, h.exists_calls hstart⟩)
  | @through call s s' rest r ok resumed =>
      have hstart := contract_start_eq_ok.mp ok
      exact Or.inr (Or.inr ⟨call, false, s, rest, rfl, hstart, fun j =>
        (exists_resume resumed j).trans (h.exists_calls hstart j)⟩)
  | reverted => exact Or.inl fun _ => Iff.rfl
  | accept top resumed => exact Or.inl fun j => exists_resume resumed j
  | refused top resumed => exact absurd resumed resume_ne_error
  | reject top => exact absurd rfl hreject
  | enter => exact Or.inl fun _ => Iff.rfl
  | leave top => exact Or.inl fun _ => Iff.rfl
  | abort top => exact absurd rfl habort

/-! ## The tokens of a history -/

/-- **The account of the tokens**: those that were removed are those that were minted and do not
exist. -/
structure Accounted (l : PassportLedger) (ps : List Pending) : Prop where
  inv : Inv l ps
  gone : ∀ id, id ∈ removed l.history ↔ id ∈ minted l.history ∧ ¬ l.state.Exists id

/-- A token that exists while no mint waits was returned by a mint. -/
theorem Inv.minted_of_exists (h : Inv l ps) (hnone : minting ps = []) (hlive : l.state.Exists id) :
    id ∈ minted l.history := by
  have hwaiting : id ∉ minting ps := by
    rw [hnone]
    exact List.not_mem_nil
  cases h.live_of_owner hlive hwaiting with
  | live _ _ _ returned _ => exact returned

/-- A call that is done at once keeps the account. -/
theorem Accounted.start_done (h : Accounted l ps)
    (hstart : Starts l.state call.sender call.fn (.done s r)) :
    Accounted (l.commit s call r) ps := by
  refine ⟨h.inv.start_done hstart, fun j => ?_⟩
  rw [Ledger.commit_history, Ledger.commit_state, removed_concat, minted_concat,
    mintedBy_done hstart, Option.toList_none, List.append_nil, List.mem_append, h.gone,
    h.inv.exists_done hstart, Option.mem_toList]
  constructor
  · rintro (⟨hminted, hgone⟩ | htarget)
    · exact ⟨hminted, fun hlive => hgone hlive.1⟩
    · -- the guard was open, so the token that is removed was not being minted
      obtain ⟨-, hlive, idle, -⟩ := mayRemove_of_starts hstart htarget
      exact ⟨h.inv.minted_of_exists (h.inv.minting_of_idle idle) hlive,
        fun hstays => hstays.2 htarget⟩
  · rintro ⟨hminted, hgone⟩
    by_cases htarget : call.fn.target = some j
    · exact Or.inr htarget
    · exact Or.inl ⟨hminted, fun hlive => hgone ⟨hlive, htarget⟩⟩

/-- A call that hands over control keeps the account. -/
theorem Accounted.start_calls (h : Accounted l ps)
    (hstart : Starts l.state call.sender call.fn (.calls s rest)) :
    Accounted { l with state := s } ((call, rest) :: ps) := by
  refine ⟨h.inv.start_calls hstart, fun j => ?_⟩
  rw [h.gone, h.inv.exists_calls hstart, not_or]
  refine and_congr_right fun hminted => (and_iff_left fun hmint => ?_).symm
  -- the token that is being minted was not returned before
  obtain ⟨-, rfl, -⟩ := mayMint_of_starts hstart hmint
  exact Nat.lt_irrefl _ (h.inv.mem_iff.mp (Or.inl hminted))

/-- The rest of a pending call keeps the account. -/
theorem Accounted.resumed (h : Accounted l ((call, rest) :: ps))
    (hresume : resume l.block l.state rest = .ok (s, r)) : Accounted (l.commit s call r) ps := by
  refine ⟨h.inv.resumed hresume, fun j => ?_⟩
  have hcons := h.inv.pending _ List.mem_cons_self
  have hexists := exists_resume hresume j
  cases rest with
  | mint sender tokenId subjectHash credentialType uri expiresAt =>
      obtain ⟨rfl, rfl⟩ := Prod.mk.inj (Except.ok.inj hresume)
      have ⟨_, to', hfn⟩ := hcons
      have htarget : call.fn.target = none := by rw [show call.fn = _ from hfn]; rfl
      rw [Ledger.commit_history, removed_concat, minted_concat, htarget, hcons.mintedBy_mint,
        Option.toList_none, List.append_nil, Option.toList_some, List.mem_append,
        List.mem_singleton, h.gone, Ledger.commit_state, hexists]
      -- the token that was being minted exists, so it is not one of those that are gone
      have hlive : l.state.Exists tokenId := by
        have hwaiting : tokenId ∈ minting ((call, .mint sender tokenId subjectHash credentialType
            uri expiresAt) :: ps) := by
          rw [h.inv.minting_eq]
          exact List.mem_singleton_self _
        cases h.inv.minting_of_mem hwaiting with
        | minting owner => exact owner
      constructor
      · exact fun ⟨hminted, hgone⟩ => ⟨Or.inl hminted, hgone⟩
      · rintro ⟨hminted | rfl, hgone⟩
        · exact ⟨hminted, hgone⟩
        · exact absurd hlive hgone
  | transfer =>
      obtain ⟨rfl, rfl⟩ := Prod.mk.inj (Except.ok.inj hresume)
      have htarget : call.fn.target = none := by
        obtain ⟨_, _, _, _, hfn⟩ := hcons
        rw [show call.fn = _ from hfn]
        rfl
      rw [Ledger.commit_history, removed_concat, minted_concat, htarget, hcons.mintedBy_transfer,
        Option.toList_none, List.append_nil, List.append_nil]
      exact h.gone j

/-- **The account holds after every run.** -/
theorem accounted_run {deployer : Account} {b : Block} {as : List (CallStack.Action (Message Fn))}
    {c : PassportStack}
    (hrun : run (CallStack.step contract) (CallStack.deployed b (deploy deployer)) as = some c) :
    CallStack.Layered Accounted c := by
  refine CallStack.layered_run ?_ ?_ ?_ ?_ ?_ hrun
  · exact fun l b h _ => ⟨h.inv.mine b, h.gone⟩
  · exact fun l ps call s r h hstart => h.start_done (contract_start_eq_ok.mp hstart)
  · exact fun l ps call s rest h hstart => h.start_calls (contract_start_eq_ok.mp hstart)
  · exact fun l call rest ps s r h hresume => h.resumed hresume
  · refine CallStack.layered_closed _ rfl ⟨inv_deployed deployer b, fun id => ?_⟩
    exact iff_of_false List.not_mem_nil fun h => List.not_mem_nil h.1

/-- **At the end of a transaction** a token exists exactly when the history minted it and did not
remove it. -/
theorem Accounted.exists_iff (h : Accounted l []) :
    l.state.Exists id ↔ id ∈ minted l.history ∧ id ∉ removed l.history := by
  rw [h.gone, not_and, not_not]
  exact ⟨fun hlive => ⟨h.inv.minted_of_exists rfl hlive, fun _ => hlive⟩,
    fun ⟨hminted, hlive⟩ => hlive hminted⟩

/-! ## Every run -/

/-- **Only authorised calls create or destroy passports**, in a call stack a run has reached. -/
structure OnlyAuthorised (c₀ : PassportStack) (as : List (CallStack.Action (Message Fn)))
    (c : PassportStack) : Prop where
  /-- A step that is not a rollback creates only the next token, by a call that may mint. -/
  created : ∀ act c', CallStack.step contract c act = some c' → act ≠ .reject → act ≠ .abort →
    ∀ id, ¬ c.ledger.state.Exists id → c'.ledger.state.Exists id →
    ∃ call code, act = .call call code ∧ MayMint c.ledger.state call ∧
      id = c.ledger.state.nextTokenId
  /-- A step that is not a rollback removes only a token its call names and may remove. -/
  destroyed : ∀ act c', CallStack.step contract c act = some c' → act ≠ .reject → act ≠ .abort →
    ∀ id, c.ledger.state.Exists id → ¬ c'.ledger.state.Exists id →
    ∃ call code, act = .call call code ∧ MayRemove c.ledger.state call id
  /-- A rollback only undoes: it restores a ledger the run has been in. -/
  undone : ∀ act c', CallStack.step contract c act = some c' → act = .reject ∨ act = .abort →
    ∃ bs u, bs <+: as ∧ run (CallStack.step contract) c₀ bs = some u ∧ u.ledger = c'.ledger
  /-- A `safeMint` that passes its checks creates exactly one token. -/
  mints_one : ∀ call p, call.fn.IsMint →
    contract.start c.ledger.block c.ledger.state call = .ok p →
    MayMint c.ledger.state call ∧ ¬ c.ledger.state.Exists c.ledger.state.nextTokenId ∧
    ∃ s rest, p = .calls s rest ∧
      ∀ j, s.Exists j ↔ c.ledger.state.Exists j ∨ j = c.ledger.state.nextTokenId
  /-- A `revoke` or `burn` that passes its checks removes the token it names and no other. -/
  removes_one : ∀ call p id, call.fn.target = some id →
    contract.start c.ledger.block c.ledger.state call = .ok p →
    MayRemove c.ledger.state call id ∧ c.ledger.state.Exists id ∧
    ∃ s, p = .done s none ∧ ∀ j, s.Exists j ↔ c.ledger.state.Exists j ∧ j ≠ id
  /-- At the end of a transaction the tokens are those minted and not removed. -/
  accounted : c.frames = [] → ∀ id,
    c.ledger.state.Exists id ↔ id ∈ minted c.ledger.history ∧ id ∉ removed c.ledger.history
  /-- Every recorded mint was authorised in the state it was called in, and created its id there. -/
  minted_by : ∀ e ∈ c.ledger.history, ∀ id, mintedBy e = some id →
    ∃ bs code cs u, as = bs ++ .call e.call code :: cs ∧
      run (CallStack.step contract) c₀ bs = some u ∧ MayMint u.ledger.state e.call ∧
      id = u.ledger.state.nextTokenId ∧ ¬ u.ledger.state.Exists id
  /-- Every recorded removal was authorised in the state it was called in, where its token
  existed. -/
  removed_by : ∀ e ∈ c.ledger.history, ∀ id, e.call.fn.target = some id →
    ∃ bs code cs u, as = bs ++ .call e.call code :: cs ∧
      run (CallStack.step contract) c₀ bs = some u ∧ MayRemove u.ledger.state e.call id ∧
      u.ledger.state.Exists id

/-- **Passports are created and destroyed by authorised calls only**, after every run. -/
theorem only_authorised (deployer : Account) (b : Block)
    (as : List (CallStack.Action (Message Fn))) (c : PassportStack)
    (hrun : run (CallStack.step contract) (CallStack.deployed b (deploy deployer)) as = some c) :
    OnlyAuthorised (CallStack.deployed b (deploy deployer)) as c := by
  -- a step that is no rollback leaves the tokens as they are, or is the start of one call
  have h := (accounted_run hrun).1
  have horigin := CallStack.returned_of_run hrun
  refine ⟨?_, ?_, fun act c' hstep => CallStack.rollback_of_run rfl hrun hstep, ?_, ?_, ?_, ?_, ?_⟩
  · intro act c' hstep hreject habort id hnot hlive
    rcases h.inv.exists_step (CallStack.step_cases hstep) hreject habort with
      hsame | ⟨call, code, s, r, -, -, hafter⟩ | ⟨call, code, s, rest, hact, hstart, hafter⟩
    · exact absurd ((hsame id).mp hlive) hnot
    · exact absurd ((hafter id).mp hlive).1 hnot
    · obtain ⟨hmay, hid, -⟩ :=
        mayMint_of_starts hstart (((hafter id).mp hlive).resolve_left hnot)
      exact ⟨call, code, hact, hmay, hid⟩
  · intro act c' hstep hreject habort id hlive hnot
    rcases h.inv.exists_step (CallStack.step_cases hstep) hreject habort with
      hsame | ⟨call, code, s, r, hact, hstart, hafter⟩ | ⟨call, code, s, rest, -, -, hafter⟩
    · exact absurd ((hsame id).mpr hlive) hnot
    · have htarget : call.fn.target = some id := by
        by_contra hne
        exact hnot ((hafter id).mpr ⟨hlive, hne⟩)
      exact ⟨call, code, hact, (mayRemove_of_starts hstart htarget).1⟩
    · exact absurd ((hafter id).mpr (Or.inl hlive)) hnot
  · intro call p hmint hp
    have hstart := contract_start_eq_ok.mp hp
    obtain ⟨s, rest, rfl, hminting⟩ := calls_of_isMint hstart hmint
    obtain ⟨hmay, -, hfree⟩ := mayMint_of_starts hstart hminting
    refine ⟨hmay, hfree, s, rest, rfl, fun j => ?_⟩
    rw [h.inv.exists_calls hstart, hminting, Option.some.injEq, eq_comm]
  · intro call p id htarget hp
    have hstart := contract_start_eq_ok.mp hp
    obtain ⟨hmay, hlive, -, s, rfl⟩ := mayRemove_of_starts hstart htarget
    refine ⟨hmay, hlive, s, rfl, fun j => ?_⟩
    rw [h.inv.exists_done hstart, htarget, ne_eq, Option.some.injEq, eq_comm]
  · intro hframes id
    rw [hframes] at h
    exact h.exists_iff
  · intro e he id hminted
    rcases horigin e he with ⟨s, bs, code, cs, u, has, hu, hp⟩ |
      ⟨s, rest, b', s₁, s₂, ⟨bs, code, cs, u, has, hu, hp⟩, hresume⟩
    · have hnone := mintedBy_done (b := e.block) (contract_start_eq_ok.mp hp)
      exact absurd (hnone.symm.trans hminted) (by simp)
    · have hstart := contract_start_eq_ok.mp hp
      obtain ⟨hmay, hid, hfree⟩ :=
        mayMint_of_starts hstart (mintingBy_of_mintedBy hstart hresume hminted)
      exact ⟨bs, code, cs, u, has, hu, hmay, hid, hid ▸ hfree⟩
  · intro e he id htarget
    rcases horigin e he with ⟨s, bs, code, cs, u, has, hu, hp⟩ |
      ⟨s, rest, b', s₁, s₂, ⟨bs, code, cs, u, has, hu, hp⟩, -⟩
    · obtain ⟨hmay, hlive, -⟩ := mayRemove_of_starts (contract_start_eq_ok.mp hp) htarget
      exact ⟨bs, code, cs, u, has, hu, hmay, hlive⟩
    · obtain ⟨hmay, hlive, -⟩ := mayRemove_of_starts (contract_start_eq_ok.mp hp) htarget
      exact ⟨bs, code, cs, u, has, hu, hmay, hlive⟩

/-- A mint whose receiver tries to mint again, a burn by the owner and a revocation by someone
without the role: one token was minted and is gone. -/
def mintAndBurn : List (CallStack.Action (Message Fn)) :=
  [.call ⟨acct 1, .safeMint 7 [0x73] [] [] 0⟩ true,
    .call ⟨acct 7, .safeMint 7 [0x73] [] [] 0⟩ true, .accept,
    .call ⟨acct 8, .revoke 0 []⟩ false, .call ⟨acct 7, .burn 0⟩ false]

theorem only_authorised_mintAndBurn : ∃ c : PassportStack,
    run (CallStack.step contract) (CallStack.deployed (blockAt 1 1) (deploy (acct 1)))
      mintAndBurn = some c ∧
    minted c.ledger.history = [0] ∧ removed c.ledger.history = [0] ∧
    OnlyAuthorised (CallStack.deployed (blockAt 1 1) (deploy (acct 1))) mintAndBurn c := by
  obtain ⟨c, hrun, hminted, hremoved⟩ : ∃ c : PassportStack,
      run (CallStack.step contract) (CallStack.deployed (blockAt 1 1) (deploy (acct 1)))
        mintAndBurn = some c ∧
      minted c.ledger.history = [0] ∧ removed c.ledger.history = [0] := ⟨_, rfl, rfl, rfl⟩
  exact ⟨c, hrun, hminted, hremoved,
    only_authorised (acct 1) (blockAt 1 1) mintAndBurn c hrun⟩

end ReputationPassport.PassportSBT
