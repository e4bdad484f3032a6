import ReputationPassport.OpenZeppelin.Balances
import ReputationPassport.Passport.Index

/-! # Balances and token URIs

Two things ERC721 keeps beside the owners: how many tokens each account holds, and where the
metadata of each token is. In every reachable state, also while the receiver of a mint runs, the
balance of an account is the number of tokens it owns, so a check of a balance is as good as a
search (`balances_count`); and a token points, for as long as it exists, to the URI it was minted
with. -/

namespace ReputationPassport.PassportSBT

open Evm Machine OpenZeppelin

/-- The URI a call minted a token with. -/
def uriBy (e : Call) : Option (Nat × Bytes) :=
  match e.call.fn, e.result with
  | .safeMint _ _ _ uri _, some id => some (id, uri)
  | _, _ => none

/-- **The token book is in order**: balances count tokens, a mint returned its token, and the token
has its URI. -/
structure Booked (l : PassportLedger) (ps : List Pending) : Prop where
  inv : Inv l ps
  room : l.state.nextTokenId < wordSize
  counted : ERC721.Counted l.state.token l.state.nextTokenId
  uris : ∀ e ∈ l.history, ∀ id uri, uriBy e = some (id, uri) →
    l.state.token.tokenURIs id = uri
  returned : ∀ e ∈ l.history, e.call.fn.IsMint → ∃ id, e.result = some id

variable {l : PassportLedger} {ps : List Pending} {s : State} {call : Message Fn} {a : Account}
  {fn : Fn} {r : Option Nat} {rest : Rest} {id : Nat}

/-- A call that minted with a URI returned the id. -/
theorem mintedBy_of_uriBy {e : Call} {uri : Bytes} (h : uriBy e = some (id, uri)) :
    mintedBy e = some id := by
  unfold uriBy at h
  split at h
  · next hfn hres =>
    rw [mintedBy, hfn, hres]
    exact congrArg some (Prod.mk.inj (Option.some.inj h)).1
  · cases h

/-- The token book after a call that is done at once. -/
theorem Booked.token_done (h : Booked l ps) (hstart : Starts l.state a fn (.done s r)) :
    s.nextTokenId = l.state.nextTokenId ∧ s.token.tokenURIs = l.state.token.tokenURIs ∧
      ERC721.Counted s.token s.nextTokenId := by
  cases hstart with
  | revoke role idle live islocked =>
      exact ⟨rfl, rfl, h.counted.move (h.inv.lt_of_exists live) h.room 0⟩
  | burn idle live auth => exact ⟨rfl, rfl, h.counted.move (h.inv.lt_of_exists live) h.room 0⟩
  | transferFrom receiver free auth owner =>
      exact ⟨rfl, rfl,
        h.counted.move (h.inv.lt_of_exists (h.inv.live_of_authorized auth)) h.room _⟩
  | approve live auth => exact ⟨rfl, rfl, ⟨h.counted.below, h.counted.balance⟩⟩
  | setApprovalForAll other => exact ⟨rfl, rfl, ⟨h.counted.below, h.counted.balance⟩⟩
  | setContractURI role => exact ⟨rfl, rfl, h.counted⟩
  | pause role unpaused => exact ⟨rfl, rfl, h.counted⟩
  | unpause role paused => exact ⟨rfl, rfl, h.counted⟩
  | role ok => exact ⟨rfl, rfl, h.counted⟩

/-- **A call that is done at once keeps the book.** -/
theorem Booked.start_done (h : Booked l ps)
    (hstart : Starts l.state call.sender call.fn (.done s r)) : Booked (l.commit s call r) ps := by
  obtain ⟨hnext, huris, hcounted⟩ := h.token_done hstart
  refine ⟨h.inv.start_done hstart, ?_, hcounted, fun e he id uri hid => ?_, fun e he hmint => ?_⟩
  · rw [Ledger.commit_state, hnext]
    exact h.room
  · rw [Ledger.commit_history, List.mem_append, List.mem_singleton] at he
    rcases he with he | rfl
    · rw [Ledger.commit_state, huris]
      exact h.uris e he id uri hid
    · exact absurd ((mintedBy_done hstart).symm.trans (mintedBy_of_uriBy hid)) (by simp)
  · rw [Ledger.commit_history, List.mem_append, List.mem_singleton] at he
    rcases he with he | rfl
    · exact h.returned e he hmint
    · obtain ⟨s', rest, hcalls, -⟩ := calls_of_isMint hstart hmint
      cases hcalls

/-- **A call that hands over control keeps the book**: a mint adds the token it counts. -/
theorem Booked.start_calls (h : Booked l ps)
    (hstart : Starts l.state call.sender call.fn (.calls s rest)) :
    Booked { l with state := s } ((call, rest) :: ps) := by
  have hinv := h.inv.start_calls hstart
  obtain ⟨a, fn⟩ := call
  cases hstart with
  | safeMint role unpaused idle room receiver free =>
      refine ⟨hinv, room, ?_, h.uris, h.returned⟩
      exact h.counted.succ.move (Nat.lt_succ_self _) room _
  | safeTransferFrom receiver free auth owner =>
      refine ⟨hinv, h.room, ?_, h.uris, h.returned⟩
      exact h.counted.move (h.inv.lt_of_exists (h.inv.live_of_authorized auth)) h.room _

/-- The rest of a mint writes the URI of its token, and no other's. -/
theorem Booked.uris_finishMint {sender : Address} {tokenId expiresAt timestamp : Nat}
    {subjectHash credentialType uri uri' : Bytes} {e : Call}
    (h : Booked l ((call, .mint sender tokenId subjectHash credentialType uri expiresAt) :: ps))
    (he : e ∈ (l.commit (l.state.finishMint sender tokenId subjectHash credentialType uri
      expiresAt timestamp) call (some tokenId)).history)
    (hid : uriBy e = some (id, uri')) :
    (l.state.finishMint sender tokenId subjectHash credentialType uri expiresAt
      timestamp).token.tokenURIs id = uri' := by
  have ⟨_, to', hfn⟩ := h.inv.pending _ List.mem_cons_self
  have huris : (l.state.finishMint sender tokenId subjectHash credentialType uri expiresAt
      timestamp).token.tokenURIs = Function.update l.state.token.tokenURIs tokenId uri := rfl
  rw [huris]
  rw [Ledger.commit_history, List.mem_append, List.mem_singleton] at he
  rcases he with he | rfl
  · -- an id that was returned before is not the one that is minted now
    have hne : id ≠ tokenId := Nat.ne_of_lt (h.inv.lt_of_minted
      (List.mem_filterMap.mpr ⟨e, he, mintedBy_of_uriBy hid⟩))
    rw [Function.update_of_ne hne]
    exact h.uris e he id uri' hid
  · rw [uriBy, show call.fn = _ from hfn] at hid
    obtain ⟨rfl, rfl⟩ := Prod.mk.inj (Option.some.inj hid)
    rw [Function.update_self]

/-- **The rest of a pending call keeps the book**: a mint writes the URI of its token. -/
theorem Booked.resumed (h : Booked l ((call, rest) :: ps))
    (hresume : resume l.block l.state rest = .ok (s, r)) : Booked (l.commit s call r) ps := by
  have hinv := h.inv.resumed hresume
  have hcons := h.inv.pending _ List.mem_cons_self
  cases rest with
  | mint sender tokenId subjectHash credentialType uri expiresAt =>
      obtain ⟨rfl, rfl⟩ := Prod.mk.inj (Except.ok.inj hresume)
      refine ⟨hinv, h.room, ⟨h.counted.below, h.counted.balance⟩, fun e he id u hid => ?_,
        fun e he hmint => ?_⟩
      · exact h.uris_finishMint he hid
      · rw [Ledger.commit_history, List.mem_append, List.mem_singleton] at he
        rcases he with he | rfl
        · exact h.returned e he hmint
        · exact ⟨tokenId, rfl⟩
  | transfer =>
      obtain ⟨rfl, rfl⟩ := Prod.mk.inj (Except.ok.inj hresume)
      refine ⟨hinv, h.room, h.counted, fun e he id uri hid => ?_, fun e he hmint => ?_⟩
      · rw [Ledger.commit_history, List.mem_append, List.mem_singleton] at he
        rcases he with he | rfl
        · exact h.uris e he id uri hid
        · exact absurd ((hcons.mintedBy_transfer _ _).symm.trans (mintedBy_of_uriBy hid)) (by simp)
      · rw [Ledger.commit_history, List.mem_append, List.mem_singleton] at he
        rcases he with he | rfl
        · exact h.returned e he hmint
        · -- what waits for the receiver of a transfer is no mint
          obtain ⟨_, _, _, _, hfn⟩ := hcons
          obtain ⟨_, _, _, _, _, hfn'⟩ := hmint
          cases (show call.fn = _ from hfn).symm.trans hfn'

/-- **The book is in order after every run**, and in every ledger a rollback would restore. -/
theorem booked_run {deployer : Account} {b : Block} {as : List (CallStack.Action (Message Fn))}
    {c : PassportStack}
    (hrun : run (CallStack.step contract) (CallStack.deployed b (deploy deployer)) as = some c) :
    CallStack.Layered Booked c := by
  refine CallStack.layered_run ?_ ?_ ?_ ?_ ?_ hrun
  · exact fun l b h _ => ⟨h.inv.mine b, h.room, h.counted, h.uris, h.returned⟩
  · exact fun l ps call s r h hstart => h.start_done (contract_start_eq_ok.mp hstart)
  · exact fun l ps call s rest h hstart => h.start_calls (contract_start_eq_ok.mp hstart)
  · exact fun l call rest ps s r h hresume => h.resumed hresume
  · have hroom : (deploy deployer).nextTokenId < wordSize := Nat.two_pow_pos 256
    exact CallStack.layered_closed _ rfl ⟨inv_deployed deployer b, hroom,
      ⟨fun _ _ => rfl, fun _ _ => rfl⟩, fun _ he => absurd he List.not_mem_nil,
      fun _ he => absurd he List.not_mem_nil⟩

/-! ## What is reported about an issued passport -/

/-- The getters report a passport that exists: subject, type, time of issue, expiry, that it is
locked, where its metadata is, and whether it has expired by now. -/
structure Reported (b : Block) (s : State) (id : Nat) (subjectHash credentialType uri : Bytes)
    (issued expires : Nat) : Prop where
  info : ∃ owner ≠ 0,
    getCredentialInfo s id = .ok ⟨subjectHash, credentialType, issued, expires, true, owner⟩
  uri : s.token.tokenURI id = .ok uri
  expired : isExpired b s id = .ok (decide (0 < expires ∧ expires < b.timestamp))

/-- **A mint is reported until its token is removed**, at the end of a transaction, and always
listed for its subject. -/
theorem reported_of_mint (hrecorded : Recorded l []) (hbooked : Booked l [])
    (haccounted : Accounted l []) (hindexed : Indexed l []) {e : Call} (he : e ∈ l.history)
    {to' : Address} {subjectHash credentialType uri : Bytes} {expiresAt : Nat}
    (hfn : e.call.fn = .safeMint to' subjectHash credentialType uri expiresAt) :
    ∃ id, e.result = some id ∧ id ∈ getCredentialsBySubject l.state subjectHash ∧
      (id ∉ removed l.history →
        Reported l.block l.state id subjectHash credentialType uri e.block.timestamp expiresAt) ∧
      (id ∈ removed l.history →
        getCredentialInfo l.state id = .error (.reason "Token does not exist")) := by
  obtain ⟨id, hid⟩ := hbooked.returned e he ⟨_, _, _, _, _, hfn⟩
  have hissued : issuedBy e =
      some (id, subjectHash, credentialType, e.block.timestamp, expiresAt) := by
    rw [issuedBy, hfn, hid]
  -- the invariants speak of what was minted, by id
  have hminted : id ∈ minted l.history :=
    List.mem_filterMap.mpr ⟨e, he, mintedBy_of_issuedBy hissued⟩
  have hlt : id < l.state.nextTokenId := hbooked.inv.mem_minted_iff.mp hminted
  refine ⟨id, hid, ?_, fun hkept => ?_, fun hremoved => ?_⟩
  · rw [getCredentialsBySubject, hindexed.index, mem_issuedFor]
    exact ⟨_, List.mem_filterMap.mpr ⟨e, he, hissued⟩, rfl⟩
  · have hexists : l.state.Exists id := haccounted.exists_iff.mpr ⟨hminted, hkept⟩
    have hinfo := hrecorded.credentialsMatch.info e he to' subjectHash credentialType uri expiresAt
      id hfn hid (stage_eq_live hlt hexists)
    have huri : uriBy e = some (id, uri) := by rw [uriBy, hfn, hid]
    have hexpires : l.state.expiresAt id = expiresAt := by
      have hstored := hrecorded.stored e he id _ hissued
      simp only [credential, Prod.mk.injEq] at hstored
      exact hstored.2.2.2
    refine ⟨⟨_, hexists, hinfo⟩, ?_, ?_⟩
    · exact ERC721.tokenURI_eq_ok.mpr ⟨hexists, hbooked.uris e he id uri huri⟩
    · simp only [isExpired, bind_eq_ok, require_eq_ok, exists_const, pure_eq_ok, hexpires,
        gt_iff_lt]
      exact ⟨hexists, trivial⟩
  · exact (missing_of_not_exists ((haccounted.gone id).mp hremoved).2).1

/-- **Balances count tokens**: in every state a run reaches, in between and inside transactions, the
balance of every account is the number of minted tokens it owns. -/
theorem balances_count (deployer : Account) (b : Block)
    (as : List (CallStack.Action (Message Fn))) (c : PassportStack)
    (hrun : run (CallStack.step contract) (CallStack.deployed b (deploy deployer)) as = some c)
    (owner : Account) : c.ledger.state.token.balanceOf owner =
      some ((List.range c.ledger.state.nextTokenId).filter
        fun id => c.ledger.state.token.owners id = owner).length := by
  have h := (booked_run hrun).1.counted.balance owner owner.property
  rw [ERC721.balanceOf, if_neg owner.property, h, ERC721.held, Nat.count_eq_card_filter_range]
  rfl

/-- The balances after three mints and a revocation. -/
theorem balances_count_threeMints : ∃ c : PassportStack,
    run (CallStack.step contract) (CallStack.deployed (blockAt 1 1) (deploy (acct 1)))
      threeMints = some c ∧
    c.ledger.state.nextTokenId = 3 ∧ c.ledger.state.token.balanceOf (acct 7) =
      some ((List.range c.ledger.state.nextTokenId).filter
        fun id => c.ledger.state.token.owners id = (acct 7).val).length := by
  obtain ⟨c, hrun, hnext⟩ : ∃ c : PassportStack,
      run (CallStack.step contract) (CallStack.deployed (blockAt 1 1) (deploy (acct 1)))
        threeMints = some c ∧ c.ledger.state.nextTokenId = 3 := ⟨_, rfl, rfl⟩
  exact ⟨c, hrun, hnext, balances_count (acct 1) (blockAt 1 1) threeMints c hrun (acct 7)⟩

end ReputationPassport.PassportSBT
