import ReputationPassport.OpenZeppelin.AccessControl

/-! # OpenZeppelin 5.x: ERC721 and ERC721URIStorage

The token book: owners, balances, approvals and token URIs. Every function that moves a token does
so through the virtual function `_update`, which derived contracts override; here it is a parameter
`upd` of those functions. An override that does nothing but check a condition first is described by
`Guarded`, and what the functions do under it is stated once for all such overrides.

The library's own events are not recorded. The call to `onERC721Received` that ends `_safeMint` and
`safeTransferFrom` is left to the contract, which hands over control there. -/

namespace OpenZeppelin

open Evm

/-- The storage of ERC721 and ERC721URIStorage. -/
structure ERC721 where
  owners : Nat → Address
  balances : Address → Nat
  tokenApprovals : Nat → Address
  operatorApprovals : Address → Address → Bool
  tokenURIs : Nat → Bytes

/-- A virtual `_update(to, tokenId, auth)`: the new storage and the previous owner. -/
abbrev Update : Type := ERC721 → Address → Nat → Address → Result (ERC721 × Address)

namespace ERC721

/-- No token exists. -/
def empty : ERC721 := ⟨fun _ => 0, fun _ => 0, fun _ => 0, fun _ _ => false, fun _ => []⟩

/-- `_isAuthorized(owner, spender, tokenId)` for the current owner of the token. -/
def Authorized (t : ERC721) (spender : Address) (tokenId : Nat) : Prop :=
  spender ≠ 0 ∧ (t.owners tokenId = spender ∨
    t.operatorApprovals (t.owners tokenId) spender = true ∨ t.tokenApprovals tokenId = spender)

instance (t : ERC721) (spender : Address) (tokenId : Nat) :
    Decidable (t.Authorized spender tokenId) := inferInstanceAs (Decidable (_ ∧ _))

/-- `_checkAuthorized(owner, spender, tokenId)`. -/
def checkAuthorized (t : ERC721) (spender : Address) (tokenId : Nat) : Result Unit :=
  if t.Authorized spender tokenId then .ok ()
  else if t.owners tokenId = 0 then .error (.custom (.erc721NonexistentToken tokenId))
  else .error (.custom (.erc721InsufficientApproval spender tokenId))

@[simp] theorem checkAuthorized_eq_ok {t : ERC721} {spender : Address} {tokenId : Nat} {u : Unit} :
    t.checkAuthorized spender tokenId = .ok u ↔ t.Authorized spender tokenId := by
  unfold checkAuthorized
  by_cases h : t.Authorized spender tokenId
  · rw [if_pos h]
    exact iff_of_true rfl h
  · rw [if_neg h]
    refine iff_of_false ?_ h
    split <;> exact fun hok => nomatch hok

/-- The writes of `_update`: the approval of an existing token is cleared, the balances change
without a check, and the owner is replaced. -/
def move (t : ERC721) (to' : Address) (tokenId : Nat) : ERC721 :=
  let previousOwner := t.owners tokenId
  let debited := if previousOwner ≠ 0 then
      Function.update t.balances previousOwner
        ((t.balances previousOwner + (wordSize - 1)) % wordSize)
    else t.balances
  { t with
    tokenApprovals :=
      if previousOwner ≠ 0 then Function.update t.tokenApprovals tokenId 0 else t.tokenApprovals
    balances :=
      if to' ≠ 0 then Function.update debited to' ((debited to' + 1) % wordSize) else debited
    owners := Function.update t.owners tokenId to' }

@[simp] theorem move_owners (t : ERC721) (to' : Address) (tokenId : Nat) :
    (t.move to' tokenId).owners = Function.update t.owners tokenId to' := rfl

/-- The approvals of the other tokens stay. -/
theorem move_tokenApprovals_of_ne (t : ERC721) (to' : Address) {tokenId id : Nat}
    (h : id ≠ tokenId) : (t.move to' tokenId).tokenApprovals id = t.tokenApprovals id := by
  unfold move
  dsimp only
  split
  · exact Function.update_of_ne h ..
  · rfl

/-- A token that is moved and existed before has no approval left. -/
theorem move_tokenApprovals_self (t : ERC721) (to' : Address) {tokenId : Nat}
    (h : t.owners tokenId ≠ 0) : (t.move to' tokenId).tokenApprovals tokenId = 0 := by
  unfold move
  dsimp only
  rw [if_pos h, Function.update_self]

/-- `_update` as ERC721 defines it. -/
def update : Update := fun t to' tokenId auth => do
  let previousOwner := t.owners tokenId
  if auth ≠ 0 then t.checkAuthorized auth tokenId
  pure (t.move to' tokenId, previousOwner)

/-- `_requireOwned(tokenId)`, which is also `ownerOf(tokenId)`. -/
def ownerOf (t : ERC721) (tokenId : Nat) : Result Address := do
  ensure (t.owners tokenId ≠ 0) (.erc721NonexistentToken tokenId)
  pure (t.owners tokenId)

/-- `_mint(to, tokenId)`. -/
def mint (upd : Update) (t : ERC721) (to' : Address) (tokenId : Nat) : Result ERC721 := do
  ensure (to' ≠ 0) (.erc721InvalidReceiver 0)
  let (t', previousOwner) ← upd t to' tokenId 0
  ensure (previousOwner = 0) (.erc721InvalidSender 0)
  pure t'

/-- `_burn(tokenId)`. -/
def burn (upd : Update) (t : ERC721) (tokenId : Nat) : Result ERC721 := do
  let (t', previousOwner) ← upd t 0 tokenId 0
  ensure (previousOwner ≠ 0) (.erc721NonexistentToken tokenId)
  pure t'

/-- `transferFrom(from, to, tokenId)`. -/
def transferFrom (upd : Update) (t : ERC721) (sender : Account) (from' to' : Address)
    (tokenId : Nat) : Result ERC721 := do
  ensure (to' ≠ 0) (.erc721InvalidReceiver 0)
  let (t', previousOwner) ← upd t to' tokenId sender
  ensure (previousOwner = from') (.erc721IncorrectOwner from' tokenId previousOwner)
  pure t'

/-- `approve(to, tokenId)`. -/
def approve (t : ERC721) (sender : Account) (to' : Address) (tokenId : Nat) : Result ERC721 := do
  let owner ← t.ownerOf tokenId
  ensure (owner = sender ∨ t.operatorApprovals owner sender = true) (.erc721InvalidApprover sender)
  pure { t with tokenApprovals := Function.update t.tokenApprovals tokenId to' }

/-- `setApprovalForAll(operator, approved)`. -/
def setApprovalForAll (t : ERC721) (sender : Account) (operator : Address) (approved : Bool) :
    Result ERC721 := do
  ensure (operator ≠ 0) (.erc721InvalidOperator operator)
  pure { t with
    operatorApprovals := Function.update t.operatorApprovals sender
      (Function.update (t.operatorApprovals sender) operator approved) }

/-- `_setTokenURI(tokenId, uri)`. -/
def setTokenURI (t : ERC721) (tokenId : Nat) (uri : Bytes) : ERC721 :=
  { t with tokenURIs := Function.update t.tokenURIs tokenId uri }

@[simp] theorem ownerOf_eq_ok {t : ERC721} {tokenId : Nat} {owner : Address} :
    t.ownerOf tokenId = .ok owner ↔ t.owners tokenId ≠ 0 ∧ t.owners tokenId = owner := by
  simp [ownerOf]

@[simp] theorem approve_eq_ok {t t' : ERC721} {sender : Account} {to' : Address} {tokenId : Nat} :
    t.approve sender to' tokenId = .ok t' ↔ t.owners tokenId ≠ 0 ∧
      (t.owners tokenId = sender ∨ t.operatorApprovals (t.owners tokenId) sender = true) ∧
      { t with tokenApprovals := Function.update t.tokenApprovals tokenId to' } = t' := by
  simp only [approve, bind_eq_ok, ownerOf_eq_ok, ensure_eq_ok, pure_eq_ok, exists_const, and_assoc,
    exists_and_left, exists_eq_left']

@[simp] theorem setApprovalForAll_eq_ok {t t' : ERC721} {sender : Account} {operator : Address}
    {approved : Bool} :
    t.setApprovalForAll sender operator approved = .ok t' ↔ operator ≠ 0 ∧
      { t with
        operatorApprovals := Function.update t.operatorApprovals sender
          (Function.update (t.operatorApprovals sender) operator approved) } = t' := by
  simp [setApprovalForAll]

/-! ## Overrides that add a guard -/

/-- **An override of `_update` that only adds a guard**: it succeeds when the guard and the check of
the authorisation pass, and then does what ERC721 does. -/
def Guarded (upd : Update) (guard : ERC721 → Address → Nat → Prop) : Prop :=
  ∀ t to' tokenId auth t' previousOwner, upd t to' tokenId auth = .ok (t', previousOwner) ↔
    guard t to' tokenId ∧ (auth = 0 ∨ t.Authorized auth tokenId) ∧ t.move to' tokenId = t' ∧
      t.owners tokenId = previousOwner

/-- ERC721's own `_update` adds none. -/
theorem update_guarded : Guarded update fun _ _ _ => True := by
  intro t to' tokenId auth t' previousOwner
  unfold update
  by_cases h : auth = 0
  · rw [if_neg (not_not.mpr h), or_iff_left_of_imp (fun hauth => absurd h hauth.1)]
    simp [h]
  · rw [if_pos h, or_iff_right h]
    simp

variable {upd : Update} {guard : ERC721 → Address → Nat → Prop} {t t' : ERC721} {to' : Address}
  {tokenId : Nat}

/-- `_mint` succeeds for a receiver other than zero and a token that does not exist. -/
theorem Guarded.mint_eq_ok (h : Guarded upd guard) : t.mint upd to' tokenId = .ok t' ↔
    to' ≠ 0 ∧ guard t to' tokenId ∧ t.owners tokenId = 0 ∧ t.move to' tokenId = t' := by
  simp only [mint, bind_eq_ok, ensure_eq_ok, pure_eq_ok, exists_const, Prod.exists]
  simp only [h t to' tokenId 0]
  grind

/-- `_burn` succeeds for a token that exists. -/
theorem Guarded.burn_eq_ok (h : Guarded upd guard) : t.burn upd tokenId = .ok t' ↔
    guard t 0 tokenId ∧ t.owners tokenId ≠ 0 ∧ t.move 0 tokenId = t' := by
  simp only [burn, bind_eq_ok, ensure_eq_ok, pure_eq_ok, exists_const, Prod.exists]
  simp only [h t 0 tokenId 0]
  grind

/-- `transferFrom` succeeds for an authorised sender who names the owner of the token. -/
theorem Guarded.transferFrom_eq_ok (h : Guarded upd guard) {sender : Account} {from' : Address} :
    t.transferFrom upd sender from' to' tokenId = .ok t' ↔
      to' ≠ 0 ∧ guard t to' tokenId ∧ t.Authorized sender tokenId ∧ t.owners tokenId = from' ∧
        t.move to' tokenId = t' := by
  have hsender : (sender : Address) ≠ 0 := sender.property
  simp only [transferFrom, bind_eq_ok, ensure_eq_ok, pure_eq_ok, exists_const, Prod.exists]
  simp only [h t to' tokenId sender]
  grind

end ERC721

end OpenZeppelin
