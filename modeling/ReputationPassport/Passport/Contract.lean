import ReputationPassport.Machine.CallStack
import ReputationPassport.OpenZeppelin.ERC721

/-! # The passport token

`PassportSBT.sol`: a credential is an ERC721 token that its own lock makes untransferable.
`safeMint` hands over control to the receiver before it sets the lock and stores the credential, so
the contract is given as a `Machine.Contract`: `start` runs a call up to `onERC721Received`, and
`resume` does the rest.

`_approvedIssuers` and the event `CredentialExpired` are declared in the source and used by no
function, and `supportsInterface` reads no storage; they have no counterpart here. -/

namespace ReputationPassport.PassportSBT

open Evm Machine OpenZeppelin

/-- `MINTER_ROLE = keccak256("MINTER_ROLE")`. -/
def minterRole : Bytes32 :=
  0x9f2df0fed2c77648de5860a4cc508cd0818c85b8b8a1ab4ceeef8d981c8956a6

/-- `ISSUER_ROLE = keccak256("ISSUER_ROLE")`, which no function asks for. -/
def issuerRole : Bytes32 :=
  0x114e74f6ea3bd819998f78687bfcb11b140da08e9b7d222fa9c1f1ba1f2aa122

/-- `REVOKER_ROLE = keccak256("REVOKER_ROLE")`. -/
def revokerRole : Bytes32 :=
  0xce3f34913921da558f105cefb578d87278debbbd073a8d552b5de0d168deee30

/-- The events of the contract and of ERC-5192. -/
inductive Event where
  | locked (tokenId : Nat)
  | unlocked (tokenId : Nat)
  | credentialIssued (tokenId : Nat) (issuer : Address) (subjectHash credentialType : Bytes)
      (issuedAt expiresAt : Nat)
  | credentialRevoked (tokenId : Nat) (revoker : Address) (reason : Bytes)
  deriving DecidableEq

/-- The storage of the contract, with the events it has emitted. -/
structure State where
  token : ERC721
  roles : Roles
  paused : Bool
  entered : Bool
  nextTokenId : Nat
  lockedTokens : Nat → Bool
  credentialTypes : Nat → Bytes
  subjectHashes : Nat → Bytes
  issuedAt : Nat → Nat
  expiresAt : Nat → Nat
  subjectCredentials : Bytes → List Nat
  contractURI : Bytes
  logs : List Event

/-- The constructor: the deployer is admin, minter, issuer and revoker. -/
def deploy (deployer : Account) : State where
  token := ERC721.empty
  roles := grantRoleTo (grantRoleTo (grantRoleTo (grantRoleTo noRoles defaultAdminRole deployer)
    minterRole deployer) issuerRole deployer) revokerRole deployer
  paused := false
  entered := false
  nextTokenId := 0
  lockedTokens := fun _ => false
  credentialTypes := fun _ => []
  subjectHashes := fun _ => []
  issuedAt := fun _ => 0
  expiresAt := fun _ => 0
  subjectCredentials := fun _ => []
  contractURI := "https://api.reputation-passport.io/metadata/contract".toUTF8.toList
  logs := []

/-- The override of `_update`: a locked token goes from no owner to another. -/
def update (lockedTokens : Nat → Bool) : Update := fun t to' tokenId auth => do
  let from' := t.owners tokenId
  -- a mint comes from the zero address and a burn goes to it, so neither asks for the lock
  if from' ≠ 0 ∧ to' ≠ 0 then
    require (lockedTokens tokenId = false) "Soulbound: token is locked"
  ERC721.update t to' tokenId auth

/-- What a call has still to do when the account it called returns. -/
inductive Rest where
  | mint (sender : Address) (tokenId : Nat) (subjectHash credentialType uri : Bytes)
      (expiresAt : Nat)
  | transfer

/-- How far a call gets before it hands over control. -/
abbrev Outcome : Type := Progress State Rest (Option Nat)

/-- The storage while a mint waits for the receiver: the token has its owner and the guard is
closed. -/
def State.beginMint (s : State) (token : ERC721) : State :=
  { s with token, nextTokenId := s.nextTokenId + 1, entered := true }

/-- The storage after the rest of `safeMint`: token URI, lock and credential are written, and the
guard is open again. -/
def State.finishMint (s : State) (sender : Address) (tokenId : Nat)
    (subjectHash credentialType uri : Bytes) (expiresAt timestamp : Nat) : State :=
  { s with
    token := s.token.setTokenURI tokenId uri
    lockedTokens := Function.update s.lockedTokens tokenId true
    credentialTypes := Function.update s.credentialTypes tokenId credentialType
    subjectHashes := Function.update s.subjectHashes tokenId subjectHash
    issuedAt := Function.update s.issuedAt tokenId timestamp
    expiresAt := Function.update s.expiresAt tokenId expiresAt
    subjectCredentials := Function.update s.subjectCredentials subjectHash
      (s.subjectCredentials subjectHash ++ [tokenId])
    logs := s.logs ++ [.locked tokenId,
      .credentialIssued tokenId sender subjectHash credentialType timestamp expiresAt]
    entered := false }

/-- The storage after a token was burned: the lock is cleared and the events follow. -/
def State.unlock (s : State) (token : ERC721) (tokenId : Nat) (events : List Event) : State :=
  { s with
    token
    lockedTokens := Function.update s.lockedTokens tokenId false
    logs := s.logs ++ .unlocked tokenId :: events }

/-- `safeMint`, up to the call of `onERC721Received` in `_safeMint`. -/
def safeMint (s : State) (sender : Account) (to' : Address)
    (subjectHash credentialType uri : Bytes) (expiresAt : Nat) : Result Outcome := do
  onlyRole s.roles minterRole sender
  whenNotPaused s.paused
  nonReentrant s.entered
  let tokenId := s.nextTokenId
  let _ ← checkedAdd tokenId 1
  let token ← s.token.mint (update s.lockedTokens) to' tokenId
  -- the receiver is called here, before the lock is set
  pure (.calls (s.beginMint token)
    (.mint sender tokenId subjectHash credentialType uri expiresAt))

/-- `_exists`. -/
def State.Exists (s : State) (tokenId : Nat) : Prop := s.token.owners tokenId ≠ 0

instance (s : State) (tokenId : Nat) : Decidable (s.Exists tokenId) :=
  inferInstanceAs (Decidable (_ ≠ _))

/-- `revoke`. -/
def revoke (s : State) (sender : Account) (tokenId : Nat) (reason : Bytes) : Result State := do
  onlyRole s.roles revokerRole sender
  nonReentrant s.entered
  require (s.Exists tokenId) "Token does not exist"
  require (s.lockedTokens tokenId = true) "Token is not locked"
  let token ← s.token.burn (update s.lockedTokens) tokenId
  pure (s.unlock token tokenId [.credentialRevoked tokenId sender reason])

/-- `burn`. -/
def burn (s : State) (sender : Account) (tokenId : Nat) : Result State := do
  nonReentrant s.entered
  let owner ← s.token.ownerOf tokenId
  require (owner = sender ∨ s.roles revokerRole sender = true) "Not owner or revoker"
  let token ← s.token.burn (update s.lockedTokens) tokenId
  pure (s.unlock token tokenId [])

/-- `locked`. -/
def locked (s : State) (tokenId : Nat) : Result Bool := do
  require (s.Exists tokenId) "Token does not exist"
  pure (s.lockedTokens tokenId)

/-- What `getCredentialInfo` returns. -/
structure CredentialInfo where
  subjectHash : Bytes
  credentialType : Bytes
  issuedAt : Nat
  expiresAt : Nat
  isLocked : Bool
  owner : Address
  deriving DecidableEq

/-- `getCredentialInfo`. -/
def getCredentialInfo (s : State) (tokenId : Nat) : Result CredentialInfo := do
  require (s.Exists tokenId) "Token does not exist"
  let owner ← s.token.ownerOf tokenId
  pure ⟨s.subjectHashes tokenId, s.credentialTypes tokenId, s.issuedAt tokenId,
    s.expiresAt tokenId, s.lockedTokens tokenId, owner⟩

/-- `getCredentialsBySubject`. -/
def getCredentialsBySubject (s : State) (subjectHash : Bytes) : List Nat :=
  s.subjectCredentials subjectHash

/-- `isExpired`. -/
def isExpired (b : Block) (s : State) (tokenId : Nat) : Result Bool := do
  require (s.Exists tokenId) "Token does not exist"
  pure (decide (s.expiresAt tokenId > 0 ∧ b.timestamp > s.expiresAt tokenId))

/-- The functions that change the state, the inherited ones included. -/
inductive Fn where
  | safeMint (to' : Address) (subjectHash credentialType uri : Bytes) (expiresAt : Nat)
  | revoke (tokenId : Nat) (reason : Bytes)
  | burn (tokenId : Nat)
  | transferFrom (from' to' : Address) (tokenId : Nat)
  | safeTransferFrom (from' to' : Address) (tokenId : Nat) (data : Bytes)
  | approve (to' : Address) (tokenId : Nat)
  | setApprovalForAll (operator : Address) (approved : Bool)
  | setContractURI (uri : Bytes)
  | pause
  | unpause
  | role (call : RoleCall)

/-- Start a call: run it until it returns or calls `onERC721Received`. -/
def start (_ : Block) (s : State) (c : Message Fn) : Result Outcome :=
  match c.fn with
  | .safeMint to' subjectHash credentialType uri expiresAt =>
      safeMint s c.sender to' subjectHash credentialType uri expiresAt
  | .revoke tokenId reason => do
      let s' ← revoke s c.sender tokenId reason
      pure (.done s' none)
  | .burn tokenId => do
      let s' ← burn s c.sender tokenId
      pure (.done s' none)
  | .transferFrom from' to' tokenId => do
      let token ← s.token.transferFrom (update s.lockedTokens) c.sender from' to' tokenId
      pure (.done { s with token } none)
  | .safeTransferFrom from' to' tokenId _ => do
      let token ← s.token.transferFrom (update s.lockedTokens) c.sender from' to' tokenId
      pure (.calls { s with token } .transfer)
  | .approve to' tokenId => do
      let token ← s.token.approve c.sender to' tokenId
      pure (.done { s with token } none)
  | .setApprovalForAll operator approved => do
      let token ← s.token.setApprovalForAll c.sender operator approved
      pure (.done { s with token } none)
  | .setContractURI uri => do
      onlyRole s.roles defaultAdminRole c.sender
      pure (.done { s with contractURI := uri } none)
  | .pause => do
      onlyRole s.roles defaultAdminRole c.sender
      whenNotPaused s.paused
      pure (.done { s with paused := true } none)
  | .unpause => do
      onlyRole s.roles defaultAdminRole c.sender
      whenPaused s.paused
      pure (.done { s with paused := false } none)
  | .role call => do
      let roles ← call.exec s.roles c.sender
      pure (.done { s with roles } none)

/-- Resume a call after `onERC721Received` has returned; only `safeMint` returns a value, the new
id. -/
def resume (b : Block) (s : State) : Rest → Result (State × Option Nat)
  | .mint sender tokenId subjectHash credentialType uri expiresAt =>
      pure (s.finishMint sender tokenId subjectHash credentialType uri expiresAt b.timestamp,
        some tokenId)
  | .transfer => pure (s, none)

/-- The contract. -/
def contract : Contract State (Message Fn) Rest (Option Nat) (Revert OzError) := ⟨start, resume⟩

/-! ## What the start of a call can do -/

/-- The override only adds a guard: a token with an owner gets another one only unlocked. -/
theorem update_guarded (lockedTokens : Nat → Bool) :
    ERC721.Guarded (update lockedTokens) fun t to' tokenId =>
      t.owners tokenId ≠ 0 → to' ≠ 0 → lockedTokens tokenId = false := by
  intro t to' tokenId auth t' previousOwner
  unfold update
  by_cases h : t.owners tokenId ≠ 0 ∧ to' ≠ 0
  · rw [if_pos h]
    simp only [bind_eq_ok, require_eq_ok, exists_const]
    rw [ERC721.update_guarded t to' tokenId auth t' previousOwner, true_and]
    exact and_congr_left fun _ => ⟨fun hlock _ _ => hlock, fun hlock => hlock h.1 h.2⟩
  · rw [if_neg h]
    change ERC721.update t to' tokenId auth = _ ↔ _
    rw [ERC721.update_guarded t to' tokenId auth t' previousOwner]
    exact and_congr_left fun _ => iff_of_true trivial fun hfrom hto => absurd ⟨hfrom, hto⟩ h

/-- **The ways a call can start with success**, one constructor for each function, with the guards
it has passed and how far it gets. -/
inductive Starts (s : State) (a : Account) : Fn → Outcome → Prop where
  | safeMint {to' : Address} {subjectHash credentialType uri : Bytes} {expiresAt : Nat}
      (role : s.roles minterRole a = true) (unpaused : s.paused = false)
      (idle : s.entered = false) (room : s.nextTokenId + 1 < wordSize) (receiver : to' ≠ 0)
      (free : s.token.owners s.nextTokenId = 0) :
      Starts s a (.safeMint to' subjectHash credentialType uri expiresAt)
        (.calls (s.beginMint (s.token.move to' s.nextTokenId))
          (.mint a s.nextTokenId subjectHash credentialType uri expiresAt))
  | revoke {id : Nat} {reason : Bytes} (role : s.roles revokerRole a = true)
      (idle : s.entered = false) (live : s.token.owners id ≠ 0)
      (islocked : s.lockedTokens id = true) :
      Starts s a (.revoke id reason)
        (.done (s.unlock (s.token.move 0 id) id [.credentialRevoked id a reason]) none)
  | burn {id : Nat} (idle : s.entered = false) (live : s.token.owners id ≠ 0)
      (auth : s.token.owners id = a ∨ s.roles revokerRole a = true) :
      Starts s a (.burn id) (.done (s.unlock (s.token.move 0 id) id []) none)
  | transferFrom {from' to' : Address} {id : Nat} (receiver : to' ≠ 0)
      (free : s.token.owners id ≠ 0 → s.lockedTokens id = false)
      (auth : s.token.Authorized a id) (owner : s.token.owners id = from') :
      Starts s a (.transferFrom from' to' id)
        (.done { s with token := s.token.move to' id } none)
  | safeTransferFrom {from' to' : Address} {id : Nat} {data : Bytes} (receiver : to' ≠ 0)
      (free : s.token.owners id ≠ 0 → s.lockedTokens id = false)
      (auth : s.token.Authorized a id) (owner : s.token.owners id = from') :
      Starts s a (.safeTransferFrom from' to' id data)
        (.calls { s with token := s.token.move to' id } .transfer)
  | approve {to' : Address} {id : Nat} (live : s.token.owners id ≠ 0)
      (auth : s.token.owners id = a ∨
        s.token.operatorApprovals (s.token.owners id) a = true) :
      Starts s a (.approve to' id)
        (.done { s with token := { s.token with
          tokenApprovals := Function.update s.token.tokenApprovals id to' } } none)
  | setApprovalForAll {operator : Address} {approved : Bool} (other : operator ≠ 0) :
      Starts s a (.setApprovalForAll operator approved)
        (.done { s with token := { s.token with
          operatorApprovals := Function.update s.token.operatorApprovals a
            (Function.update (s.token.operatorApprovals a) operator approved) } } none)
  | setContractURI {uri : Bytes} (role : s.roles defaultAdminRole a = true) :
      Starts s a (.setContractURI uri) (.done { s with contractURI := uri } none)
  | pause (role : s.roles defaultAdminRole a = true) (unpaused : s.paused = false) :
      Starts s a .pause (.done { s with paused := true } none)
  | unpause (role : s.roles defaultAdminRole a = true) (paused : s.paused = true) :
      Starts s a .unpause (.done { s with paused := false } none)
  | role {call : RoleCall} {roles : Roles} (ok : call.exec s.roles a = .ok roles) :
      Starts s a (.role call) (.done { s with roles } none)

/-- **`Starts` is the start of a call.** -/
theorem start_eq_ok {b : Block} {s : State} {c : Message Fn} {p : Outcome} :
    start b s c = .ok p ↔ Starts s c.sender c.fn p := by
  obtain ⟨a, fn⟩ := c
  have hg := update_guarded s.lockedTokens
  constructor
  · intro h
    cases fn <;>
      simp only [start, safeMint, revoke, burn, hg.mint_eq_ok, hg.burn_eq_ok,
        hg.transferFrom_eq_ok, ERC721.ownerOf_eq_ok, ERC721.approve_eq_ok,
        ERC721.setApprovalForAll_eq_ok, bind_eq_ok, pure_eq_ok, onlyRole_eq_ok,
        whenNotPaused_eq_ok, whenPaused_eq_ok, nonReentrant_eq_ok, require_eq_ok,
        checkedAdd_eq_ok, exists_const] at h
    case safeMint =>
      obtain ⟨hr, hp, he, -, ⟨hroom, -⟩, t, ⟨hto, -, hfree, rfl⟩, rfl⟩ := h
      exact .safeMint hr hp he hroom hto hfree
    case revoke =>
      obtain ⟨s', ⟨hr, he, hlive, hlock, t, ⟨-, -, rfl⟩, rfl⟩, rfl⟩ := h
      exact .revoke hr he hlive hlock
    case burn =>
      obtain ⟨s', ⟨he, owner, ⟨hlive, rfl⟩, hauth, t, ⟨-, -, rfl⟩, rfl⟩, rfl⟩ := h
      exact .burn he hlive hauth
    case transferFrom =>
      obtain ⟨t, ⟨hto, hguard, hauth, howner, rfl⟩, rfl⟩ := h
      exact .transferFrom hto (fun hlive => hguard hlive hto) hauth howner
    case safeTransferFrom =>
      obtain ⟨t, ⟨hto, hguard, hauth, howner, rfl⟩, rfl⟩ := h
      exact .safeTransferFrom hto (fun hlive => hguard hlive hto) hauth howner
    case approve =>
      obtain ⟨t, ⟨hlive, hauth, rfl⟩, rfl⟩ := h
      exact .approve hlive hauth
    case setApprovalForAll =>
      obtain ⟨t, ⟨hother, rfl⟩, rfl⟩ := h
      exact .setApprovalForAll hother
    case setContractURI =>
      obtain ⟨hr, rfl⟩ := h
      exact .setContractURI hr
    case pause =>
      obtain ⟨hr, hp, rfl⟩ := h
      exact .pause hr hp
    case unpause =>
      obtain ⟨hr, hp, rfl⟩ := h
      exact .unpause hr hp
    case role =>
      obtain ⟨roles, hroles, rfl⟩ := h
      exact .role hroles
  · intro h
    cases h <;>
      simp_all [start, safeMint, revoke, burn, hg.mint_eq_ok, hg.burn_eq_ok,
        hg.transferFrom_eq_ok, State.Exists]

/-- The same for the start of a call as the machine runs it. -/
theorem contract_start_eq_ok {b : Block} {s : State} {c : Message Fn} {p : Outcome} :
    contract.start b s c = .ok p ↔ Starts s c.sender c.fn p :=
  start_eq_ok (b := b)

end ReputationPassport.PassportSBT
