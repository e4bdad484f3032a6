import ReputationPassport.Evm.Packed
import ReputationPassport.Machine.Ledger
import ReputationPassport.OpenZeppelin.AccessControl

/-! # The attestation registry

`AttestationRegistry.sol`: attestations stored under the hash of their content. The hash function
`keccak256` is a parameter; what is assumed of it is stated where it is used.

No function of the contract pauses it, and none uses the domain separator of `EIP712`. -/

namespace ReputationPassport.AttestationRegistry

open Evm Machine OpenZeppelin

/-- `ATTESTER_ROLE = keccak256("ATTESTER_ROLE")`. -/
def attesterRole : Bytes32 :=
  0xca77cd8f9856ef5fcd36f6b15bf469fe216c2f9114f60dd031f0a2b97b67aaa9

/-- A stored attestation. -/
@[ext] structure Attestation where
  uid : Bytes32
  attester : Address
  subjectHash : Bytes
  schema : Bytes
  data : Bytes
  expirationTime : Nat
  revocationTime : Nat
  revoked : Bool
  deriving DecidableEq

/-- The value of a storage slot nobody wrote. -/
instance : Inhabited Attestation := ⟨⟨0, 0, [], [], [], 0, 0, false⟩⟩

/-- The record after a revocation at the given time. -/
def Attestation.revokeAt (a : Attestation) (timestamp : Nat) : Attestation :=
  { a with revoked := true, revocationTime := timestamp }

/-- The events of the registry. -/
inductive Event where
  | attestationCreated (uid : Bytes32) (attester : Address) (subjectHash schema : Bytes)
      (expirationTime : Nat)
  | attestationRevoked (uid : Bytes32) (revoker : Address) (revocationTime : Nat)

/-- The storage of the contract, with the events it has emitted. -/
structure State where
  roles : Roles
  paused : Bool
  attestations : Bytes32 → Attestation
  attesterAttestations : Address → List Bytes32
  subjectAttestations : Bytes → List Bytes32
  allAttestations : List Bytes32
  logs : List Event

/-- The constructor: the deployer is admin and attester. -/
def deploy (deployer : Account) : State where
  roles := grantRoleTo (grantRoleTo noRoles defaultAdminRole deployer) attesterRole deployer
  paused := false
  attestations := fun _ => default
  attesterAttestations := fun _ => []
  subjectAttestations := fun _ => []
  allAttestations := []
  logs := []

/-- The bytes `attest` hashes:
`abi.encodePacked(msg.sender, subjectHash, schema, data, block.timestamp, block.number)`. -/
def preimage (b : Block) (sender : Account) (subjectHash schema data : Bytes) : Bytes :=
  encodePacked [.address sender, .bytes subjectHash, .bytes schema, .bytes data,
    .uint256 b.timestamp, .uint256 b.number]

/-- **The hashed bytes determine** the block, the sender and the concatenation of the three
variable fields, but not where one field ends and the next begins. -/
theorem preimage_inj {b b' : Block} {a a' : Account}
    {subjectHash schema data subjectHash' schema' data' : Bytes} :
    preimage b a subjectHash schema data = preimage b' a' subjectHash' schema' data' ↔
      b = b' ∧ a = a' ∧ subjectHash ++ schema ++ data = subjectHash' ++ schema' ++ data' := by
  have hframe : ∀ (b : Block) (a : Account) (s c d : Bytes), preimage b a s c d =
      (PackedArg.address a).encode ++ (s ++ c ++ d) ++
        ((PackedArg.uint256 b.timestamp).encode ++ (PackedArg.uint256 b.number).encode) := by
    intro b a s c d
    simp [preimage, PackedArg.encode, List.append_assoc]
  -- 20 bytes of sender in front and 64 bytes of block behind, whatever the fields are
  rw [hframe, hframe, frame_inj (by simp [PackedArg.encode]) (by simp [PackedArg.encode])]
  constructor
  · rintro ⟨hsender, hbody, hblock⟩
    obtain ⟨htime, hnumber⟩ := List.append_inj hblock (by simp [PackedArg.encode])
    exact ⟨Block.ext (uint256_inj b.timestamp_lt b'.timestamp_lt htime)
      (uint256_inj b.number_lt b'.number_lt hnumber), Subtype.ext (address_inj hsender), hbody⟩
  · rintro ⟨rfl, rfl, hbody⟩
    exact ⟨rfl, hbody, rfl⟩

/-- The storage after an attestation was recorded. -/
def State.record (s : State) (a : Attestation) : State :=
  { s with
    attestations := Function.update s.attestations a.uid a
    attesterAttestations := Function.update s.attesterAttestations a.attester
      (s.attesterAttestations a.attester ++ [a.uid])
    subjectAttestations := Function.update s.subjectAttestations a.subjectHash
      (s.subjectAttestations a.subjectHash ++ [a.uid])
    allAttestations := s.allAttestations ++ [a.uid]
    logs := s.logs ++
      [.attestationCreated a.uid a.attester a.subjectHash a.schema a.expirationTime] }

/-- The storage after a record was revoked. -/
def State.markRevoked (s : State) (uid : Bytes32) (revoker : Address) (timestamp : Nat) : State :=
  { s with
    attestations := Function.update s.attestations uid
      ((s.attestations uid).revokeAt timestamp)
    logs := s.logs ++ [.attestationRevoked uid revoker timestamp] }

@[simp] theorem State.record_attestations (s : State) (a : Attestation) :
    (s.record a).attestations = Function.update s.attestations a.uid a := rfl

@[simp] theorem State.markRevoked_attestations (s : State) (uid : Bytes32) (revoker : Address)
    (timestamp : Nat) : (s.markRevoked uid revoker timestamp).attestations =
      Function.update s.attestations uid ((s.attestations uid).revokeAt timestamp) := rfl

section Functions

variable (keccak256 : Bytes → Bytes32)

/-- The record `attest` writes. -/
def newAttestation (b : Block) (sender : Account) (subjectHash schema data : Bytes)
    (expirationTime : Nat) : Attestation where
  uid := keccak256 (preimage b sender subjectHash schema data)
  attester := sender
  subjectHash
  schema
  data
  expirationTime
  revocationTime := 0
  revoked := false

/-- `attest`. -/
def attest (b : Block) (s : State) (sender : Account) (subjectHash schema data : Bytes)
    (expirationTime : Nat) : Result (State × Bytes32) := do
  onlyRole s.roles attesterRole sender
  whenNotPaused s.paused
  let a := newAttestation keccak256 b sender subjectHash schema data expirationTime
  -- the slot is written whether or not there is a record in it
  pure (s.record a, a.uid)

/-- `revoke`. -/
def revoke (b : Block) (s : State) (sender : Account) (uid : Bytes32) : Result State := do
  whenNotPaused s.paused
  let a := s.attestations uid
  require (a.attester = sender ∨ s.roles defaultAdminRole sender = true) "Not authorized"
  require (a.revoked = false) "Already revoked"
  pure (s.markRevoked uid sender b.timestamp)

/-- `getAttestation`. -/
def getAttestation (s : State) (uid : Bytes32) : Attestation := s.attestations uid

/-- `verifyAttestation`, one test after another. -/
def verifyAttestation (b : Block) (s : State) (uid : Bytes32) (subjectHash : Bytes) : Bool :=
  -- a slot nobody wrote reads as the default record
  let a := s.attestations uid
  if a.revoked then false
  else if a.expirationTime > 0 ∧ b.timestamp > a.expirationTime then false
  else if keccak256 a.subjectHash ≠ keccak256 subjectHash then false
  else true

/-- `getSubjectAttestations`. -/
def getSubjectAttestations (s : State) (subjectHash : Bytes) : List Bytes32 :=
  s.subjectAttestations subjectHash

/-- `getAttestationCount`. -/
def getAttestationCount (s : State) : Nat := s.allAttestations.length

/-- The functions that change the state. -/
inductive Fn where
  | attest (subjectHash schema data : Bytes) (expirationTime : Nat)
  | revoke (uid : Bytes32)
  | role (call : RoleCall)

/-- Execute a call; only `attest` returns a value, the uid. -/
def exec (b : Block) (s : State) (c : Message Fn) : Result (State × Option Bytes32) :=
  match c.fn with
  | .attest subjectHash schema data expirationTime => do
      let (s', uid) ← attest keccak256 b s c.sender subjectHash schema data expirationTime
      pure (s', some uid)
  | .revoke uid => do
      let s' ← revoke b s c.sender uid
      pure (s', none)
  | .role call => do
      let roles ← call.exec s.roles c.sender
      pure ({ s with roles }, none)

/-! ## What a successful call can do -/

/-- **The ways a call can succeed**, one constructor for each function, with the guards it has
passed, the state it leaves and the value it returns. -/
inductive Step (b : Block) (s : State) (a : Account) : Fn → State → Option Bytes32 → Prop where
  | attest {subjectHash schema data : Bytes} {expirationTime : Nat}
      (role : s.roles attesterRole a = true) (unpaused : s.paused = false) :
      Step b s a (.attest subjectHash schema data expirationTime)
        (s.record (newAttestation keccak256 b a subjectHash schema data expirationTime))
        (some (keccak256 (preimage b a subjectHash schema data)))
  | revoke {uid : Bytes32} (unpaused : s.paused = false)
      (auth : (s.attestations uid).attester = a ∨ s.roles defaultAdminRole a = true)
      (standing : (s.attestations uid).revoked = false) :
      Step b s a (.revoke uid) (s.markRevoked uid a b.timestamp) none
  | role {call : RoleCall} {roles : Roles} (ok : call.exec s.roles a = .ok roles) :
      Step b s a (.role call) { s with roles } none

variable {keccak256} {b : Block} {s s' : State} {c : Message Fn} {r : Option Bytes32}

/-- **`Step` is the execution of a call.** -/
theorem exec_eq_ok :
    exec keccak256 b s c = .ok (s', r) ↔ Step keccak256 b s c.sender c.fn s' r := by
  obtain ⟨a, fn⟩ := c
  constructor
  · intro h
    cases fn <;>
      simp only [exec, attest, revoke, bind_eq_ok, pure_eq_ok, whenNotPaused_eq_ok,
        onlyRole_eq_ok, require_eq_ok, exists_const, Prod.exists, Prod.mk.injEq] at h
    case attest =>
      obtain ⟨t, uid, ⟨hr, hp, rfl, rfl⟩, rfl, rfl⟩ := h
      exact .attest hr hp
    case revoke =>
      obtain ⟨t, ⟨hp, ha, hs, rfl⟩, rfl, rfl⟩ := h
      exact .revoke hp ha hs
    case role =>
      obtain ⟨roles, hroles, rfl, rfl⟩ := h
      exact .role hroles
  · intro h
    cases h <;> simp_all [exec, attest, revoke, newAttestation]

/-- No call pauses the registry. -/
theorem Step.paused {a : Account} {fn : Fn} (h : Step keccak256 b s a fn s' r) :
    s'.paused = s.paused := by
  cases h <;> rfl

/-- **When `verifyAttestation` accepts**: the stored record is not revoked, has not expired, and
its subject has the hash of the queried one. -/
theorem verifyAttestation_eq_true {uid : Bytes32} {subjectHash : Bytes} :
    verifyAttestation keccak256 b s uid subjectHash = true ↔
      (s.attestations uid).revoked = false ∧
      ((s.attestations uid).expirationTime = 0 ∨
        b.timestamp ≤ (s.attestations uid).expirationTime) ∧
      keccak256 (s.attestations uid).subjectHash = keccak256 subjectHash := by
  unfold verifyAttestation
  by_cases hrevoked : (s.attestations uid).revoked = true
  · simp [hrevoked]
  · simp only [Bool.not_eq_true] at hrevoked
    simp only [hrevoked]
    grind

end Functions

/-- `keccak256` on the strings that the runs on fixed inputs hash: the empty one, the subject
`"s"`, and the contents of its attestation by account `1` and by account `2` in the block with
time and number `1`, and by account `1` in the block with time `13` and number `2`. -/
def sampleHash (m : Bytes) : Bytes32 :=
  if m = [] then 0xc5d2460186f7233c927e7db2dcc703c0e500b653ca82273b7bfad8045d85a470
  else if m = [0x73] then 0x60a73bfb121a98fb6b52dfb29eb0defd76b60065b8cf07902baf28c167d24daf
  else if m = preimage (blockAt 1 1) (acct 1) [0x73] [] [] then
    0x70071c1cf2f0f683d7756f059ddf3c0b6b147db7c5bf2732317f0989da20d2f6
  else if m = preimage (blockAt 1 1) (acct 2) [0x73] [] [] then
    0x5284e92543591df7407723147d14bcd4cefe9ac5e7fc87d88b43ff75c43789b0
  else 0x2b449a301645fc9a070879d3cdaa65270642d4a3ad19b051e69438cbb29e1ef0

/-- The uid of the attestation by account `1` in the first of these blocks. -/
def sampleUid : Bytes32 := 0x70071c1cf2f0f683d7756f059ddf3c0b6b147db7c5bf2732317f0989da20d2f6

end ReputationPassport.AttestationRegistry
