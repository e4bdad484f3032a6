import ReputationPassport.Machine.Ledger
import ReputationPassport.OpenZeppelin.AccessControl

/-! # The endorsement registry

`EndorsementRegistry.sol`: endorsements numbered by a counter, with a list of ids and a running
total weight for each subject. `_endorserWeight` and the event `EndorsementWeightAdjusted` are
declared in the source and used by no function, so they have no counterpart here. -/

namespace ReputationPassport.EndorsementRegistry

open Evm Machine OpenZeppelin

/-- `ENDORSER_ROLE = keccak256("ENDORSER_ROLE")`. -/
def endorserRole : Bytes32 :=
  0xc6673a3a483412091345576f84c526ab2716c6e2fefbdda017e283fcca335712

/-- A stored endorsement. -/
structure Endorsement where
  endorser : Address
  subjectHash : Bytes
  weight : Nat
  category : Bytes
  comment : Bytes
  timestamp : Nat
  deriving DecidableEq

/-- The value of a storage slot nobody wrote. -/
instance : Inhabited Endorsement := ⟨⟨0, [], 0, [], [], 0⟩⟩

/-- The events of the registry. -/
inductive Event where
  | endorsementAdded (endorsementId : Nat) (endorser : Address) (subjectHash : Bytes)
      (weight : Nat) (category : Bytes)

/-- The storage of the contract, with the events it has emitted. -/
structure State where
  roles : Roles
  paused : Bool
  nextEndorsementId : Nat
  endorsements : Nat → Endorsement
  subjectEndorsements : Bytes → List Nat
  totalWeight : Bytes → Nat
  logs : List Event

/-- The constructor: the deployer is admin and endorser. -/
def deploy (deployer : Account) : State where
  roles := grantRoleTo (grantRoleTo noRoles defaultAdminRole deployer) endorserRole deployer
  paused := false
  nextEndorsementId := 0
  endorsements := fun _ => default
  subjectEndorsements := fun _ => []
  totalWeight := fun _ => 0
  logs := []

/-- The storage after an endorsement was added. -/
def State.push (s : State) (e : Endorsement) : State :=
  { s with
    nextEndorsementId := s.nextEndorsementId + 1
    endorsements := Function.update s.endorsements s.nextEndorsementId e
    subjectEndorsements := Function.update s.subjectEndorsements e.subjectHash
      (s.subjectEndorsements e.subjectHash ++ [s.nextEndorsementId])
    totalWeight := Function.update s.totalWeight e.subjectHash
      (s.totalWeight e.subjectHash + e.weight)
    logs := s.logs ++
      [.endorsementAdded s.nextEndorsementId e.endorser e.subjectHash e.weight e.category] }

@[simp] theorem State.push_nextEndorsementId (s : State) (e : Endorsement) :
    (s.push e).nextEndorsementId = s.nextEndorsementId + 1 := rfl

@[simp] theorem State.push_endorsements (s : State) (e : Endorsement) :
    (s.push e).endorsements = Function.update s.endorsements s.nextEndorsementId e := rfl

@[simp] theorem State.push_subjectEndorsements (s : State) (e : Endorsement) :
    (s.push e).subjectEndorsements = Function.update s.subjectEndorsements e.subjectHash
      (s.subjectEndorsements e.subjectHash ++ [s.nextEndorsementId]) := rfl

@[simp] theorem State.push_totalWeight (s : State) (e : Endorsement) :
    (s.push e).totalWeight = Function.update s.totalWeight e.subjectHash
      (s.totalWeight e.subjectHash + e.weight) := rfl

/-- `addEndorsement`. The counter and the running total are both added to with a check. -/
def addEndorsement (b : Block) (s : State) (sender : Account) (subjectHash : Bytes) (weight : Nat)
    (category comment : Bytes) : Result (State × Nat) := do
  onlyRole s.roles endorserRole sender
  whenNotPaused s.paused
  require (weight > 0 ∧ weight ≤ 100) "Weight must be 1-100"
  let endorsementId := s.nextEndorsementId
  let _ ← checkedAdd endorsementId 1
  let _ ← checkedAdd (s.totalWeight subjectHash) weight
  pure (s.push ⟨sender, subjectHash, weight, category, comment, b.timestamp⟩, endorsementId)

/-- `getEndorsement`. -/
def getEndorsement (s : State) (endorsementId : Nat) : Result Endorsement := do
  require (endorsementId < s.nextEndorsementId) "Endorsement does not exist"
  pure (s.endorsements endorsementId)

/-- The loop of `getSubjectEndorsements` from index `i` on: copy record after record into
`result`. -/
def copyFrom (s : State) (ids : List Nat) (i : Nat) (result : List Endorsement) :
    List Endorsement :=
  if h : i < ids.length then
    copyFrom s ids (i + 1) (result.set i (s.endorsements ids[i]))
  else result
termination_by ids.length - i

/-- `getSubjectEndorsements`: allocate one record for each listed id and fill them in. -/
def getSubjectEndorsements (s : State) (subjectHash : Bytes) : List Endorsement :=
  let ids := s.subjectEndorsements subjectHash
  copyFrom s ids 0 (List.replicate ids.length default)

/-- `getEndorsementCount`. -/
def getEndorsementCount (s : State) (subjectHash : Bytes) : Nat :=
  (s.subjectEndorsements subjectHash).length

/-- `getTotalWeight`. -/
def getTotalWeight (s : State) (subjectHash : Bytes) : Nat := s.totalWeight subjectHash

/-- The functions that change the state. -/
inductive Fn where
  | addEndorsement (subjectHash : Bytes) (weight : Nat) (category comment : Bytes)
  | role (call : RoleCall)

/-- Execute a call; only `addEndorsement` returns a value, the new id. -/
def exec (b : Block) (s : State) (c : Message Fn) : Result (State × Option Nat) :=
  match c.fn with
  | .addEndorsement subjectHash weight category comment => do
      let (s', id) ← addEndorsement b s c.sender subjectHash weight category comment
      pure (s', some id)
  | .role call => do
      let roles ← call.exec s.roles c.sender
      pure ({ s with roles }, none)

/-! ## What the functions do -/

/-- **Effect of `addEndorsement`**: it succeeds for an endorser with a weight from `1` to `100`
while neither the counter nor the total overflows, and then pushes one record. -/
theorem addEndorsement_eq_ok {b : Block} {s s' : State} {sender : Account} {subjectHash : Bytes}
    {weight id : Nat} {category comment : Bytes} :
    addEndorsement b s sender subjectHash weight category comment = .ok (s', id) ↔
      s.roles endorserRole sender = true ∧ s.paused = false ∧ (0 < weight ∧ weight ≤ 100) ∧
      s.nextEndorsementId + 1 < wordSize ∧ s.totalWeight subjectHash + weight < wordSize ∧
      s' = s.push ⟨sender, subjectHash, weight, category, comment, b.timestamp⟩ ∧
      id = s.nextEndorsementId := by
  simp only [addEndorsement, bind_eq_ok, onlyRole_eq_ok, whenNotPaused_eq_ok, require_eq_ok,
    checkedAdd_eq_ok, pure_eq_ok, exists_const, Prod.mk.injEq,
    gt_iff_lt, eq_comm (b := s'), eq_comm (b := id)]
  tauto

/-- **Effect of a call**: it pushes an endorsement or changes only the roles. -/
theorem exec_cases {b : Block} {s s' : State} {c : Message Fn} {r : Option Nat}
    (h : exec b s c = .ok (s', r)) :
    (∃ subjectHash weight category comment,
      c.fn = .addEndorsement subjectHash weight category comment ∧
      (0 < weight ∧ weight ≤ 100) ∧ r = some s.nextEndorsementId ∧
      s' = s.push ⟨c.sender, subjectHash, weight, category, comment, b.timestamp⟩) ∨
    (∃ call roles, c.fn = .role call ∧ r = none ∧ s' = { s with roles }) := by
  obtain ⟨sender, fn⟩ := c
  cases fn with
  | addEndorsement subjectHash weight category comment =>
      simp only [exec, bind_eq_ok, pure_eq_ok, Prod.exists, Prod.mk.injEq] at h
      obtain ⟨t, id, hadd, rfl, rfl⟩ := h
      obtain ⟨-, -, hw, -, -, rfl, rfl⟩ := addEndorsement_eq_ok.mp hadd
      exact Or.inl ⟨subjectHash, weight, category, comment, rfl, hw, rfl, rfl⟩
  | role call =>
      simp only [exec, bind_eq_ok, pure_eq_ok, Prod.mk.injEq] at h
      obtain ⟨roles, -, rfl, rfl⟩ := h
      exact Or.inr ⟨call, roles, rfl, rfl, rfl⟩

/-- The loop copies the records of all ids from `i` on and leaves the first `i` entries. -/
theorem copyFrom_eq (s : State) (ids : List Nat) (i : Nat) (result : List Endorsement)
    (hlen : result.length = ids.length) (hi : i ≤ ids.length) :
    copyFrom s ids i result = result.take i ++ (ids.drop i).map s.endorsements := by
  induction i, result using copyFrom.induct s ids with
  | case1 i result h ih =>
      -- entry `i` is written now and joins those that are left alone from here on
      rw [copyFrom, dif_pos h, ih (by rw [List.length_set, hlen]) h,
        List.drop_eq_getElem_cons h, List.map_cons, List.take_succ_eq_append_getElem
          (by rw [List.length_set, hlen]; exact h), List.take_set_of_le (Nat.le_refl i),
        List.getElem_set_self, List.append_assoc, List.singleton_append]
  | case2 i result h =>
      have hi' : ids.length ≤ i := Nat.le_of_not_lt h
      rw [copyFrom, dif_neg h, List.take_of_length_le (hlen ▸ hi'), List.drop_of_length_le hi',
        List.map_nil, List.append_nil]

/-- `getSubjectEndorsements` returns the records of the listed ids, in their order. -/
theorem getSubjectEndorsements_eq (s : State) (subjectHash : Bytes) :
    getSubjectEndorsements s subjectHash =
      (s.subjectEndorsements subjectHash).map s.endorsements := by
  rw [getSubjectEndorsements, copyFrom_eq _ _ _ _ List.length_replicate (Nat.zero_le _),
    List.take_zero, List.drop_zero, List.nil_append]

end ReputationPassport.EndorsementRegistry
