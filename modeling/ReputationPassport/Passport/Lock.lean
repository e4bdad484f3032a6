import ReputationPassport.Passport.Invariant

/-! # The lock of a passport token

The lock flag is written after the receiver of a new token has been called, so during that call the
two do not agree: the token exists and is not locked. They agree again whenever no mint is waiting,
in particular at the end of every transaction, whatever the receiver did. -/

namespace ReputationPassport.PassportSBT

open Evm Machine OpenZeppelin

/-- **The lock flag coincides with existence**, and the ERC-5192 events tell the same. -/
structure LockMatchesExistence (l : PassportLedger) : Prop where
  lock : ∀ id, l.state.lockedTokens id = true ↔ l.state.Exists id
  /-- One `Locked` for each id that was minted, followed by one `Unlocked` once it is gone. -/
  events : ∀ id, lockEvents l.state.logs id =
    if l.state.Exists id then [.locked id]
    else if id ∈ minted l.history then [.locked id, .unlocked id]
    else []
  isLocked : ∀ id, l.state.Exists id → locked l.state id = .ok true

/-- **The lock guards the token**: `revoke` never finds a token unlocked, and while no mint waits
no transfer to an address other than zero succeeds. -/
structure LockGuards (c : PassportStack) : Prop where
  revoke : ∀ b a id reason, c.ledger.state.Exists id →
    start b c.ledger.state ⟨a, .revoke id reason⟩ ≠ .error (.reason "Token is not locked")
  transferFrom : minting (CallStack.pendings c.frames) = [] → ∀ b a from' to' id, to' ≠ 0 →
    ∃ e, start b c.ledger.state ⟨a, .transferFrom from' to' id⟩ = .error e
  safeTransferFrom : minting (CallStack.pendings c.frames) = [] →
    ∀ b a from' to' id data, to' ≠ 0 →
    ∃ e, start b c.ledger.state ⟨a, .safeTransferFrom from' to' id data⟩ = .error e

variable {l : PassportLedger} {ps : List Pending} {id : Nat}

/-- While no mint waits, a token is locked exactly if it exists. -/
theorem Inv.lock_iff_exists (h : Inv l ps) (hnone : minting ps = []) (id : Nat) :
    l.state.lockedTokens id = true ↔ l.state.Exists id := by
  rw [h.lock_iff id, hnone]
  exact and_iff_left List.not_mem_nil

/-- While no mint waits, lock flag, events and existence agree. -/
theorem Inv.lockMatchesExistence (h : Inv l ps) (hnone : minting ps = []) :
    LockMatchesExistence l where
  lock := h.lock_iff_exists hnone
  events id := by
    obtain ⟨phase, hphase⟩ := h.tokens id
    cases hphase with
    | unminted owner _ _ events returned =>
        have hgone : ¬ l.state.Exists id := not_not.mpr owner
        have hmem : id ∉ minted l.history := returned
        rw [if_neg hgone, if_neg hmem]
        exact events
    | minting _ _ _ _ waiting =>
        -- the one phase in which lock and existence differ
        rw [view, hnone] at waiting
        exact absurd waiting List.not_mem_nil
    | live owner _ events =>
        have hlive : l.state.Exists id := owner
        rw [if_pos hlive]
        exact events
    | gone owner _ _ events returned =>
        have hgone : ¬ l.state.Exists id := not_not.mpr owner
        have hmem : id ∈ minted l.history := returned
        rw [if_neg hgone, if_pos hmem]
        exact events
  isLocked id hexists := by
    have hlocked := (h.lock_iff_exists hnone id).mpr hexists
    simp [locked, hexists, hlocked]

/-- `revoke` on a token that exists never fails with "Token is not locked": without the role or with
the guard closed it fails before, and with the guard open the token is locked. -/
theorem Inv.revoke_locked (h : Inv l ps) (b : Block) (a : Account) (reason : Bytes)
    (hexists : l.state.Exists id) :
    start b l.state ⟨a, .revoke id reason⟩ ≠ .error (.reason "Token is not locked") := by
  intro herror
  by_cases hrole : l.state.roles revokerRole a = true
  · by_cases hidle : l.state.entered = false
    · have hlocked := (h.lock_iff_exists (h.minting_of_idle hidle) id).mpr hexists
      have hok := (start_eq_ok (b := b) (c := ⟨a, .revoke id reason⟩)).mpr
        (.revoke hrole hidle hexists hlocked)
      exact nomatch hok.symm.trans herror
    · -- inside a mint the guard refuses the call first
      simp [start, revoke, onlyRole, nonReentrant, ensure, hrole, hidle, bind, Except.bind]
        at herror
  · simp [start, revoke, onlyRole, ensure, hrole, bind, Except.bind] at herror

/-- An authorised transfer would move a token that exists, and while no mint waits every such token
is locked. -/
theorem Inv.transfer_refused (h : Inv l ps) (hnone : minting ps = []) {a : Account}
    (free : l.state.token.owners id ≠ 0 → l.state.lockedTokens id = false)
    (auth : l.state.token.Authorized a id) : False := by
  have hlive := h.live_of_authorized auth
  have hlocked := (h.lock_iff_exists hnone id).mpr hlive
  exact Bool.false_ne_true ((free hlive).symm.trans hlocked)

/-- **Lock flag coincides with existence.** After every run, whatever the receivers did: if no
frame is open, lock flag, events and existence agree; and at any time the lock guards the token. -/
theorem lock_matches_existence (deployer : Account) (b : Block)
    (as : List (CallStack.Action (Message Fn))) (c : PassportStack)
    (hrun : run (CallStack.step contract) (CallStack.deployed b (deploy deployer)) as = some c) :
    (c.frames = [] → LockMatchesExistence c.ledger) ∧ LockGuards c := by
  have h := (inv_run hrun).1
  refine ⟨fun hframes => ?_, ?_, ?_, ?_⟩
  · rw [hframes] at h
    exact h.lockMatchesExistence rfl
  · exact fun b a id reason hexists => h.revoke_locked b a reason hexists
  · intro hnone b a from' to' id hto
    rw [isError_iff]
    intro p hok
    cases (start_eq_ok (b := b)).mp hok with
    | transferFrom receiver free auth owner => exact h.transfer_refused hnone free auth
  · intro hnone b a from' to' id data hto
    rw [isError_iff]
    intro p hok
    cases (start_eq_ok (b := b)).mp hok with
    | safeTransferFrom receiver free auth owner => exact h.transfer_refused hnone free auth

/-- A receiver that calls back: account `7` is minted a token, tries to burn it, approves account
`8`, and accepts; then it burns the token. -/
def reentrantRun : List (CallStack.Action (Message Fn)) :=
  [.call ⟨acct 1, .safeMint 7 [0x73] [0x6b] [] 0⟩ true, .call ⟨acct 7, .burn 0⟩ true,
    .call ⟨acct 7, .approve 8 0⟩ true, .accept, .call ⟨acct 7, .burn 0⟩ true]

/-- The lock after a run with a receiver that calls back. -/
theorem lock_matches_existence_reentrantRun :
    ∃ c : PassportStack, run (CallStack.step contract)
        (CallStack.deployed (blockAt 1 1) (deploy (acct 1))) reentrantRun = some c ∧
      c.ledger.state.logs = [.locked 0, .credentialIssued 0 1 [0x73] [0x6b] 1 0, .unlocked 0] ∧
      LockMatchesExistence c.ledger ∧ LockGuards c := by
  obtain ⟨c, hrun, hlogs, hframes⟩ : ∃ c : PassportStack, run (CallStack.step contract)
        (CallStack.deployed (blockAt 1 1) (deploy (acct 1))) reentrantRun = some c ∧
      c.ledger.state.logs = [.locked 0, .credentialIssued 0 1 [0x73] [0x6b] 1 0, .unlocked 0] ∧
      c.frames = [] := ⟨_, rfl, rfl, rfl⟩
  have h := lock_matches_existence (acct 1) (blockAt 1 1) reentrantRun c hrun
  exact ⟨c, hrun, hlogs, h.1 hframes, h.2⟩

end ReputationPassport.PassportSBT
