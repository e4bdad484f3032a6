import ReputationPassport.Passport.Tokens
import ReputationPassport.System.Roles

/-! # Passports issued through the facade

`issuePassport` mints by a message call of the facade, so the token asks whether the facade is a
minter, and the facade only whether its caller is a facade admin; a receiver with code has the last
word (`issuePassport_iff`). What was issued is what `getPassportInfo` and the getters of the token
report until the token is revoked or burned (`passport_of_issued`). -/

namespace ReputationPassport.System

open Evm Machine OpenZeppelin

variable (keccak256 : Bytes → Bytes32) (facade deployer : Account)

/-- At the end of a transaction of the system the token is at the end of one. -/
theorem frames_passport_eq_nil {c : Stack} (hclosed : c.frames = []) :
    ((passportComponent keccak256 facade).stack c).frames = [] := by
  simp only [Component.stack, hclosed, List.map_nil]

/-! ## What was issued -/

/-- The tokens that were revoked or burned. -/
def removedPassports (history : List SystemCall) : List Nat :=
  PassportSBT.removed ((passportComponent keccak256 facade).history history)

/-- **The facade reports what it issued**: at the end of every transaction, each successful
`issuePassport` has returned an id that is listed for its subject. Until the token is revoked or
burned the getters report the subject, the type, the URI and the expiry of that call and its time,
and the passport is locked; from then on `getPassportInfo` reverts. -/
theorem passport_of_issued (b : Block)
    (as : List (CallStack.Action (Message Call))) (c : Stack)
    (hrun : run (CallStack.step (contract keccak256))
      (CallStack.deployed b (deploy facade deployer)) as = some c) (hclosed : c.frames = [])
    (e : SystemCall) (he : e ∈ c.ledger.history) (to' : Address)
    (subjectHash credentialType uri : Bytes) (expiresAt : Nat)
    (hfn : e.call.fn = .core (.issuePassport to' subjectHash credentialType uri expiresAt)) :
    ∃ id, e.result = .id (some id) ∧
      id ∈ PassportSBT.getCredentialsBySubject c.ledger.state.core.passport subjectHash ∧
      (id ∉ removedPassports keccak256 facade c.ledger.history →
        PassportSBT.Reported c.ledger.block c.ledger.state.core.passport id subjectHash
          credentialType uri e.block.timestamp expiresAt) ∧
      (id ∈ removedPassports keccak256 facade c.ledger.history →
        getPassportInfo c.ledger.state id = .error (.reason "Token does not exist")) := by
  obtain ⟨as', halone⟩ := passport_alone hrun
  have hframes := frames_passport_eq_nil keccak256 facade hclosed
  -- what is known of the token alone holds of the token in the system
  have hrecorded := (PassportSBT.recorded_run rfl (PassportSBT.recorded_deployed deployer b)
    halone).1.1
  have hbooked := (PassportSBT.booked_run halone).1
  have haccounted := (PassportSBT.accounted_run halone).1
  have hindexed := (PassportSBT.indexed_run halone).1
  rw [hframes] at hrecorded hbooked haccounted hindexed
  -- the call, as the token saw it
  obtain ⟨block, ⟨a, fn⟩, result⟩ := e
  simp only at hfn
  subst hfn
  have hmem : (⟨block, ⟨facade, .safeMint to' subjectHash credentialType uri expiresAt⟩,
      result.toId⟩ : PassportSBT.Call) ∈
        (passportComponent keccak256 facade).history c.ledger.history :=
    List.mem_filterMap.mpr ⟨_, he, rfl⟩
  obtain ⟨id, hid, hlisted, hreported, hgone⟩ := PassportSBT.reported_of_mint hrecorded hbooked
    haccounted hindexed hmem rfl
  refine ⟨id, ?_, hlisted, hreported, hgone⟩
  cases result with
  | id r => exact congrArg Value.id hid
  | uid r => cases hid
  | unit => cases hid

/-- The passport of a run that issued one whose receiver files a dispute. -/
theorem passport_of_issued_issueAndFile :
    ∃ (c : Stack) (e : SystemCall), run (CallStack.step (contract AttestationRegistry.sampleHash))
        (CallStack.deployed (blockAt 1 1) (deploy (acct 9) (acct 1))) issueAndFile = some c ∧
      c.frames = [] ∧ e ∈ c.ledger.history ∧
      e.call.fn = .core (.issuePassport 7 [0x73] [0x6b] [0x75] 99) ∧
      ∃ id, e.result = .id (some id) ∧
        id ∈ PassportSBT.getCredentialsBySubject c.ledger.state.core.passport [0x73] ∧
        (id ∉ removedPassports AttestationRegistry.sampleHash (acct 9) c.ledger.history →
          PassportSBT.Reported c.ledger.block c.ledger.state.core.passport id [0x73] [0x6b] [0x75]
            e.block.timestamp 99) ∧
        (id ∈ removedPassports AttestationRegistry.sampleHash (acct 9) c.ledger.history →
          getPassportInfo c.ledger.state id = .error (.reason "Token does not exist")) := by
  obtain ⟨c, e, hrun, hclosed, he, hfn⟩ : ∃ (c : Stack) (e : SystemCall),
      run (CallStack.step (contract AttestationRegistry.sampleHash))
        (CallStack.deployed (blockAt 1 1) (deploy (acct 9) (acct 1))) issueAndFile = some c ∧
      c.frames = [] ∧ e ∈ c.ledger.history ∧
      e.call.fn = .core (.issuePassport 7 [0x73] [0x6b] [0x75] 99) :=
    ⟨_, _, rfl, rfl, List.mem_cons_of_mem _ (List.mem_cons_of_mem _ List.mem_cons_self), rfl⟩
  exact ⟨c, e, hrun, hclosed, he, hfn, passport_of_issued AttestationRegistry.sampleHash (acct 9)
    (acct 1) (blockAt 1 1) issueAndFile c hrun hclosed e he 7 [0x73] [0x6b] [0x75] 99 hfn⟩

/-! ## Who can issue -/

/-- The conditions under which an account issues a passport through the facade. -/
structure MayIssue (l : Ledger State (Message Call) Value) (a : Account) (to' : Address) :
    Prop where
  /-- The account is a facade admin. -/
  admin : rolesOfHistory keccak256 facade deployer .facade l.history
    PassportFacade.facadeAdminRole a = true
  /-- The facade itself is a minter of the token. -/
  minter : rolesOfHistory keccak256 facade deployer .passport l.history
    PassportSBT.minterRole facade = true
  /-- The token is not paused; the flag of the facade is not asked. -/
  unpaused : l.state.core.passport.paused = false
  room : l.state.core.passport.nextTokenId + 1 < wordSize
  receiver : to' ≠ 0

/-- **How `issuePassport` starts**: a facade admin makes the facade mint. -/
theorem start_issuePassport_eq_ok {b : Block} {s : State} {a : Account} {to' : Address}
    {subjectHash credentialType uri : Bytes} {expiresAt : Nat}
    {p : Progress State PassportSBT.Rest Value} :
    start keccak256 b s ⟨a, .core (.issuePassport to' subjectHash credentialType uri expiresAt)⟩ =
        .ok p ↔
      s.rolesOf .facade PassportFacade.facadeAdminRole a = true ∧
      ∃ q, PassportSBT.Starts s.core.passport s.core.world.self
        (.safeMint to' subjectHash credentialType uri expiresAt) q ∧ p = s.withPassport q := by
  constructor
  · intro h
    cases starts_of_start h with
    | issuePassport role ok => exact ⟨role, _, PassportSBT.start_eq_ok.mp ok, rfl⟩
  · rintro ⟨role, q, hstarts, rfl⟩
    have hrole : (onlyRole s.core.world.facade.roles PassportFacade.facadeAdminRole a :
        Result Unit) = .ok () := onlyRole_eq_ok.mpr role
    have hmint := PassportSBT.start_eq_ok (b := b) (c := ⟨s.core.world.self, _⟩) |>.mpr hstarts
    simp only [start, PassportFacade.start, PassportFacade.issuePassport, hrole, hmint]
    exact congrArg Except.ok (withCore_withPassport s q)

section Receiver

variable (c : Stack) (call : Message Call)

/-- The call returns the next id; `e` is what its receiver has left of the system. -/
def ReturnsNext (e d : Stack) : Prop :=
  d.frames = [] ∧ d.ledger.history = e.ledger.history ++
    [⟨e.ledger.block, call, .id (some c.ledger.state.core.passport.nextTokenId)⟩]

/-- With a receiver that has no code the call returns at once. -/
def Issues : Prop :=
  ∃ d, CallStack.step (contract keccak256) c (.call call false) = some d ∧ ReturnsNext c call c d

/-- A receiver with code is asked: the call waits for its `onERC721Received`. -/
def AsksReceiver (d : Stack) : Prop :=
  CallStack.step (contract keccak256) c (.call call true) = some d ∧
    ∃ rest, d.frames = [.pending call rest c.ledger]

/-- **When a call issues a passport**: under the condition, and with the consent of a receiver that
has code. -/
structure IssuesIff (condition : Prop) : Prop where
  unasked : Issues keccak256 c call ↔ condition
  asked : (∃ d, AsksReceiver keccak256 c call d) ↔ condition
  /-- Whatever the receiver has called meanwhile, its answer decides: the call returns, or it is
  undone with everything since. -/
  answered : ∀ d, AsksReceiver keccak256 c call d → ∀ e, e.frames = d.frames →
    (∃ f, CallStack.step (contract keccak256) e .accept = some f ∧ ReturnsNext c call e f) ∧
    CallStack.step (contract keccak256) e .reject = some c
  /-- Without the condition the call reverts. -/
  reverts : ¬ condition → ∀ code, CallStack.step (contract keccak256) c (.call call code) = some c

variable {keccak256 c call}

/-- A call that starts exactly under the condition, and gets to the receiver of the next token. -/
theorem issuesIff_of_start {condition : Prop} (hclosed : c.frames = [])
    (hfrom : ∀ p, start keccak256 c.ledger.block c.ledger.state call = .ok p → condition)
    (hto : condition → ∃ s rest,
      start keccak256 c.ledger.block c.ledger.state call = .ok (.calls s rest) ∧
      ∀ b s', ∃ s'', resume b s' rest =
        .ok (s'', .id (some c.ledger.state.core.passport.nextTokenId))) :
    IssuesIff keccak256 c call condition := by
  have hreverts : ¬ condition → ∀ code,
      CallStack.step (contract keccak256) c (.call call code) = some c := by
    intro hnot code
    cases hstart : start keccak256 c.ledger.block c.ledger.state call with
    | ok p => exact absurd (hfrom p hstart) hnot
    | error e => exact CallStack.step_call_error hstart
  -- who is asked has been called, so the condition holds
  have hasked : ∀ d, AsksReceiver keccak256 c call d → condition := by
    rintro d ⟨hstep, rest, hframes⟩
    by_contra hnot
    obtain rfl := Option.some.inj ((hreverts hnot true).symm.trans hstep)
    exact List.cons_ne_nil _ _ (hframes.symm.trans hclosed)
  refine
    { unasked := ⟨?_, fun h => ?_⟩
      asked := ⟨fun ⟨d, hd⟩ => hasked d hd, fun h => ?_⟩
      answered := ?_
      reverts := hreverts }
  · rintro ⟨d, hstep, -, hhistory⟩
    by_contra hnot
    obtain rfl := Option.some.inj ((hreverts hnot false).symm.trans hstep)
    exact List.cons_ne_nil _ _ (List.self_eq_append_right.mp hhistory)
  · obtain ⟨s, rest, hstart, hresume⟩ := hto h
    obtain ⟨s'', hdone⟩ := hresume c.ledger.block s
    exact ⟨_, CallStack.step_call_through (k := contract keccak256) hstart hdone, hclosed, rfl⟩
  · obtain ⟨s, rest, hstart, -⟩ := hto h
    exact ⟨_, CallStack.step_call_push (k := contract keccak256) hstart, rest,
      congrArg (List.cons _) hclosed⟩
  · intro d hd e he
    obtain ⟨s, rest, hstart, hresume⟩ := hto (hasked d hd)
    obtain rfl := Option.some.inj
      ((CallStack.step_call_push (k := contract keccak256) hstart).symm.trans hd.1)
    obtain ⟨s'', hdone⟩ := hresume e.ledger.block e.ledger.state
    refine ⟨⟨_, CallStack.step_accept (k := contract keccak256) he hdone, hclosed, rfl⟩, ?_⟩
    exact CallStack.step_reject he

end Receiver

/-- **When `issuePassport` succeeds**: at the end of a transaction, exactly under these conditions,
unless the receiver has code and refuses the token. -/
theorem issuePassport_iff (b : Block)
    (as : List (CallStack.Action (Message Call))) (c : Stack)
    (hrun : run (CallStack.step (contract keccak256))
      (CallStack.deployed b (deploy facade deployer)) as = some c) (hclosed : c.frames = [])
    (a : Account) (to' : Address) (subjectHash credentialType uri : Bytes) (expiresAt : Nat) :
    IssuesIff keccak256 c
      ⟨a, .core (.issuePassport to' subjectHash credentialType uri expiresAt)⟩
      (MayIssue keccak256 facade deployer c.ledger a to') := by
  obtain ⟨as', halone⟩ := passport_alone hrun
  have hinv := (PassportSBT.inv_run halone).1
  rw [frames_passport_eq_nil keccak256 facade hclosed] at hinv
  have hself := self_run hrun
  have hfacade := (roles_alone hrun .facade).1
  have htoken := (roles_alone hrun .passport).1
  refine issuesIff_of_start hclosed (fun p hstart => ?_) (fun hmay => ?_)
  · obtain ⟨hadmin, q, hstarts, -⟩ := (start_issuePassport_eq_ok keccak256).mp hstart
    rw [hself] at hstarts
    cases hstarts with
    | safeMint hminter unpaused idle room receiver free =>
        rw [hfacade] at hadmin
        rw [show c.ledger.state.core.passport.roles = _ from htoken] at hminter
        exact ⟨hadmin, hminter, unpaused, room, receiver⟩
  · obtain ⟨hadmin, hminter, unpaused, room, receiver⟩ := hmay
    rw [← hfacade] at hadmin
    rw [← htoken] at hminter
    -- between transactions no mint waits, and the next token has no owner yet
    have idle : c.ledger.state.core.passport.entered = false := by
      rcases hinv.guard with ⟨-, hentered⟩ | ⟨id, hid, -⟩
      · exact hentered
      · cases hid
    have free : c.ledger.state.core.passport.token.owners
        c.ledger.state.core.passport.nextTokenId = 0 := by
      cases hinv.unminted_of_le (Nat.le_refl _) with
      | unminted owner => exact owner
    rw [← hself] at hminter
    have hstarts : PassportSBT.Starts c.ledger.state.core.passport c.ledger.state.core.world.self
        (.safeMint to' subjectHash credentialType uri expiresAt) (.calls _ _) :=
      .safeMint hminter unpaused idle room receiver free
    exact ⟨_, _, (start_issuePassport_eq_ok keccak256).mpr ⟨hadmin, _, hstarts, rfl⟩,
      fun _ _ => ⟨_, rfl⟩⟩

/-- After the run that issued one passport, account `1` can issue another one to an account without
code, and a contract that is asked and refuses it leaves the system as it was. -/
theorem issuePassport_iff_issueAndFile :
    ∃ c d : Stack, run (CallStack.step (contract AttestationRegistry.sampleHash))
        (CallStack.deployed (blockAt 1 1) (deploy (acct 9) (acct 1))) issueAndFile = some c ∧
      AsksReceiver AttestationRegistry.sampleHash c
        ⟨acct 1, .core (.issuePassport 8 [0x74] [] [] 0)⟩ d ∧
      Issues AttestationRegistry.sampleHash c ⟨acct 1, .core (.issuePassport 8 [0x74] [] [] 0)⟩ ∧
      CallStack.step (contract AttestationRegistry.sampleHash) d .reject = some c := by
  obtain ⟨c, d, hrun, hclosed, hasks⟩ : ∃ c d : Stack,
      run (CallStack.step (contract AttestationRegistry.sampleHash))
        (CallStack.deployed (blockAt 1 1) (deploy (acct 9) (acct 1))) issueAndFile = some c ∧
      c.frames = [] ∧ AsksReceiver AttestationRegistry.sampleHash c
        ⟨acct 1, .core (.issuePassport 8 [0x74] [] [] 0)⟩ d :=
    ⟨_, _, rfl, rfl, rfl, _, rfl⟩
  have hiff := issuePassport_iff AttestationRegistry.sampleHash (acct 9) (acct 1) (blockAt 1 1)
    issueAndFile c hrun hclosed (acct 1) 8 [0x74] [] [] 0
  exact ⟨c, d, hrun, hasks, hiff.unasked.mpr (hiff.asked.mp ⟨d, hasks⟩),
    (hiff.answered d hasks d rfl).2⟩

end ReputationPassport.System
