import ReputationPassport.Passport.Contract
import Mathlib.Data.List.Range

/-! # The invariant of the passport token

The storage of the contract agrees with its history and with the calls that are pending: the ids
returned so far, followed by the id of the mint that waits for its receiver, are `0, 1, 2, …` up to
the counter; a token exists and is locked, or exists and is being minted, or has no owner; and the
guard is closed exactly while a mint waits. Since every function that burns or mints asks for the
guard, at most one mint can wait, and nothing can burn its token. -/

namespace ReputationPassport.PassportSBT

open Evm Machine OpenZeppelin

/-- The ledger of the contract. -/
abbrev PassportLedger : Type := Ledger State (Message Fn) (Option Nat)

/-- The contract with the frames that are open. -/
abbrev PassportStack : Type := CallStack State (Message Fn) Rest (Option Nat)

/-- A successful call. -/
abbrev Call : Type := Entry (Message Fn) (Option Nat)

/-- A call that waits for a receiver, with what it has still to do. -/
abbrev Pending : Type := Message Fn × Rest

/-- The id a successful `safeMint` returned. -/
def mintedBy (e : Call) : Option Nat :=
  match e.call.fn with
  | .safeMint .. => e.result
  | _ => none

/-- The ids that were returned by `safeMint`, in the order of the calls. -/
def minted (history : List Call) : List Nat := history.filterMap mintedBy

/-- The id a pending call is minting. -/
def mintingBy (p : Pending) : Option Nat :=
  match p.2 with
  | .mint _ tokenId .. => some tokenId
  | .transfer => none

/-- The ids that are being minted, innermost call first. -/
def minting (ps : List Pending) : List Nat := ps.filterMap mintingBy

/-- A pending call has still to do what its arguments ask for. -/
def Consistent (p : Pending) : Prop :=
  match p.2 with
  | .mint sender _ subjectHash credentialType uri expiresAt =>
      p.1.sender = sender ∧ ∃ to', p.1.fn = .safeMint to' subjectHash credentialType uri expiresAt
  | .transfer => ∃ from' to' tokenId data, p.1.fn = .safeTransferFrom from' to' tokenId data

/-- A pending mint is a call of `safeMint`, so what it returns is the id it minted. -/
theorem Consistent.mintedBy_mint {call : Message Fn} {sender : Address} {id : Nat}
    {subjectHash credentialType uri : Bytes} {expiresAt : Nat}
    (h : Consistent (call, .mint sender id subjectHash credentialType uri expiresAt)) (b : Block)
    (r : Option Nat) : mintedBy ⟨b, call, r⟩ = r := by
  obtain ⟨-, to', hfn⟩ := h
  rw [mintedBy, show call.fn = _ from hfn]

/-- A pending transfer mints nothing. -/
theorem Consistent.mintedBy_transfer {call : Message Fn} (h : Consistent (call, .transfer))
    (b : Block) (r : Option Nat) : mintedBy ⟨b, call, r⟩ = none := by
  obtain ⟨_, _, _, _, hfn⟩ := h
  rw [mintedBy, show call.fn = _ from hfn]

/-- The ERC-5192 events of a token, in the order they were emitted. -/
def lockEvents (logs : List Event) (id : Nat) : List Event :=
  logs.filter fun e => e = .locked id ∨ e = .unlocked id

@[simp] theorem minted_concat (history : List Call) (e : Call) :
    minted (history ++ [e]) = minted history ++ (mintedBy e).toList := by
  rw [minted, List.filterMap_append]
  cases h : mintedBy e <;> simp [minted, h]

@[simp] theorem minting_cons (p : Pending) (ps : List Pending) :
    minting (p :: ps) = (mintingBy p).toList ++ minting ps := by
  rw [minting, List.filterMap_cons]
  cases h : mintingBy p <;> simp [minting]

@[simp] theorem minting_nil : minting [] = [] := rfl

theorem lockEvents_append (logs logs' : List Event) (id : Nat) :
    lockEvents (logs ++ logs') id = lockEvents logs id ++ lockEvents logs' id :=
  List.filter_append ..

/-! ## The phases of a token -/

/-- What a token can be. -/
inductive Phase where
  | unminted
  | minting
  | live
  | gone
  deriving DecidableEq

/-- What storage, events, history and pending calls say about one token. -/
@[ext] structure View where
  owner : Address
  approved : Address
  isLocked : Bool
  events : List Event
  returned : Prop
  waiting : Prop

/-- The view of a token. -/
def view (l : PassportLedger) (ps : List Pending) (id : Nat) : View where
  owner := l.state.token.owners id
  approved := l.state.token.tokenApprovals id
  isLocked := l.state.lockedTokens id
  events := lockEvents l.state.logs id
  returned := id ∈ minted l.history
  waiting := id ∈ minting ps

/-- **What a token looks like in each phase.** -/
inductive Agrees (id : Nat) (v : View) : Phase → Prop where
  | unminted (owner : v.owner = 0) (approved : v.approved = 0) (isLocked : v.isLocked = false)
      (events : v.events = []) (returned : ¬ v.returned) (waiting : ¬ v.waiting) :
      Agrees id v .unminted
  | minting (owner : v.owner ≠ 0) (isLocked : v.isLocked = false) (events : v.events = [])
      (returned : ¬ v.returned) (waiting : v.waiting) : Agrees id v .minting
  | live (owner : v.owner ≠ 0) (isLocked : v.isLocked = true) (events : v.events = [.locked id])
      (returned : v.returned) (waiting : ¬ v.waiting) : Agrees id v .live
  | gone (owner : v.owner = 0) (approved : v.approved = 0) (isLocked : v.isLocked = false)
      (events : v.events = [.locked id, .unlocked id]) (returned : v.returned)
      (waiting : ¬ v.waiting) : Agrees id v .gone

/-- **The invariant**: every token is in some phase. -/
structure Inv (l : PassportLedger) (ps : List Pending) : Prop where
  pending : ∀ p ∈ ps, Consistent p
  guard : minting ps = [] ∧ l.state.entered = false ∨
    ∃ id, minting ps = [id] ∧ l.state.entered = true
  ids : minted l.history ++ minting ps = List.range l.state.nextTokenId
  operators : ∀ a, l.state.token.operatorApprovals 0 a = false
  tokens : ∀ id, ∃ phase, Agrees id (view l ps id) phase

variable {l : PassportLedger} {ps : List Pending} {s : State} {call : Message Fn}
  {r : Option Nat} {id : Nat}

theorem inv_deployed (deployer : Account) (b : Block) :
    Inv (Ledger.deployed b (deploy deployer)) [] where
  pending _ hp := absurd hp List.not_mem_nil
  guard := Or.inl ⟨rfl, rfl⟩
  ids := rfl
  operators _ := rfl
  tokens _ := ⟨.unminted, .unminted rfl rfl rfl rfl List.not_mem_nil List.not_mem_nil⟩

theorem Inv.mine (h : Inv l ps) (b : Block) : Inv { l with block := b } ps := { h with }

/-- While the guard is open no mint waits. -/
theorem Inv.minting_of_idle (h : Inv l ps) (idle : l.state.entered = false) : minting ps = [] := by
  rcases h.guard with ⟨hnone, -⟩ | ⟨id, -, hentered⟩
  · exact hnone
  · exact absurd (idle.symm.trans hentered) Bool.false_ne_true

/-- The ids that were returned or are being minted are those below the counter. -/
theorem Inv.mem_iff (h : Inv l ps) :
    id ∈ minted l.history ∨ id ∈ minting ps ↔ id < l.state.nextTokenId := by
  rw [← List.mem_append, h.ids, List.mem_range]

/-- A token with an owner is locked unless it is being minted. -/
theorem Inv.lock_iff (h : Inv l ps) (id : Nat) :
    l.state.lockedTokens id = true ↔ l.state.token.owners id ≠ 0 ∧ id ∉ minting ps := by
  obtain ⟨phase, hphase⟩ := h.tokens id
  cases hphase with
  | unminted owner approved isLocked => simp_all [view]
  | minting owner isLocked => simp_all [view]
  | live owner isLocked => simp_all [view]
  | gone owner approved isLocked => simp_all [view]

/-- A token that exists and is not being minted is live. -/
theorem Inv.live_of_owner (h : Inv l ps) (hlive : l.state.token.owners id ≠ 0)
    (hwaiting : id ∉ minting ps) : Agrees id (view l ps id) .live := by
  obtain ⟨phase, hphase⟩ := h.tokens id
  cases hphase with
  | unminted owner => exact absurd owner hlive
  | minting _ _ _ _ waiting => exact absurd waiting hwaiting
  | live owner isLocked events returned waiting =>
      exact .live owner isLocked events returned waiting
  | gone owner => exact absurd owner hlive

/-- A token a pending call is minting is being minted. -/
theorem Inv.minting_of_mem (h : Inv l ps) (hwaiting : id ∈ minting ps) :
    Agrees id (view l ps id) .minting := by
  obtain ⟨phase, hphase⟩ := h.tokens id
  cases hphase with
  | unminted _ _ _ _ _ waiting => exact absurd hwaiting waiting
  | minting owner isLocked events returned waiting =>
      exact .minting owner isLocked events returned waiting
  | live _ _ _ _ waiting => exact absurd hwaiting waiting
  | gone _ _ _ _ _ waiting => exact absurd hwaiting waiting

/-- No token from the counter on exists. -/
theorem Inv.unminted_of_le (h : Inv l ps) (hid : l.state.nextTokenId ≤ id) :
    Agrees id (view l ps id) .unminted := by
  have hnot := mt h.mem_iff.mp (Nat.not_lt.mpr hid)
  obtain ⟨phase, hphase⟩ := h.tokens id
  cases hphase with
  | unminted owner approved isLocked events returned waiting =>
      exact .unminted owner approved isLocked events returned waiting
  | minting _ _ _ _ waiting => exact absurd (Or.inr waiting) hnot
  | live _ _ _ returned => exact absurd (Or.inl returned) hnot
  | gone _ _ _ _ returned => exact absurd (Or.inl returned) hnot

/-- An authorised transfer moves a token that exists: no account is authorised for one that does
not. -/
theorem Inv.live_of_authorized (h : Inv l ps) {a : Account}
    (auth : l.state.token.Authorized a id) : l.state.token.owners id ≠ 0 := by
  intro hnone
  have happroved : l.state.token.tokenApprovals id = 0 := by
    obtain ⟨phase, hphase⟩ := h.tokens id
    cases hphase with
    | unminted _ approved => exact approved
    | minting owner => exact absurd hnone owner
    | live owner => exact absurd hnone owner
    | gone _ approved => exact approved
  obtain ⟨ha, howner | hoperator | hspender⟩ := auth
  · exact ha (howner.symm.trans hnone)
  · rw [hnone, h.operators] at hoperator
    exact Bool.false_ne_true hoperator
  · exact ha (hspender.symm.trans happroved)

/-- A phase only asks whether there is an owner, and for an approval only where there is none. -/
theorem Agrees.congr {v v' : View} {phase : Phase} (h : Agrees id v phase)
    (howner : v'.owner = 0 ↔ v.owner = 0) (happroved : v'.owner = 0 → v'.approved = v.approved)
    (hlocked : v'.isLocked = v.isLocked) (hevents : v'.events = v.events)
    (hreturned : v'.returned ↔ v.returned) (hwaiting : v'.waiting ↔ v.waiting) :
    Agrees id v' phase := by
  cases h with
  | unminted owner approved isLocked events returned waiting =>
      exact .unminted (howner.mpr owner) ((happroved (howner.mpr owner)).trans approved)
        (hlocked.trans isLocked) (hevents.trans events) (mt hreturned.mp returned)
        (mt hwaiting.mp waiting)
  | minting owner isLocked events returned waiting =>
      exact .minting (mt howner.mp owner) (hlocked.trans isLocked) (hevents.trans events)
        (mt hreturned.mp returned) (hwaiting.mpr waiting)
  | live owner isLocked events returned waiting =>
      exact .live (mt howner.mp owner) (hlocked.trans isLocked) (hevents.trans events)
        (hreturned.mpr returned) (mt hwaiting.mp waiting)
  | gone owner approved isLocked events returned waiting =>
      exact .gone (howner.mpr owner) ((happroved (howner.mpr owner)).trans approved)
        (hlocked.trans isLocked) (hevents.trans events) (hreturned.mpr returned)
        (mt hwaiting.mp waiting)

/-! ## What calls do to the invariant -/

/-- A change of the storage that leaves the locks, the guard, the counter, the events and the
existence of every token alone keeps the invariant. -/
theorem Inv.setState (h : Inv l ps) (hentered : s.entered = l.state.entered)
    (hnext : s.nextTokenId = l.state.nextTokenId)
    (hlocked : s.lockedTokens = l.state.lockedTokens) (hlogs : s.logs = l.state.logs)
    (howner : ∀ id, s.token.owners id = 0 ↔ l.state.token.owners id = 0)
    (happroved : ∀ id, s.token.owners id = 0 →
      s.token.tokenApprovals id = l.state.token.tokenApprovals id)
    (hoperators : ∀ a, s.token.operatorApprovals 0 a = false) :
    Inv { l with state := s } ps where
  pending := h.pending
  guard := by
    rw [show ({ l with state := s } : PassportLedger).state.entered = _ from hentered]
    exact h.guard
  ids := by
    rw [show ({ l with state := s } : PassportLedger).state.nextTokenId = _ from hnext]
    exact h.ids
  operators := hoperators
  tokens id := by
    obtain ⟨phase, hphase⟩ := h.tokens id
    exact ⟨phase, hphase.congr (howner id) (happroved id) (congrFun hlocked id)
      (congrArg (lockEvents · id) hlogs) Iff.rfl Iff.rfl⟩

/-- A change of the storage outside the token book, the locks, the guard, the counter and the events
keeps the invariant. -/
theorem Inv.sameToken (h : Inv l ps) (hentered : s.entered = l.state.entered)
    (hnext : s.nextTokenId = l.state.nextTokenId)
    (hlocked : s.lockedTokens = l.state.lockedTokens) (hlogs : s.logs = l.state.logs)
    (htoken : s.token = l.state.token) : Inv { l with state := s } ps := by
  refine h.setState hentered hnext hlocked hlogs ?_ ?_ ?_
  · exact fun _ => by rw [htoken]
  · exact fun _ _ => by rw [htoken]
  · exact fun a => by rw [htoken, h.operators]

/-- Recording a call that is not a mint keeps the invariant. -/
theorem Inv.record (h : Inv { l with state := s } ps)
    (hmint : mintedBy ⟨l.block, call, r⟩ = none) : Inv (l.commit s call r) ps := by
  have hminted : minted (l.commit s call r).history = minted l.history := by
    rw [Ledger.commit_history, minted_concat, hmint, Option.toList_none, List.append_nil]
  refine ⟨h.pending, h.guard, hminted ▸ h.ids, h.operators, fun id => ?_⟩
  obtain ⟨phase, hphase⟩ := h.tokens id
  refine ⟨phase, hphase.congr Iff.rfl (fun _ => rfl) rfl rfl ?_ Iff.rfl⟩
  change id ∈ minted (l.commit s call r).history ↔ _
  rw [hminted]
  rfl

/-- A transfer that waits for its receiver changes nothing in the invariant. -/
theorem inv_cons_transfer (hcons : Consistent (call, .transfer)) :
    Inv l ((call, .transfer) :: ps) ↔ Inv l ps := by
  have hminting : minting ((call, .transfer) :: ps) = minting ps := minting_cons _ _
  have hview : ∀ id, view l ((call, .transfer) :: ps) id = view l ps id := by
    intro id
    rw [view, hminting]
    rfl
  constructor
  · rintro ⟨pending, guard, ids, operators, tokens⟩
    rw [hminting] at guard ids
    exact ⟨fun p hp => pending p (List.mem_cons_of_mem _ hp), guard, ids, operators,
      fun id => hview id ▸ tokens id⟩
  · rintro ⟨pending, guard, ids, operators, tokens⟩
    rw [← hminting] at guard ids
    exact ⟨List.forall_mem_cons.mpr ⟨hcons, pending⟩, guard, ids, operators,
      fun id => (hview id).symm ▸ tokens id⟩

/-- Burning a token that exists while no mint waits keeps the invariant: the token was live, and is
gone. -/
theorem Inv.unlock (h : Inv l ps) (idle : l.state.entered = false)
    (live : l.state.token.owners id ≠ 0) (events : List Event)
    (hevents : ∀ j, lockEvents events j = []) :
    Inv { l with state := l.state.unlock (l.state.token.move 0 id) id events } ps where
  pending := h.pending
  guard := h.guard
  ids := h.ids
  operators := h.operators
  tokens j := by
    have hlogs : lockEvents (l.state.logs ++ .unlocked id :: events) j =
        lockEvents l.state.logs j ++ lockEvents [.unlocked id] j := by
      rw [List.append_cons, lockEvents_append, hevents, List.append_nil, lockEvents_append]
    by_cases hj : j = id
    · -- no mint waits, so the token that is burned was live
      subst hj
      have hwaiting : j ∉ minting ps := by
        rw [h.minting_of_idle idle]
        exact List.not_mem_nil
      cases h.live_of_owner live hwaiting with
      | live _ _ hlocked hreturned _ =>
          refine ⟨.gone, .gone (Function.update_self ..)
            (ERC721.move_tokenApprovals_self _ 0 live) (Function.update_self ..) ?_ hreturned
            hwaiting⟩
          change lockEvents (l.state.logs ++ .unlocked j :: events) j = _
          rw [hlogs, show lockEvents l.state.logs j = _ from hlocked]
          simp [lockEvents]
    · -- the other tokens keep their phase
      obtain ⟨phase, hphase⟩ := h.tokens j
      have howner : (l.state.token.move 0 id).owners j = l.state.token.owners j :=
        Function.update_of_ne hj ..
      refine ⟨phase, hphase.congr (iff_of_eq (congrArg (· = 0) howner))
        (fun _ => ERC721.move_tokenApprovals_of_ne _ 0 hj) (Function.update_of_ne hj ..) ?_
        Iff.rfl Iff.rfl⟩
      change lockEvents (l.state.logs ++ .unlocked id :: events) j = lockEvents l.state.logs j
      rw [hlogs]
      simp [lockEvents, Ne.symm hj]

/-- The start of a mint keeps the invariant: the next token was unminted, and is being minted. -/
theorem Inv.beginMint (h : Inv l ps) (idle : l.state.entered = false) {to' : Address}
    (receiver : to' ≠ 0) {sender : Address} {subjectHash credentialType uri : Bytes}
    {expiresAt : Nat} (hcons : Consistent (call, .mint sender l.state.nextTokenId subjectHash
      credentialType uri expiresAt)) :
    Inv { l with state := l.state.beginMint (l.state.token.move to' l.state.nextTokenId) }
      ((call, .mint sender l.state.nextTokenId subjectHash credentialType uri expiresAt) ::
        ps) := by
  -- the guard was open, so this mint is the only one that waits
  have hnone := h.minting_of_idle idle
  have hminting : minting ((call, .mint sender l.state.nextTokenId subjectHash credentialType uri
      expiresAt) :: ps) = [l.state.nextTokenId] := by
    rw [minting_cons, hnone]
    rfl
  refine ⟨List.forall_mem_cons.mpr ⟨hcons, h.pending⟩, Or.inr ⟨_, hminting, rfl⟩, ?_, h.operators,
    fun j => ?_⟩
  · have hids := h.ids
    rw [hnone, List.append_nil] at hids
    rw [hminting, show ({ l with state := l.state.beginMint _ } : PassportLedger).history = _ from
      rfl, hids]
    exact List.range_succ.symm
  · by_cases hj : j = l.state.nextTokenId
    · subst hj
      cases h.unminted_of_le (Nat.le_refl _) with
      | unminted _ _ hlocked hevents hreturned _ =>
          refine ⟨.minting, .minting ?_ hlocked hevents hreturned ?_⟩
          · have howner : (l.state.token.move to' l.state.nextTokenId).owners l.state.nextTokenId =
                to' := Function.update_self ..
            exact fun hzero => receiver (howner.symm.trans hzero)
          · rw [view, hminting]
            exact List.mem_singleton_self _
    · obtain ⟨phase, hphase⟩ := h.tokens j
      have howner : (l.state.token.move to' l.state.nextTokenId).owners j =
          l.state.token.owners j := Function.update_of_ne hj ..
      refine ⟨phase, hphase.congr (iff_of_eq (congrArg (· = 0) howner))
        (fun _ => ERC721.move_tokenApprovals_of_ne _ to' hj) rfl rfl Iff.rfl ?_⟩
      rw [view, view, hminting, hnone]
      simp [hj]

/-- A mint that waits on top is the only one. -/
theorem Inv.minting_eq {sender : Address} {subjectHash credentialType uri : Bytes}
    {expiresAt : Nat}
    (h : Inv l ((call, .mint sender id subjectHash credentialType uri expiresAt) :: ps)) :
    minting ((call, .mint sender id subjectHash credentialType uri expiresAt) :: ps) = [id] := by
  have hcons : minting ((call, .mint sender id subjectHash credentialType uri expiresAt) :: ps) =
      id :: minting ps := minting_cons _ _
  rcases h.guard with ⟨hnil, -⟩ | ⟨j, hj, -⟩
  · rw [hcons] at hnil
    exact absurd hnil (List.cons_ne_nil _ _)
  · rw [hcons] at hj ⊢
    rw [(List.cons.inj hj).2]

/-- The rest of a mint keeps the invariant: the token was being minted, and is live. -/
theorem Inv.finishMint {sender : Address} {subjectHash credentialType uri : Bytes}
    {expiresAt : Nat}
    (h : Inv l ((call, .mint sender id subjectHash credentialType uri expiresAt) :: ps))
    (timestamp : Nat) :
    Inv (l.commit (l.state.finishMint sender id subjectHash credentialType uri expiresAt timestamp)
      call (some id)) ps := by
  have hcons : minting ((call, .mint sender id subjectHash credentialType uri expiresAt) :: ps) =
      id :: minting ps := minting_cons _ _
  -- no mint waits below this one, so none waits once it has returned
  have hnone : minting ps = [] := (List.cons.inj (hcons.symm.trans h.minting_eq)).2
  have hminted : minted (l.history ++ [⟨l.block, call, some id⟩]) = minted l.history ++ [id] := by
    rw [minted_concat, (h.pending _ List.mem_cons_self).mintedBy_mint, Option.toList_some]
  refine ⟨fun p hp => h.pending p (List.mem_cons_of_mem _ hp), Or.inl ⟨hnone, rfl⟩, ?_, h.operators,
    fun j => ?_⟩
  · -- the id moves from the waiting ones to the returned ones
    have hids := h.ids
    rw [hcons, hnone] at hids
    rw [Ledger.commit_history, hminted, hnone, List.append_nil, hids]
    rfl
  · have hlogs : lockEvents (l.state.logs ++ [.locked id, .credentialIssued id sender subjectHash
        credentialType timestamp expiresAt]) j =
        lockEvents l.state.logs j ++ lockEvents [.locked id] j := by
      rw [lockEvents_append]
      rfl
    by_cases hj : j = id
    · subst hj
      have hmem : j ∈ minting ((call, .mint sender j subjectHash credentialType uri expiresAt) ::
          ps) := hcons ▸ List.mem_cons_self
      cases h.minting_of_mem hmem with
      | minting howner _ hevents _ _ =>
          refine ⟨.live, .live howner (Function.update_self ..) ?_ ?_ ?_⟩
          · change lockEvents (l.state.logs ++ _) j = _
            rw [hlogs, show lockEvents l.state.logs j = _ from hevents]
            simp [lockEvents]
          · change j ∈ minted (l.history ++ _)
            rw [hminted]
            exact List.mem_append_right _ (List.mem_singleton_self j)
          · rw [view, hnone]
            exact List.not_mem_nil
    · obtain ⟨phase, hphase⟩ := h.tokens j
      refine ⟨phase, hphase.congr Iff.rfl (fun _ => rfl) (Function.update_of_ne hj ..) ?_ ?_ ?_⟩
      · change lockEvents (l.state.logs ++ _) j = lockEvents l.state.logs j
        rw [hlogs]
        simp [lockEvents, Ne.symm hj]
      · change j ∈ minted (l.history ++ _) ↔ j ∈ minted l.history
        rw [hminted]
        simp [hj]
      · rw [view, view, hcons, hnone]
        simp [hj]

/-- Moving a token that exists to an owner other than zero keeps the invariant. -/
theorem Inv.transfer (h : Inv l ps) {to' : Address} (receiver : to' ≠ 0)
    (live : l.state.token.owners id ≠ 0) :
    Inv { l with state := { l.state with token := l.state.token.move to' id } } ps := by
  have howner : ∀ j, (l.state.token.move to' id).owners j = 0 ↔ l.state.token.owners j = 0 := by
    intro j
    rw [ERC721.move_owners]
    by_cases hj : j = id
    · rw [hj, Function.update_self]
      exact iff_of_false receiver live
    · rw [Function.update_of_ne hj]
  refine h.setState rfl rfl rfl rfl howner (fun j hj => ?_) h.operators
  exact ERC721.move_tokenApprovals_of_ne _ to' fun heq => live (heq ▸ (howner j).mp hj)

/-- **A call that is done at once keeps the invariant.** -/
theorem Inv.start_done (h : Inv l ps) (hstart : Starts l.state call.sender call.fn (.done s r)) :
    Inv (l.commit s call r) ps := by
  obtain ⟨a, fn⟩ := call
  cases hstart with
  | @revoke id reason role idle live islocked =>
      exact (h.unlock idle live _ fun _ => rfl).record rfl
  | burn idle live auth => exact (h.unlock idle live [] fun _ => rfl).record rfl
  | transferFrom receiver free auth owner =>
      exact (h.transfer receiver (h.live_of_authorized auth)).record rfl
  | @approve to' id live auth =>
      -- an approval is only given for a token that exists
      refine Inv.record (h.setState rfl rfl rfl rfl (fun _ => Iff.rfl) (fun j hj => ?_)
        h.operators) rfl
      exact Function.update_of_ne (fun heq : j = id => live (heq ▸ hj)) ..
  | @setApprovalForAll operator approved other =>
      -- nobody sends a message from the zero address, so it never has an operator
      have hne : (0 : Address) ≠ a := a.property.symm
      refine Inv.record (h.setState rfl rfl rfl rfl (fun _ => Iff.rfl) (fun _ _ => rfl)
        fun b => ?_) rfl
      exact (congrFun (Function.update_of_ne hne ..) b).trans (h.operators b)
  | setContractURI role => exact Inv.record (h.sameToken rfl rfl rfl rfl rfl) rfl
  | pause role unpaused => exact Inv.record (h.sameToken rfl rfl rfl rfl rfl) rfl
  | unpause role paused => exact Inv.record (h.sameToken rfl rfl rfl rfl rfl) rfl
  | role ok => exact Inv.record (h.sameToken rfl rfl rfl rfl rfl) rfl

/-- **A call that hands over control keeps the invariant**, with the call pending. -/
theorem Inv.start_calls {rest : Rest} (h : Inv l ps)
    (hstart : Starts l.state call.sender call.fn (.calls s rest)) :
    Inv { l with state := s } ((call, rest) :: ps) := by
  obtain ⟨a, fn⟩ := call
  cases hstart with
  | safeMint role unpaused idle room receiver free =>
      exact h.beginMint idle receiver ⟨rfl, _, rfl⟩
  | safeTransferFrom receiver free auth owner =>
      exact (inv_cons_transfer ⟨_, _, _, _, rfl⟩).mpr
        (h.transfer receiver (h.live_of_authorized auth))

/-- **The rest of a pending call keeps the invariant.** -/
theorem Inv.resumed {rest : Rest} (h : Inv l ((call, rest) :: ps))
    (hresume : resume l.block l.state rest = .ok (s, r)) : Inv (l.commit s call r) ps := by
  cases rest with
  | mint sender tokenId subjectHash credentialType uri expiresAt =>
      obtain ⟨rfl, rfl⟩ := Prod.mk.inj (Except.ok.inj hresume)
      exact h.finishMint l.block.timestamp
  | transfer =>
      obtain ⟨rfl, rfl⟩ := Prod.mk.inj (Except.ok.inj hresume)
      have hcons := h.pending _ List.mem_cons_self
      exact ((inv_cons_transfer hcons).mp h).record (hcons.mintedBy_transfer _ _)

/-- **The invariant holds after every run**, and of every ledger that an open frame would
restore. -/
theorem inv_run {deployer : Account} {b : Block} {as : List (CallStack.Action (Message Fn))}
    {c : PassportStack}
    (hrun : run (CallStack.step contract) (CallStack.deployed b (deploy deployer)) as = some c) :
    CallStack.Layered Inv c := by
  refine CallStack.layered_run ?_ ?_ ?_ ?_ ?_ hrun
  · exact fun l b h _ => h.mine b
  · exact fun l ps call s r h hstart => h.start_done (contract_start_eq_ok.mp hstart)
  · exact fun l ps call s rest h hstart => h.start_calls (contract_start_eq_ok.mp hstart)
  · exact fun l call rest ps s r h hresume => h.resumed hresume
  · exact CallStack.layered_closed _ rfl (inv_deployed deployer b)

end ReputationPassport.PassportSBT
