import ReputationPassport.Passport.Authority

/-! # The subject index is a record of what was issued

`_subjectCredentials` is filled at the end of `safeMint`, after the receiver was called, and no
function ever takes an entry out. So the list of a subject is read off the history: the ids that
were issued for it, in order (`Indexed.index`). At the end of a transaction the lists partition the
ids below the counter by `_subjectHashes`. What was revoked or burned stays on its list, and the
getters revert for it. -/

namespace ReputationPassport.PassportSBT

open Evm Machine OpenZeppelin

/-- The credentials that were issued, in the order of the calls. -/
def issued (history : List Call) : List (Nat × Bytes × Bytes × Nat × Nat) :=
  history.filterMap issuedBy

/-- The ids that were issued for a subject. -/
def issuedFor (subject : Bytes) (history : List Call) : List Nat :=
  ((issued history).filter fun p => p.2.1 = subject).map Prod.fst

/-- The id a call minted is that of the credential it issued. -/
theorem mintedBy_eq_map (e : Call) : mintedBy e = (issuedBy e).map Prod.fst := by
  obtain ⟨block, ⟨a, fn⟩, result⟩ := e
  cases fn <;> cases result <;> rfl

/-- The ids that were minted are those of the credentials that were issued. -/
theorem minted_eq_map (history : List Call) : minted history = (issued history).map Prod.fst := by
  rw [minted, issued, List.map_filterMap]
  exact congrArg (List.filterMap · history) (funext mintedBy_eq_map)

/-- An id was issued for a subject if some call issued it with that subject. -/
theorem mem_issuedFor {subject : Bytes} {history : List Call} {id : Nat} :
    id ∈ issuedFor subject history ↔ ∃ cred, (id, cred) ∈ issued history ∧ cred.1 = subject := by
  simp only [issuedFor, List.mem_map, List.mem_filter, decide_eq_true_eq]
  constructor
  · rintro ⟨⟨i, cred⟩, ⟨hmem, hsubject⟩, rfl⟩
    exact ⟨cred, hmem, hsubject⟩
  · rintro ⟨cred, hmem, hsubject⟩
    exact ⟨(id, cred), ⟨hmem, hsubject⟩, rfl⟩

/-- A call issues for its subject the id it returns. -/
theorem issuedFor_concat (subject : Bytes) (history : List Call) (e : Call) :
    issuedFor subject (history ++ [e]) = issuedFor subject history ++
      ((issuedBy e).toList.filter fun p => p.2.1 = subject).map Prod.fst := by
  rw [issuedFor, issued, List.filterMap_append, List.filter_append, List.map_append, ← issued,
    ← issuedFor]
  cases h : issuedBy e <;> simp [h]

/-- A call that mints nothing issues nothing. -/
theorem issuedBy_eq_none {e : Call} (h : mintedBy e = none) : issuedBy e = none := by
  rw [mintedBy_eq_map, Option.map_eq_none_iff] at h
  exact h

/-! ## The index along a run -/

/-- **The index is the history**: the list of each subject holds what was issued for it. -/
structure Indexed (l : PassportLedger) (ps : List Pending) : Prop where
  inv : Inv l ps
  index : ∀ subject, l.state.subjectCredentials subject = issuedFor subject l.history

variable {l : PassportLedger} {ps : List Pending} {s : State} {a : Account} {fn : Fn}
  {call : Message Fn} {r : Option Nat} {rest : Rest} {id : Nat}

/-- No start of a call writes the index. -/
theorem subjectCredentials_done {s s' : State} (hstart : Starts s a fn (.done s' r)) :
    s'.subjectCredentials = s.subjectCredentials := by
  cases hstart <;> rfl

theorem subjectCredentials_calls {s s' : State} (hstart : Starts s a fn (.calls s' rest)) :
    s'.subjectCredentials = s.subjectCredentials := by
  cases hstart <;> rfl

/-- A recorded call that mints nothing and leaves the index alone keeps the correspondence. -/
theorem Indexed.commit (h : Indexed l ps) {ps' : List Pending}
    (hinv : Inv (l.commit s call r) ps')
    (hindex : s.subjectCredentials = l.state.subjectCredentials)
    (hmint : mintedBy ⟨l.block, call, r⟩ = none) : Indexed (l.commit s call r) ps' := by
  refine ⟨hinv, fun subject => ?_⟩
  rw [Ledger.commit_state, hindex, h.index, Ledger.commit_history, issuedFor_concat,
    issuedBy_eq_none hmint]
  exact (List.append_nil _).symm

/-- The rest of a pending call keeps the correspondence: a mint appends the id it returns to the
list of its subject. -/
theorem Indexed.resumed (h : Indexed l ((call, rest) :: ps))
    (hresume : resume l.block l.state rest = .ok (s, r)) : Indexed (l.commit s call r) ps := by
  have hinv := h.inv.resumed hresume
  have hcons := h.inv.pending _ List.mem_cons_self
  cases rest with
  | mint sender tokenId subjectHash credentialType uri expiresAt =>
      obtain ⟨rfl, rfl⟩ := Prod.mk.inj (Except.ok.inj hresume)
      have ⟨_, to', hfn⟩ := hcons
      have hissued : issuedBy ⟨l.block, call, some tokenId⟩ =
          some (tokenId, subjectHash, credentialType, l.block.timestamp, expiresAt) := by
        rw [issuedBy, show call.fn = _ from hfn]
      refine ⟨hinv, fun subject => ?_⟩
      rw [Ledger.commit_history, issuedFor_concat, hissued, ← h.index, Ledger.commit_state,
        Option.toList_some, State.finishMint]
      by_cases hsubject : subjectHash = subject
      · subst hsubject
        simp
      · simp [hsubject, Function.update_of_ne (Ne.symm hsubject)]
  | transfer =>
      obtain ⟨rfl, rfl⟩ := Prod.mk.inj (Except.ok.inj hresume)
      exact h.commit hinv rfl (hcons.mintedBy_transfer _ _)

/-- **The correspondence holds after every run.** -/
theorem indexed_run {deployer : Account} {b : Block} {as : List (CallStack.Action (Message Fn))}
    {c : PassportStack}
    (hrun : run (CallStack.step contract) (CallStack.deployed b (deploy deployer)) as = some c) :
    CallStack.Layered Indexed c := by
  refine CallStack.layered_run ?_ ?_ ?_ ?_ ?_ hrun
  · exact fun l b h _ => ⟨h.inv.mine b, h.index⟩
  · intro l ps call s r h hstart
    have hstarts := contract_start_eq_ok.mp hstart
    exact h.commit (h.inv.start_done hstarts) (subjectCredentials_done hstarts)
      (mintedBy_done hstarts)
  · intro l ps call s rest h hstart
    have hstarts := contract_start_eq_ok.mp hstart
    exact ⟨h.inv.start_calls hstarts, fun subject =>
      (congrFun (subjectCredentials_calls hstarts) subject).trans (h.index subject)⟩
  · exact fun l call rest ps s r h hresume => h.resumed hresume
  · exact CallStack.layered_closed _ rfl ⟨inv_deployed deployer b, fun _ => rfl⟩

/-! ## The partition -/

/-- At the end of a transaction the ids that were returned are those below the counter. -/
theorem Inv.mem_minted_iff (h : Inv l []) :
    id ∈ minted l.history ↔ id < l.state.nextTokenId := by
  rw [← h.mem_iff, minting_nil, or_iff_left List.not_mem_nil]

/-- At the end of a transaction an id is on the list of a subject exactly when it is below the
counter and its recorded subject is that one. -/
theorem Indexed.mem_iff (h : Indexed l []) (hrecorded : Recorded l []) {subject : Bytes} :
    id ∈ l.state.subjectCredentials subject ↔
      id < l.state.nextTokenId ∧ l.state.subjectHashes id = subject := by
  have hstored : ∀ cred, (id, cred) ∈ issued l.history → l.state.subjectHashes id = cred.1 := by
    intro cred hmem
    obtain ⟨e, he, hissued⟩ := List.mem_filterMap.mp hmem
    exact congrArg Prod.fst (hrecorded.stored e he id cred hissued)
  have hminted : id < l.state.nextTokenId ↔ ∃ cred, (id, cred) ∈ issued l.history := by
    rw [← h.inv.mem_minted_iff, minted_eq_map]
    simp
  rw [h.index, mem_issuedFor, hminted]
  constructor
  · rintro ⟨cred, hmem, hsubject⟩
    exact ⟨⟨cred, hmem⟩, (hstored cred hmem).trans hsubject⟩
  · rintro ⟨⟨cred, hmem⟩, hsubject⟩
    exact ⟨cred, hmem, (hstored cred hmem).symm.trans hsubject⟩

/-- The list of a subject is strictly increasing. -/
theorem Indexed.increasing (h : Indexed l ps) (subject : Bytes) :
    (l.state.subjectCredentials subject).Pairwise (· < ·) := by
  -- it is a sublist of the ids that were returned, and those are the first ones in order
  have hminted : (minted l.history).Pairwise (· < ·) := by
    have hall : (minted l.history ++ minting ps).Pairwise (· < ·) := by
      rw [h.inv.ids]
      exact List.pairwise_lt_range
    exact hall.sublist (List.sublist_append_left _ _)
  rw [h.index]
  rw [minted_eq_map] at hminted
  exact hminted.sublist (List.filter_sublist.map Prod.fst)

/-- **The index is complete and exact**, at the end of a transaction. -/
structure IndexExact (l : PassportLedger) : Prop where
  /-- Every list is strictly increasing. -/
  increasing : ∀ subject, (getCredentialsBySubject l.state subject).Pairwise (· < ·)
  /-- A listed id is below the counter and was minted for the subject of its list. -/
  minted : ∀ subject, ∀ id ∈ getCredentialsBySubject l.state subject,
    id < l.state.nextTokenId ∧ ∃ e ∈ l.history, ∃ to' credentialType uri expiresAt,
      e.call.fn = .safeMint to' subject credentialType uri expiresAt ∧ e.result = some id
  /-- An id below the counter is on the list of its recorded subject and on no other. -/
  listed : ∀ id < l.state.nextTokenId, ∀ subject,
    id ∈ getCredentialsBySubject l.state subject ↔ subject = l.state.subjectHashes id
  /-- A token that exists is on the list of its recorded subject. -/
  existing : ∀ id, l.state.Exists id →
    id ∈ getCredentialsBySubject l.state (l.state.subjectHashes id)

/-- A call that issued a credential is a `safeMint` for its subject. -/
theorem safeMint_of_issuedBy {e : Call} {cred : Bytes × Bytes × Nat × Nat}
    (h : issuedBy e = some (id, cred)) : ∃ to' credentialType uri expiresAt,
      e.call.fn = .safeMint to' cred.1 credentialType uri expiresAt ∧ e.result = some id := by
  unfold issuedBy at h
  split at h
  · next to' subjectHash credentialType uri expiresAt i hfn hres =>
    obtain ⟨rfl, rfl⟩ := Prod.mk.inj (Option.some.inj h)
    exact ⟨to', credentialType, uri, expiresAt, hfn, hres⟩
  · exact absurd h (by simp)

/-- A token that exists is below the counter. -/
theorem Inv.lt_of_exists (h : Inv l ps) (hlive : l.state.Exists id) : id < l.state.nextTokenId := by
  by_contra hle
  cases h.unminted_of_le (Nat.not_lt.mp hle) with
  | unminted owner => exact hlive owner

/-- **The subject index is complete and exact** at the end of every transaction. -/
theorem index_exact (deployer : Account) (b : Block)
    (as : List (CallStack.Action (Message Fn))) (c : PassportStack)
    (hrun : run (CallStack.step contract) (CallStack.deployed b (deploy deployer)) as = some c)
    (hclosed : c.frames = []) : IndexExact c.ledger := by
  have h := (indexed_run hrun).1
  have hrecorded := (recorded_run rfl (recorded_deployed deployer b) hrun).1.1
  rw [hclosed] at h hrecorded
  refine ⟨h.increasing, ?_, ?_, ?_⟩
  · intro subject id hid
    refine ⟨((h.mem_iff hrecorded).mp hid).1, ?_⟩
    rw [getCredentialsBySubject, h.index, mem_issuedFor] at hid
    obtain ⟨cred, hmem, rfl⟩ := hid
    obtain ⟨e, he, hissued⟩ := List.mem_filterMap.mp hmem
    exact ⟨e, he, safeMint_of_issuedBy hissued⟩
  · intro id hid subject
    rw [getCredentialsBySubject, h.mem_iff hrecorded, and_iff_right hid, eq_comm]
  · intro id hlive
    exact (h.mem_iff hrecorded).mpr ⟨h.inv.lt_of_exists hlive, rfl⟩

/-- The index after two mints for one subject, one for another, and a revocation. -/
def threeMints : List (CallStack.Action (Message Fn)) :=
  [.call ⟨acct 1, .safeMint 7 [0x73] [] [] 0⟩ true, .accept,
    .call ⟨acct 1, .safeMint 7 [0x74] [] [] 0⟩ false,
    .call ⟨acct 1, .safeMint 7 [0x73] [] [] 0⟩ false, .call ⟨acct 1, .revoke 0 []⟩ false]

theorem index_exact_threeMints : ∃ c : PassportStack,
    run (CallStack.step contract) (CallStack.deployed (blockAt 1 1) (deploy (acct 1)))
      threeMints = some c ∧
    getCredentialsBySubject c.ledger.state [0x73] = [0, 2] ∧ IndexExact c.ledger := by
  obtain ⟨c, hrun, hclosed, hlist⟩ : ∃ c : PassportStack,
      run (CallStack.step contract) (CallStack.deployed (blockAt 1 1) (deploy (acct 1)))
        threeMints = some c ∧ c.frames = [] ∧
      getCredentialsBySubject c.ledger.state [0x73] = [0, 2] := ⟨_, rfl, rfl, rfl⟩
  exact ⟨c, hrun, hlist, index_exact (acct 1) (blockAt 1 1) threeMints c hrun hclosed⟩

/-! ## What the getters say about a listed id -/

/-- The three getters succeed for an id, and the information is about this subject. -/
def Resolves (l : PassportLedger) (subject : Bytes) (id : Nat) : Prop :=
  (∃ info, getCredentialInfo l.state id = .ok info ∧ info.subjectHash = subject) ∧
    (∃ isLocked, locked l.state id = .ok isLocked) ∧
    ∃ expired, isExpired l.block l.state id = .ok expired

/-- The three getters revert for an id with the message of `_exists`. -/
def Missing (l : PassportLedger) (id : Nat) : Prop :=
  getCredentialInfo l.state id = .error (.reason "Token does not exist") ∧
    locked l.state id = .error (.reason "Token does not exist") ∧
    isExpired l.block l.state id = .error (.reason "Token does not exist")

/-- The getters succeed for a token that exists, and report its recorded subject. -/
theorem resolves_of_exists (hlive : l.state.Exists id) :
    Resolves l (l.state.subjectHashes id) id := by
  have howner : l.state.token.ownerOf id = .ok (l.state.token.owners id) :=
    ERC721.ownerOf_eq_ok.mpr ⟨hlive, rfl⟩
  simp only [Resolves, getCredentialInfo, locked, isExpired, bind_eq_ok, require_eq_ok,
    exists_const, pure_eq_ok]
  exact ⟨⟨_, ⟨hlive, _, howner, rfl⟩, rfl⟩, ⟨_, hlive, rfl⟩, ⟨_, hlive, rfl⟩⟩

/-- The getters revert for a token that does not exist. -/
theorem missing_of_not_exists (hgone : ¬ l.state.Exists id) : Missing l id := by
  have hrequire : (require (l.state.Exists id) "Token does not exist" : Result Unit) =
      .error (.reason "Token does not exist") := if_neg hgone
  rw [Missing, getCredentialInfo, locked, isExpired, hrequire]
  exact ⟨rfl, rfl, rfl⟩

/-- **The lists record what was issued**: a listed id resolves until it is revoked or burned; then
it stays listed and the getters revert. -/
structure ListedRecord (l : PassportLedger) : Prop where
  /-- A listed id that was not removed resolves to the subject of its list. -/
  resolves : ∀ subject, ∀ id ∈ getCredentialsBySubject l.state subject,
    id ∉ removed l.history → Resolves l subject id
  /-- For a listed id that was removed the getters revert. -/
  missing : ∀ subject, ∀ id ∈ getCredentialsBySubject l.state subject,
    id ∈ removed l.history → Missing l id
  /-- What was removed is still listed for its subject. -/
  stays : ∀ id ∈ removed l.history, id ∈ getCredentialsBySubject l.state (l.state.subjectHashes id)

/-- **The lists of the subject index, at the end of every transaction.** -/
theorem listed_record (deployer : Account) (b : Block)
    (as : List (CallStack.Action (Message Fn))) (c : PassportStack)
    (hrun : run (CallStack.step contract) (CallStack.deployed b (deploy deployer)) as = some c)
    (hclosed : c.frames = []) : ListedRecord c.ledger := by
  have h := (indexed_run hrun).1
  have hrecorded := (recorded_run rfl (recorded_deployed deployer b) hrun).1.1
  have haccounted := (accounted_run hrun).1
  rw [hclosed] at h hrecorded haccounted
  have hlt : ∀ id, id ∈ minted c.ledger.history ↔ id < c.ledger.state.nextTokenId :=
    fun _ => h.inv.mem_minted_iff
  refine ⟨?_, ?_, ?_⟩
  · intro subject id hid hkept
    obtain ⟨hbelow, rfl⟩ := (h.mem_iff hrecorded).mp hid
    exact resolves_of_exists (haccounted.exists_iff.mpr ⟨(hlt id).mpr hbelow, hkept⟩)
  · intro subject id _ hremoved
    exact missing_of_not_exists ((haccounted.gone id).mp hremoved).2
  · intro id hremoved
    have hminted := ((haccounted.gone id).mp hremoved).1
    exact (h.mem_iff hrecorded).mpr ⟨(hlt id).mp hminted, rfl⟩

/-- After the three mints and the revocation of the first, that one is still listed and does not
resolve, while the third does. -/
theorem listed_record_threeMints : ∃ c : PassportStack,
    run (CallStack.step contract) (CallStack.deployed (blockAt 1 1) (deploy (acct 1)))
      threeMints = some c ∧
    removed c.ledger.history = [0] ∧ getCredentialsBySubject c.ledger.state [0x73] = [0, 2] ∧
    ListedRecord c.ledger := by
  obtain ⟨c, hrun, hclosed, hremoved, hlist⟩ : ∃ c : PassportStack,
      run (CallStack.step contract) (CallStack.deployed (blockAt 1 1) (deploy (acct 1)))
        threeMints = some c ∧ c.frames = [] ∧ removed c.ledger.history = [0] ∧
      getCredentialsBySubject c.ledger.state [0x73] = [0, 2] := ⟨_, rfl, rfl, rfl, rfl⟩
  exact ⟨c, hrun, hremoved, hlist,
    listed_record (acct 1) (blockAt 1 1) threeMints c hrun hclosed⟩

/-- Not every listed id resolves: the revoked one does not. -/
theorem revoked_credential_stays_listed :
    ¬ ∀ (deployer : Account) (b : Block) (as : List (CallStack.Action (Message Fn)))
        (c : PassportStack),
      run (CallStack.step contract) (CallStack.deployed b (deploy deployer)) as = some c →
      c.frames = [] →
      ∀ subject, ∀ id ∈ getCredentialsBySubject c.ledger.state subject,
        Resolves c.ledger subject id := by
  intro h
  obtain ⟨c, hrun, hclosed, hlisted, hinfo⟩ : ∃ c : PassportStack,
      run (CallStack.step contract) (CallStack.deployed (blockAt 1 1) (deploy (acct 1)))
        threeMints = some c ∧ c.frames = [] ∧
      0 ∈ getCredentialsBySubject c.ledger.state [0x73] ∧
      getCredentialInfo c.ledger.state 0 = .error (.reason "Token does not exist") :=
    ⟨_, rfl, rfl, List.mem_cons_self, rfl⟩
  obtain ⟨⟨info, hok, -⟩, -⟩ := h (acct 1) (blockAt 1 1) threeMints c hrun hclosed [0x73] 0 hlisted
  rw [hinfo] at hok
  cases hok

end ReputationPassport.PassportSBT
