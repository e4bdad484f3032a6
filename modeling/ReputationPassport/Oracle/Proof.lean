import ReputationPassport.Oracle.Score

/-! # What an accepted proof hash stands for

`verifyReputationProof` compares a hash with the one the record of the subject holds. A record that
was updated holds the hash of its last update, so an accepted hash leads back to that call
(`LastUpdateAt`); a record that was never updated holds the zero hash, which is accepted although
nobody supplied it. Of what the last update wrote a slash changes the overall score and the stamp,
and leaves the rest, the hash included. -/

namespace ReputationPassport.ReputationOracle

open Evm Machine OpenZeppelin

/-- The subject was updated. -/
def Updated (subject : Bytes) (history : List Call) : Prop :=
  ∃ e ∈ history, ∃ rep, updateOf subject e = some rep

/-- **The last update of the subject supplied the hash**: an update did, and none after it supplied
another. -/
def Supplied (subject : Bytes) (proofHash : Bytes32) (history : List Call) : Prop :=
  ∃ before e since rep, history = before ++ e :: since ∧ updateOf subject e = some rep ∧
    rep.proofHash = proofHash ∧
    ∀ e' ∈ since, ∀ rep', updateOf subject e' = some rep' → rep'.proofHash = proofHash

/-- **The last update of the subject in a history**: what it wrote, and the calls since. -/
structure LastUpdateAt (subject : Bytes) (history : List Call) (rep : ReputationData)
    (since : List Call) : Prop where
  split : ∃ before e, history = before ++ e :: since ∧ updateOf subject e = some rep
  latest : ∀ e ∈ since, updateOf subject e = none

/-! ## The last update -/

variable {subject : Bytes} {history since : List Call} {rep : ReputationData}

/-- Two entries at which a history splits are one, or one of them comes after the other. -/
theorem eq_or_mem_of_split {before since before' since' : List Call} {e e' : Call}
    (h : before ++ e :: since = before' ++ e' :: since') : e = e' ∨ e' ∈ since ∨ e ∈ since' := by
  rcases List.append_eq_append_iff.mp h with ⟨between, -, hrest⟩ | ⟨between, -, hrest⟩
  · cases between with
    | nil => exact Or.inl (List.cons.inj hrest).1
    | cons c between =>
        obtain ⟨-, rfl⟩ := List.cons.inj hrest
        exact Or.inr (Or.inl (List.mem_append_right _ List.mem_cons_self))
  · cases between with
    | nil => exact Or.inl (List.cons.inj hrest).1.symm
    | cons c between =>
        obtain ⟨-, rfl⟩ := List.cons.inj hrest
        exact Or.inr (Or.inr (List.mem_append_right _ List.mem_cons_self))

/-- A subject that was updated was updated for the last time at some point. -/
theorem exists_lastUpdateAt (h : Updated subject history) :
    ∃ rep since, LastUpdateAt subject history rep since := by
  induction history using List.reverseRecOn with
  | nil =>
      obtain ⟨e, he, -⟩ := h
      exact absurd he List.not_mem_nil
  | append_singleton history e ih =>
      cases hu : updateOf subject e with
      | some rep => exact ⟨rep, [], ⟨history, e, rfl, hu⟩, fun _ he => absurd he List.not_mem_nil⟩
      | none =>
          have hbefore : Updated subject history := by
            obtain ⟨e', he', rep', hrep'⟩ := h
            rcases List.mem_append.mp he' with he' | he'
            · exact ⟨e', he', rep', hrep'⟩
            · rw [List.mem_singleton.mp he', hu] at hrep'
              cases hrep'
          obtain ⟨rep, since, ⟨before, e₀, rfl, he₀⟩, hlatest⟩ := ih hbefore
          refine ⟨rep, since ++ [e], ⟨before, e₀, by simp, he₀⟩, fun e' he' => ?_⟩
          rcases List.mem_append.mp he' with he' | he'
          · exact hlatest e' he'
          · rw [List.mem_singleton.mp he', hu]

namespace LastUpdateAt

/-- The last update wrote what the history has as its last update. -/
theorem lastUpdate_eq (h : LastUpdateAt subject history rep since) :
    lastUpdate subject history = rep := by
  obtain ⟨before, e, rfl, he⟩ := h.split
  have hnone : since.filterMap (updateOf subject) = [] :=
    List.filterMap_eq_nil_iff.mpr h.latest
  rw [lastUpdate, List.filterMap_append, List.filterMap_cons_some he, hnone, List.getLast?_concat,
    Option.getD_some]

/-- The slashes since the last update are those among the calls since. -/
theorem slashesSince_eq (h : LastUpdateAt subject history rep since) :
    slashesSince subject history = since.filterMap (slashOf subject) := by
  obtain ⟨before, e, rfl, he⟩ := h.split
  have hlatest := h.latest
  -- from the last call backwards, as `sinceUpdate` takes the calls
  induction since using List.reverseRecOn with
  | nil =>
      rw [slashesSince, sinceUpdate, List.rtakeWhile_concat_neg _ _ _ (by simp [he]),
        List.filterMap_nil]
  | append_singleton since d ih =>
      have hd : updateOf subject d = none := hlatest d (by simp)
      have hsince : ∀ e' ∈ since, updateOf subject e' = none :=
        fun e' he' => hlatest e' (List.mem_append_left _ he')
      have hprev := ih ⟨⟨before, e, rfl, he⟩, hsince⟩ hsince
      rw [← List.cons_append, ← List.append_assoc, slashesSince_concat hd, hprev,
        List.filterMap_append]
      cases hs : slashOf subject d <;> simp [hs]

/-- The hash that was supplied last is the one the last update wrote. -/
theorem supplied_iff (h : LastUpdateAt subject history rep since) {proofHash : Bytes32} :
    Supplied subject proofHash history ↔ rep.proofHash = proofHash := by
  obtain ⟨before, e, rfl, he⟩ := h.split
  constructor
  · rintro ⟨before', e', since', rep', hsplit, he', rfl, hsince'⟩
    -- the last update is the call that supplied the hash, or comes after it
    rcases eq_or_mem_of_split hsplit with rfl | hlater | hearlier
    · exact congrArg ReputationData.proofHash (Option.some.inj (he.symm.trans he'))
    · rw [h.latest e' hlater] at he'
      cases he'
    · exact hsince' e hearlier rep he
  · intro hhash
    refine ⟨before, e, since, rep, rfl, he, hhash, fun e' he' rep' hrep' => ?_⟩
    rw [h.latest e' he'] at hrep'
    cases hrep'

end LastUpdateAt

/-- A hash that was supplied was supplied by an update. -/
theorem Supplied.updated {proofHash : Bytes32} (h : Supplied subject proofHash history) :
    Updated subject history := by
  obtain ⟨before, e, since, rep, rfl, he, -⟩ := h
  exact ⟨e, List.mem_append_right _ List.mem_cons_self, rep, he⟩

/-- The record of a subject that was never updated holds the zero hash. -/
theorem lastUpdate_of_not_updated (h : ¬ Updated subject history) :
    lastUpdate subject history = default := by
  have hnone : history.filterMap (updateOf subject) = [] := by
    refine List.filterMap_eq_nil_iff.mpr fun e he => ?_
    by_contra hsome
    exact h ⟨e, he, Option.ne_none_iff_exists'.mp hsome⟩
  rw [lastUpdate, hnone, List.getLast?_nil, Option.getD_none]

/-! ## What is accepted -/

/-- **An accepted hash was supplied, but for the zero hash of a subject without an update.** In
every reachable state, `verifyReputationProof` accepts a hash only if the last update of the subject
supplied it, exactly when the hash is not zero or the subject was updated. -/
theorem accepted_supplied_iff (deployer : Account) (b : Block)
    (as : List (Ledger.Action (Message Fn))) (l : Ledger State (Message Fn) Unit)
    (hrun : run (Ledger.step exec) (Ledger.deployed b (deploy deployer)) as = some l)
    (subject : Bytes) (proofHash : Bytes32) :
    (verifyReputationProof l.state subject proofHash = true →
        Supplied subject proofHash l.history) ↔
      proofHash ≠ 0 ∨ Updated subject l.history := by
  rw [verifyReputationProof_iff hrun]
  by_cases hupdated : Updated subject l.history
  · obtain ⟨rep, since, hlast⟩ := exists_lastUpdateAt hupdated
    rw [hlast.lastUpdate_eq, hlast.supplied_iff]
    exact iff_of_true id (Or.inr hupdated)
  · rw [lastUpdate_of_not_updated hupdated]
    constructor
    · -- the zero hash would be accepted, and nobody supplied it
      intro h
      refine Or.inl fun hzero => hupdated (h ?_).updated
      rw [hzero]
      rfl
    · rintro (hne | h) hzero
      · exact absurd hzero.symm hne
      · exact absurd h hupdated

/-- A run with an update to `100` and a slash of `30`. -/
def updateAndSlash : List (Ledger.Action (Message Fn)) :=
  [.call ⟨acct 1, .updateReputation [0x73] 100 90 80 85 10 5 7⟩, .mine (blockAt 9 2),
    .call ⟨acct 1, .slashReputation [0x73] 30 []⟩]

theorem accepted_supplied_iff_updateAndSlash : ∃ l,
    run (Ledger.step exec) (Ledger.deployed (blockAt 1 1) (deploy (acct 1))) updateAndSlash =
      some l ∧
    ((verifyReputationProof l.state [0x73] 7 = true → Supplied [0x73] 7 l.history) ↔
      (7 : Bytes32) ≠ 0 ∨ Updated [0x73] l.history) := by
  obtain ⟨l, hrun⟩ : ∃ l, run (Ledger.step exec)
      (Ledger.deployed (blockAt 1 1) (deploy (acct 1))) updateAndSlash = some l := ⟨_, rfl⟩
  exact ⟨l, hrun, accepted_supplied_iff (acct 1) (blockAt 1 1) updateAndSlash l hrun [0x73] 7⟩

/-- **The zero hash is accepted for every subject at first**: right after deployment, and still
after a slash, although no update has supplied it. -/
theorem unsupplied_hash_accepted :
    ¬ ∀ (deployer : Account) (b : Block) (as : List (Ledger.Action (Message Fn)))
        (l : Ledger State (Message Fn) Unit),
      run (Ledger.step exec) (Ledger.deployed b (deploy deployer)) as = some l →
      ∀ subject proofHash, verifyReputationProof l.state subject proofHash = true →
        Supplied subject proofHash l.history := by
  intro h
  have hsupplied := h (acct 1) (blockAt 1 1) [.call ⟨acct 1, .slashReputation [0x73] 30 []⟩] _ rfl
    [0x73] 0 rfl
  obtain ⟨e, he, rep, hrep⟩ := hsupplied.updated
  obtain rfl := List.mem_singleton.mp he
  cases hrep

/-! ## What is read alongside -/

/-- **The record attests its scores**: what `getReputation` reports is what the update wrote that
supplied the stored hash, the stamp apart, and the score read alongside an accepted hash is the one
it was submitted for. -/
structure AttestsScores (s : State) (subject : Bytes) (rep : ReputationData) : Prop where
  record : getReputation s subject =
    { rep with lastUpdated := (getReputation s subject).lastUpdated }
  score : ∀ proofHash, verifyReputationProof s subject proofHash = true →
    getReputationScore s subject = rep.overallScore

/-- **What the record attests**, the slashes since the last update taken into account. -/
structure AttestsSlashed (s : State) (subject : Bytes) (rep : ReputationData)
    (slashes : List Nat) : Prop where
  record : getReputation s subject =
    { rep with
      overallScore := rep.overallScore - slashes.sum
      lastUpdated := (getReputation s subject).lastUpdated }
  accepted : ∀ proofHash,
    verifyReputationProof s subject proofHash = true ↔ proofHash = rep.proofHash
  score : getReputationScore s subject = rep.overallScore ↔
    slashes.sum = 0 ∨ rep.overallScore = 0

/-- **The proof attests all but the slashes.** After every run, for every subject that was updated:
the record is what its last update wrote, with the slashes since then taken off the overall score;
exactly the hash of that update is accepted; and the score is the one it was submitted for exactly
when the slashes add up to nothing or there was nothing to take off. -/
theorem proof_attests_but_slashes (deployer : Account) (b : Block)
    (as : List (Ledger.Action (Message Fn))) (l : Ledger State (Message Fn) Unit)
    (hrun : run (Ledger.step exec) (Ledger.deployed b (deploy deployer)) as = some l)
    (subject : Bytes) (hupdated : Updated subject l.history) :
    ∃ rep since, LastUpdateAt subject l.history rep since ∧
      AttestsSlashed l.state subject rep (since.filterMap (slashOf subject)) := by
  obtain ⟨rep, since, hlast⟩ := exists_lastUpdateAt hupdated
  have hrecord : getReputation l.state subject =
      { rep with
        overallScore := rep.overallScore - (since.filterMap (slashOf subject)).sum
        lastUpdated := lastTouched subject l.history } := by
    rw [getReputation, records_run hrun, recordOf, hlast.lastUpdate_eq, hlast.slashesSince_eq]
  refine ⟨rep, since, hlast, ?_, fun proofHash => ?_, ?_⟩
  · rw [hrecord]
  · rw [verifyReputationProof_iff hrun, hlast.lastUpdate_eq]
    exact eq_comm
  · have hscore : getReputationScore l.state subject =
        rep.overallScore - (since.filterMap (slashOf subject)).sum :=
      congrArg ReputationData.overallScore hrecord
    rw [hscore]
    omega

theorem proof_attests_but_slashes_updateAndSlash : ∃ l,
    run (Ledger.step exec) (Ledger.deployed (blockAt 1 1) (deploy (acct 1))) updateAndSlash =
      some l ∧
    ∃ rep since, LastUpdateAt [0x73] l.history rep since ∧
      AttestsSlashed l.state [0x73] rep (since.filterMap (slashOf [0x73])) := by
  obtain ⟨l, hrun, hupdated⟩ : ∃ l, run (Ledger.step exec)
      (Ledger.deployed (blockAt 1 1) (deploy (acct 1))) updateAndSlash = some l ∧
      Updated [0x73] l.history :=
    ⟨_, rfl, _, List.mem_cons_self, _, rfl⟩
  exact ⟨l, hrun, proof_attests_but_slashes (acct 1) (blockAt 1 1) _ l hrun [0x73] hupdated⟩

/-- **After a slash the proof no longer attests the score**: the hash that was submitted with a
score of `100` is accepted while the score reads `70`. -/
theorem slashed_score_not_attested :
    ¬ ∀ (deployer : Account) (b : Block) (as : List (Ledger.Action (Message Fn)))
        (l : Ledger State (Message Fn) Unit),
      run (Ledger.step exec) (Ledger.deployed b (deploy deployer)) as = some l →
      ∀ subject rep since, LastUpdateAt subject l.history rep since →
        AttestsScores l.state subject rep := by
  intro h
  obtain ⟨l, hrun, hlast, haccepted, hscore⟩ : ∃ l, run (Ledger.step exec)
      (Ledger.deployed (blockAt 1 1) (deploy (acct 1))) updateAndSlash = some l ∧
      (∃ since, LastUpdateAt [0x73] l.history ⟨100, 90, 80, 85, 10, 5, 1, 7⟩ since) ∧
      verifyReputationProof l.state [0x73] 7 = true ∧ getReputationScore l.state [0x73] = 70 := by
    refine ⟨_, rfl, ⟨_, ⟨[], _, rfl, rfl⟩, fun e he => ?_⟩, rfl, rfl⟩
    obtain rfl := List.mem_singleton.mp he
    rfl
  obtain ⟨since, hlast⟩ := hlast
  have hattested := (h _ _ _ l hrun [0x73] _ since hlast).score 7 haccepted
  rw [hscore] at hattested
  exact absurd hattested (by decide)

end ReputationPassport.ReputationOracle
