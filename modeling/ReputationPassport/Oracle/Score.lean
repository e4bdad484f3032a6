import Mathlib.Algebra.Order.BigOperators.Group.List
import Mathlib.Algebra.Order.Ring.Nat
import Mathlib.Data.List.DropRight
import ReputationPassport.Oracle.Contract

/-! # Reputation is determined by the call history

What the oracle stores about a subject is a function of the successful calls on that subject. Their
effect splits at the last update: the record is the one that update wrote, its score lowered by all
slashes since then, its stamp the time of the last call of either kind. `recordOf` states this over
a history; `records_run` shows that every run stores it. Truncated subtraction takes the amounts
one by one or as one sum, so the order of the slashes does not matter. -/

namespace ReputationPassport.ReputationOracle

open Evm Machine OpenZeppelin

/-- A successful call. -/
abbrev Call : Type := Entry (Message Fn) Unit

/-- The record a call wrote if it is an update of the subject. -/
def updateOf (subject : Bytes) (e : Call) : Option ReputationData :=
  match e.call.fn with
  | .updateReputation subjectHash overallScore reliabilityScore professionalismScore
      communityTrustScore totalEndorsements totalReviews proofHash =>
      if subjectHash = subject then
        some ⟨overallScore, reliabilityScore, professionalismScore, communityTrustScore,
          totalEndorsements, totalReviews, e.block.timestamp, proofHash⟩
      else none
  | _ => none

/-- The amount of a call if it is a slash of the subject. -/
def slashOf (subject : Bytes) (e : Call) : Option Nat :=
  match e.call.fn with
  | .slashReputation subjectHash amount _ => if subjectHash = subject then some amount else none
  | _ => none

/-- A call concerns the subject if it updates or slashes it. -/
def concerns (subject : Bytes) (e : Call) : Bool :=
  (updateOf subject e).isSome || (slashOf subject e).isSome

/-- What the last update of the subject wrote; an untouched slot if there was none. -/
def lastUpdate (subject : Bytes) (history : List Call) : ReputationData :=
  ((history.filterMap (updateOf subject)).getLast?).getD default

/-- The calls after the last update of the subject. -/
def sinceUpdate (subject : Bytes) (history : List Call) : List Call :=
  history.rtakeWhile fun e => (updateOf subject e).isNone

/-- The amounts slashed off the subject after its last update, oldest first. -/
def slashesSince (subject : Bytes) (history : List Call) : List Nat :=
  (sinceUpdate subject history).filterMap (slashOf subject)

/-- The time of the last call that concerns the subject. -/
def lastTouched (subject : Bytes) (history : List Call) : Nat :=
  ((history.filter (concerns subject)).getLast?).elim 0 fun e => e.block.timestamp

/-- **The record of a subject, read off the history.** -/
def recordOf (subject : Bytes) (history : List Call) : ReputationData :=
  { lastUpdate subject history with
    overallScore := (lastUpdate subject history).overallScore - (slashesSince subject history).sum
    lastUpdated := lastTouched subject history }

section Concat

variable {subject : Bytes} {history : List Call} {e : Call}

/-- A call is the last one to concern the subject, or leaves the one that was. -/
theorem lastTouched_concat : lastTouched subject (history ++ [e]) =
    if concerns subject e then e.block.timestamp else lastTouched subject history := by
  rw [lastTouched, List.filter_append]
  by_cases h : concerns subject e = true
  · rw [if_pos h, List.filter_cons_of_pos h, List.filter_nil, List.getLast?_concat,
      Option.elim_some]
  · rw [if_neg h, List.filter_cons_of_neg h, List.filter_nil, List.append_nil, ← lastTouched]

/-- After an update of the subject, its record is what the update wrote. -/
theorem recordOf_concat_update {r : ReputationData} (h : updateOf subject e = some r)
    (hstamp : r.lastUpdated = e.block.timestamp) : recordOf subject (history ++ [e]) = r := by
  have hlast : lastUpdate subject (history ++ [e]) = r := by
    rw [lastUpdate, List.filterMap_append, List.filterMap_cons_some h, List.filterMap_nil,
      List.getLast?_concat, Option.getD_some]
  have hsince : slashesSince subject (history ++ [e]) = [] := by
    rw [slashesSince, sinceUpdate, List.rtakeWhile_concat_neg _ _ _ (by simp [h]),
      List.filterMap_nil]
  have htouched : lastTouched subject (history ++ [e]) = e.block.timestamp := by
    rw [lastTouched_concat, if_pos (by simp [concerns, h])]
  rw [recordOf, hlast, hsince, htouched, List.sum_nil, Nat.sub_zero, ← hstamp]

/-- What a call that is no update of the subject leaves: the last update. -/
theorem lastUpdate_concat (h : updateOf subject e = none) :
    lastUpdate subject (history ++ [e]) = lastUpdate subject history := by
  rw [lastUpdate, List.filterMap_append, List.filterMap_cons_none h, List.filterMap_nil,
    List.append_nil, ← lastUpdate]

/-- A call that is no update of the subject joins those since the last one. -/
theorem slashesSince_concat (h : updateOf subject e = none) :
    slashesSince subject (history ++ [e]) =
      slashesSince subject history ++ (slashOf subject e).toList := by
  rw [slashesSince, sinceUpdate, List.rtakeWhile_concat_pos _ _ _ (by simp [h]),
    List.filterMap_append, ← sinceUpdate, ← slashesSince]
  cases hs : slashOf subject e <;> simp [hs]

/-- After a slash of the subject, the score is lowered by its amount and the stamp is its time. -/
theorem recordOf_concat_slash {amount : Nat} (h : slashOf subject e = some amount)
    (hu : updateOf subject e = none) : recordOf subject (history ++ [e]) =
      { recordOf subject history with
        overallScore := (recordOf subject history).overallScore - amount
        lastUpdated := e.block.timestamp } := by
  have htouched : lastTouched subject (history ++ [e]) = e.block.timestamp := by
    rw [lastTouched_concat, if_pos (by simp [concerns, h])]
  simp only [recordOf, lastUpdate_concat hu, slashesSince_concat hu, h, htouched,
    Option.toList_some, List.sum_append, List.sum_singleton, Nat.sub_sub]

/-- A call that does not concern the subject leaves its record. -/
theorem recordOf_concat_other (h : concerns subject e = false) :
    recordOf subject (history ++ [e]) = recordOf subject history := by
  obtain ⟨hu, hs⟩ : updateOf subject e = none ∧ slashOf subject e = none := by
    simpa [concerns] using h
  have htouched : lastTouched subject (history ++ [e]) = lastTouched subject history := by
    rw [lastTouched_concat, if_neg (by simp [h])]
  rw [recordOf, lastUpdate_concat hu, slashesSince_concat hu, hs, htouched, Option.toList_none,
    List.append_nil, ← recordOf]

end Concat

/-- **Effect of a call**: it overwrites one record, lowers one score, or changes only the roles. -/
theorem exec_cases {b : Block} {s s' : State} {c : Message Fn} {r : Unit}
    (h : exec b s c = .ok (s', r)) :
    (∃ subjectHash rep events, updateOf subjectHash ⟨b, c, r⟩ = some rep ∧
      rep.lastUpdated = b.timestamp ∧
      (∀ subject, subject ≠ subjectHash → concerns subject ⟨b, c, r⟩ = false) ∧
      s' = s.write subjectHash rep events) ∨
    (∃ subjectHash amount events, slashOf subjectHash ⟨b, c, r⟩ = some amount ∧
      updateOf subjectHash ⟨b, c, r⟩ = none ∧
      (∀ subject, subject ≠ subjectHash → concerns subject ⟨b, c, r⟩ = false) ∧
      s' = s.write subjectHash
        { s.reputations subjectHash with
          overallScore := (s.reputations subjectHash).overallScore - amount
          lastUpdated := b.timestamp } events) ∨
    (∃ roles, (∀ subject, concerns subject ⟨b, c, r⟩ = false) ∧ s' = { s with roles }) := by
  obtain ⟨sender, fn⟩ := c
  cases fn with
  | updateReputation subjectHash overallScore reliabilityScore professionalismScore
      communityTrustScore totalEndorsements totalReviews proofHash =>
      simp only [exec, bind_eq_ok, pure_eq_ok, Prod.mk.injEq, and_true] at h
      obtain ⟨t, hupdate, rfl⟩ := h
      obtain ⟨-, -, rfl⟩ := updateReputation_eq_ok.mp hupdate
      refine Or.inl ⟨subjectHash, _, _, if_pos rfl, rfl, fun subject hne => ?_, rfl⟩
      simp [concerns, updateOf, slashOf, Ne.symm hne]
  | slashReputation subjectHash amount reason =>
      simp only [exec, bind_eq_ok, pure_eq_ok, Prod.mk.injEq, and_true] at h
      obtain ⟨t, hslash, rfl⟩ := h
      obtain ⟨-, -, rfl⟩ := slashReputation_eq_ok.mp hslash
      refine Or.inr (Or.inl ⟨subjectHash, amount, _, if_pos rfl, rfl, fun subject hne => ?_, rfl⟩)
      simp [concerns, updateOf, slashOf, Ne.symm hne]
  | role call =>
      simp only [exec, bind_eq_ok, pure_eq_ok, Prod.mk.injEq, and_true] at h
      obtain ⟨roles, -, rfl⟩ := h
      exact Or.inr (Or.inr ⟨roles, fun _ => rfl, rfl⟩)

/-- A call that does not concern the subject leaves what is stored about it. -/
theorem getReputation_frame {b : Block} {s s' : State} {c : Message Fn} {r : Unit}
    (h : exec b s c = .ok (s', r)) {subject : Bytes}
    (hother : concerns subject ⟨b, c, r⟩ = false) :
    getReputation s' subject = getReputation s subject := by
  rcases exec_cases h with ⟨subjectHash, rep, events, hu, -, -, rfl⟩ |
    ⟨subjectHash, amount, events, hs, -, -, rfl⟩ | ⟨roles, -, rfl⟩
  · have hne : subject ≠ subjectHash := by
      rintro rfl
      simp [concerns, hu] at hother
    exact Function.update_of_ne hne _ _
  · have hne : subject ≠ subjectHash := by
      rintro rfl
      simp [concerns, hs] at hother
    exact Function.update_of_ne hne _ _
  · rfl

/-- **A call keeps the correspondence** between what is stored and the history. -/
theorem records_exec {b : Block} {history : List Call} {s s' : State} {c : Message Fn} {r : Unit}
    (hs : ∀ subject, s.reputations subject = recordOf subject history)
    (hc : exec b s c = .ok (s', r)) (subject : Bytes) :
    s'.reputations subject = recordOf subject (history ++ [⟨b, c, r⟩]) := by
  by_cases hsubject : concerns subject ⟨b, c, r⟩ = false
  · rw [recordOf_concat_other hsubject, ← hs]
    exact getReputation_frame hc hsubject
  · -- the call concerns the subject, so it is the one record it writes
    rcases exec_cases hc with ⟨subjectHash, rep, events, hu, hstamp, hother, rfl⟩ |
      ⟨subjectHash, amount, events, hslash, hu, hother, rfl⟩ | ⟨roles, hother, rfl⟩
    · obtain rfl : subject = subjectHash := not_imp_comm.mp (hother subject) hsubject
      rw [State.write_reputations, Function.update_self, recordOf_concat_update hu hstamp]
    · obtain rfl : subject = subjectHash := not_imp_comm.mp (hother subject) hsubject
      rw [State.write_reputations, Function.update_self, recordOf_concat_slash hslash hu, ← hs]
    · exact absurd (hother subject) hsubject

/-- **The correspondence holds after every run.** -/
theorem records_run {deployer : Account} {b : Block} {as : List (Ledger.Action (Message Fn))}
    {l : Ledger State (Message Fn) Unit}
    (hrun : run (Ledger.step exec) (Ledger.deployed b (deploy deployer)) as = some l)
    (subject : Bytes) : l.state.reputations subject = recordOf subject l.history := by
  refine Ledger.invariant
    (I := fun l => ∀ subject, l.state.reputations subject = recordOf subject l.history)
    ?_ ?_ ?_ hrun subject
  · intro l b hl _
    exact hl
  · intro l c s r hl hc
    exact records_exec hl hc
  · intro subject
    rfl

/-- A proof hash verifies exactly when the last update of the subject stored it. -/
theorem verifyReputationProof_iff {deployer : Account} {b : Block}
    {as : List (Ledger.Action (Message Fn))} {l : Ledger State (Message Fn) Unit}
    (hrun : run (Ledger.step exec) (Ledger.deployed b (deploy deployer)) as = some l)
    (subject : Bytes) (proofHash : Bytes32) :
    verifyReputationProof l.state subject proofHash = true ↔
      (lastUpdate subject l.history).proofHash = proofHash := by
  rw [verifyReputationProof, records_run hrun, beq_iff_eq, recordOf]

/-- **Reputation is determined by the call history**: after every run, the record of each subject
is that of its last update with the slashes since then taken off the score; a call on another
subject leaves it; `slashReputation` never panics; and two runs whose last updates of the subject
agree and whose slashes since then are a permutation of each other report the same score. -/
theorem reputation_of_history (deployer : Account) (b : Block)
    (as : List (Ledger.Action (Message Fn))) (l : Ledger State (Message Fn) Unit)
    (hrun : run (Ledger.step exec) (Ledger.deployed b (deploy deployer)) as = some l) :
    (∀ subject, getReputation l.state subject =
      { lastUpdate subject l.history with
        overallScore :=
          (lastUpdate subject l.history).overallScore - (slashesSince subject l.history).sum
        lastUpdated := lastTouched subject l.history }) ∧
    (∀ c s' r, exec l.block l.state c = .ok (s', r) → ∀ subject,
      concerns subject ⟨l.block, c, r⟩ = false →
        getReputation s' subject = getReputation l.state subject) ∧
    (∀ sender subject amount reason code,
      slashReputation l.block l.state sender subject amount reason ≠ .error (.panic code)) ∧
    ∀ deployer' b' as' l',
      run (Ledger.step exec) (Ledger.deployed b' (deploy deployer')) as' = some l' →
      ∀ subject, (lastUpdate subject l'.history).overallScore =
          (lastUpdate subject l.history).overallScore →
        (slashesSince subject l'.history).Perm (slashesSince subject l.history) →
        getReputationScore l'.state subject = getReputationScore l.state subject := by
  refine ⟨records_run hrun, fun c s' r hc subject => getReputation_frame hc,
    fun sender subject amount reason => slashReputation_ne_panic _ _ sender subject amount reason,
    fun deployer' b' as' l' hrun' subject hupdate hperm => ?_⟩
  rw [getReputationScore, getReputationScore, records_run hrun, records_run hrun', recordOf,
    recordOf, hupdate, hperm.sum_eq]

/-- A run with an update to `100`, a slash of `30` and one of `2 ^ 256 - 1`, on fixed inputs. -/
theorem reputation_of_history_slashTwice :
    ∃ l, run (Ledger.step exec) (Ledger.deployed (blockAt 1 1) (deploy (acct 1)))
        [.call ⟨acct 1, .updateReputation [0x73] 100 90 80 85 10 5 7⟩,
          .call ⟨acct 1, .slashReputation [0x73] 30 []⟩, .mine (blockAt 9 2),
          .call ⟨acct 1, .slashReputation [0x73] (2 ^ 256 - 1) []⟩] = some l ∧
      getReputation l.state [0x73] = ⟨0, 90, 80, 85, 10, 5, 9, 7⟩ ∧
      getReputation l.state [0x73] =
        { lastUpdate [0x73] l.history with
          overallScore :=
            (lastUpdate [0x73] l.history).overallScore - (slashesSince [0x73] l.history).sum
          lastUpdated := lastTouched [0x73] l.history } := by
  obtain ⟨l, hrun, hget⟩ : ∃ l,
      run (Ledger.step exec) (Ledger.deployed (blockAt 1 1) (deploy (acct 1)))
        [.call ⟨acct 1, .updateReputation [0x73] 100 90 80 85 10 5 7⟩,
          .call ⟨acct 1, .slashReputation [0x73] 30 []⟩, .mine (blockAt 9 2),
          .call ⟨acct 1, .slashReputation [0x73] (2 ^ 256 - 1) []⟩] = some l ∧
      getReputation l.state [0x73] = ⟨0, 90, 80, 85, 10, 5, 9, 7⟩ := ⟨_, rfl, rfl⟩
  exact ⟨l, hrun, hget, (reputation_of_history (acct 1) (blockAt 1 1) _ l hrun).1 [0x73]⟩

end ReputationPassport.ReputationOracle
