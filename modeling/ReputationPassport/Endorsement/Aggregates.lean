import Mathlib.Algebra.Group.Action.Defs
import Mathlib.Algebra.Order.BigOperators.Group.List
import Mathlib.Algebra.Order.Ring.Nat
import ReputationPassport.Endorsement.Registry

/-! # The endorsement aggregates are projections of one log

The purpose of the registry is to keep a numbered log of endorsements and to answer, for each
subject, which of them concern it, how many there are and what they weigh together. `Represents`
says that the storage is that log: the records, the per-subject lists, the running totals and the
counter are all read off it. Each added endorsement keeps the correspondence
(`Represents.push`), so it holds after every run, and the bounds and the absence of overflow follow
from it. -/

namespace ReputationPassport.EndorsementRegistry

open Evm Machine OpenZeppelin

/-- A numbered log of endorsements. -/
abbrev Log : Type := List (Nat × Endorsement)

/-- The entries of a log that concern a subject, in their order. -/
def Log.about (log : Log) (subject : Bytes) : Log :=
  log.filter fun p => p.2.subjectHash = subject

theorem Log.about_append (log : Log) (p : Nat × Endorsement) (subject : Bytes) :
    Log.about (log ++ [p]) subject =
      log.about subject ++ if p.2.subjectHash = subject then [p] else [] := by
  rw [Log.about, List.filter_append, List.filter_singleton]
  by_cases h : p.2.subjectHash = subject <;> simp [h, Log.about]

/-- The endorsement a successful call added, with the id it returned. -/
def entryAdded (e : Entry (Message Fn) (Option Nat)) : Option (Nat × Endorsement) :=
  match e.call.fn, e.result with
  | .addEndorsement subjectHash weight category comment, some id =>
      some (id, ⟨e.call.sender, subjectHash, weight, category, comment, e.block.timestamp⟩)
  | _, _ => none

/-- The endorsements successfully added in a history, oldest first. -/
def added (history : List (Entry (Message Fn) (Option Nat))) : Log := history.filterMap entryAdded

/-- A successful call adds at most one entry. -/
theorem added_append (history : List (Entry (Message Fn) (Option Nat)))
    (e : Entry (Message Fn) (Option Nat)) :
    added (history ++ [e]) = added history ++ (entryAdded e).toList := by
  rw [added, List.filterMap_append, ← added]
  cases h : entryAdded e <;> simp [h]

/-- **The storage is the log**: the counter numbers its entries, every record is stored under its
number, and the list and the total of each subject are those of its entries. -/
structure Represents (log : Log) (s : State) : Prop where
  /-- The ids are `0, 1, 2, …` up to the counter. -/
  ids : log.map Prod.fst = List.range s.nextEndorsementId
  /-- Every record is stored under its id. -/
  record : ∀ p ∈ log, s.endorsements p.1 = p.2
  /-- Every weight is from `1` to `100`. -/
  weight : ∀ p ∈ log, 0 < p.2.weight ∧ p.2.weight ≤ 100
  /-- The list of a subject holds the ids of its entries. -/
  list : ∀ subject, s.subjectEndorsements subject = (log.about subject).map Prod.fst
  /-- The total of a subject is the sum over its entries. -/
  total : ∀ subject, s.totalWeight subject = ((log.about subject).map fun p => p.2.weight).sum

namespace Represents

variable {log : Log} {s : State}

/-- Every id in the log is below the counter. -/
theorem id_lt (h : Represents log s) {p : Nat × Endorsement} (hp : p ∈ log) :
    p.1 < s.nextEndorsementId := by
  have hmem : p.1 ∈ log.map Prod.fst := List.mem_map_of_mem hp
  rwa [h.ids, List.mem_range] at hmem

/-- **Adding an endorsement appends it to the log.** -/
theorem push (h : Represents log s) {e : Endorsement} (hw : 0 < e.weight ∧ e.weight ≤ 100) :
    Represents (log ++ [(s.nextEndorsementId, e)]) (s.push e) where
  ids := by
    rw [List.map_append, h.ids, State.push_nextEndorsementId, List.range_succ]
    rfl
  record p hp := by
    rcases List.mem_append.mp hp with hp | hp
    · rw [State.push_endorsements, Function.update_of_ne (Nat.ne_of_lt (h.id_lt hp))]
      exact h.record p hp
    · rw [List.mem_singleton.mp hp, State.push_endorsements, Function.update_self]
  weight p hp := by
    rcases List.mem_append.mp hp with hp | hp
    · exact h.weight p hp
    · rw [List.mem_singleton.mp hp]
      exact hw
  list subject := by
    rw [Log.about_append, List.map_append, ← h.list, State.push_subjectEndorsements]
    by_cases hs : e.subjectHash = subject
    · subst hs
      rw [if_pos rfl, Function.update_self]
      rfl
    · rw [if_neg hs, Function.update_of_ne (Ne.symm hs), List.map_nil, List.append_nil]
  total subject := by
    rw [Log.about_append, List.map_append, List.sum_append, ← h.total, State.push_totalWeight]
    by_cases hs : e.subjectHash = subject
    · subst hs
      rw [if_pos rfl, Function.update_self]
      rfl
    · rw [if_neg hs, Function.update_of_ne (Ne.symm hs), List.map_nil, List.sum_nil, Nat.add_zero]

/-- Changing the roles does not touch the log. -/
theorem withRoles (h : Represents log s) (roles : Roles) : Represents log { s with roles } :=
  ⟨h.ids, h.record, h.weight, h.list, h.total⟩

/-- The getter returns the records of the subject's entries. -/
theorem getSubjectEndorsements_eq (h : Represents log s) (subject : Bytes) :
    getSubjectEndorsements s subject = (log.about subject).map Prod.snd := by
  rw [EndorsementRegistry.getSubjectEndorsements_eq, h.list, List.map_map]
  exact List.map_congr_left fun p hp => h.record p (List.mem_filter.mp hp).1

/-- The list of every subject is strictly increasing. -/
theorem increasing (h : Represents log s) (subject : Bytes) :
    (s.subjectEndorsements subject).Pairwise (· < ·) := by
  rw [h.list]
  -- the list is a sublist of all ids, and those are in order
  have hall : (log.map Prod.fst).Pairwise (· < ·) := by
    rw [h.ids]
    exact List.pairwise_lt_range
  exact hall.sublist (List.filter_sublist.map Prod.fst)

/-- An id is on a list exactly when the log has an entry of that id about that subject. -/
theorem mem_list (h : Represents log s) {id : Nat} {subject : Bytes} :
    id ∈ s.subjectEndorsements subject ↔ ∃ e, (id, e) ∈ log ∧ e.subjectHash = subject := by
  simp only [h.list, Log.about, List.mem_map, List.mem_filter, decide_eq_true_eq, Prod.exists,
    exists_and_right]
  constructor
  · rintro ⟨i, ⟨e, he⟩, rfl⟩
    exact ⟨e, he⟩
  · rintro ⟨e, he⟩
    exact ⟨id, ⟨e, he⟩, rfl⟩

/-- Every id below the counter is on the list of exactly one subject. -/
theorem existsUnique_subject (h : Represents log s) {id : Nat} (hid : id < s.nextEndorsementId) :
    ∃! subject, id ∈ s.subjectEndorsements subject := by
  have hmem : id ∈ log.map Prod.fst := by
    rw [h.ids]
    exact List.mem_range.mpr hid
  obtain ⟨⟨i, e⟩, hp, rfl⟩ := List.mem_map.mp hmem
  -- two entries with one id are one record, so they are about one subject
  refine ⟨e.subjectHash, h.mem_list.mpr ⟨e, hp, rfl⟩, fun subject hs => ?_⟩
  obtain ⟨e', hp', rfl⟩ := h.mem_list.mp hs
  exact congrArg Endorsement.subjectHash ((h.record _ hp').symm.trans (h.record _ hp))

/-- The total of a subject lies between its count and a hundred times its count. -/
theorem total_bounds (h : Represents log s) (subject : Bytes) :
    (log.about subject).length ≤ s.totalWeight subject ∧
      s.totalWeight subject ≤ 100 * (log.about subject).length := by
  have hw : ∀ w ∈ (log.about subject).map (fun p => p.2.weight), 1 ≤ w ∧ w ≤ 100 := by
    intro w hw
    obtain ⟨p, hp, rfl⟩ := List.mem_map.mp hw
    exact h.weight p (List.mem_filter.mp hp).1
  have hlow := List.card_nsmul_le_sum _ 1 fun w h => (hw w h).1
  have hhigh := List.sum_le_card_nsmul _ 100 fun w h => (hw w h).2
  rw [List.length_map, smul_eq_mul, ← h.total] at hlow hhigh
  exact ⟨by omega, by omega⟩

/-- No subject has more entries than the counter says were added. -/
theorem length_about_le (h : Represents log s) (subject : Bytes) :
    (log.about subject).length ≤ s.nextEndorsementId := by
  have hlen : log.length = s.nextEndorsementId := by
    rw [← List.length_map (f := Prod.fst), h.ids, List.length_range]
  exact hlen ▸ List.length_filter_le _ log

/-- The addition to a total does not overflow while `100 * (_nextEndorsementId + 1)` is a word. -/
theorem checkedAdd_total (h : Represents log s) (subject : Bytes) {weight : Nat}
    (hw : weight ≤ 100) (hfit : 100 * (s.nextEndorsementId + 1) < wordSize) :
    (checkedAdd (s.totalWeight subject) weight : Result Nat) =
      .ok (s.totalWeight subject + weight) := by
  have htotal := (h.total_bounds subject).2
  have hcount := h.length_about_le subject
  exact checkedAdd_eq_ok.mpr ⟨by omega, rfl⟩

end Represents

/-! ## Every run -/

/-- **A call keeps the correspondence**: the log grows by what the call added. -/
theorem represents_exec {b : Block} {history : List (Entry (Message Fn) (Option Nat))}
    {s s' : State} {c : Message Fn} {r : Option Nat} (h : Represents (added history) s)
    (hc : exec b s c = .ok (s', r)) : Represents (added (history ++ [⟨b, c, r⟩])) s' := by
  rw [added_append]
  rcases exec_cases hc with ⟨subjectHash, weight, category, comment, hfn, hw, rfl, rfl⟩ |
    ⟨call, roles, hfn, rfl, rfl⟩
  · simpa only [entryAdded, hfn, Option.toList_some] using
      h.push (e := ⟨c.sender, subjectHash, weight, category, comment, b.timestamp⟩) hw
  · simpa only [entryAdded, hfn, Option.toList_none, List.append_nil] using h.withRoles roles

/-- **The correspondence holds after every run.** -/
theorem represents_run {deployer : Account} {b : Block} {as : List (Ledger.Action (Message Fn))}
    {l : Ledger State (Message Fn) (Option Nat)}
    (hrun : run (Ledger.step exec) (Ledger.deployed b (deploy deployer)) as = some l) :
    Represents (added l.history) l.state := by
  refine Ledger.invariant (I := fun l => Represents (added l.history) l.state) ?_ ?_ ?_ hrun
  · intro l b hl _
    exact hl
  · intro l c s r hl hc
    exact represents_exec hl hc
  · exact ⟨rfl, fun _ h => absurd h List.not_mem_nil, fun _ h => absurd h List.not_mem_nil,
      fun _ => rfl, fun _ => rfl⟩

/-- What the getters say about a subject, against the endorsements added in a history. -/
structure AggregatesMatch (history : List (Entry (Message Fn) (Option Nat))) (s : State)
    (subject : Bytes) : Prop where
  /-- The getter returns exactly the endorsements added for the subject, in order. -/
  endorsements : getSubjectEndorsements s subject = ((added history).about subject).map Prod.snd
  /-- Their ids are the stored list. -/
  ids : s.subjectEndorsements subject = ((added history).about subject).map Prod.fst
  /-- The ids are strictly increasing. -/
  increasing : (s.subjectEndorsements subject).Pairwise (· < ·)
  /-- The count is the length of the list. -/
  count : getEndorsementCount s subject = (getSubjectEndorsements s subject).length
  /-- The total is the sum of the listed weights. -/
  total : getTotalWeight s subject =
    ((getSubjectEndorsements s subject).map Endorsement.weight).sum
  /-- Every weight is at least one. -/
  count_le_total : getEndorsementCount s subject ≤ getTotalWeight s subject
  /-- Every weight is at most a hundred. -/
  total_le : getTotalWeight s subject ≤ 100 * getEndorsementCount s subject
  /-- The addition of an admissible weight to the total does not revert. -/
  no_overflow : 100 * (s.nextEndorsementId + 1) < wordSize → ∀ weight ≤ 100,
    (checkedAdd (s.totalWeight subject) weight : Result Nat) =
      .ok (s.totalWeight subject + weight)

/-- **The aggregates match the endorsements**: after every run, for every subject the getters
report exactly the endorsements added for it, and every id below the counter is listed under
exactly one subject. -/
theorem aggregates_match (deployer : Account) (b : Block)
    (as : List (Ledger.Action (Message Fn))) (l : Ledger State (Message Fn) (Option Nat))
    (hrun : run (Ledger.step exec) (Ledger.deployed b (deploy deployer)) as = some l) :
    (∀ subject, AggregatesMatch l.history l.state subject) ∧
      ∀ id < l.state.nextEndorsementId, ∃! subject, id ∈ l.state.subjectEndorsements subject := by
  have h : Represents (added l.history) l.state := represents_run hrun
  refine ⟨fun subject => ?_, fun id hid => h.existsUnique_subject hid⟩
  have hget := h.getSubjectEndorsements_eq subject
  have hcount : getEndorsementCount l.state subject = ((added l.history).about subject).length := by
    rw [getEndorsementCount, h.list, List.length_map]
  have hbounds := h.total_bounds subject
  refine ⟨hget, h.list subject, h.increasing subject, ?_, ?_, ?_, ?_, ?_⟩
  · rw [hcount, hget, List.length_map]
  · rw [getTotalWeight, h.total, hget, List.map_map]
    rfl
  · rw [hcount]
    exact hbounds.1
  · rw [hcount]
    exact hbounds.2
  · intro hfit weight hw
    exact h.checkedAdd_total subject hw hfit

/-- Two endorsements of one subject with one of another in between, and a call with an inadmissible
weight. -/
def endorseTwoSubjects : List (Ledger.Action (Message Fn)) :=
  [.call ⟨acct 1, .addEndorsement [0x73] 50 [] []⟩, .call ⟨acct 1, .addEndorsement [0x74] 7 [] []⟩,
    .mine (blockAt 5 2), .call ⟨acct 1, .addEndorsement [0x73] 100 [] []⟩,
    .call ⟨acct 1, .addEndorsement [0x73] 101 [] []⟩]

/-- Three endorsements are added, the last call reverts. -/
theorem aggregates_match_endorseTwoSubjects :
    ∃ l, run (Ledger.step exec) (Ledger.deployed (blockAt 1 1) (deploy (acct 1)))
        endorseTwoSubjects = some l ∧
      l.state.subjectEndorsements [0x73] = [0, 2] ∧ getTotalWeight l.state [0x73] = 150 ∧
      l.state.subjectEndorsements [0x74] = [1] ∧ getTotalWeight l.state [0x74] = 7 ∧
      (∀ subject, AggregatesMatch l.history l.state subject) ∧
      ∀ id < l.state.nextEndorsementId, ∃! subject, id ∈ l.state.subjectEndorsements subject :=
  ⟨_, rfl, rfl, rfl, rfl, rfl, aggregates_match (acct 1) (blockAt 1 1) endorseTwoSubjects _ rfl⟩

end ReputationPassport.EndorsementRegistry
