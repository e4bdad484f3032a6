import Mathlib.Data.List.Permutation
import ReputationPassport.Machine.Run
import ReputationPassport.Machine.SplitUpdate
import ReputationPassport.Repository.Reputation

/-! # Computing reputation scores concurrently

`service/reputation_service.go`: `CalculateScore` reads the row of a subject, computes new scores
from it and writes the row back, in two statements without a transaction. So another write can fall
between the two and be overwritten. The rows that result are those of a serial execution of their
lineage (`Machine.Built`); a direct `Upsert` is blind, since it writes every column. -/

namespace ReputationPassport.ReputationService

open Machine ReputationRepository

/-- `weightedScore`. -/
def weightedScore (baseScore : Float) (count : Int) (decayFactor : Float) : Float :=
  if count = 0 then 0.5
  else
    let confidence := 1 - Float.exp (-decayFactor * Float.ofInt count)
    baseScore * confidence + 0.5 * (1 - confidence)

/-- `math.Round(x*100) / 100`. -/
def round2 (x : Float) : Float := Float.round (x * 100) / 100

/-- What `CalculateScore` starts from: the row that was read, or nothing but the subject if it could
not be. -/
def existing (table : Table) (subjectHash : String) : ReputationScore :=
  match getByHash table subjectHash with
  | .ok rs => rs
  | .error _ => ⟨subjectHash, 0, 0, 0, 0, 0, 0, 0, ""⟩

/-- The score `CalculateScore` computes from the existing one. -/
def calculate (existing : ReputationScore) (subjectHash : String) (now : Int) : ReputationScore :=
  let reliability := weightedScore existing.reliabilityScore existing.totalEndorsements 0.3
  let professionalism := weightedScore existing.professionalismScore existing.totalReviews 0.2
  let communityTrust := weightedScore existing.communityTrustScore existing.totalEndorsements 0.1
  let overall := reliability * 0.4 + professionalism * 0.35 + communityTrust * 0.25
  { subjectHash
    overallScore := round2 overall
    reliabilityScore := round2 reliability
    professionalismScore := round2 professionalism
    communityTrustScore := round2 communityTrust
    totalEndorsements := existing.totalEndorsements
    totalReviews := existing.totalReviews
    lastUpdated := now
    pqcHashProof := "" }

/-- A call that writes the row of a subject. -/
inductive Call where
  | calculateScore (now : Int)
  | upsert (rs : ReputationScore)

/-- The table after a statement; one that fails leaves it as it is. -/
def stored (table : Table) (result : Except Sql.Error Table) : Table :=
  match result with
  | .ok table' => table'
  | .error _ => table

/-- A call executed alone, from its first statement to its last. -/
def execute (subject : String) : Call → Table → Table
  | .calculateScore now, table =>
      stored table (upsert table (calculate (existing table subject) subject now))
  | .upsert rs, table => stored table (upsert table rs)

/-! ## Interleaved calls -/

/-- A `CalculateScore` between its two statements: what it read, the lineage of that, and how many
calls had completed. -/
structure Read where
  existing : ReputationScore
  lineage : List Call
  seen : Nat

/-- The table, the lineage of the row of the subject, the calls that completed without an error in
the order of their writes, and the calls that have read and not written. -/
structure Store where
  table : Table
  lineage : List Call
  completed : List Call
  reads : List Read

/-- Nothing has run. -/
def Store.start (table : Table) : Store := ⟨table, [], [], []⟩

/-- One statement: the read of a `CalculateScore`, the write of one that has read, or a direct
`Upsert`. -/
inductive Action where
  | read
  | write (i : Nat) (now : Int)
  | upsert (rs : ReputationScore)

/-- Perform one statement for the subject. -/
def step (subject : String) (t : Store) : Action → Option Store
  | .read =>
      some { t with
        reads := t.reads ++ [⟨existing t.table subject, t.lineage, t.completed.length⟩] }
  | .write i now =>
      match t.reads[i]? with
      | none => none
      | some r =>
          match upsert t.table (calculate r.existing subject now) with
          | .ok table =>
              some ⟨table, r.lineage ++ [.calculateScore now],
                t.completed ++ [.calculateScore now], t.reads.eraseIdx i⟩
          | .error _ => some { t with reads := t.reads.eraseIdx i }
  | .upsert rs =>
      if rs.subjectHash = subject then
        match upsert t.table rs with
        | .ok table => some ⟨table, [.upsert rs], t.completed ++ [.upsert rs], t.reads⟩
        | .error _ => some t
      else none

/-- **Inversion of a step.** -/
theorem step_cases {subject : String} {t t' : Store} {a : Action}
    (h : step subject t a = some t') :
    (a = .read ∧ t' = { t with
      reads := t.reads ++ [⟨existing t.table subject, t.lineage, t.completed.length⟩] }) ∨
    (∃ i now r table, a = .write i now ∧ t.reads[i]? = some r ∧
      upsert t.table (calculate r.existing subject now) = .ok table ∧
      t' = ⟨table, r.lineage ++ [.calculateScore now], t.completed ++ [.calculateScore now],
        t.reads.eraseIdx i⟩) ∨
    (∃ rs table, a = .upsert rs ∧ rs.subjectHash = subject ∧ upsert t.table rs = .ok table ∧
      t' = ⟨table, [.upsert rs], t.completed ++ [.upsert rs], t.reads⟩) ∨
    (∃ reads, reads ⊆ t.reads ∧ t' = { t with reads }) := by
  cases a with
  | read => exact Or.inl ⟨rfl, (Option.some.inj h).symm⟩
  | write i now =>
      simp only [step] at h
      split at h
      · cases h
      · next r hr =>
        split at h
        · next table hok =>
          exact Or.inr (Or.inl ⟨i, now, r, table, rfl, hr, hok, (Option.some.inj h).symm⟩)
        · exact Or.inr (Or.inr (Or.inr ⟨_, List.eraseIdx_subset, (Option.some.inj h).symm⟩))
  | upsert rs =>
      simp only [step, Option.ite_none_right_eq_some] at h
      obtain ⟨hsubject, h⟩ := h
      split at h
      · next table hok =>
        exact Or.inr (Or.inr (Or.inl ⟨rs, table, rfl, hsubject, hok, (Option.some.inj h).symm⟩))
      · exact Or.inr (Or.inr (Or.inr ⟨t.reads, List.Subset.refl _, (Option.some.inj h).symm⟩))

/-! ## Lineages of the row -/

/-- The tables agree but for the row that writes of the subject go to. -/
def Elsewhere (subject : String) (table₀ table : Table) : Prop :=
  ∀ hash, Sql.varchar 66 subject = .ok hash →
    ∀ other ≠ hash, table.lookup other = table₀.lookup other

variable {subject : String} {table₀ table table' : Table} {rs : ReputationScore}

/-- A write of the subject keeps the rest of the table. -/
theorem Elsewhere.upsert (h : Elsewhere subject table₀ table) (hsubject : rs.subjectHash = subject)
    (hok : ReputationRepository.upsert table rs = .ok table') :
    Elsewhere subject table₀ table' := by
  obtain ⟨hash, row, hcolumns, rfl⟩ := upsert_eq_ok.mp hok
  intro hash' hhash' other hother
  have hhash : hash' = hash :=
    Except.ok.inj (hhash'.symm.trans (hsubject ▸ varchar_of_columns hcolumns))
  rw [Finmap.lookup_insert_of_ne _ (hhash ▸ hother)]
  exact h hash' hhash' other hother

/-- **A write of the subject has the same result on all tables that agree elsewhere.** -/
theorem Elsewhere.upsert_eq (h : Elsewhere subject table₀ table)
    (h' : Elsewhere subject table₀ table') (hsubject : rs.subjectHash = subject)
    {written : Table} (hok : ReputationRepository.upsert table rs = .ok written) :
    ReputationRepository.upsert table' rs = .ok written := by
  obtain ⟨hash, row, hcolumns, rfl⟩ := upsert_eq_ok.mp hok
  refine upsert_eq_ok.mpr ⟨hash, row, hcolumns, Finmap.ext_lookup fun other => ?_⟩
  have hhash : Sql.varchar 66 subject = .ok hash := hsubject ▸ varchar_of_columns hcolumns
  by_cases hother : other = hash
  · rw [hother, Finmap.lookup_insert, Finmap.lookup_insert]
  · rw [Finmap.lookup_insert_of_ne _ hother, Finmap.lookup_insert_of_ne _ hother,
      h hash hhash other hother, h' hash hhash other hother]

/-- A call of the subject that is executed alone keeps the rest of the table. -/
theorem Elsewhere.execute {c : Call} (h : Elsewhere subject table₀ table)
    (hc : ∀ rs, c = .upsert rs → rs.subjectHash = subject) :
    Elsewhere subject table₀ (ReputationService.execute subject c table) := by
  cases c with
  | calculateScore now =>
      rw [ReputationService.execute]
      cases hok : ReputationRepository.upsert table
          (calculate (existing table subject) subject now) with
      | ok written => exact h.upsert rfl hok
      | error e => exact h
  | upsert rs =>
      rw [ReputationService.execute]
      cases hok : ReputationRepository.upsert table rs with
      | ok written => exact h.upsert (hc rs rfl) hok
      | error e => exact h

/-- **The invariant**: the row, and every row that a pending `CalculateScore` has read, have a
lineage. -/
structure Traced (subject : String) (table₀ : Table) (t : Store) : Prop where
  built : Built (execute subject) table₀ t.completed t.table t.lineage
  elsewhere : Elsewhere subject table₀ t.table
  reads : ∀ r ∈ t.reads, ∃ table, existing table subject = r.existing ∧
    Elsewhere subject table₀ table ∧
    Built (execute subject) table₀ t.completed table r.lineage
  upserts : ∀ rs, .upsert rs ∈ t.completed → rs.subjectHash = subject ∧
    ∃ written, upsert table₀ rs = .ok written

theorem traced_start (subject : String) (table₀ : Table) :
    Traced subject table₀ (Store.start table₀) where
  built := .init table₀
  elsewhere _ _ _ _ := rfl
  reads _ hr := absurd hr List.not_mem_nil
  upserts _ hrs := absurd hrs List.not_mem_nil

variable {t t' : Store}

/-- **Every step keeps the invariant.** -/
theorem Traced.step {a : Action} (h : Traced subject table₀ t)
    (hstep : ReputationService.step subject t a = some t') : Traced subject table₀ t' := by
  have hmono : ∀ c, ∀ r ∈ t.reads, ∃ table, existing table subject = r.existing ∧
      Elsewhere subject table₀ table ∧
      Built (execute subject) table₀ (t.completed ++ [c]) table r.lineage := by
    intro c r hr
    obtain ⟨table, hexisting, helsewhere, hbuilt⟩ := h.reads r hr
    exact ⟨table, hexisting, helsewhere, hbuilt.mono c⟩
  rcases step_cases hstep with ⟨-, rfl⟩ | ⟨i, now, r, table, -, hr, hok, rfl⟩ |
    ⟨rs, table, -, hsubject, hok, rfl⟩ | ⟨reads, hreads, rfl⟩
  · refine ⟨h.built, h.elsewhere, fun r hr => ?_, h.upserts⟩
    rcases List.mem_append.mp hr with hr | hr
    · exact h.reads r hr
    · obtain rfl := List.mem_singleton.mp hr
      exact ⟨t.table, rfl, h.elsewhere, h.built⟩
  · -- the write has the effect of the call on the table it read
    obtain ⟨read, hexisting, helsewhere, hbuilt⟩ := h.reads r (List.mem_of_getElem? hr)
    have heffect : execute subject (.calculateScore now) read = table := by
      rw [execute, hexisting, h.elsewhere.upsert_eq helsewhere rfl hok, stored]
    refine ⟨heffect ▸ hbuilt.extend (.calculateScore now), h.elsewhere.upsert rfl hok,
      fun r hr => hmono _ r (List.eraseIdx_subset hr), fun rs hrs => ?_⟩
    exact h.upserts rs ((List.mem_append.mp hrs).resolve_right (by simp))
  · have hstart : Elsewhere subject table₀ table₀ := fun _ _ _ _ => rfl
    have hok₀ := h.elsewhere.upsert_eq hstart hsubject hok
    refine ⟨⟨?_, t.completed, .refl _⟩, h.elsewhere.upsert hsubject hok,
      fun r hr => hmono _ r hr, fun rs' hrs' => ?_⟩
    · rw [serial_cons, serial_nil, execute, hok₀, stored]
    · rcases List.mem_append.mp hrs' with hrs' | hrs'
      · exact h.upserts rs' hrs'
      · obtain rfl := Call.upsert.inj (List.mem_singleton.mp hrs')
        exact ⟨hsubject, table, hok₀⟩
  · exact ⟨h.built, h.elsewhere, fun r hr => h.reads r (hreads hr), h.upserts⟩

/-- **The invariant holds after every run.** -/
theorem traced_run {as : List Action}
    (hrun : run (step subject) (Store.start table₀) as = some t) : Traced subject table₀ t :=
  run_invariant (fun _ _ _ h hstep => h.step hstep) (traced_start subject table₀) hrun

/-- **A direct `Upsert` is blind**: it writes every column. -/
theorem blind_upsert (hsubject : rs.subjectHash = subject) {written : Table}
    (hok : upsert table₀ rs = .ok written) :
    Blind (execute subject) (Elsewhere subject table₀) (.upsert rs) := by
  have hstart : Elsewhere subject table₀ table₀ := fun _ _ _ _ => rfl
  intro table table' h h'
  rw [execute, execute, hstart.upsert_eq h hsubject hok, hstart.upsert_eq h' hsubject hok, stored,
    stored]

/-! ## Lost updates -/

/-- The lineage of the row leaves out no completed call, or begins with a direct `Upsert`. -/
def KeepsUpdates (t : Store) : Prop :=
  t.lineage.length = t.completed.length ∨ ∃ rs, t.lineage.head? = some (.upsert rs)

/-- A `CalculateScore` writes while no other call has written since its read. -/
def Undisturbed (t : Store) : Action → Prop
  | .write i _ => ∀ r, t.reads[i]? = some r → r.seen = t.completed.length
  | _ => True

/-- What holds of a run whose writes are all undisturbed: the table is that of the calls in the
order of their writes, and whoever has read since the last write has read that table. -/
structure InOrder (subject : String) (table₀ : Table) (t : Store) : Prop where
  value : serial (execute subject) t.completed table₀ = t.table
  reads : ∀ r ∈ t.reads, r.seen ≤ t.completed.length ∧
    (r.seen = t.completed.length → existing t.table subject = r.existing)

/-- An undisturbed step keeps the order. -/
theorem InOrder.step {a : Action} (h : InOrder subject table₀ t) (ha : Undisturbed t a)
    (hstep : ReputationService.step subject t a = some t') : InOrder subject table₀ t' := by
  -- whoever had read before a write has not read since
  have hstale : ∀ c, ∀ table : Table, ∀ r ∈ t.reads, r.seen ≤ (t.completed ++ [c]).length ∧
      (r.seen = (t.completed ++ [c]).length → existing table subject = r.existing) := by
    intro c table r hr
    have hseen := (h.reads r hr).1
    rw [List.length_append, List.length_singleton]
    exact ⟨by omega, fun heq => by omega⟩
  rcases step_cases hstep with ⟨-, rfl⟩ | ⟨i, now, r, table, rfl, hr, hok, rfl⟩ |
    ⟨rs, table, -, -, hok, rfl⟩ | ⟨reads, hreads, rfl⟩
  · refine ⟨h.value, fun r hr => ?_⟩
    rcases List.mem_append.mp hr with hr | hr
    · exact h.reads r hr
    · obtain rfl := List.mem_singleton.mp hr
      exact ⟨Nat.le_refl _, fun _ => rfl⟩
  · have hexisting := (h.reads r (List.mem_of_getElem? hr)).2 (ha r hr)
    refine ⟨?_, fun r hr => hstale _ table r (List.eraseIdx_subset hr)⟩
    rw [serial_concat, h.value, execute, hexisting, hok, stored]
  · refine ⟨?_, fun r hr => hstale _ table r hr⟩
    rw [serial_concat, h.value, execute, hok, stored]
  · exact ⟨h.value, fun r hr => h.reads r (hreads hr)⟩

/-- **The row that interleaved calls leave**: it is that of its lineage, executed serially; it is
that of all completed calls in some order if the lineage leaves none out or begins with a direct
`Upsert`; and it is that of all completed calls in the order of their writes if no write comes
between the read and the write of a `CalculateScore`. -/
theorem final_row_of_lineage (subject : String) (table₀ : Table) (as : List Action) (t : Store)
    (hrun : run (step subject) (Store.start table₀) as = some t) :
    serial (execute subject) t.lineage table₀ = t.table ∧
    (KeepsUpdates t →
      ∃ σ : List Call, σ.Perm t.completed ∧ serial (execute subject) σ table₀ = t.table) ∧
    (Along (step subject) Undisturbed (Store.start table₀) as →
      serial (execute subject) t.completed table₀ = t.table) := by
  have h := traced_run hrun
  refine ⟨h.built.value.symm, fun hkeeps => ?_, fun halong => ?_⟩
  · have hcalls : ∀ c ∈ t.completed, ∀ table, Elsewhere subject table₀ table →
        Elsewhere subject table₀ (execute subject c table) :=
      fun c hc table helsewhere => helsewhere.execute fun rs hrs => (h.upserts rs (hrs ▸ hc)).1
    refine h.built.serializable (fun _ _ _ _ => rfl) hcalls (hkeeps.imp_right ?_)
    rintro ⟨rs, hhead⟩
    refine ⟨.upsert rs, hhead, ?_⟩
    -- the head of the lineage completed, so it can be written
    obtain ⟨rest, hrest⟩ := h.built.part
    have hmem : Call.upsert rs ∈ t.completed :=
      hrest.subset (List.mem_append_right _ (List.mem_of_mem_head? hhead))
    obtain ⟨hsubject, written, hok⟩ := h.upserts rs hmem
    exact blind_upsert hsubject hok
  · have horder : InOrder subject table₀ t :=
      invariant_along (fun _ _ _ h ha hstep => h.step ha hstep)
        ⟨rfl, fun _ hr => absurd hr List.not_mem_nil⟩ halong hrun
    exact horder.value

/-- A score with five endorsements. -/
def fiveEndorsements : ReputationScore := ⟨"s", 0.9, 0.9, 0.9, 0.9, 5, 3, 1, "proof"⟩

/-- Two computations that overlap: a direct `Upsert` comes between their reads, and the second writes
last. -/
def overlapping : List Action := [.read, .upsert fiveEndorsements, .read, .write 0 1, .write 0 2]

/-- The second computation overwrites the first, as if that had come before the `Upsert`. -/
theorem final_row_of_lineage_overlapping : ∃ t,
    run (step "s") (Store.start ∅) overlapping = some t ∧
    t.completed = [.upsert fiveEndorsements, .calculateScore 1, .calculateScore 2] ∧
    KeepsUpdates t ∧
    ∃ σ : List Call, σ.Perm t.completed ∧ serial (execute "s") σ ∅ = t.table := by
  obtain ⟨t, hrun, hcompleted, hhead⟩ : ∃ t, run (step "s") (Store.start ∅) overlapping = some t ∧
      t.completed = [.upsert fiveEndorsements, .calculateScore 1, .calculateScore 2] ∧
      t.lineage.head? = some (.upsert fiveEndorsements) := ⟨_, rfl, rfl, rfl⟩
  have hkeeps : KeepsUpdates t := Or.inr ⟨fiveEndorsements, hhead⟩
  exact ⟨t, hrun, hcompleted, hkeeps,
    (final_row_of_lineage "s" ∅ overlapping t hrun).2.1 hkeeps⟩

/-- A direct `Upsert` between the read and the write of a computation. -/
def overtaken : List Action := [.read, .upsert fiveEndorsements, .write 0 2]

/-- Not every interleaving is serializable: the direct `Upsert` is lost, while in either order of
the two calls its number of endorsements remains. -/
theorem direct_update_lost :
    ¬ ∀ (subject : String) (table₀ : Table) (as : List Action) (t : Store),
      run (step subject) (Store.start table₀) as = some t →
      ∃ σ : List Call, σ.Perm t.completed ∧ serial (execute subject) σ table₀ = t.table := by
  intro h
  obtain ⟨t, hrun, hcompleted, hlost⟩ : ∃ t,
      run (step "s") (Store.start ∅) overtaken = some t ∧
      t.completed = [.upsert fiveEndorsements, .calculateScore 2] ∧
      (t.table.lookup "s").map Row.totalEndorsements = some 0 := ⟨_, rfl, rfl, rfl⟩
  obtain ⟨σ, hperm, hserial⟩ := h "s" ∅ overtaken t hrun
  rw [hcompleted, ← List.mem_permutations'] at hperm
  have hkept : ∀ σ ∈ [Call.upsert fiveEndorsements, .calculateScore 2].permutations',
      ((serial (execute "s") σ ∅).lookup "s").map Row.totalEndorsements = some 5 := by
    intro σ hσ
    rw [show [Call.upsert fiveEndorsements, .calculateScore 2].permutations' =
      [[.upsert fiveEndorsements, .calculateScore 2],
        [.calculateScore 2, .upsert fiveEndorsements]] from rfl] at hσ
    simp only [List.mem_cons, List.not_mem_nil, or_false] at hσ
    rcases hσ with rfl | rfl
    · rfl
    · rfl
  have hfive := hkept σ hperm
  rw [hserial, hlost] at hfive
  exact absurd hfive (by decide)

end ReputationPassport.ReputationService
