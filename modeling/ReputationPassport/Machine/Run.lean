import Mathlib.Data.List.Infix

/-! # Runs of a deterministic transition system

A transition system is given by a partial step function `step : σ → α → Option σ`: `none` says
that the action is not enabled in that state. A *run* performs a list of actions in order. Three
ways of speaking about runs are used throughout:

* `run step s as = some t` — the run ends in `t`;
* `Along step C s as` — every action is taken in a state where `C` holds of the pair;
* `Always step P s as` — `P` holds in every state the run visits, both ends included.

The rules at the end package the induction on the run once: `run_invariant`, its conditional form
`invariant_along`, the relational form `run_rel`, the rule `exists_crossing` that finds the step
which brought something about, the rule `trace_invariant` for what a state owes to the actions that
led to it, and `always_iff_along`, which turns a step-wise account of a defect into an exact account
of the runs that show it. -/

namespace Machine

variable {σ α : Type*} {step : σ → α → Option σ}

/-- Perform the actions in order, stopping with `none` at the first one that is not enabled. -/
def run (step : σ → α → Option σ) : σ → List α → Option σ
  | s, [] => some s
  | s, a :: as => (step s a).bind fun t => run step t as

@[simp] theorem run_nil (s : σ) : run step s [] = some s := rfl

@[simp] theorem run_cons (s : σ) (a : α) (as : List α) :
    run step s (a :: as) = (step s a).bind fun t => run step t as := rfl

/-- A run of `a :: as` takes one step and runs on. -/
theorem run_cons_eq_some {s u : σ} {a : α} {as : List α} :
    run step s (a :: as) = some u ↔ ∃ t, step s a = some t ∧ run step t as = some u := by
  rw [run_cons, Option.bind_eq_some_iff]

/-- A run of `as ++ bs` is a run of `as` followed by one of `bs`. -/
theorem run_append_eq_some {s u : σ} {as bs : List α} :
    run step s (as ++ bs) = some u ↔ ∃ t, run step s as = some t ∧ run step t bs = some u := by
  induction as generalizing s with
  | nil => simp
  | cons a as ih =>
      simp only [List.cons_append, run_cons, Option.bind_eq_some_iff, ih]
      constructor
      · rintro ⟨v, hv, t, ht, hu⟩
        exact ⟨t, ⟨v, hv, ht⟩, hu⟩
      · rintro ⟨t, ⟨v, hv, ht⟩, hu⟩
        exact ⟨v, hv, t, ht, hu⟩

/-- A run of `as ++ [a]` runs and then takes one step. -/
theorem run_concat_eq_some {s u : σ} {as : List α} {a : α} :
    run step s (as ++ [a]) = some u ↔ ∃ t, run step s as = some t ∧ step t a = some u := by
  rw [run_append_eq_some]
  refine exists_congr fun t => and_congr_right fun _ => ?_
  rw [run_cons, Option.bind_eq_some_iff]
  simp only [run_nil, Option.some.injEq, exists_eq_right]

/-! ## Conditions along a run -/

/-- Every action of the run is taken in a state where `C` holds of state and action. -/
def Along (step : σ → α → Option σ) (C : σ → α → Prop) : σ → List α → Prop
  | _, [] => True
  | s, a :: as => C s a ∧ ∀ t, step s a = some t → Along step C t as

/-- `P` holds in every state the run visits, the first and the last included. -/
def Always (step : σ → α → Option σ) (P : σ → Prop) : σ → List α → Prop
  | s, [] => P s
  | s, a :: as => P s ∧ ∀ t, step s a = some t → Always step P t as

/-- What holds always holds at the start. -/
theorem Always.head {P : σ → Prop} {s : σ} {as : List α} (h : Always step P s as) : P s := by
  cases as with
  | nil => exact h
  | cons a as => exact h.1

/-- `Always` speaks of exactly the states reached by the prefixes of the run. -/
theorem always_iff_visited {P : σ → Prop} {s : σ} {as : List α} :
    Always step P s as ↔ ∀ bs, bs <+: as → ∀ t, run step s bs = some t → P t := by
  induction as generalizing s with
  | nil =>
      constructor
      · intro h bs hbs t ht
        obtain rfl := List.prefix_nil.mp hbs
        rw [run_nil, Option.some.injEq] at ht
        exact ht ▸ h
      · intro h
        exact h [] List.nil_prefix s rfl
  | cons a as ih =>
      constructor
      · rintro ⟨hs, htail⟩ bs hbs t ht
        rcases List.prefix_cons_iff.mp hbs with rfl | ⟨cs, rfl, hcs⟩
        · rw [run_nil, Option.some.injEq] at ht
          exact ht ▸ hs
        · obtain ⟨u, hu, hrun⟩ := run_cons_eq_some.mp ht
          exact ih.mp (htail u hu) cs hcs t hrun
      · intro h
        refine ⟨h [] List.nil_prefix s rfl, fun u hu => ih.mpr fun bs hbs t ht => ?_⟩
        exact h (a :: bs) (List.prefix_cons_inj a |>.mpr hbs) t
          (run_cons_eq_some.mpr ⟨u, hu, ht⟩)

/-- What holds always holds at the end. -/
theorem Always.last {P : σ → Prop} {s t : σ} {as : List α} (h : Always step P s as)
    (hrun : run step s as = some t) : P t :=
  always_iff_visited.mp h as (List.prefix_refl as) t hrun

/-! ## Induction rules -/

/-- **Conditional invariant rule.** An invariant kept by every step that meets `C` holds in every
state of a run that meets `C` throughout. -/
theorem always_of_along {I : σ → Prop} {C : σ → α → Prop}
    (hstep : ∀ s a t, I s → C s a → step s a = some t → I t) {s : σ} {as : List α}
    (hs : I s) (hC : Along step C s as) : Always step I s as := by
  induction as generalizing s with
  | nil => exact hs
  | cons a as ih =>
      exact ⟨hs, fun t ht => ih (hstep s a t hs hC.1 ht) (hC.2 t ht)⟩

/-- The end of a run that meets `C` throughout satisfies the conditional invariant. -/
theorem invariant_along {I : σ → Prop} {C : σ → α → Prop}
    (hstep : ∀ s a t, I s → C s a → step s a = some t → I t) {s t : σ} {as : List α}
    (hs : I s) (hC : Along step C s as) (hrun : run step s as = some t) : I t :=
  (always_of_along hstep hs hC).last hrun

/-- Where a conditional invariant holds, one condition on the steps of a run can imply another. -/
theorem along_of_along {I : σ → Prop} {C D : σ → α → Prop}
    (hstep : ∀ s a t, I s → C s a → step s a = some t → I t)
    (hD : ∀ s a, I s → C s a → D s a) {s : σ} {as : List α}
    (hs : I s) (hC : Along step C s as) : Along step D s as := by
  induction as generalizing s with
  | nil => exact trivial
  | cons a as ih =>
      exact ⟨hD s a hs hC.1, fun t ht => ih (hstep s a t hs hC.1 ht) (hC.2 t ht)⟩

/-- A condition on a step that follows from what holds before and after it is met by every step of
a run along which that always holds. -/
theorem along_of_always {I P : σ → Prop} {D : σ → α → Prop}
    (hinv : ∀ s a t, I s → step s a = some t → I t)
    (hD : ∀ s a, I s → P s → (∀ t, step s a = some t → P t) → D s a) {s : σ} {as : List α}
    (hs : I s) (hP : Always step P s as) : Along step D s as := by
  induction as generalizing s with
  | nil => exact trivial
  | cons a as ih =>
      refine ⟨hD s a hs hP.1 fun t ht => (hP.2 t ht).head, fun t ht => ?_⟩
      exact ih (hinv s a t hs ht) (hP.2 t ht)

/-- **Invariant rule.** An invariant kept by every step holds at the end of every run. -/
theorem run_invariant {I : σ → Prop} (hstep : ∀ s a t, I s → step s a = some t → I t)
    {s t : σ} {as : List α} (hs : I s) (hrun : run step s as = some t) : I t := by
  -- induction on the actions, from a state that varies with the first step
  induction as generalizing s with
  | nil =>
      rw [run_nil, Option.some.injEq] at hrun
      exact hrun ▸ hs
  | cons a as ih =>
      obtain ⟨u, hu, hrest⟩ := run_cons_eq_some.mp hrun
      exact ih (hstep s a u hs hu) hrest

/-- **Trace rule.** What holds of the empty trace at the start, and of every longer trace by the
step that extends it, holds of every run's trace and its end. -/
theorem trace_invariant {P : List α → σ → Prop} {s : σ} (h₀ : P [] s)
    (hstep : ∀ as t a u, run step s as = some t → P as t → step t a = some u → P (as ++ [a]) u)
    {as : List α} {t : σ} (hrun : run step s as = some t) : P as t := by
  induction as using List.reverseRecOn generalizing t with
  | nil =>
      rw [run_nil, Option.some.injEq] at hrun
      exact hrun ▸ h₀
  | append_singleton as a ih =>
      obtain ⟨u, hu, ht⟩ := run_concat_eq_some.mp hrun
      exact hstep as u a t hu (ih hu) ht

/-- **Crossing rule.** What does not hold at the start of a run and holds at its end was brought
about by one of its steps. -/
theorem exists_crossing {P : σ → Prop} {s t : σ} {as : List α} (hs : ¬ P s) (ht : P t)
    (hrun : run step s as = some t) : ∃ bs a cs u v, as = bs ++ a :: cs ∧
      run step s bs = some u ∧ step u a = some v ∧ ¬ P u ∧ P v := by
  induction as generalizing s with
  | nil =>
      rw [run_nil, Option.some.injEq] at hrun
      exact absurd (hrun ▸ ht) hs
  | cons a as ih =>
      obtain ⟨u, hu, hrest⟩ := run_cons_eq_some.mp hrun
      by_cases hP : P u
      · exact ⟨[], a, as, s, u, rfl, rfl, hu, hs, hP⟩
      · obtain ⟨bs, b, cs, v, w, rfl, hbs, hrest'⟩ := ih hP hrest
        exact ⟨a :: bs, b, cs, v, w, rfl, run_cons_eq_some.mpr ⟨u, hu, hbs⟩, hrest'⟩

/-- **Relational rule.** A preorder that every step from an invariant state moves along relates
the two ends of every run. -/
theorem run_rel {I : σ → Prop} {R : σ → σ → Prop} (hrefl : ∀ s, R s s)
    (htrans : ∀ s t u, R s t → R t u → R s u)
    (hinv : ∀ s a t, I s → step s a = some t → I t)
    (hstep : ∀ s a t, I s → step s a = some t → R s t)
    {s t : σ} {as : List α} (hs : I s) (hrun : run step s as = some t) : R s t := by
  induction as generalizing s with
  | nil =>
      rw [run_nil, Option.some.injEq] at hrun
      exact hrun ▸ hrefl s
  | cons a as ih =>
      obtain ⟨u, hu, hrest⟩ := run_cons_eq_some.mp hrun
      exact htrans s u t (hstep s a u hs hu) (ih (hinv s a u hs hu) hrest)

/-- When every step moves along a preorder, every state the run visits is below its end. -/
theorem always_rel {R : σ → σ → Prop} (hrefl : ∀ s, R s s)
    (htrans : ∀ s t u, R s t → R t u → R s u) (hstep : ∀ s a t, step s a = some t → R s t)
    {s u : σ} {as : List α} (hrun : run step s as = some u) :
    Always step (fun t => R t u) s as := by
  induction as generalizing s with
  | nil =>
      rw [run_nil, Option.some.injEq] at hrun
      exact hrun ▸ hrefl s
  | cons a as ih =>
      obtain ⟨t, ht, hrest⟩ := run_cons_eq_some.mp hrun
      have htail := ih hrest
      refine ⟨htrans s t u (hstep s a t ht) htail.head, fun t' ht' => ?_⟩
      obtain rfl := Option.some.inj (ht.symm.trans ht')
      exact htail

/-- Two conditions are met along a run exactly when both of them are met at each step. -/
theorem along_and {C D : σ → α → Prop} {s : σ} {as : List α} :
    Along step (fun t a => C t a ∧ D t a) s as ↔ Along step C s as ∧ Along step D s as := by
  induction as generalizing s with
  | nil => simp [Along]
  | cons a as ih =>
      simp only [Along, ih, forall_and]
      exact and_and_and_comm

/-- **Segment rule.** A preorder relates the two ends of every segment of a run exactly when each
step of the run moves along it. -/
theorem segments_iff_along {R : σ → σ → Prop} (hrefl : ∀ s, R s s)
    (htrans : ∀ s t u, R s t → R t u → R s u) {s : σ} {as : List α} :
    (∀ bs cs t u, bs ++ cs <+: as → run step s bs = some t → run step t cs = some u → R t u) ↔
      Along step (fun t a => ∀ u, step t a = some u → R t u) s as := by
  constructor
  · intro h
    induction as generalizing s with
    | nil => exact trivial
    | cons a as ih =>
        refine ⟨fun u hu => ?_, fun t ht => ih fun bs cs t' u hsegment hbs hcs => ?_⟩
        · -- the first step is the segment `[a]`
          exact h [] [a] s u (List.prefix_append [a] as) rfl (run_cons_eq_some.mpr ⟨u, hu, rfl⟩)
        · exact h (a :: bs) cs t' u ((List.prefix_cons_inj a).mpr hsegment)
            (run_cons_eq_some.mpr ⟨t, ht, hbs⟩) hcs
  · intro h bs cs t u hsegment hbs hcs
    -- what is left of the run after `bs` still moves along `R`, and `cs` is its beginning
    induction bs generalizing s as with
    | cons a bs ih =>
        obtain ⟨as, rfl⟩ := hsegment
        obtain ⟨t', ht', hrest⟩ := run_cons_eq_some.mp hbs
        exact ih (h.2 t' ht') (List.prefix_append _ as) hrest
    | nil =>
        rw [run_nil, Option.some.injEq] at hbs
        subst hbs
        rw [List.nil_append] at hsegment
        induction cs generalizing s as with
        | nil =>
            rw [run_nil, Option.some.injEq] at hcs
            exact hcs ▸ hrefl s
        | cons a cs ih =>
            obtain ⟨as, rfl⟩ := hsegment
            obtain ⟨t', ht', hrest⟩ := run_cons_eq_some.mp hcs
            exact htrans s t' u (h.1 t' ht') (ih (h.2 t' ht') (List.prefix_append _ as) hrest)

/-- **Exactness rule under a background condition.** Let `I` imply `P` and be kept by the steps
that meet `C` and end in `H`, while a step that misses `C` is enabled and leads outside `P`. Then,
in a run within `H`, `P` holds throughout if and only if every step meets `C`. -/
theorem always_iff_along_of {I P H : σ → Prop} {C : σ → α → Prop} (hP : ∀ s, I s → P s)
    (hkeep : ∀ s a t, I s → H t → C s a → step s a = some t → I t)
    (hbreak : ∀ s a, I s → ¬ C s a → ∃ t, step s a = some t ∧ ¬ P t)
    {s : σ} {as : List α} (hs : I s) (hH : Always step H s as) :
    Always step P s as ↔ Along step C s as := by
  -- `I` is carried along while `C` holds; the first step that misses `C` is the one that breaks `P`
  induction as generalizing s with
  | nil => exact ⟨fun _ => trivial, fun _ => hP s hs⟩
  | cons a as ih =>
      have hnext : ∀ t, C s a → step s a = some t → (Always step P t as ↔ Along step C t as) :=
        fun t hC ht => ih (hkeep s a t hs (hH.2 t ht).head hC ht) (hH.2 t ht)
      constructor
      · rintro ⟨-, htail⟩
        have hC : C s a := by
          by_contra hn
          obtain ⟨t, ht, hnt⟩ := hbreak s a hs hn
          exact hnt (htail t ht).head
        exact ⟨hC, fun t ht => (hnext t hC ht).mp (htail t ht)⟩
      · rintro ⟨hC, htail⟩
        exact ⟨hP s hs, fun t ht => (hnext t hC ht).mpr (htail t ht)⟩

/-- **Exactness rule.** The same for every run: `P` holds throughout a run if and only if every
step of the run meets `C`. -/
theorem always_iff_along {I P : σ → Prop} {C : σ → α → Prop} (hP : ∀ s, I s → P s)
    (hkeep : ∀ s a t, I s → C s a → step s a = some t → I t)
    (hbreak : ∀ s a, I s → ¬ C s a → ∃ t, step s a = some t ∧ ¬ P t)
    {s : σ} {as : List α} (hs : I s) : Always step P s as ↔ Along step C s as := by
  refine always_iff_along_of (H := fun _ => True) hP
    (fun s a t hI _ hC ht => hkeep s a t hI hC ht) hbreak hs ?_
  rw [always_iff_visited]
  exact fun _ _ _ _ => trivial

end Machine
