import ReputationPassport.Middleware.Admission

/-! # Clients do not influence each other

The limiter is a burst limiter for each key (`Tracks`), and a burst limiter decides by the arrivals
alone. So the decisions for a key are a function of its own requests: neither the requests of other
keys nor the cleanups, which forget only what is more than ten windows old, can be told from them.
In particular a limiter that is never cleaned up decides the same. -/

namespace ReputationPassport.Middleware

open Machine Timing

variable {Key : Type} [DecidableEq Key]

/-- The action is a request. -/
def Action.isRequest : Action Key → Bool
  | .request _ _ => true
  | .tick _ => false

/-- The actions of a limiter without the cleanup goroutine. -/
def withoutCleanup (as : List (Action Key)) : List (Action Key) := as.filter Action.isRequest

/-- Leaving out the cleanups leaves the requests of a key. -/
theorem arrivals_withoutCleanup (key : Key) (as : List (Action Key)) :
    arrivals key (withoutCleanup as) = arrivals key as := by
  induction as with
  | nil => rfl
  | cons a as ih =>
      cases a with
      | request key' span =>
          rw [withoutCleanup, List.filter_cons_of_pos rfl, ← withoutCleanup, arrivals, arrivals,
            List.filterMap_cons, List.filterMap_cons, ← arrivals, ← arrivals, ih]
      | tick visits =>
          rw [withoutCleanup, List.filter_cons_of_neg (by simp [Action.isRequest]),
            ← withoutCleanup, ih]
          rfl

/-- A request is enabled whenever its readings are not before the last one. -/
theorem exists_step_request {t : Traffic Key} {key : Key} {span : Span Int}
    (hfirst : t.clock ≤ span.first) (hlast : span.first ≤ span.last) :
    ∃ t', step t (.request key span) = some t' ∧ t'.clock = span.last := by
  have hreadings : Readings t.clock [span.first, span.last] := by
    simp only [Readings, List.pairwise_cons, List.mem_cons, List.not_mem_nil, or_false,
      forall_eq_or_imp, forall_eq]
    exact ⟨⟨hfirst, Int.le_trans hfirst hlast⟩, hlast, fun _ h => h.elim, List.Pairwise.nil⟩
  exact ⟨_, if_pos hreadings, rfl⟩

/-- **The cleanups can be left out**: the requests of a run can be served without them, from any
state whose clock is not ahead. -/
theorem exists_run_withoutCleanup {as : List (Action Key)} {t t' u : Traffic Key}
    (hclock : t'.clock ≤ t.clock) (hrun : run step t as = some u) :
    ∃ u', run step t' (withoutCleanup as) = some u' := by
  induction as generalizing t t' with
  | nil => exact ⟨t', rfl⟩
  | cons a as ih =>
      obtain ⟨v, hstep, hrest⟩ := run_cons_eq_some.mp hrun
      rcases step_cases hstep with ⟨key, span, rfl, hfirst, hlast, rfl⟩ |
        ⟨visits, rfl, hreadings, rfl⟩
      · obtain ⟨v', hstep', hv'⟩ := exists_step_request (Int.le_trans hclock hfirst) hlast
        obtain ⟨u', hu'⟩ := ih (Int.le_of_eq hv') hrest
        exact ⟨u', run_cons_eq_some.mpr ⟨v', hstep', hu'⟩⟩
      · exact ih (Int.le_trans hclock (Readings.le_getLastD hreadings)) hrest

/-- The decisions for a key, in two runs in which it made the same requests. -/
theorem servedFor_eq_of_arrivals {limit clock clock' : Int} {as as' : List (Action Key)}
    {t t' : Traffic Key} (hrun : run step (Traffic.start limit clock) as = some t)
    (hrun' : run step (Traffic.start limit clock') as' = some t') {key : Key}
    (hsame : arrivals key as = arrivals key as') : servedFor key t.log = servedFor key t'.log := by
  have hspans : spansFor key t.log = spansFor key t'.log := by
    rw [spansFor_run hrun, spansFor_run hrun', hsame]
  exact ((tracks_run hrun).limited key).unique ((tracks_run hrun').limited key) hspans

/-- **Clients do not influence each other, and eviction is invisible.** Two runs in which a key
makes the same requests decide the same on each of them, whatever the other keys and the cleanups
do; and every run can be repeated without its cleanups, with the same decisions for every key. -/
theorem clients_isolated (limit clock clock' : Int) (as as' : List (Action Key))
    (t t' : Traffic Key) (hrun : run step (Traffic.start limit clock) as = some t)
    (hrun' : run step (Traffic.start limit clock') as' = some t') :
    (∀ key, arrivals key as = arrivals key as' → servedFor key t.log = servedFor key t'.log) ∧
    ∃ u, run step (Traffic.start limit clock) (withoutCleanup as) = some u ∧
      ∀ key, servedFor key u.log = servedFor key t.log := by
  refine ⟨fun key => servedFor_eq_of_arrivals hrun hrun', ?_⟩
  have hclock : (Traffic.start limit clock : Traffic Key).clock ≤
      (Traffic.start limit clock : Traffic Key).clock := Int.le_refl clock
  obtain ⟨u, hu⟩ := exists_run_withoutCleanup hclock hrun
  exact ⟨u, hu, fun key => servedFor_eq_of_arrivals hu hrun (arrivals_withoutCleanup key as)⟩

/-- A client whose entry is evicted between two requests. -/
def evictedTraffic : List (Action String) :=
  [.request "10.0.0.1" ⟨0, 0⟩, .request "10.0.0.2" ⟨5, 5⟩,
    .tick [("10.0.0.1", 601 * second), ("10.0.0.2", 602 * second)],
    .request "10.0.0.1" ⟨603 * second, 604 * second⟩]

/-- The same client alone, served by a limiter that started earlier. -/
def lonelyTraffic : List (Action String) :=
  [.request "10.0.0.1" ⟨0, 0⟩, .request "10.0.0.1" ⟨603 * second, 604 * second⟩]

theorem clients_isolated_evictedTraffic : ∃ t t',
    run step (Traffic.start 1 0) evictedTraffic = some t ∧
    run step (Traffic.start 1 (-7)) lonelyTraffic = some t' ∧
    (t'.log.map Served.admitted) = [true, true] ∧
    servedFor "10.0.0.1" t.log = servedFor "10.0.0.1" t'.log := by
  obtain ⟨t, t', hrun, hrun', hadmitted⟩ : ∃ t t',
      run step (Traffic.start 1 0) evictedTraffic = some t ∧
      run step (Traffic.start 1 (-7)) lonelyTraffic = some t' ∧
      (t'.log.map Served.admitted) = [true, true] := ⟨_, _, rfl, rfl, rfl⟩
  exact ⟨t, t', hrun, hrun', hadmitted,
    (clients_isolated 1 0 (-7) evictedTraffic lonelyTraffic t t' hrun hrun').1 "10.0.0.1" rfl⟩

end ReputationPassport.Middleware
