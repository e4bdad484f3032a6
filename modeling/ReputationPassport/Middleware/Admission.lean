import Mathlib.Algebra.Order.Group.Int
import ReputationPassport.Middleware.RateLimiter

/-! # What the rate limiter admits

The counter of a visitor is the length of the burst its last request belongs to, refused requests
included, and a key without a visitor has had no request for more than a window (`Tracks`). So the
limiter is a burst limiter for each key, with one window as the time that ends a burst. That it
never exceeds its limit follows from this, and so does the account of the requests it refuses:
counting bursts is not counting the requests of a window. -/

namespace ReputationPassport.Middleware

open Machine Timing

variable {Key : Type} [DecidableEq Key]

/-- The request was passed on. -/
def Served.admitted (r : Served Key) : Bool := decide (r.response = .next)

/-- The requests of a key with whether they were admitted, newest first. -/
def servedFor (key : Key) (log : List (Served Key)) : List (Span Int × Bool) :=
  (log.filter fun r => r.key = key).map fun r => (r.span, r.admitted)

/-- When the requests of a key were served, newest first. -/
def spansFor (key : Key) (log : List (Served Key)) : List (Span Int) :=
  (servedFor key log).map Prod.fst

theorem servedFor_cons (key : Key) (r : Served Key) (log : List (Served Key)) :
    servedFor key (r :: log) =
      if r.key = key then (r.span, r.admitted) :: servedFor key log else servedFor key log := by
  unfold servedFor
  by_cases h : r.key = key
  · rw [List.filter_cons_of_pos (by simpa using h), if_pos h, List.map_cons]
  · rw [List.filter_cons_of_neg (by simpa using h), if_neg h]

theorem spansFor_cons (key : Key) (r : Served Key) (log : List (Served Key)) :
    spansFor key (r :: log) = if r.key = key then r.span :: spansFor key log
      else spansFor key log := by
  rw [spansFor, servedFor_cons]
  split <;> rfl

theorem spansFor_sublist (key : Key) (log : List (Served Key)) :
    (spansFor key log).Sublist (log.map Served.span) := by
  rw [spansFor, servedFor, List.map_map]
  exact List.filter_sublist.map _

/-- What the map remembers of the requests of a key: the burst of the last one, unless that is more
than a window ago. -/
structure Remembers (rl : RateLimiter Key) (clock : Int) (key : Key) (spans : List (Span Int)) :
    Prop where
  absent : rl.visitors.lookup key = none → ∀ p ∈ spans.head?, minute < clock - p.last
  present : ∀ v, rl.visitors.lookup key = some v → ∃ p rest, spans = p :: rest ∧
    v = ⟨burst minute spans, p.last⟩

namespace Remembers

variable {rl : RateLimiter Key} {clock now : Int} {key : Key} {spans : List (Span Int)}

/-- What is remembered stays true as time goes on. -/
theorem later (h : Remembers rl clock key spans) (hnow : clock ≤ now) :
    Remembers rl now key spans := by
  refine ⟨fun hnone p hp => ?_, h.present⟩
  have hgap := h.absent hnone p hp
  omega

/-- A visit forgets only what is more than ten windows ago. -/
theorem visit (h : Remembers rl clock key spans) (hnow : clock ≤ now) (key' : Key) :
    Remembers (rl.visit key' now) now key spans := by
  by_cases hkey : key = key'
  · subst hkey
    constructor
    · rw [lookup_visit_self]
      intro hnone p hp
      cases hv : rl.visitors.lookup key with
      | none => exact (h.later hnow).absent hv p hp
      | some v =>
          obtain ⟨q, rest, rfl, rfl⟩ := h.present v hv
          obtain rfl := Option.some.inj hp
          have hgone : ¬ now - q.last ≤ 10 * minute := by simpa [hv] using hnone
          have hpositive : (0 : Int) < minute := by decide
          omega
    · rw [lookup_visit_self]
      intro v hv
      exact h.present v (Option.eq_some_of_filter_eq_some hv)
  · exact ⟨by rw [lookup_visit_of_ne hkey]; exact (h.later hnow).absent,
      by rw [lookup_visit_of_ne hkey]; exact h.present⟩

/-- A whole cleanup does too. -/
theorem cleanup {visits : List (Key × Int)} (h : Remembers rl clock key spans)
    (hreadings : Readings clock (visits.map Prod.snd)) :
    Remembers (rl.cleanup visits) ((visits.map Prod.snd).getLastD clock) key spans := by
  induction visits generalizing rl clock with
  | nil => exact h
  | cons p visits ih =>
      obtain ⟨hclock, hreadings⟩ := List.pairwise_cons.mp hreadings
      have hvisit := h.visit (hclock p.2 List.mem_cons_self) p.1
      rw [List.map_cons, List.getLastD_cons]
      exact ih hvisit hreadings

/-- **What the middleware does**, in terms of bursts: it stores the length of the burst the request
belongs to, and admits the request if that is within the limit or the request begins the burst. -/
theorem middleware_spec (h : Remembers rl clock key spans) (hwindow : rl.window = minute)
    {span : Span Int} (hclock : clock ≤ span.first) :
    (rl.middleware key span.first span.last).1 = { rl with
      visitors := rl.visitors.insert key ⟨burst minute (span :: spans), span.last⟩ } ∧
    ((rl.middleware key span.first span.last).2 = .next ↔
      (burst minute (span :: spans) : Int) ≤ max rl.limit 1) := by
  by_cases hrecent : ∃ v, rl.visitors.lookup key = some v ∧ span.first - v.lastSeen ≤ minute
  · -- the request follows the last one, and the burst goes on
    obtain ⟨v, hv, hgap⟩ := hrecent
    obtain ⟨p, rest, rfl, rfl⟩ := h.present v hv
    have hburst : burst minute (span :: p :: rest) = burst minute (p :: rest) + 1 :=
      burst_of_follows hgap
    have hpos := burst_pos minute p rest
    rw [middleware_of_recent hwindow hv hgap, hburst]
    refine ⟨by simp, ?_⟩
    simp only
    split
    · next hover => exact iff_of_false (by simp) (by omega)
    · next hover => exact iff_of_true rfl (by omega)
  · -- the last request, if there was one, is more than a window ago
    have hstale : ∀ v, rl.visitors.lookup key = some v → minute < span.first - v.lastSeen := by
      intro v hv
      by_contra hle
      exact hrecent ⟨v, hv, by omega⟩
    have hburst : burst minute (span :: spans) = 1 := by
      refine burst_of_not_follows fun p hp hfollows => ?_
      unfold Follows at hfollows
      cases hv : rl.visitors.lookup key with
      | none =>
          have hgap := h.absent hv p hp
          omega
      | some v =>
          obtain ⟨q, rest, rfl, rfl⟩ := h.present v hv
          obtain rfl := Option.some.inj hp
          have hgap : minute < span.first - q.last := hstale _ hv
          omega
    rw [middleware_of_stale hwindow hstale, hburst]
    exact ⟨rfl, iff_of_true rfl (by omega)⟩

end Remembers

/-! ## Every run -/

/-- **The invariant**: the requests came in order, every key is remembered, and the limiter is a
burst limiter for each. -/
structure Tracks (limit : Int) (t : Traffic Key) : Prop where
  limit_eq : t.limiter.limit = limit
  window_eq : t.limiter.window = minute
  order : InOrder (t.log.map Served.span)
  past : ∀ r ∈ t.log, r.span.last ≤ t.clock
  remembers : ∀ key, Remembers t.limiter t.clock key (spansFor key t.log)
  limited : ∀ key, BurstLimited minute (max limit 1) (servedFor key t.log)

theorem tracks_start (limit clock : Int) :
    Tracks limit (Traffic.start limit clock : Traffic Key) where
  limit_eq := rfl
  window_eq := rfl
  order := ⟨List.Pairwise.nil, fun _ hr => absurd hr List.not_mem_nil⟩
  past _ hr := absurd hr List.not_mem_nil
  remembers key := by
    constructor
    · intro _ p hp
      cases hp
    · intro v hv
      rw [Traffic.start, newRateLimiter, Finmap.lookup_empty] at hv
      cases hv
  limited _ := trivial

variable {limit : Int} {t t' : Traffic Key}

/-- **A request keeps the invariant.** -/
theorem Tracks.request (h : Tracks limit t) (key : Key) {span : Span Int}
    (hfirst : t.clock ≤ span.first) (hlast : span.first ≤ span.last) :
    Tracks limit ⟨(t.limiter.middleware key span.first span.last).1, span.last,
      ⟨key, span, (t.limiter.middleware key span.first span.last).2⟩ :: t.log⟩ := by
  obtain ⟨hlimiter, hadmitted⟩ := (h.remembers key).middleware_spec h.window_eq hfirst
  rw [hlimiter]
  refine ⟨h.limit_eq, h.window_eq, ?_, ?_, fun key' => ?_, fun key' => ?_⟩
  · refine ⟨List.pairwise_cons.mpr ⟨fun p hp => ?_, h.order.1⟩, ?_⟩
    · obtain ⟨r, hr, rfl⟩ := List.mem_map.mp hp
      exact Int.le_trans (h.past r hr) hfirst
    · exact List.forall_mem_cons.mpr ⟨hlast, h.order.2⟩
  · refine List.forall_mem_cons.mpr ⟨Int.le_refl _, fun r hr => ?_⟩
    exact Int.le_trans (h.past r hr) (Int.le_trans hfirst hlast)
  · rw [spansFor_cons]
    -- only the requester's entry moves; every other key keeps what it had
    by_cases hkey : key = key'
    · subst hkey
      rw [if_pos rfl]
      constructor
      · intro hnone
        rw [Finmap.lookup_insert] at hnone
        cases hnone
      · intro v hv
        rw [Finmap.lookup_insert, Option.some.injEq] at hv
        exact ⟨span, spansFor key t.log, rfl, hv.symm⟩
    · have hold := (h.remembers key').later (Int.le_trans hfirst hlast)
      rw [if_neg hkey]
      constructor
      · rw [Finmap.lookup_insert_of_ne _ (Ne.symm hkey)]
        exact hold.absent
      · rw [Finmap.lookup_insert_of_ne _ (Ne.symm hkey)]
        exact hold.present
  · rw [servedFor_cons]
    by_cases hkey : key = key'
    · subst hkey
      rw [if_pos rfl]
      refine ⟨?_, h.limited key⟩
      rw [h.limit_eq] at hadmitted
      exact decide_eq_true_iff.trans hadmitted
    · rw [if_neg hkey]
      exact h.limited key'

/-- **Every step keeps the invariant.** -/
theorem Tracks.step {a : Action Key} (h : Tracks limit t) (hstep : Middleware.step t a = some t') :
    Tracks limit t' := by
  rcases step_cases hstep with ⟨key, span, -, hfirst, hlast, rfl⟩ | ⟨visits, -, hreadings, rfl⟩
  · exact h.request key hfirst hlast
  · have hconfig : (t.limiter.cleanup visits).limit = t.limiter.limit ∧
        (t.limiter.cleanup visits).window = t.limiter.window := cleanup_config
    refine ⟨hconfig.1.trans h.limit_eq, hconfig.2.trans h.window_eq, h.order, fun r hr => ?_,
      fun key => (h.remembers key).cleanup hreadings, h.limited⟩
    exact Int.le_trans (h.past r hr) (Readings.le_getLastD hreadings)

/-- **The invariant holds after every run.** -/
theorem tracks_run {clock : Int} {as : List (Action Key)}
    (hrun : run step (Traffic.start limit clock) as = some t) : Tracks limit t :=
  run_invariant (fun _ _ _ h hstep => h.step hstep) (tracks_start limit clock) hrun

/-- The log holds the arrivals of a key, newest first. -/
theorem spansFor_run {clock : Int} {as : List (Action Key)}
    (hrun : run step (Traffic.start limit clock) as = some t) (key : Key) :
    spansFor key t.log = (arrivals key as).reverse := by
  refine trace_invariant (P := fun as t => spansFor key t.log = (arrivals key as).reverse)
    rfl ?_ hrun
  intro as t a t' _ ih hstep
  rw [arrivals, List.filterMap_append, ← arrivals, List.reverse_append, ← ih]
  rcases step_cases hstep with ⟨key', span, rfl, -, -, rfl⟩ | ⟨visits, rfl, -, rfl⟩
  · rw [spansFor_cons]
    by_cases hkey : key' = key <;> simp [hkey]
  · rfl

/-- A request of a key was admitted when it is so in the key's own log. -/
theorem mem_servedFor {key : Key} {q : Span Int × Bool} {log : List (Served Key)} :
    q ∈ servedFor key log ↔ ∃ r ∈ log, r.key = key ∧ q = (r.span, r.admitted) := by
  simp only [servedFor, List.mem_map, List.mem_filter, decide_eq_true_eq, and_assoc,
    eq_comm (a := q)]

/-- **The rate limit is never exceeded**: in every closed interval of at most one window, at most
`max limit 1` requests of a key are admitted; a request counts if either of its readings, or any
moment between them, is in the interval. -/
theorem rate_limit_never_exceeded (limit clock : Int) (as : List (Action Key)) (t : Traffic Key)
    (hrun : run step (Traffic.start limit clock) as = some t) (key : Key) (a b : Int)
    (hab : b - a ≤ minute) :
    (t.log.countP (fun r => r.key = key ∧ r.response = .next ∧ r.span.first ≤ b ∧
      a ≤ r.span.last) : Int) ≤ max limit 1 := by
  have h : Tracks limit t := tracks_run hrun
  have horder : InOrder (spansFor key t.log) :=
    ⟨h.order.1.sublist (spansFor_sublist key t.log),
      fun p hp => h.order.2 p ((spansFor_sublist key t.log).subset hp)⟩
  have hcount := (h.limited key).countP_admitted_le (by omega) horder hab
  -- the key's own log counts the same requests
  rw [servedFor, List.countP_map, List.countP_filter] at hcount
  refine le_of_eq_of_le (congrArg Nat.cast (List.countP_congr fun r _ => ?_)) hcount
  simp only [Function.comp, Served.admitted, decide_eq_true_eq, Bool.and_eq_true]
  tauto

/-- Requests of two keys around a cleanup, the last one refused. -/
def mixedTraffic : List (Action String) :=
  [.request "10.0.0.1" ⟨0, 1⟩, .request "10.0.0.2" ⟨5, 5⟩,
    .request "10.0.0.1" ⟨50 * second, 50 * second⟩,
    .tick [("10.0.0.2", 51 * second), ("10.0.0.1", 52 * second)],
    .request "10.0.0.1" ⟨60 * second, 60 * second⟩]

theorem rate_limit_never_exceeded_mixedTraffic : ∃ t,
    run step (Traffic.start 2 0) mixedTraffic = some t ∧
    t.log.head?.map Served.response = some (.abort 429 "rate limit exceeded" 60) ∧
    (t.log.countP (fun r => r.key = "10.0.0.1" ∧ r.response = .next ∧
      r.span.first ≤ 60 * second ∧ 1 ≤ r.span.last) : Int) ≤ 2 := by
  obtain ⟨t, hrun, hlast⟩ : ∃ t, run step (Traffic.start 2 0) mixedTraffic = some t ∧
      t.log.head?.map Served.response = some (.abort 429 "rate limit exceeded" 60) :=
    ⟨_, rfl, rfl⟩
  exact ⟨t, hrun, hlast, rate_limit_never_exceeded 2 0 mixedTraffic t hrun "10.0.0.1" 1
    (60 * second) (by decide)⟩

/-! ## Who is refused -/

/-- At most `limit` of the requests fall into any interval of one window. -/
def WellBehaved (limit : Int) (requests : List (Span Int)) : Prop :=
  ∀ a b, b - a ≤ minute →
    (requests.countP (fun p => p.first ≤ b ∧ a ≤ p.last) : Int) ≤ limit

/-- No more than `limit` successive requests come each at most one window after the one before. -/
def NoLongBurst (limit : Int) (requests : List (Span Int)) : Prop :=
  ∀ ts, ts <:+: requests → ts.IsChain (fun p r => r.first - p.last ≤ minute) →
    (ts.length : Int) ≤ limit

/-- **Who is never refused**: all requests of a key are admitted exactly when no burst of them is
longer than the limit. -/
theorem never_rejected_iff (limit clock : Int) (hlimit : 1 ≤ limit) (as : List (Action Key))
    (t : Traffic Key) (hrun : run step (Traffic.start limit clock) as = some t) (key : Key) :
    (∀ r ∈ t.log, r.key = key → r.response = .next) ↔ NoLongBurst limit (arrivals key as) := by
  have hlimited := (tracks_run hrun).limited key
  have hall : (∀ r ∈ t.log, r.key = key → r.response = .next) ↔
      ∀ q ∈ servedFor key t.log, q.2 = true := by
    constructor
    · intro h q hq
      obtain ⟨r, hr, hkey, rfl⟩ := mem_servedFor.mp hq
      exact decide_eq_true (h r hr hkey)
    · intro h r hr hkey
      exact of_decide_eq_true (h _ (mem_servedFor.mpr ⟨r, hr, hkey, rfl⟩))
  rw [hall, hlimited.all_admitted_iff (by omega), Int.max_eq_left hlimit, ← spansFor,
    spansFor_run hrun]
  -- the log has the newest request first, the actions have it last
  constructor
  · intro h ts hts hchain
    rw [← List.length_reverse]
    exact h ts.reverse (List.reverse_infix.mpr hts) (List.isChain_reverse.mpr hchain)
  · intro h ts hts hchain
    rw [← List.length_reverse]
    refine h ts.reverse ?_ (List.isChain_reverse.mpr hchain)
    rw [← List.reverse_infix, List.reverse_reverse]
    exact hts

/-- A request every fifty-nine seconds. -/
def steadyTraffic : List (Action String) :=
  [.request "10.0.0.1" ⟨0, 0⟩, .request "10.0.0.1" ⟨59 * second, 59 * second⟩,
    .request "10.0.0.1" ⟨118 * second, 118 * second⟩]

/-- With a limit of three the steady client is never refused. -/
theorem never_rejected_iff_steadyTraffic : ∃ t,
    run step (Traffic.start 3 0) steadyTraffic = some t ∧
    (∀ r ∈ t.log, r.response = .next) ∧
    NoLongBurst 3 (arrivals "10.0.0.1" steadyTraffic) := by
  obtain ⟨t, hrun, hall⟩ : ∃ t, run step (Traffic.start 3 0) steadyTraffic = some t ∧
      ∀ r ∈ t.log, r.response = .next := ⟨_, rfl, by decide⟩
  exact ⟨t, hrun, hall, (never_rejected_iff 3 0 (by decide) steadyTraffic t hrun "10.0.0.1").mp
    fun r hr _ => hall r hr⟩

/-- With a limit of two it is refused at its third request, although no interval of a minute holds
three of them. -/
theorem steady_client_rejected :
    ¬ ∀ (limit clock : Int), 1 ≤ limit → ∀ (as : List (Action String)) (t : Traffic String),
      run step (Traffic.start limit clock) as = some t → ∀ key,
      WellBehaved limit (arrivals key as) → ∀ r ∈ t.log, r.key = key → r.response = .next := by
  intro h
  obtain ⟨t, hrun, r, hr, hkey, hrejected⟩ : ∃ t,
      run step (Traffic.start 2 0) steadyTraffic = some t ∧
      ∃ r ∈ t.log, r.key = "10.0.0.1" ∧ r.response ≠ .next := ⟨_, rfl, by decide⟩
  have hwell : WellBehaved 2 (arrivals "10.0.0.1" steadyTraffic) := by
    intro a b hab
    have harrivals : arrivals "10.0.0.1" steadyTraffic =
        [⟨0, 0⟩, ⟨59 * second, 59 * second⟩, ⟨118 * second, 118 * second⟩] := rfl
    -- an interval of a minute cannot hold both the first and the last
    have hapart : ¬ ((0 : Int) ≤ b ∧ a ≤ 0 ∧ 118 * second ≤ b) := by
      unfold minute at hab
      unfold second at *
      omega
    rw [harrivals]
    simp only [List.countP_cons, List.countP_nil, decide_eq_true_eq]
    split_ifs <;> omega
  exact hrejected (h 2 0 (by decide) steadyTraffic t hrun "10.0.0.1" hwell r hr hkey)

end ReputationPassport.Middleware
