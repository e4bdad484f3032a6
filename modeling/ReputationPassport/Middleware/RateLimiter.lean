import Mathlib.Data.Finmap
import ReputationPassport.Machine.Run
import ReputationPassport.Timing.Burst

/-! # The rate limiter of the Go gateway

`middleware/ratelimit.go`: a map from client keys to visitors under one mutex, and a goroutine that
removes stale visitors. A request reads the clock twice while it holds the mutex, once in
`time.Since` and once in `time.Now`; a cleanup reads it once for each entry of the map. Between two
critical sections the clock may move on, so a `Traffic` performs requests and cleanups in the order
in which they take the mutex, each with its own readings.

Readings and durations are integers, in nanoseconds; the counter is an unbounded integer. A request
without a visitor makes only the second reading; the first stands for any moment between the reading
before it and that one. -/

namespace ReputationPassport.Middleware

open Machine Timing

/-- `time.Second`. -/
def second : Int := 1000000000

/-- `time.Minute`. -/
def minute : Int := 60 * second

/-- The least `time.Duration`. -/
def minDuration : Int := -2 ^ 63

/-- The greatest `time.Duration`. -/
def maxDuration : Int := 2 ^ 63 - 1

/-- `time.Since(t)` when the clock shows `now`: the difference, saturated to a `time.Duration`. -/
def since (now t : Int) : Int := max minDuration (min maxDuration (now - t))

/-- A `visitor`. -/
structure Visitor where
  count : Int
  lastSeen : Int
  deriving DecidableEq

/-- A `RateLimiter`, less its mutex. -/
structure RateLimiter (Key : Type) where
  visitors : Finmap fun _ : Key => Visitor
  limit : Int
  window : Int

/-- What the middleware does with a request: `c.Next()` or `c.AbortWithStatusJSON`. -/
inductive Response where
  | next
  | abort (status : Nat) (error : String) (retryAfter : Int)
  deriving DecidableEq

variable {Key : Type}

/-- `NewRateLimiter`. -/
def newRateLimiter (limit : Int) : RateLimiter Key where
  visitors := ∅
  limit := limit
  window := minute

variable [DecidableEq Key]

/-- `middleware`, from taking the mutex to releasing it. `first` is what the clock shows in
`time.Since`, `now` what it shows in `time.Now`. -/
def RateLimiter.middleware (rl : RateLimiter Key) (key : Key) (first now : Int) :
    RateLimiter Key × Response :=
  match rl.visitors.lookup key with
  | none => ({ rl with visitors := rl.visitors.insert key ⟨1, now⟩ }, .next)
  | some v =>
      if since first v.lastSeen > rl.window then
        ({ rl with visitors := rl.visitors.insert key ⟨1, now⟩ }, .next)
      else
        -- a refused request is counted too, and renews `lastSeen`
        ({ rl with visitors := rl.visitors.insert key ⟨v.count + 1, now⟩ },
          if v.count + 1 > rl.limit then
            .abort 429 "rate limit exceeded" (rl.window.tdiv second)
          else .next)

/-- One round of the loop in `cleanup`: the entry of a key is looked at when the clock shows
`now`. -/
def RateLimiter.visit (rl : RateLimiter Key) (key : Key) (now : Int) : RateLimiter Key :=
  match rl.visitors.lookup key with
  | none => rl
  | some v =>
      if since now v.lastSeen > 10 * minute then
        { rl with visitors := rl.visitors.erase key }
      else rl

/-- One tick of `cleanup`: the entries are visited in some order, each at its own time. -/
def RateLimiter.cleanup (rl : RateLimiter Key) (visits : List (Key × Int)) : RateLimiter Key :=
  visits.foldl (fun rl p => rl.visit p.1 p.2) rl

/-! ## Traffic -/

/-- A request that was served: its key, its two readings of the clock and what was done with it. -/
structure Served (Key : Type) where
  key : Key
  span : Span Int
  response : Response

/-- The limiter, the last reading of the clock, and the requests served so far, newest first. -/
structure Traffic (Key : Type) where
  limiter : RateLimiter Key
  clock : Int
  log : List (Served Key)

/-- What happens next under the mutex: a request, or a tick of the cleanup with the order in which
it visits the keys. -/
inductive Action (Key : Type) where
  | request (key : Key) (span : Span Int)
  | tick (visits : List (Key × Int))

/-- A fresh limiter. -/
def Traffic.start (limit : Int) (clock : Int) : Traffic Key := ⟨newRateLimiter limit, clock, []⟩

/-- Readings do not decrease, from a given one on. -/
def Readings (clock : Int) (readings : List Int) : Prop :=
  (clock :: readings).Pairwise (· ≤ ·)

instance (clock : Int) (readings : List Int) : Decidable (Readings clock readings) :=
  inferInstanceAs (Decidable (List.Pairwise _ _))

/-- One critical section. It is enabled if its readings come in order after the last one; a tick
visits every key of the map exactly once. -/
def step (t : Traffic Key) : Action Key → Option (Traffic Key)
  | .request key span =>
      if Readings t.clock [span.first, span.last] then
        let served := t.limiter.middleware key span.first span.last
        some ⟨served.1, span.last, ⟨key, span, served.2⟩ :: t.log⟩
      else none
  | .tick visits =>
      if Readings t.clock (visits.map Prod.snd) ∧
          (visits.map Prod.fst : Multiset Key) = t.limiter.visitors.keys.val then
        some ⟨t.limiter.cleanup visits, (visits.map Prod.snd).getLastD t.clock, t.log⟩
      else none

/-- The readings of the requests of a key among some actions, in their order. -/
def arrivals (key : Key) (as : List (Action Key)) : List (Span Int) :=
  as.filterMap fun a =>
    match a with
    | .request key' span => if key' = key then some span else none
    | .tick _ => none

/-! ## What the functions do -/

/-- Saturation does not matter for comparisons with durations that are not extreme. -/
theorem since_gt_iff {now t : Int} {d : Int} (hmin : minDuration ≤ d) (hmax : d < maxDuration) :
    since now t > d ↔ now - t > d := by
  unfold since
  omega

theorem since_gt_minute {now t : Int} : since now t > minute ↔ now - t > minute :=
  since_gt_iff (by decide) (by decide)

theorem since_gt_ten_minutes {now t : Int} :
    since now t > 10 * minute ↔ now - t > 10 * minute := since_gt_iff (by decide) (by decide)

section Effects

variable {rl : RateLimiter Key} {key : Key} {first now : Int} {v : Visitor}

/-- **A request without a visitor, or after more than a window, begins a new count** and is
admitted. -/
theorem middleware_of_stale (hwindow : rl.window = minute)
    (h : ∀ v, rl.visitors.lookup key = some v → minute < first - v.lastSeen) :
    rl.middleware key first now =
      ({ rl with visitors := rl.visitors.insert key ⟨1, now⟩ }, .next) := by
  unfold RateLimiter.middleware
  cases hv : rl.visitors.lookup key with
  | none => rfl
  | some v =>
      simp only
      rw [if_pos (hwindow ▸ since_gt_minute.mpr (h v hv))]

/-- **Any other request is counted**, and admitted while the count is within the limit. -/
theorem middleware_of_recent (hwindow : rl.window = minute)
    (hv : rl.visitors.lookup key = some v) (h : first - v.lastSeen ≤ minute) :
    rl.middleware key first now =
      ({ rl with visitors := rl.visitors.insert key ⟨v.count + 1, now⟩ },
        if v.count + 1 > rl.limit then .abort 429 "rate limit exceeded" 60 else .next) := by
  have hrecent : ¬ since first v.lastSeen > minute := by
    rw [since_gt_minute]
    omega
  unfold RateLimiter.middleware
  simp only [hv, hwindow, if_neg hrecent]
  rfl

/-- What a visit leaves under the key it visits. -/
theorem lookup_visit_self : (rl.visit key now).visitors.lookup key =
    (rl.visitors.lookup key).filter fun v => now - v.lastSeen ≤ 10 * minute := by
  unfold RateLimiter.visit
  cases hv : rl.visitors.lookup key with
  | none => exact hv
  | some v =>
      simp only [since_gt_ten_minutes]
      by_cases hstale : now - v.lastSeen > 10 * minute
      · rw [if_pos hstale, Finmap.lookup_erase, Option.filter_some, if_neg]
        rw [decide_eq_true_eq]
        omega
      · rw [if_neg hstale, hv, Option.filter_some, if_pos]
        rw [decide_eq_true_eq]
        omega

/-- A visit leaves the entries of the other keys. -/
theorem lookup_visit_of_ne {key' : Key} (h : key' ≠ key) :
    (rl.visit key now).visitors.lookup key' = rl.visitors.lookup key' := by
  unfold RateLimiter.visit
  cases rl.visitors.lookup key with
  | none => rfl
  | some v =>
      simp only
      split
      · exact Finmap.lookup_erase_ne h
      · rfl

/-- A visit leaves the configuration. -/
theorem visit_limit : (rl.visit key now).limit = rl.limit := by
  unfold RateLimiter.visit
  repeat' split
  all_goals rfl

theorem visit_window : (rl.visit key now).window = rl.window := by
  unfold RateLimiter.visit
  repeat' split
  all_goals rfl

/-- A cleanup leaves the configuration. -/
theorem cleanup_config {visits : List (Key × Int)} : (rl.cleanup visits).limit = rl.limit ∧
    (rl.cleanup visits).window = rl.window := by
  induction visits generalizing rl with
  | nil => exact ⟨rfl, rfl⟩
  | cons p visits ih =>
      exact ⟨ih.1.trans visit_limit, ih.2.trans visit_window⟩

end Effects

/-- The last of the readings is not before the first. -/
theorem Readings.le_getLastD {clock : Int} {readings : List Int} (h : Readings clock readings) :
    clock ≤ readings.getLastD clock := by
  cases readings with
  | nil => exact Int.le_refl _
  | cons r readings =>
      rw [List.getLastD_cons]
      exact (List.pairwise_cons.mp h).1 _ List.getLastD_mem_cons

/-- **Inversion of a step.** -/
theorem step_cases {t t' : Traffic Key} {a : Action Key} (h : step t a = some t') :
    (∃ key span, a = .request key span ∧ t.clock ≤ span.first ∧ span.first ≤ span.last ∧
      t' = ⟨(t.limiter.middleware key span.first span.last).1, span.last,
        ⟨key, span, (t.limiter.middleware key span.first span.last).2⟩ :: t.log⟩) ∨
    (∃ visits, a = .tick visits ∧ Readings t.clock (visits.map Prod.snd) ∧
      t' = ⟨t.limiter.cleanup visits, (visits.map Prod.snd).getLastD t.clock, t.log⟩) := by
  cases a with
  | request key span =>
      simp only [step, Option.ite_none_right_eq_some, Option.some.injEq] at h
      obtain ⟨hreadings, rfl⟩ := h
      simp only [Readings, List.pairwise_cons, List.mem_cons, List.not_mem_nil, or_false,
        forall_eq_or_imp, forall_eq] at hreadings
      exact Or.inl ⟨key, span, rfl, hreadings.1.1, hreadings.2.1, rfl⟩
  | tick visits =>
      simp only [step, Option.ite_none_right_eq_some, Option.some.injEq] at h
      exact Or.inr ⟨visits, rfl, h.1.1, h.2.symm⟩

end ReputationPassport.Middleware
