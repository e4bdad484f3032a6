import Mathlib.Logic.Function.Basic
import ReputationPassport.Configuration.Load
import ReputationPassport.Handler.Api
import ReputationPassport.Machine.Chain
import ReputationPassport.Middleware.Auth
import ReputationPassport.Middleware.RateLimiter

/-! # The Go gateway

`cmd/server/main.go`: the middlewares in the order in which `main` registers them, and behind them
the handlers of the routes. Every request goes through `RequestID`, `CORS` and the rate limiter, a
request for `/api/v1` through `Auth` too. Of the state of the server only the rate limiter is shared
between requests, so a `Gateway` serves them in the order in which they take its mutex.

Routing belongs to gin: a request comes with the route that was found for it. `StructuredLogger` and
the tracing of `otelgin` pass every request on and are left out; `Recovery` is what `finish` makes
of a panic. Of the context, `user_id` and `user_role` are left out, which no handler reads. -/

namespace ReputationPassport.Server

open Go Jwt Machine Timing Middleware ReputationPassport.Configuration

/-- The route of a request, with what its handler reads of it. -/
inductive Route where
  | healthz
  | readyz
  /-- The page the metrics library shows at that moment. -/
  | metrics (page : Bytes)
  | v1 (request : Handler.Request)
  | notFound

/-- What the middlewares and the handlers read of a request; a header that is absent is empty. -/
structure Request (Key : Type) where
  method : Bytes
  clientIP : Key
  origin : Bytes
  requestID : Bytes
  authorization : Bytes
  route : Route

/-- What is drawn from outside while a request is served: a fresh id, the two readings of the clock
by the rate limiter, and the one by the authentication. -/
structure Draw where
  uuid : Bytes
  span : Span Int
  now : Int

/-- The headers of a response. -/
abbrev Headers : Type := String → Option Bytes

/-- No headers. -/
def Headers.empty : Headers := fun _ => none

/-- `c.Header`: an empty value removes the header. -/
def Headers.set (headers : Headers) (key : String) (value : Bytes) : Headers :=
  Function.update headers key (if value = [] then none else some value)

/-- A `gin.Context`: the request, what was drawn for it, and the headers set so far. -/
structure Context (Key : Type) where
  request : Request Key
  draw : Draw
  headers : Headers

/-- The body of a response. -/
inductive Body where
  | empty
  | text (s : Bytes)
  | json (members : List (String × Handler.Json))

/-- A status with a body. -/
structure Answer where
  status : Nat
  body : Body

/-- `c.AbortWithStatusJSON` with an error. -/
def failure (status : Nat) (error : String) : Answer :=
  ⟨status, .json [("error", .string (ascii error))]⟩

/-- The answer of `HealthCheck` and of `ReadinessCheck`. -/
def statusAnswer (status : String) : Answer :=
  ⟨200, .json [("status", .string (ascii status)), ("service", .string (ascii "go-api"))]⟩

/-- The answer of a handler. -/
def apiAnswer (response : Handler.Response) : Answer := ⟨response.status, .json response.body⟩

/-! ## The middlewares -/

section Middlewares

variable {Key : Type}

/-- A handler of the server: it may answer, or panic. -/
abbrev GinHandler (Key : Type) : Type :=
  Machine.Handler (RateLimiter Key) (Context Key) (Except SliceBounds Answer)

/-- `RequestID`. -/
def requestID : GinHandler Key := fun rl c =>
  let id := if c.request.requestID = [] then c.draw.uuid else c.request.requestID
  (rl, { c with headers := c.headers.set "X-Request-ID" id }, none)

/-- The loop of `CORS` stops at the first origin that allows the one of the request. -/
def allowedBy (origins : List Bytes) (origin : Bytes) : Bool :=
  origins.any fun allowed => allowed = ascii "*" ∨ allowed = origin

/-- The headers `CORS` sets. -/
def corsHeaders (origins : List Bytes) (origin : Bytes) (headers : Headers) : Headers :=
  let headers :=
    if allowedBy origins origin then headers.set "Access-Control-Allow-Origin" origin else headers
  ((headers.set "Access-Control-Allow-Methods" (ascii "GET, POST, PUT, DELETE, OPTIONS")).set
    "Access-Control-Allow-Headers" (ascii "Authorization, Content-Type, X-Request-ID")).set
    "Access-Control-Max-Age" (ascii "86400")

/-- A preflight request. -/
def Request.preflight (r : Request Key) : Prop := r.method = ascii "OPTIONS"

instance decidablePreflight (r : Request Key) : Decidable r.preflight :=
  inferInstanceAs (Decidable (_ = _))

/-- `CORS`. -/
def cors (origins : List Bytes) : GinHandler Key := fun rl c =>
  (rl, { c with headers := corsHeaders origins c.request.origin c.headers },
    if c.request.preflight then some (.ok ⟨204, .empty⟩) else none)

/-- What the rate limiter answers. -/
def limiterAnswer : Response → Option Answer
  | .next => none
  | .abort status error retryAfter =>
      some ⟨status,
        .json [("error", .string (ascii error)), ("retry_after", .number retryAfter)]⟩

/-- The handler `NewRateLimiter` returns. -/
def rateLimiter [DecidableEq Key] : GinHandler Key := fun rl c =>
  let served := rl.middleware c.request.clientIP c.draw.span.first c.draw.span.last
  (served.1, c, (limiterAnswer served.2).map .ok)

variable {ε : Type} (jwt : Library ε)

/-- What the authentication answers. -/
def authAnswer : AuthOutcome → Option Answer
  | .abort status error => some (failure status error)
  | .next _ _ => none

/-- `Auth`. -/
def auth (jwtSecret : Bytes) : GinHandler Key := fun rl c =>
  (rl, c, (authAnswer (Middleware.auth jwt jwtSecret c.draw.now c.request.authorization)).map .ok)

/-- A handler at the end of a chain. -/
def answering (answer : Except SliceBounds Answer) : GinHandler Key := fun rl c =>
  (rl, c, some answer)

end Middlewares

/-! ## The server -/

section Server

variable {Key : Type} [DecidableEq Key] {ε : Type} (jwt : Library ε) (lib : Handler.Binding)
  (cfg : Config)

/-- What `r.Use` registers. -/
def globalChain : List (GinHandler Key) := [requestID, cors cfg.corsOrigins, rateLimiter]

/-- What stands behind it, by route. -/
def routeChain : Route → List (GinHandler Key)
  | .healthz => [answering (.ok (statusAnswer "healthy"))]
  | .readyz => [answering (.ok (statusAnswer "ready"))]
  | .metrics page => [answering (.ok ⟨200, .text page⟩)]
  | .v1 request => [auth jwt cfg.jwtSecret, answering ((Handler.serve lib request).map apiAnswer)]
  | .notFound => []

/-- What becomes of the end of a chain: `Recovery` answers for a handler that panics, and gin for a
chain without an answer. -/
def finish : Option (Except SliceBounds Answer) → Answer
  | some (.ok answer) => answer
  | some (.error _) => ⟨500, .empty⟩
  | none => ⟨404, .text (ascii "404 page not found")⟩

/-- Serve a request: the limiter, the headers of the response, and the answer. -/
def serve (rl : RateLimiter Key) (r : Request Key) (draw : Draw) :
    RateLimiter Key × Headers × Answer :=
  let (rl', c, answer) :=
    inSeries (globalChain cfg ++ routeChain jwt lib cfg r.route) rl ⟨r, draw, .empty⟩
  (rl', c.headers, finish answer)

/-- A request that was served. -/
structure Exchange (Key : Type) where
  request : Request Key
  draw : Draw
  headers : Headers
  answer : Answer

/-- The rate limiter, the last reading of the clock under its mutex, and the requests served so far,
newest first. -/
structure Gateway (Key : Type) where
  limiter : RateLimiter Key
  clock : Int
  log : List (Exchange Key)

/-- What happens next: a request, or a tick of the cleanup with the order in which it visits the
keys. -/
inductive Event (Key : Type) where
  | request (r : Request Key) (draw : Draw)
  | tick (visits : List (Key × Int))

/-- The server right after it was started. -/
def start (clock : Int) : Gateway Key := ⟨newRateLimiter cfg.rateLimit, clock, []⟩

/-- One event. A preflight request never takes the mutex; any other makes its readings of the clock
in order. -/
def step (g : Gateway Key) : Event Key → Option (Gateway Key)
  | .request r draw =>
      let served := serve jwt lib cfg g.limiter r draw
      let exchange := ⟨r, draw, served.2.1, served.2.2⟩
      if r.preflight then some { g with log := exchange :: g.log }
      else if Readings g.clock [draw.span.first, draw.span.last, draw.now] then
        some ⟨served.1, draw.span.last, exchange :: g.log⟩
      else none
  | .tick visits =>
      if Readings g.clock (visits.map Prod.snd) ∧
          (visits.map Prod.fst : Multiset Key) = g.limiter.visitors.keys.val then
        some { g with
          limiter := g.limiter.cleanup visits
          clock := (visits.map Prod.snd).getLastD g.clock }
      else none

end Server

/-! ## What a request gets -/

section Effects

variable {Key : Type} [DecidableEq Key] {ε : Type} {jwt : Library ε} {lib : Handler.Binding}
  {cfg : Config} {rl : RateLimiter Key} {r : Request Key} {draw : Draw}

/-- The headers of every response. -/
def responseHeaders (cfg : Config) (r : Request Key) (draw : Draw) : Headers :=
  corsHeaders cfg.corsOrigins r.origin (Headers.empty.set "X-Request-ID"
    (if r.requestID = [] then draw.uuid else r.requestID))

/-- What a request gets that the rate limiter lets through. -/
def routeAnswer (jwt : Library ε) (lib : Handler.Binding) (cfg : Config) (r : Request Key)
    (now : Int) : Answer :=
  match r.route with
  | .healthz => statusAnswer "healthy"
  | .readyz => statusAnswer "ready"
  | .metrics page => ⟨200, .text page⟩
  | .v1 request =>
      match authAnswer (Middleware.auth jwt cfg.jwtSecret now r.authorization) with
      | some answer => answer
      | none => finish (some ((Handler.serve lib request).map apiAnswer))
  | .notFound => ⟨404, .text (ascii "404 page not found")⟩

/-- A preflight request gets no further than `CORS`. -/
theorem global_of_preflight (h : r.preflight) :
    inSeries (globalChain cfg) rl ⟨r, draw, .empty⟩ =
      (rl, ⟨r, draw, responseHeaders cfg r draw⟩, some (.ok ⟨204, .empty⟩)) := by
  rw [globalChain, inSeries_cons_of_none rfl, inSeries_cons_of_some]
  simp only [cors, if_pos h, responseHeaders]

/-- Any other request is up to the rate limiter. -/
theorem global_of_not_preflight (cfg : Config) (rl : RateLimiter Key) (draw : Draw)
    (h : ¬ r.preflight) :
    inSeries (globalChain cfg) rl ⟨r, draw, .empty⟩ =
      ((rl.middleware r.clientIP draw.span.first draw.span.last).1,
        ⟨r, draw, responseHeaders cfg r draw⟩,
        (limiterAnswer (rl.middleware r.clientIP draw.span.first draw.span.last).2).map .ok) := by
  have hcors : cors cfg.corsOrigins rl ⟨r, draw, Headers.empty.set "X-Request-ID"
      (if r.requestID = [] then draw.uuid else r.requestID)⟩ =
        (rl, ⟨r, draw, responseHeaders cfg r draw⟩, none) := by
    simp only [cors, if_neg h, responseHeaders]
  rw [globalChain, inSeries_cons_of_none rfl, inSeries_cons_of_none hcors]
  cases hanswer : limiterAnswer (rl.middleware r.clientIP draw.span.first draw.span.last).2 with
  | none => exact inSeries_cons_of_none (by simp only [rateLimiter, hanswer, Option.map_none])
  | some answer =>
      exact inSeries_cons_of_some (by simp only [rateLimiter, hanswer, Option.map_some])

omit [DecidableEq Key] in
/-- What stands behind the global chain answers as the route says, and leaves the rest. -/
theorem finish_routeChain (jwt : Library ε) (lib : Handler.Binding) (cfg : Config)
    (rl : RateLimiter Key) (c : Context Key) :
    (inSeries (routeChain jwt lib cfg c.request.route) rl c).1 = rl ∧
    (inSeries (routeChain jwt lib cfg c.request.route) rl c).2.1 = c ∧
    finish (inSeries (routeChain jwt lib cfg c.request.route) rl c).2.2 =
      routeAnswer jwt lib cfg c.request c.draw.now := by
  unfold routeAnswer
  cases c.request.route with
  | v1 request =>
      -- the handler of the route stands behind the authentication
      rw [routeChain]
      cases hanswer : authAnswer
          (Middleware.auth jwt cfg.jwtSecret c.draw.now c.request.authorization) with
      | none =>
          have hauth : auth jwt cfg.jwtSecret rl c = (rl, c, none) := by
            simp only [auth, hanswer, Option.map_none]
          rw [inSeries_cons_of_none hauth]
          exact ⟨rfl, rfl, rfl⟩
      | some answer =>
          have hauth : auth jwt cfg.jwtSecret rl c = (rl, c, some (.ok answer)) := by
            simp only [auth, hanswer, Option.map_some]
          rw [inSeries_cons_of_some hauth]
          exact ⟨rfl, rfl, rfl⟩
  | _ => exact ⟨rfl, rfl, rfl⟩

/-- **A preflight request** does not touch the limiter. -/
theorem serve_preflight (h : r.preflight) : serve jwt lib cfg rl r draw =
    (rl, responseHeaders cfg r draw, ⟨204, .empty⟩) := by
  rw [serve, inSeries_append_of_some (global_of_preflight h)]
  rfl

/-- **A request the rate limiter refuses** gets no further. -/
theorem serve_refused (h : ¬ r.preflight) {answer : Answer} (hrefused : limiterAnswer
      (rl.middleware r.clientIP draw.span.first draw.span.last).2 = some answer) :
    serve jwt lib cfg rl r draw =
      ((rl.middleware r.clientIP draw.span.first draw.span.last).1,
        responseHeaders cfg r draw, answer) := by
  have hglobal := global_of_not_preflight cfg rl draw h
  rw [hrefused, Option.map_some] at hglobal
  rw [serve, inSeries_append_of_some hglobal]
  rfl

/-- **Any other request** gets what its route gives. -/
theorem serve_admitted (h : ¬ r.preflight) (hadmitted : limiterAnswer
      (rl.middleware r.clientIP draw.span.first draw.span.last).2 = none) :
    serve jwt lib cfg rl r draw =
      ((rl.middleware r.clientIP draw.span.first draw.span.last).1,
        responseHeaders cfg r draw, routeAnswer jwt lib cfg r draw.now) := by
  have hglobal := global_of_not_preflight cfg rl draw h
  rw [hadmitted, Option.map_none] at hglobal
  obtain ⟨hlimiter, hcontext, hanswer⟩ := finish_routeChain jwt lib cfg
    (rl.middleware r.clientIP draw.span.first draw.span.last).1
    ⟨r, draw, responseHeaders cfg r draw⟩
  rw [serve, inSeries_append_of_none hglobal]
  exact Prod.ext hlimiter (Prod.ext (congrArg Context.headers hcontext) hanswer)

end Effects

end ReputationPassport.Server
