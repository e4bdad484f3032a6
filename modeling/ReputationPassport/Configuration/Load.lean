import Mathlib.Algebra.Order.Group.Abs
import Mathlib.Algebra.Order.Group.Int
import ReputationPassport.Go.Duration
import ReputationPassport.Service.Auth

/-! # The configuration

`internal/config`. Every setting is read from the environment, with a fallback. A duration is parsed
with `time.ParseDuration`, which wants a unit, and the fallback is a number of hours; a setting that
cannot be parsed falls back without an error. So a lifetime in hours, as the name of the variable
and the example file have it, is never taken (`jwtExpiry_decimal`). -/

namespace ReputationPassport.Configuration

open Go

/-- `os.Getenv`: the value of a variable, which is empty if the variable is not set. -/
abbrev Environment : Type := String → Bytes

/-- `time.Hour`, in nanoseconds. -/
def hour : Int := 3600000000000

/-- `getEnv`. -/
def getEnv (env : Environment) (key fallback : String) : Bytes :=
  if env key ≠ [] then env key else ascii fallback

/-- `getInt`. -/
def getInt (env : Environment) (key : String) (fallback : Int) : Int :=
  if env key ≠ [] then
    match atoi (env key) with
    | some i => i
    | none => fallback
  else fallback

/-- `getDuration`, in nanoseconds. -/
def getDuration (env : Environment) (key : String) (fallback : Int) : Int :=
  if env key ≠ [] then
    match parseDuration (env key) with
    | .ok d => d
    | .error _ => fallback * hour
  else fallback * hour

/-- `getStrings`. -/
def getStrings (env : Environment) (key fallback : String) : List Bytes :=
  if env key ≠ [] then split (env key) (ascii ",") else [ascii fallback]

/-- `Config`. -/
structure Config where
  port : Bytes
  env : Bytes
  logLevel : Bytes
  jwtSecret : Bytes
  jwtExpiry : Int
  corsOrigins : List Bytes
  rateLimit : Int
  postgresHost : Bytes
  postgresPort : Bytes
  postgresDB : Bytes
  postgresUser : Bytes
  postgresPassword : Bytes
  redisHost : Bytes
  redisPort : Bytes
  redisPassword : Bytes
  natsHost : Bytes
  natsPort : Bytes
  otlpEndpoint : Bytes

/-- `Load`. -/
def load (env : Environment) : Config where
  port := getEnv env "GO_API_PORT" "8080"
  env := getEnv env "ENVIRONMENT" "development"
  logLevel := getEnv env "LOG_LEVEL" "info"
  jwtSecret := getEnv env "JWT_SECRET" "dev-secret-change-in-production"
  jwtExpiry := getDuration env "JWT_EXPIRY_HOURS" 24
  corsOrigins := getStrings env "CORS_ORIGINS" "http://localhost:3000"
  rateLimit := getInt env "RATE_LIMIT_REQUESTS" 100
  postgresHost := getEnv env "POSTGRES_HOST" "localhost"
  postgresPort := getEnv env "POSTGRES_PORT" "5432"
  postgresDB := getEnv env "POSTGRES_DB" "reputation_passport"
  postgresUser := getEnv env "POSTGRES_USER" "postgres"
  postgresPassword := getEnv env "POSTGRES_PASSWORD" ""
  redisHost := getEnv env "REDIS_HOST" "localhost"
  redisPort := getEnv env "REDIS_PORT" "6379"
  redisPassword := getEnv env "REDIS_PASSWORD" ""
  natsHost := getEnv env "NATS_HOST" "localhost"
  natsPort := getEnv env "NATS_PORT" "4222"
  otlpEndpoint := getEnv env "OTEL_EXPORTER_OTLP_ENDPOINT" "http://localhost:4318"

/-- The service that issues tokens, with the secret and the lifetime of the configuration. -/
def Config.authService (cfg : Config) : AuthService.Config := ⟨cfg.jwtSecret, cfg.jwtExpiry⟩

/-! ## The lifetime of a token -/

variable {env : Environment} {n : Nat}

/-- **A number of hours is not taken**: the lifetime is that of the fallback. -/
theorem jwtExpiry_decimal (hn : 0 < n) (henv : env "JWT_EXPIRY_HOURS" = decimal n) :
    (load env).jwtExpiry = 24 * hour := by
  obtain ⟨e, he⟩ := parseDuration_decimal hn
  change getDuration env "JWT_EXPIRY_HOURS" 24 = _
  rw [getDuration, henv, if_pos (decimal_ne_nil n), he]

/-- A number of hours with its unit is taken. -/
theorem jwtExpiry_hours (hfits : n * 3600000000000 < 2 ^ 63)
    (henv : env "JWT_EXPIRY_HOURS" = decimal n ++ ascii "h") :
    (load env).jwtExpiry = n * hour := by
  have hunit : (ascii "h", 3600000000000) ∈ unitMap := by decide
  have hvalue : digitsValue 0 (decimal n) * 3600000000000 < 2 ^ 63 := by
    rwa [digitsValue_decimal]
  have hparse := parseDuration_digits_unit hunit (allDigits_decimal n) (decimal_ne_nil n) hvalue
  change getDuration env "JWT_EXPIRY_HOURS" 24 = _
  rw [getDuration, henv, if_pos (List.append_ne_nil_of_left_ne_nil (decimal_ne_nil n) _), hparse,
    digitsValue_decimal]
  rfl

/-- The times in the claims of a token. -/
structure TokenTimes (s : AuthService.Config) (times : AuthService.Readings) (userID role : String)
    (iat exp : Int) : Prop where
  iat : (AuthService.accessClaims s times userID role).get "iat" = .number iat
  exp : (AuthService.accessClaims s times userID role).get "exp" = .number exp

/-- **The lifetime of `n` hours is honoured**: it is the one that is loaded, and tokens expire that
long after they were issued, up to a second, when the clock is read twice within one. -/
structure HonoursLifetime (env : Environment) (n : Nat) : Prop where
  expiry : (load env).jwtExpiry = n * hour
  tokens : ∀ (userID role : String) (times : AuthService.Readings),
    times.issued ≤ times.expires → times.expires < times.issued + 1000000000 →
    ∃ iat exp, TokenTimes (load env).authService times userID role iat exp ∧
      |exp - (iat + 3600 * n)| ≤ 1

/-- A lifetime of `n` hours that is loaded is honoured. -/
theorem honoursLifetime_of_expiry (h : (load env).jwtExpiry = n * hour) :
    HonoursLifetime env n := by
  refine ⟨h, fun userID role times hle hlt => ⟨_, _, ⟨rfl, rfl⟩, ?_⟩⟩
  -- the seconds of the two readings differ by one at most
  have hlifetime : (load env).authService.jwtExpiry = n * 3600000000000 := h
  rw [hlifetime, abs_le, AuthService.unix, AuthService.unix]
  omega

/-- **When the lifetime is honoured**: for a positive number of hours in decimal, exactly when it is
the `24` of the fallback. -/
theorem honoursLifetime_iff (env : Environment) (n : Nat) (hn : 0 < n)
    (henv : env "JWT_EXPIRY_HOURS" = decimal n) : HonoursLifetime env n ↔ n = 24 := by
  have hloaded := jwtExpiry_decimal hn henv
  constructor
  · intro h
    have hsame : (24 : Int) * hour = n * hour := hloaded.symm.trans h.expiry
    rw [hour] at hsame
    omega
  · rintro rfl
    exact honoursLifetime_of_expiry hloaded

/-- An environment with a lifetime only. -/
def lifetimeEnv (n : Nat) : Environment := fun key =>
  if key = "JWT_EXPIRY_HOURS" then decimal n else []

theorem honoursLifetime_iff_fortyEight : HonoursLifetime (lifetimeEnv 48) 48 ↔ 48 = 24 :=
  honoursLifetime_iff (lifetimeEnv 48) 48 (by decide) rfl

/-- **Forty-eight hours become twenty-four.** -/
theorem lifetime_of_fortyEight_ignored :
    (load (lifetimeEnv 48)).jwtExpiry = 24 * hour ∧ ¬ HonoursLifetime (lifetimeEnv 48) 48 := by
  have hloaded : (load (lifetimeEnv 48)).jwtExpiry = 24 * hour := jwtExpiry_decimal (by decide) rfl
  refine ⟨hloaded, fun h => ?_⟩
  have hexpiry := h.expiry
  rw [hloaded] at hexpiry
  exact absurd hexpiry (by decide)

end ReputationPassport.Configuration
