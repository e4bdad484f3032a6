import ReputationPassport.Go.Jwt

/-! # Issuing and validating access tokens

`service/auth_service.go`, over the package `golang-jwt`. Hashing of passwords is not modelled. -/

namespace ReputationPassport.AuthService

open Go Jwt

/-- `AuthService`; the expiry is in nanoseconds. -/
structure Config where
  jwtSecret : Bytes
  jwtExpiry : Int

/-- `Time.Unix`. -/
def unix (time : Int) : Int := time / 1000000000

/-- The two readings of the clock `GenerateToken` makes. -/
structure Readings where
  issued : Int
  expires : Int

/-- The claims `GenerateToken` signs. -/
def accessClaims (s : Config) (times : Readings) (userID role : String) : MapClaims :=
  [("sub", .string userID),
    ("role", .string role),
    ("iat", .number (unix times.issued)),
    ("exp", .number (unix (times.expires + s.jwtExpiry))),
    ("type", .string "access")]

/-- What `fmt.Errorf` makes of an error, wrapped or not. -/
structure TokenError (ε : Type) where
  message : String
  cause : Option ε

variable {ε : Type} (jwt : Library ε)

/-- `GenerateToken`. -/
def generateToken (s : Config) (times : Readings) (userID role : String) : Except ε Bytes :=
  jwt.signedString hs256 (accessClaims s times userID role) s.jwtSecret

/-- The key function of `ValidateToken`. -/
def validationKey (s : Config) : Keyfunc := fun header =>
  if header.method ≠ .hmac then .error ("unexpected signing method: " ++ header.alg)
  else .ok s.jwtSecret

/-- `ValidateToken`. -/
def validateToken (s : Config) (now : Int) (tokenStr : Bytes) :
    Except (TokenError ε) MapClaims :=
  match jwt.parse tokenStr (validationKey s) now with
  | .error cause => .error ⟨"invalid token", some cause⟩
  | .ok token =>
      match token.claims with
      | .map claims => if token.valid then .ok claims else .error ⟨"invalid token claims", none⟩
      | .other => .error ⟨"invalid token claims", none⟩

variable {jwt}

/-- **What `ValidateToken` accepts**: a token that parses, is valid and has a map of claims. -/
theorem validateToken_eq_ok {s : Config} {now : Int} {tokenStr : Bytes} {claims : MapClaims} :
    validateToken jwt s now tokenStr = .ok claims ↔
      jwt.parse tokenStr (validationKey s) now = .ok ⟨true, .map claims⟩ := by
  unfold validateToken
  cases jwt.parse tokenStr (validationKey s) now with
  | error cause => simp
  | ok token =>
      obtain ⟨valid, claims'⟩ := token
      cases claims' with
      | map claims' => cases valid <;> simp
      | other => simp

/-- The claims of an access token are current until its `exp` second. -/
theorem current_accessClaims {s : Config} {times : Readings} {userID role : String} {now : Int}
    (h : now < unix (times.expires + s.jwtExpiry) * 1000000000) :
    Current (accessClaims s times userID role) now := by
  refine ⟨⟨unix (times.expires + s.jwtExpiry), rfl, ?_⟩, rfl⟩
  exact_mod_cast h

end ReputationPassport.AuthService
