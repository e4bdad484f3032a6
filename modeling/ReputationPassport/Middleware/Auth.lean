import Mathlib.Data.Rat.Encodable
import Mathlib.Logic.Equiv.List
import ReputationPassport.Service.Auth

/-! # The authentication middleware

`middleware/auth.go`. The middleware parses the token of the `Authorization` header itself, with a
key function of its own, while `AuthService` issues and validates tokens with another.
`validators_agree` says that the two accept the same tokens and that what is issued is let
through. -/

namespace ReputationPassport.Middleware

open Go Jwt AuthService

/-- What the middleware does with a request: answer it, or pass it on with `user_id` and
`user_role` set. -/
inductive AuthOutcome where
  | abort (status : Nat) (error : String)
  | next (userID userRole : Value)

/-- `"Bearer"`. -/
def bearer : Bytes := ascii "Bearer"

/-- The key function of the middleware. -/
def middlewareKey (jwtSecret : Bytes) : Keyfunc := fun header =>
  if header.method ≠ .hmac then .error "signature is invalid" else .ok jwtSecret

variable {ε : Type} (jwt : Library ε)

/-- `Auth`, for the value of the `Authorization` header. -/
def auth (jwtSecret : Bytes) (now : Int) (authHeader : Bytes) : AuthOutcome :=
  if authHeader = [] then .abort 401 "missing authorization header"
  else
    match splitN authHeader [0x20] 2 with
    | [scheme, tokenStr] =>
        if scheme ≠ bearer then .abort 401 "invalid authorization format"
        else
          match jwt.parse tokenStr (middlewareKey jwtSecret) now with
          | .error _ => .abort 401 "invalid or expired token"
          | .ok token =>
              if token.valid = false then .abort 401 "invalid or expired token"
              else
                match token.claims with
                | .map claims => .next (claims.get "sub") (claims.get "role")
                | .other => .abort 401 "invalid token claims"
    -- `len(parts) != 2`
    | _ => .abort 401 "invalid authorization format"

/-- The header with a token. -/
def bearerHeader (tokenStr : Bytes) : Bytes := bearer ++ 0x20 :: tokenStr

/-- A header splits into the scheme and a token exactly if it is the one with this token. -/
theorem splitN_eq_bearer {authHeader tokenStr : Bytes} :
    splitN authHeader [0x20] 2 = [bearer, tokenStr] ↔ authHeader = bearerHeader tokenStr := by
  have hscheme : (0x20 : UInt8) ∉ bearer := by decide
  rw [splitN_two_eq_iff, and_iff_left hscheme, bearerHeader]

variable {jwt}

/-- **What the middleware lets through**: a header with a token that parses, is valid and has a map
of claims, of which it passes on two. -/
theorem auth_eq_next {jwtSecret : Bytes} {now : Int} {authHeader : Bytes}
    {userID userRole : Value} :
    auth jwt jwtSecret now authHeader = .next userID userRole ↔
      ∃ tokenStr claims, authHeader = bearerHeader tokenStr ∧
        jwt.parse tokenStr (middlewareKey jwtSecret) now = .ok ⟨true, .map claims⟩ ∧
        userID = claims.get "sub" ∧ userRole = claims.get "role" := by
  constructor
  · intro h
    unfold auth at h
    split at h
    · cases h
    · split at h
      · next scheme tokenStr hparts =>
        split at h
        · cases h
        · next hbearer =>
          rw [not_not.mp hbearer] at hparts
          split at h
          · cases h
          · next token hparse =>
            obtain ⟨valid, claims⟩ := token
            split at h
            · cases h
            · next hvalid =>
              obtain rfl : valid = true := Bool.not_eq_false _ ▸ hvalid
              cases claims with
              | map claims =>
                  obtain ⟨rfl, rfl⟩ := AuthOutcome.next.inj h
                  exact ⟨tokenStr, claims, splitN_eq_bearer.mp hparts, hparse, rfl, rfl⟩
              | other => cases h
      · cases h
  · rintro ⟨tokenStr, claims, rfl, hparse, rfl, rfl⟩
    have hparts : splitN (bearerHeader tokenStr) [0x20] 2 = [bearer, tokenStr] :=
      splitN_eq_bearer.mpr rfl
    have hheader : bearerHeader tokenStr ≠ [] :=
      List.append_ne_nil_of_right_ne_nil _ (List.cons_ne_nil _ _)
    simp only [auth, if_neg hheader, hparts, hparse, ne_eq, not_true_eq_false, if_false,
      Bool.true_eq_false]

/-- The two key functions return the same keys. -/
theorem keys_agree (s : Config) (header : Header) (key : Bytes) :
    middlewareKey s.jwtSecret header = .ok key ↔ validationKey s header = .ok key := by
  unfold middlewareKey validationKey
  split <;> simp

/-- **The validators agree**, and what is issued is let through. For every header and time, the
middleware lets the request through exactly if the header is the one with a token that
`ValidateToken` accepts then, and sets `user_id` and `user_role` to two of its claims. The token
`GenerateToken` issues is let through until its `exp` second, with the user and the role it was
issued for. -/
theorem validators_agree (jwt : Library ε) (hjwt : Documented jwt) (s : Config) :
    (∀ (authHeader : Bytes) (now : Int) (userID userRole : Value),
      auth jwt s.jwtSecret now authHeader = .next userID userRole ↔
        ∃ tokenStr claims, authHeader = bearerHeader tokenStr ∧
          validateToken jwt s now tokenStr = .ok claims ∧
          userID = claims.get "sub" ∧ userRole = claims.get "role") ∧
    ∀ (userID role : String) (times : Readings),
      ∃ tokenStr, generateToken jwt s times userID role = .ok tokenStr ∧
        ∀ now, now < unix (times.expires + s.jwtExpiry) * 1000000000 →
          auth jwt s.jwtSecret now (bearerHeader tokenStr) =
            .next (.string userID) (.string role) := by
  constructor
  · intro authHeader now userID userRole
    -- the two validators hand the package key functions that agree on every header
    rw [auth_eq_next]
    refine exists₂_congr fun tokenStr claims => and_congr_right fun _ => and_congr_left fun _ => ?_
    rw [validateToken_eq_ok]
    constructor
    · exact hjwt.keyfunc _ _ _ _ _ (keys_agree s)
    · exact hjwt.keyfunc _ _ _ _ _ fun header key => (keys_agree s header key).symm
  · intro userID role times
    obtain ⟨tokenStr, hsigned⟩ := hjwt.signs (accessClaims s times userID role) s.jwtSecret
    refine ⟨tokenStr, hsigned, fun now hnow => ?_⟩
    obtain ⟨claims, hparse, hclaims⟩ := hjwt.inverts _ _ _ (middlewareKey s.jwtSecret) now hsigned
      rfl (current_accessClaims hnow)
    exact auth_eq_next.mpr ⟨tokenStr, claims, rfl, hparse, (hclaims "sub" userID rfl).symm,
      (hclaims "role" role rfl).symm⟩

/-! ## A sample of the package -/

instance encodableChar : Encodable Char :=
  Encodable.ofLeftInjection Char.toNat (fun n => some (Char.ofNat n)) fun c => by
    rw [Char.ofNat_toNat]

instance encodableString : Encodable String :=
  Encodable.ofLeftInjection String.toList (fun cs => some (String.ofList cs)) fun s => by
    rw [String.ofList_toList]

instance encodableUInt8 : Encodable UInt8 :=
  Encodable.ofLeftInjection UInt8.toNat (fun n => some (UInt8.ofNat n)) fun b => by
    rw [UInt8.ofNat_toNat]

/-- A claim as the number of its kind, a number and a text. -/
def flatten : Value → ℕ × ℚ × String
  | .null => (0, 0, "")
  | .string s => (1, 0, s)
  | .number x => (2, x, "")
  | .other json => (3, 0, json)

instance encodableValue : Encodable Value :=
  Encodable.ofLeftInjection flatten
    (fun
      | (0, _, _) => some .null
      | (1, _, s) => some (.string s)
      | (2, x, _) => some (.number x)
      | (_, _, json) => some (.other json))
    fun v => by cases v <;> rfl

/-- Tokens with an expiry of an hour. -/
def sampleConfig : Config := ⟨ascii "secret", 3600000000000⟩

/-- A moment and the next microsecond. -/
def sampleReadings : Readings := ⟨1700000000000000000, 1700000000000001000⟩

/-- The claims of a token for the user `"u1"` with the role `"creator"`, and the secret. -/
def sampleInput : MapClaims × Bytes :=
  (accessClaims sampleConfig sampleReadings "u1" "creator", ascii "secret")

/-- The token HS256 gives for them: header, claims and signature, with dots between them. -/
def sampleToken : Bytes :=
  ascii "eyJhbGciOiJIUzI1NiIsInR5cCI6IkpXVCJ9" ++ 0x2e ::
    (ascii ("eyJleHAiOjE3MDAwMDM2MDAsImlhdCI6MTcwMDAwMDAwMCwicm9sZSI6ImNyZWF0b3Ii" ++
      "LCJzdWIiOiJ1MSIsInR5cGUiOiJhY2Nlc3MifQ") ++
      0x2e :: ascii "5bw-SUp0Xbxh0NUFaBI1XM_XNjI35XUWiOznS3cxLH0")

/-- Signing: the token for these claims and this secret, and a string of zeros for all others. -/
def sampleSign (p : MapClaims × Bytes) : Bytes :=
  if p = sampleInput then sampleToken else List.replicate (Encodable.encode p) 0

/-- The claims and the key a token was signed with. -/
def sampleInvert (tokenStr : Bytes) : Option (MapClaims × Bytes) :=
  if tokenStr = sampleToken then some sampleInput else Encodable.decode tokenStr.length

theorem sampleInvert_sign (p : MapClaims × Bytes) : sampleInvert (sampleSign p) = some p := by
  unfold sampleSign
  split
  · next hp => rw [sampleInvert, if_pos rfl, hp]
  · have hne : List.replicate (Encodable.encode p) 0 ≠ sampleToken := by
      intro h
      have hdot : (0x2e : UInt8) ∈ List.replicate (Encodable.encode p) 0 :=
        h ▸ List.mem_append_right _ List.mem_cons_self
      exact absurd (List.eq_of_mem_replicate hdot) (by decide)
    rw [sampleInvert, if_neg hne, List.length_replicate, Encodable.encodek]

/-- A package with the sample token. -/
def sampleJwt : Library String where
  signedString _ claims key := .ok (sampleSign (claims, key))
  parse tokenStr f now :=
    match sampleInvert tokenStr, f hs256 with
    | none, _ => .error "token is malformed"
    | some _, .error e => .error ("token is unverifiable: error while executing keyfunc: " ++ e)
    | some (claims, key), .ok key' =>
        if key' ≠ key then .error "token signature is invalid: signature is invalid"
        else if Current claims now then .ok ⟨true, .map claims⟩
        else .error "token has invalid claims: token is expired"

theorem documented_sampleJwt : Documented sampleJwt where
  keyfunc tokenStr f g now t hkeys h := by
    simp only [sampleJwt] at h ⊢
    cases hinvert : sampleInvert tokenStr with
    | none => simp [hinvert] at h
    | some p =>
        cases hf : f hs256 with
        | error e => simp [hinvert, hf] at h
        | ok key =>
            rw [(hkeys hs256 key).mp hf]
            rw [hinvert, hf] at h
            exact h
  signs claims key := ⟨_, rfl⟩
  inverts claims key tokenStr f now hsigned hkey hcurrent := by
    obtain rfl := Except.ok.inj hsigned
    refine ⟨claims, ?_, fun name s h => h⟩
    simp only [sampleJwt, sampleInvert_sign, hkey, ne_eq, not_true_eq_false, if_false,
      if_pos hcurrent]

/-- The statement for this package: the sample token is let through a minute later. -/
theorem validators_agree_sample :
    generateToken sampleJwt sampleConfig sampleReadings "u1" "creator" = .ok sampleToken ∧
    auth sampleJwt sampleConfig.jwtSecret 1700000060000000000 (bearerHeader sampleToken) =
      .next (.string "u1") (.string "creator") := by
  have hsigned : generateToken sampleJwt sampleConfig sampleReadings "u1" "creator" =
      .ok sampleToken := congrArg Except.ok (if_pos rfl)
  obtain ⟨tokenStr, hissued, hthrough⟩ :=
    (validators_agree sampleJwt documented_sampleJwt sampleConfig).2 "u1" "creator" sampleReadings
  obtain rfl := Except.ok.inj (hsigned.symm.trans hissued)
  exact ⟨hsigned, hthrough _ (by decide)⟩

end ReputationPassport.Middleware
