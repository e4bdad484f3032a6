import Mathlib.Algebra.Order.Ring.Rat
import ReputationPassport.Go.Strings

/-! # JSON web tokens

What the program uses of the package `golang-jwt`: parsing a token with a key function, and signing
claims. The package is a parameter (`Library`); `Documented` is what it promises of the two.

Times are in nanoseconds, the numeric dates of a token in seconds. -/

namespace Jwt

open Go

/-- The kinds of signing methods. -/
inductive SigningMethod where
  | hmac
  | rsa
  | rsaPSS
  | ecdsa
  | ed25519
  | none
  deriving DecidableEq

/-- What a key function reads of a token: `Method`, and the text of `Header["alg"]`. -/
structure Header where
  method : SigningMethod
  alg : String
  deriving DecidableEq

/-- The header of `jwt.SigningMethodHS256`. -/
def hs256 : Header := ⟨.hmac, "HS256"⟩

/-- A claim, as JSON gives it; what is neither a string nor a number is kept as its text. -/
inductive Value where
  | null
  | string (s : String)
  | number (x : ℚ)
  | other (json : String)
  deriving DecidableEq

/-- `jwt.MapClaims`. -/
abbrev MapClaims : Type := List (String × Value)

/-- `claims[name]`: an absent claim is `nil`. -/
def MapClaims.get (claims : MapClaims) (name : String) : Value :=
  (claims.lookup name).getD .null

/-- The interface `jwt.Claims`: a map, or another type that implements it. -/
inductive Claims where
  | map (claims : MapClaims)
  | other

/-- What a caller reads of a parsed token. -/
structure Token where
  valid : Bool
  claims : Claims

/-- `jwt.Keyfunc`: the key to verify with, or the text of an error. -/
abbrev Keyfunc : Type := Header → Except String Bytes

/-- The package. -/
structure Library (ε : Type) where
  /-- `jwt.Parse` at a time. -/
  parse : Bytes → Keyfunc → Int → Except ε Token
  /-- `jwt.NewWithClaims(method, claims).SignedString(key)`. -/
  signedString : Header → MapClaims → Bytes → Except ε Bytes

/-- The claims are those of a token that has not expired, and there is no time before which it is
not valid. -/
def Current (claims : MapClaims) (now : Int) : Prop :=
  (∃ exp : ℚ, claims.get "exp" = .number exp ∧ (now : ℚ) < exp * 1000000000) ∧
    claims.get "nbf" = .null

instance (claims : MapClaims) (now : Int) : Decidable (Current claims now) :=
  decidable_of_iff
    ((match claims.get "exp" with
      | .number exp => decide ((now : ℚ) < exp * 1000000000)
      | _ => false) = true ∧ claims.get "nbf" = .null) <| by
    rw [Current]
    cases claims.get "exp" <;> simp

/-- **What the package promises**: `Parse` depends on the key function only through the key it
returns and whether it errs, signing with HS256 and a key of bytes succeeds, and `Parse` inverts it
for a token that is current. -/
structure Documented {ε : Type} (jwt : Library ε) : Prop where
  keyfunc : ∀ token f g now t, (∀ header key, f header = .ok key ↔ g header = .ok key) →
    jwt.parse token f now = .ok t → jwt.parse token g now = .ok t
  signs : ∀ claims key, ∃ token, jwt.signedString hs256 claims key = .ok token
  inverts : ∀ claims key token f now, jwt.signedString hs256 claims key = .ok token →
    f hs256 = .ok key → Current claims now →
    ∃ parsed : MapClaims, jwt.parse token f now = .ok ⟨true, .map parsed⟩ ∧
      ∀ name s, claims.get name = .string s → parsed.get name = .string s

end Jwt
