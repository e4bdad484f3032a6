import Mathlib.Analysis.Real.Sqrt
import Mathlib.Data.List.Infix
import ReputationPassport.Numeric.Arithmetic
import ReputationPassport.Numeric.Statistics

/-! # The reputation analytics

`ReputationAnalytics.jl`. `analyze_reputation` summarises the scores of a request. These are the
members of a JSON object whose names contain "score", taken in the order in which a `Dict` happens
to be iterated. The service computes with exact numbers here, so that order does not matter.

A quotient by zero is a number that is not finite, which JSON shows as `null`: the deviation of a
single score is one. -/

namespace ReputationPassport.ReputationAnalytics

open Numeric

variable {K : Type*} [Field K] [LinearOrder K] [FloorRing K]

/-- What `analyze_reputation` answers. -/
structure Analysis (K : Type*) where
  mean : K
  median : K
  std : Option K
  min : K
  max : K
  n : Nat

/-- A value of a parsed JSON object. -/
inductive Value (K : Type*) where
  | int (n : Int)
  | float (x : K)
  | string (s : String)
  | other

/-- A parsed JSON object, in the order in which the `Dict` is iterated. -/
abbrev Body (K : Type*) : Type _ := List (String × Value K)

/-- `get(body, name, default)`. -/
def Body.get (body : Body K) (name : String) (default : Value K) : Value K :=
  ((body.find? fun p => p.1 = name).map Prod.snd).getD default

/-- `parse(Float64, string(v))`, where `parseText` reads a text. -/
def Value.parse (parseText : String → Option K) : Value K → Option K
  | .int n => some n
  | .float x => some x
  | .string s => parseText s
  | .other => none

/-- `occursin(needle, haystack)`. -/
def occursin (needle haystack : String) : Bool := decide (needle.toList <:+: haystack.toList)

/-- The comprehension over the body; one value that is not a number is enough for it to fail. -/
def scores (parseText : String → Option K) (body : Body K) : Option (List K) :=
  (body.filter fun p => occursin "score" p.1).mapM fun p => p.2.parse parseText

/-- A request: its method, its path, and what `JSON.parse` makes of its body, if that is an
object. -/
structure Request (K : Type*) where
  method : String
  path : List String
  body : Option (Body K)

/-- The bodies of the answers. -/
inductive Answer (K : Type*) where
  | health
  | analysis (result : Analysis K)
  | bayesian (score : Option K)
  | error (text : String)

section Inversion

variable {sqrt : K → K} {parseText : String → Option K} {request : Request K} {status : Nat}

end Inversion

/-! ## In any order -/

section Members

variable {K : Type*} {body body' : Body K}

end Members

variable {sqrt : K → K} {parseText : String → Option K} {body body' : Body K} {xs ys : List K}

/-- The answers to an analysis fit together: the mean and the median lie between the extremes; only
a single score has no deviation; and the deviation is not negative and exceeds their distance at
most by what is lost in rounding. -/
structure Consistent (a : Analysis ℝ) : Prop where
  mean : a.mean ∈ Set.Icc a.min a.max
  median : a.median ∈ Set.Icc a.min a.max
  undefined_iff : a.std = none ↔ a.n = 1
  std : ∀ s, a.std = some s → s ∈ Set.Icc 0 (a.max - a.min + 1 / 10000)

end ReputationPassport.ReputationAnalytics
