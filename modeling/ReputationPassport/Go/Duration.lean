import Mathlib.Algebra.Order.Ring.Nat
import Mathlib.Data.List.TakeWhile
import ReputationPassport.Go.Strings

/-! # Numbers and durations in Go

`strconv.Atoi` and `time.ParseDuration`. A duration is a sequence of numbers with units, and only
zero may stand without one; so a text of digits alone is refused (`parseDuration_digits`), and a
text of digits with a unit behind them is their value times the unit
(`parseDuration_digits_unit`). -/

namespace Go

/-- An ASCII digit. -/
def isDigit (c : UInt8) : Bool := 0x30 ≤ c && c ≤ 0x39

/-- The value of a digit. -/
def digitValue (c : UInt8) : Nat := c.toNat - 0x30

/-- The value of a text of digits, after a number. -/
def digitsValue (x : Nat) (s : Bytes) : Nat := s.foldl (fun x c => x * 10 + digitValue c) x

@[simp] theorem digitsValue_nil (x : Nat) : digitsValue x [] = x := rfl

@[simp] theorem digitsValue_cons (x : Nat) (c : UInt8) (s : Bytes) :
    digitsValue x (c :: s) = digitsValue (x * 10 + digitValue c) s := by
  simp only [digitsValue, List.foldl_cons]

/-- A sign, if there is one, and the rest. -/
def takeSign : Bytes → Bool × Bytes
  | 0x2d :: s => (true, s)
  | 0x2b :: s => (false, s)
  | s => (false, s)

/-- `strconv.Atoi`, for an `int` of 64 bits. -/
def atoi (s : Bytes) : Option Int :=
  let (neg, digits) := takeSign s
  if digits = [] ∨ digits.all isDigit = false then none
  else
    let n := digitsValue 0 digits
    if neg then if n ≤ 2 ^ 63 then some (-n) else none
    else if n < 2 ^ 63 then some n else none

/-! ## Durations -/

/-- Why `time.ParseDuration` refuses a text. -/
inductive DurationError where
  | invalid
  | missingUnit
  | unknownUnit (unit : Bytes)
  deriving DecidableEq

/-- `leadingInt`: the leading digits, read after a number, and the rest; none if the number gets
beyond `1 << 63`. -/
def leadingInt (x : Nat) : Bytes → Option (Nat × Bytes)
  | [] => some (x, [])
  | c :: s =>
      if isDigit c = false then some (x, c :: s)
      else if x > 2 ^ 63 / 10 then none
      else
        let x := x * 10 + digitValue c
        if x > 2 ^ 63 then none else leadingInt x s

/-- `leadingFraction`: the leading digits as a number with a scale, and the rest. Digits beyond what
fits are passed over. -/
def leadingFraction (x : Nat) (scale : Float) (overflow : Bool) : Bytes → Nat × Float × Bytes
  | [] => (x, scale, [])
  | c :: s =>
      if isDigit c = false then (x, scale, c :: s)
      else if overflow then leadingFraction x scale true s
      else if x > (2 ^ 63 - 1) / 10 then leadingFraction x scale true s
      else
        let y := x * 10 + digitValue c
        if y > 2 ^ 63 then leadingFraction x scale true s
        else leadingFraction y (scale * 10) false s

/-- The period and the digits behind it, if there is one: the number, its scale, whether there were
digits, and the rest. -/
def takeFraction : Bytes → Nat × Float × Bool × Bytes
  | 0x2e :: s =>
      let (f, scale, rest) := leadingFraction 0 1 false s
      (f, scale, decide (rest.length ≠ s.length), rest)
  | s => (0, 1, false, s)

/-- The characters of a unit. -/
def isUnitChar (c : UInt8) : Bool := !(c == 0x2e || isDigit c)

/-- `unitMap`: the units in nanoseconds. -/
def unitMap : List (Bytes × Nat) :=
  [(ascii "ns", 1),
    (ascii "us", 1000),
    -- U+00B5 and U+03BC
    ([0xc2, 0xb5, 0x73], 1000),
    ([0xce, 0xbc, 0x73], 1000),
    (ascii "ms", 1000000),
    (ascii "s", 1000000000),
    (ascii "m", 60000000000),
    (ascii "h", 3600000000000)]

/-- What the fraction of a number adds to it, in nanoseconds. -/
def fractionOf (f : Nat) (scale : Float) (size : Nat) : Nat :=
  if f > 0 then (Float.ofNat f * (Float.ofNat size / scale)).toUInt64.toNat else 0

/-- One number with its unit, in nanoseconds, and the rest: a pass of the loop of
`time.ParseDuration`. -/
def parseTerm (s : Bytes) : Except DurationError (Nat × Bytes) :=
  match leadingInt 0 s with
  | none => .error .invalid
  | some (v, afterInt) =>
      let (f, scale, post, afterFraction) := takeFraction afterInt
      if afterInt.length = s.length ∧ post = false then .error .invalid
      else
        let unit := afterFraction.takeWhile isUnitChar
        if unit = [] then .error .missingUnit
        else
          match unitMap.lookup unit with
          | none => .error (.unknownUnit unit)
          | some size =>
              if v > 2 ^ 63 / size then .error .invalid
              else if v * size + fractionOf f scale size > 2 ^ 63 then .error .invalid
              else .ok (v * size + fractionOf f scale size, afterFraction.dropWhile isUnitChar)

/-! ## What is left of a text -/

variable {s rest : Bytes} {x v : Nat}

theorem length_leadingInt_le (h : leadingInt x s = some (v, rest)) : rest.length ≤ s.length := by
  induction s generalizing x with
  | nil =>
      obtain ⟨-, rfl⟩ := Prod.mk.inj (Option.some.inj h)
      exact Nat.le_refl _
  | cons c s ih =>
      rw [leadingInt] at h
      split at h
      · obtain ⟨-, rfl⟩ := Prod.mk.inj (Option.some.inj h)
        exact Nat.le_refl _
      · split at h
        · cases h
        · dsimp only at h
          split at h
          · cases h
          · exact Nat.le_succ_of_le (ih h)

theorem length_leadingFraction_le (x : Nat) (scale : Float) (overflow : Bool) (s : Bytes) :
    (leadingFraction x scale overflow s).2.2.length ≤ s.length := by
  induction s generalizing x scale overflow with
  | nil => exact Nat.le_refl _
  | cons c s ih =>
      rw [leadingFraction]
      dsimp only
      split
      · exact Nat.le_refl _
      · split
        · exact Nat.le_succ_of_le (ih _ _ _)
        · split
          · exact Nat.le_succ_of_le (ih _ _ _)
          · split <;> exact Nat.le_succ_of_le (ih _ _ _)

theorem length_takeFraction_le (s : Bytes) : (takeFraction s).2.2.2.length ≤ s.length := by
  unfold takeFraction
  split
  · exact Nat.le_succ_of_le (length_leadingFraction_le 0 1 false _)
  · exact Nat.le_refl _

/-- A pass of the loop consumes a unit, at least. -/
theorem length_lt_of_parseTerm (h : parseTerm s = .ok (v, rest)) : rest.length < s.length := by
  unfold parseTerm at h
  split at h
  · cases h
  · next n afterInt hint =>
    have hafter := Nat.le_trans (length_takeFraction_le afterInt) (length_leadingInt_le hint)
    generalize takeFraction afterInt = parts at h hafter
    obtain ⟨f, scale, post, afterFraction⟩ := parts
    dsimp only at h hafter
    split at h
    · cases h
    · split at h
      · cases h
      · next hunit =>
        -- the unit is not empty here, and all branches but the last refuse the text
        have hsplit : (afterFraction.takeWhile isUnitChar).length +
            (afterFraction.dropWhile isUnitChar).length = afterFraction.length := by
          rw [← List.length_append, List.takeWhile_append_dropWhile]
        have hpos := List.length_pos_iff.mpr hunit
        split at h
        · cases h
        · split at h
          · cases h
          · split at h
            · cases h
            · obtain ⟨-, rfl⟩ := Prod.mk.inj (Except.ok.inj h)
              omega

/-- The loop of `time.ParseDuration`, over `uint64`. -/
def parseTerms (d : Nat) (s : Bytes) : Except DurationError Nat :=
  if s = [] then .ok d
  else
    match _h : parseTerm s with
    | .error e => .error e
    | .ok (v, rest) =>
        let d := (d + v) % 2 ^ 64
        if d > 2 ^ 63 then .error .invalid else parseTerms d rest
  termination_by s.length
  decreasing_by exact length_lt_of_parseTerm _h

/-- `time.ParseDuration`: a duration in nanoseconds. -/
def parseDuration (s : Bytes) : Except DurationError Int :=
  let (neg, s) := takeSign s
  if s = [0x30] then .ok 0
  else if s = [] then .error .invalid
  else
    match parseTerms 0 s with
    | .error e => .error e
    | .ok d =>
        if neg then .ok (-d)
        else if d > 2 ^ 63 - 1 then .error .invalid
        else .ok d

/-- The loop ends with the error of a term. -/
theorem parseTerms_of_error {d : Nat} {e : DurationError} (hne : s ≠ [])
    (h : parseTerm s = .error e) : parseTerms d s = .error e := by
  rw [parseTerms, if_neg hne]
  split
  · next e' he' => rw [← Except.error.inj (h.symm.trans he')]
  · next v rest hok =>
    rw [h] at hok
    cases hok

/-- The loop adds a term to what it has. -/
theorem parseTerms_of_ok {d : Nat} (hne : s ≠ []) (h : parseTerm s = .ok (v, rest)) :
    parseTerms d s =
      if (d + v) % 2 ^ 64 > 2 ^ 63 then .error .invalid
      else parseTerms ((d + v) % 2 ^ 64) rest := by
  rw [parseTerms, if_neg hne]
  split
  · next e he =>
    rw [h] at he
    cases he
  · next v' rest' hok =>
    obtain ⟨rfl, rfl⟩ := Prod.mk.inj (Except.ok.inj (h.symm.trans hok))
    rfl

/-! ## Texts of digits -/

/-- A number in decimal. -/
def decimal (n : Nat) : Bytes := ascii (toString n)

/-- The text of a digit is a digit of the same value. -/
theorem digit_of_isDigit {c : Char} (h : c.isDigit = true) :
    isDigit c.toNat.toUInt8 = true ∧ digitValue c.toNat.toUInt8 = c.toNat - '0'.toNat := by
  obtain ⟨hlo, hhi⟩ := Char.isDigit_iff_toNat.mp h
  change 48 ≤ c.toNat at hlo
  change c.toNat ≤ 57 at hhi
  have hbyte : c.toNat.toUInt8.toNat = c.toNat := by
    rw [Nat.toUInt8_eq, UInt8.toNat_ofNat']
    exact Nat.mod_eq_of_lt (by omega)
  constructor
  · simp only [isDigit, Bool.and_eq_true, decide_eq_true_eq, UInt8.le_iff_toNat_le, hbyte]
    exact ⟨hlo, hhi⟩
  · rw [digitValue, hbyte]
    rfl

/-- The value of the digits of a text. -/
theorem digitsValue_map {cs : List Char} (h : ∀ c ∈ cs, c.isDigit = true) (x : Nat) :
    digitsValue x (cs.map fun c => c.toNat.toUInt8) = Nat.ofDigitChars 10 cs x := by
  induction cs generalizing x with
  | nil => rfl
  | cons c cs ih =>
      obtain ⟨hc, hcs⟩ := List.forall_mem_cons.mp h
      rw [List.map_cons, digitsValue_cons, ih hcs, (digit_of_isDigit hc).2, Nat.ofDigitChars_cons,
        Nat.mul_comm]

theorem decimal_eq (n : Nat) :
    decimal n = (Nat.toDigits 10 n).map fun c => c.toNat.toUInt8 := by
  rw [decimal, ascii, Nat.toString_eq_repr, Nat.toList_repr]

theorem isDigit_of_mem_decimal {n : Nat} {c : UInt8} (h : c ∈ decimal n) : isDigit c = true := by
  rw [decimal_eq, List.mem_map] at h
  obtain ⟨d, hd, rfl⟩ := h
  exact (digit_of_isDigit (Nat.isDigit_of_mem_toDigits (by decide) (by decide) hd)).1

theorem decimal_ne_nil (n : Nat) : decimal n ≠ [] := by
  rw [decimal_eq, ne_eq, List.map_eq_nil_iff]
  exact Nat.toDigits_ne_nil

/-- **A number is the value of its decimal text.** -/
@[simp] theorem digitsValue_decimal (n : Nat) : digitsValue 0 (decimal n) = n := by
  rw [decimal_eq, digitsValue_map, Nat.ofDigitChars_ten_toDigits]
  exact fun c hc => Nat.isDigit_of_mem_toDigits (by decide) (by decide) hc

/-! ## Texts without a unit -/

/-- All characters are digits. -/
def AllDigits (s : Bytes) : Prop := ∀ c ∈ s, isDigit c = true

theorem allDigits_decimal (n : Nat) : AllDigits (decimal n) := fun _ hc => isDigit_of_mem_decimal hc

/-- A text of digits is read to its end. -/
theorem leadingInt_digits (hs : AllDigits s) :
    leadingInt x s = none ∨ ∃ v, leadingInt x s = some (v, []) := by
  induction s generalizing x with
  | nil => exact Or.inr ⟨x, rfl⟩
  | cons c s ih =>
      obtain ⟨hc, hs⟩ := List.forall_mem_cons.mp hs
      rw [leadingInt, if_neg (by simp [hc])]
      dsimp only
      split
      · exact Or.inl rfl
      · split
        · exact Or.inl rfl
        · exact ih hs

/-- A text that begins with digits has no sign. -/
theorem takeSign_append (hs : AllDigits s) (hne : s ≠ []) :
    takeSign (s ++ rest) = (false, s ++ rest) := by
  obtain ⟨c, digits, rfl⟩ := List.exists_cons_of_ne_nil hne
  have hc := hs c List.mem_cons_self
  rw [List.cons_append]
  unfold takeSign
  split
  · next heq =>
    obtain ⟨rfl, -⟩ := List.cons.inj heq
    exact absurd hc (by decide)
  · next heq =>
    obtain ⟨rfl, -⟩ := List.cons.inj heq
    exact absurd hc (by decide)
  · rfl

/-- Digits without a unit are no term. -/
theorem parseTerm_digits (hs : AllDigits s) : ∃ e, parseTerm s = .error e := by
  unfold parseTerm
  rcases leadingInt_digits (x := 0) hs with hnone | ⟨v, hv⟩
  · rw [hnone]
    exact ⟨_, rfl⟩
  · rw [hv]
    dsimp only [takeFraction]
    split
    · exact ⟨_, rfl⟩
    · exact ⟨.missingUnit, rfl⟩

/-- **A number without a unit is refused**, zero aside. -/
theorem parseDuration_digits (hs : AllDigits s) (hne : s ≠ []) (hzero : s ≠ [0x30]) :
    ∃ e, parseDuration s = .error e := by
  obtain ⟨e, he⟩ := parseTerm_digits hs
  refine ⟨e, ?_⟩
  have hsign : takeSign s = (false, s) := by
    have happend : takeSign (s ++ []) = (false, s ++ []) := takeSign_append hs hne
    rwa [List.append_nil] at happend
  rw [parseDuration, hsign]
  simp only [if_neg hzero, if_neg hne, parseTerms_of_error hne he]

/-- The decimal text of a positive number is refused. -/
theorem parseDuration_decimal {n : Nat} (hn : 0 < n) :
    ∃ e, parseDuration (decimal n) = .error e := by
  refine parseDuration_digits (allDigits_decimal n) (decimal_ne_nil n) fun hzero => ?_
  have hvalue := digitsValue_decimal n
  rw [hzero] at hvalue
  exact absurd hvalue (Nat.ne_of_lt hn)

/-! ## Texts with a unit -/

theorem le_digitsValue (x : Nat) (s : Bytes) : x ≤ digitsValue x s := by
  induction s generalizing x with
  | nil => exact Nat.le_refl x
  | cons c s ih =>
      have hx : x ≤ x * 10 + digitValue c := by omega
      exact Nat.le_trans hx (ih _)

/-- Digits are read up to the first character that is none. -/
theorem leadingInt_append (hs : AllDigits s) (hfits : digitsValue x s ≤ 2 ^ 63)
    (hrest : ∀ c ∈ rest.head?, isDigit c = false) :
    leadingInt x (s ++ rest) = some (digitsValue x s, rest) := by
  induction s generalizing x with
  | nil =>
      cases rest with
      | nil => rfl
      | cons c rest => rw [List.nil_append, leadingInt, if_pos (hrest c rfl), digitsValue_nil]
  | cons c s ih =>
      obtain ⟨hc, hs⟩ := List.forall_mem_cons.mp hs
      -- the number read so far is at most the whole
      rw [digitsValue_cons] at hfits ⊢
      have hnext : x * 10 + digitValue c ≤ 2 ^ 63 := Nat.le_trans (le_digitsValue _ s) hfits
      rw [List.cons_append, leadingInt, if_neg (by simp [hc]), if_neg (by omega)]
      dsimp only
      rw [if_neg (Nat.not_lt.mpr hnext)]
      exact ih hs hfits

/-- What the loop uses of a unit. -/
theorem unit_spec : ∀ p ∈ unitMap, p.1 ≠ [] ∧ (∀ c ∈ p.1, isUnitChar c = true) ∧
    unitMap.lookup p.1 = some p.2 ∧ 0 < p.2 := by
  decide +kernel

/-- A unit has no fraction before it. -/
theorem takeFraction_of_isUnitChar (hs : ∀ c ∈ s, isUnitChar c = true) :
    takeFraction s = (0, 1, false, s) := by
  unfold takeFraction
  split
  · exact absurd (hs _ List.mem_cons_self) (by decide)
  · rfl

/-- **Digits and a unit are a term**, and nothing is left. -/
theorem parseTerm_unit {unit : Bytes} {size : Nat} (hunit : (unit, size) ∈ unitMap)
    (hs : AllDigits s) (hne : s ≠ []) (hfits : digitsValue 0 s * size ≤ 2 ^ 63) :
    parseTerm (s ++ unit) = .ok (digitsValue 0 s * size, []) := by
  obtain ⟨hunitne, hchars, hlookup, hsize⟩ := unit_spec _ hunit
  have hvalue : digitsValue 0 s ≤ 2 ^ 63 / size := (Nat.le_div_iff_mul_le hsize).mpr hfits
  have hhead : ∀ c ∈ unit.head?, isDigit c = false := by
    intro c hc
    have hchar := hchars c (List.mem_of_mem_head? hc)
    simp only [isUnitChar, Bool.not_eq_true', Bool.or_eq_false_iff] at hchar
    exact hchar.2
  have hint := leadingInt_append hs (Nat.le_trans hvalue (Nat.div_le_self _ _)) hhead
  have hconsumed : unit.length ≠ (s ++ unit).length := by
    have hpos := List.length_pos_iff.mpr hne
    rw [List.length_append]
    omega
  have hall : unit.takeWhile isUnitChar = unit := List.takeWhile_eq_self_iff.mpr hchars
  have hnothing : unit.dropWhile isUnitChar = [] := List.dropWhile_eq_nil_iff.mpr hchars
  unfold parseTerm
  simp only [hint, takeFraction_of_isUnitChar hchars, hconsumed, false_and, if_false, hall,
    hunitne, hlookup, Nat.not_lt.mpr hvalue, fractionOf, Nat.lt_irrefl, Nat.add_zero,
    Nat.not_lt.mpr hfits, hnothing]

/-- **A number with a unit is a duration** of that many units, if it fits. -/
theorem parseDuration_digits_unit {unit : Bytes} {size : Nat} (hunit : (unit, size) ∈ unitMap)
    (hs : AllDigits s) (hne : s ≠ []) (hfits : digitsValue 0 s * size < 2 ^ 63) :
    parseDuration (s ++ unit) = .ok (digitsValue 0 s * size) := by
  have hpos : 0 < unit.length := List.length_pos_iff.mpr (unit_spec _ hunit).1
  have hdigits : 0 < s.length := List.length_pos_iff.mpr hne
  have hnotzero : s ++ unit ≠ [0x30] := by
    intro h
    have hlen := congrArg List.length h
    rw [List.length_append, List.length_singleton] at hlen
    omega
  have hnotempty : s ++ unit ≠ [] := List.append_ne_nil_of_left_ne_nil hne unit
  have hterms : parseTerms 0 (s ++ unit) = .ok (digitsValue 0 s * size) := by
    have hterm := parseTerm_unit hunit hs hne (Nat.le_of_lt hfits)
    have hsum : (0 + digitsValue 0 s * size) % 2 ^ 64 = digitsValue 0 s * size := by omega
    rw [parseTerms_of_ok hnotempty hterm, hsum, if_neg (by omega), parseTerms, if_pos rfl]
  rw [parseDuration, takeSign_append hs hne]
  simp only [if_neg hnotzero, if_neg hnotempty, hterms, Bool.false_eq_true, if_false]
  rw [if_neg (by omega)]
  push_cast
  rfl

end Go
