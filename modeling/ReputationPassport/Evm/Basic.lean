import Mathlib.Algebra.Group.Nat.Defs
import Mathlib.Order.Basic
import Mathlib.Logic.Function.Basic
import ReputationPassport.Machine.Fallible

/-! # Words, blocks and reverts of the EVM

The vocabulary the contract models share. Addresses and `bytes32` values are bit vectors of their
width. A `uint256` is a natural number, and the arithmetic that Solidity 0.8 checks is checked
here too (`checkedAdd`, `checkedSub`); a block carries the bounds of its two numbers as fields.
`string` and `bytes` are both byte sequences: nothing in the EVM checks that a string is UTF-8.

A function body is a computation in `Except (Revert ε)`: it either reverts, and then the state it
computed is discarded with it, or returns. The lemmas `require_eq_ok` and `checkedAdd_eq_ok` peel a
successful body apart, with those of `Machine.Fallible`. -/

namespace Evm

/-- A 20-byte account address. -/
abbrev Address : Type := BitVec 160

/-- An account that can send a message. No transaction and no message call has the zero address as
its sender. -/
abbrev Account : Type := { a : Address // a ≠ 0 }

/-- A `bytes32` value. -/
abbrev Bytes32 : Type := BitVec 256

/-- A `bytes` or `string` value. -/
abbrev Bytes : Type := List UInt8

/-- The number of `uint256` values. -/
abbrev wordSize : Nat := 2 ^ 256

/-- The part of the block context that the contracts read: `block.timestamp` and
`block.number`, both words. -/
@[ext] structure Block where
  timestamp : Nat
  number : Nat
  timestamp_lt : timestamp < wordSize
  number_lt : number < wordSize
  deriving DecidableEq

/-- Blocks are ordered by both readings: neither ever decreases along a chain. -/
instance : Preorder Block where
  le b c := b.timestamp ≤ c.timestamp ∧ b.number ≤ c.number
  le_refl b := ⟨Nat.le_refl b.timestamp, Nat.le_refl b.number⟩
  le_trans _ _ _ h k := ⟨Nat.le_trans h.1 k.1, Nat.le_trans h.2 k.2⟩

theorem Block.le_def {b c : Block} :
    b ≤ c ↔ b.timestamp ≤ c.timestamp ∧ b.number ≤ c.number := Iff.rfl

instance (b c : Block) : Decidable (b ≤ c) := decidable_of_iff _ Block.le_def.symm

/-- The account whose address is a given small number, for runs on fixed inputs. -/
def acct (n : Nat) : Account :=
  if h : BitVec.ofNat 160 n ≠ 0 then ⟨BitVec.ofNat 160 n, h⟩ else ⟨1, by decide⟩

/-- The block with the given time and number, for runs on fixed inputs. -/
def blockAt (timestamp number : Nat) : Block where
  timestamp := timestamp % wordSize
  number := number % wordSize
  timestamp_lt := Nat.mod_lt _ (by decide)
  number_lt := Nat.mod_lt _ (by decide)

/-- A message call: who sends it and which function it calls. -/
structure Message (φ : Type) where
  sender : Account
  fn : φ

/-! ## Reverts -/

/-- Why a call reverted: a `require` with its message, a Solidity panic with its code, or a custom
error of the library `ε`. -/
inductive Revert (ε : Type) where
  | reason (message : String)
  | panic (code : Nat)
  | custom (error : ε)
  deriving DecidableEq

export Machine (bind_eq_ok bind_eq_error map_eq_ok pure_eq_ok isError_iff)

variable {ε : Type}

/-- `require(p, message)`. -/
def require (p : Prop) [Decidable p] (message : String) : Except (Revert ε) Unit :=
  if p then .ok () else .error (.reason message)

/-- Checked addition of two words. -/
def checkedAdd (a b : Nat) : Except (Revert ε) Nat :=
  if a + b < wordSize then .ok (a + b) else .error (.panic 0x11)

/-- Checked subtraction of two words. -/
def checkedSub (a b : Nat) : Except (Revert ε) Nat :=
  if b ≤ a then .ok (a - b) else .error (.panic 0x11)

/-- A `require` passes exactly when its condition holds. -/
@[simp] theorem require_eq_ok {p : Prop} [Decidable p] {m : String} {u : Unit} :
    (require p m : Except (Revert ε) Unit) = .ok u ↔ p := by
  unfold require; split <;> simp_all

/-- A checked addition succeeds exactly when the sum is a word, and returns the sum. -/
@[simp] theorem checkedAdd_eq_ok {a b c : Nat} :
    (checkedAdd a b : Except (Revert ε) Nat) = .ok c ↔ a + b < wordSize ∧ a + b = c := by
  by_cases h : a + b < wordSize
  · rw [checkedAdd, if_pos h, Except.ok.injEq, and_iff_right h]
  · rw [checkedAdd, if_neg h]
    simp [h]

end Evm
