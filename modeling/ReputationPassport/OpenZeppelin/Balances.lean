import Mathlib.Data.Nat.Count
import ReputationPassport.OpenZeppelin.ERC721

/-! # ERC721: a balance counts tokens

`_update` keeps a balance for each owner beside the owners themselves, and changes it without a
check. `Counted n` says that the two agree for a book whose tokens are below `n`: every balance is
the number of tokens of its owner. Moving one token takes one from its old owner and gives one to
its new one (`held_update`), so no balance ever falls below zero or outgrows `n`, and the unchecked
arithmetic is exact (`Counted.move`). -/

namespace OpenZeppelin.ERC721

open Evm

/-- `balanceOf(owner)`; it reverts for the zero address. -/
def balanceOf (t : ERC721) (owner : Address) : Option Nat :=
  if owner = 0 then none else some (t.balances owner)

/-- `tokenURI(tokenId)` of ERC721URIStorage with the empty base URI. -/
def tokenURI (t : ERC721) (tokenId : Nat) : Result Bytes := do
  let _ ← t.ownerOf tokenId
  pure (t.tokenURIs tokenId)

@[simp] theorem tokenURI_eq_ok {t : ERC721} {tokenId : Nat} {uri : Bytes} :
    t.tokenURI tokenId = .ok uri ↔ t.owners tokenId ≠ 0 ∧ t.tokenURIs tokenId = uri := by
  simp only [tokenURI, bind_eq_ok, ownerOf_eq_ok, pure_eq_ok, and_assoc, exists_and_left,
    exists_eq_left']

/-- How many of the tokens below `n` an account owns. -/
def held (owners : Nat → Address) (a : Address) (n : Nat) : Nat := n.count fun id => owners id = a

theorem held_succ (owners : Nat → Address) (a : Address) (n : Nat) :
    held owners a (n + 1) = held owners a n + if owners n = a then 1 else 0 := by
  unfold held
  exact Nat.count_succ _ n

/-- Tokens from `n` on do not count. -/
theorem held_update_of_le {owners : Nat → Address} {a v : Address} {id n : Nat} (h : n ≤ id) :
    held (Function.update owners id v) a n = held owners a n := by
  induction n with
  | zero => rfl
  | succ n ih =>
      have hne : n ≠ id := Nat.ne_of_lt h
      rw [held_succ, held_succ, ih (Nat.le_of_succ_le h), Function.update_of_ne hne]

/-- **One token changes hands**: what its new owner gains its old owner loses. -/
theorem held_update {owners : Nat → Address} {a v : Address} {id n : Nat} (h : id < n) :
    held (Function.update owners id v) a n + (if owners id = a then 1 else 0) =
      held owners a n + if v = a then 1 else 0 := by
  induction n with
  | zero => exact absurd h (Nat.not_lt_zero id)
  | succ n ih =>
      rw [held_succ, held_succ]
      rcases Nat.lt_succ_iff_lt_or_eq.mp h with hlt | rfl
      · rw [Function.update_of_ne (Nat.ne_of_gt hlt)]
        have := ih hlt
        omega
      · rw [held_update_of_le (Nat.le_refl _), Function.update_self]
        omega

/-- An owner holds at least one token, and nobody more than there are. -/
theorem held_pos {owners : Nat → Address} {id n : Nat} (h : id < n) :
    0 < held owners (owners id) n :=
  Nat.pos_of_ne_zero (Nat.count_ne_iff_exists.mpr ⟨id, h, rfl⟩)

theorem held_le (owners : Nat → Address) (a : Address) (n : Nat) : held owners a n ≤ n :=
  Nat.count_le _

/-- **Balances count tokens**, in a book whose tokens are below `n`. -/
structure Counted (t : ERC721) (n : Nat) : Prop where
  below : ∀ id, n ≤ id → t.owners id = 0
  balance : ∀ a, a ≠ 0 → t.balances a = held t.owners a n

variable {t : ERC721} {n : Nat}

/-- Room for one more token. -/
theorem Counted.succ (h : Counted t n) : Counted t (n + 1) where
  below id hid := h.below id (Nat.le_of_succ_le hid)
  balance a ha := by
    rw [held_succ, h.below n (Nat.le_refl n), if_neg (Ne.symm ha), Nat.add_zero, h.balance a ha]

/-- **Moving a token keeps the count.** -/
theorem Counted.move (h : Counted t n) {id : Nat} (hid : id < n) (hn : n < wordSize)
    (to' : Address) : Counted (t.move to' id) n where
  below j hj := by
    have hne : j ≠ id := Nat.ne_of_gt (Nat.lt_of_lt_of_le hid hj)
    rw [move_owners, Function.update_of_ne hne, h.below j hj]
  balance a ha := by
    have hmoved : held (Function.update t.owners id to') a n +
        (if t.owners id = a then 1 else 0) = held t.owners a n + if to' = a then 1 else 0 :=
      held_update hid
    have hbound : held (Function.update t.owners id to') a n ≤ n := held_le _ _ _
    -- the old owner has the token it pays
    have hpaid : (if t.owners id = a then 1 else 0) ≤ held t.owners a n := by
      split
      · next hold =>
        subst hold
        exact held_pos hid
      · exact Nat.zero_le _
    -- so the unchecked subtraction does not wrap around
    have hdebited : (if t.owners id ≠ 0 then Function.update t.balances (t.owners id)
        ((t.balances (t.owners id) + (wordSize - 1)) % wordSize) else t.balances) a =
        held t.owners a n - if t.owners id = a then 1 else 0 := by
      have hbefore : held t.owners a n ≤ n := held_le _ _ _
      by_cases hold : t.owners id = a
      · rw [if_pos hold] at hpaid ⊢
        rw [hold, if_pos ha, Function.update_self, h.balance a ha]
        have hsum : held t.owners a n + (wordSize - 1) = held t.owners a n - 1 + wordSize := by
          omega
        rw [hsum, Nat.add_mod_right, Nat.mod_eq_of_lt (by omega)]
      · rw [if_neg hold, Nat.sub_zero]
        by_cases hzero : t.owners id = 0
        · rw [if_neg (not_not.mpr hzero), h.balance a ha]
        · rw [if_pos hzero, Function.update_of_ne (Ne.symm hold), h.balance a ha]
    rw [move_owners]
    generalize (if t.owners id = a then 1 else 0) = paid at hmoved hpaid hdebited
    unfold ERC721.move
    dsimp only
    by_cases hnew : to' = a
    · subst hnew
      rw [if_pos ha, Function.update_self, hdebited]
      rw [if_pos rfl] at hmoved
      -- nor does the addition, as nobody holds more than all tokens
      have hcredited : held t.owners to' n - paid + 1 =
          held (Function.update t.owners id to') to' n := by
        omega
      rw [hcredited, Nat.mod_eq_of_lt (Nat.lt_of_le_of_lt hbound hn)]
    · rw [if_neg hnew] at hmoved
      have hsame : held t.owners a n - paid = held (Function.update t.owners id to') a n := by
        omega
      by_cases hzero : to' = 0
      · rw [if_neg (not_not.mpr hzero), hdebited, hsame]
      · rw [if_pos hzero, Function.update_of_ne (Ne.symm hnew), hdebited, hsame]

end OpenZeppelin.ERC721
