import Mathlib.Data.List.Perm.Basic
import Mathlib.Order.Lattice

/-! # Reading a table page by page

A query that sorts leaves open how it arranges rows with the same sorting key, and every statement
may arrange them anew. Pages that are read by separate statements therefore fit together only if
the keys tell the rows apart (`flatMap_page_of_distinct`): then there is one arrangement
(`Arranged.unique`), and its pages are its consecutive parts (`flatMap_page`). -/

namespace Sql

variable {α T : Type*}

/-- `LIMIT limit OFFSET offset`. -/
def page (limit offset : Nat) (rows : List α) : List α := (rows.drop offset).take limit

/-- **The first pages of a list** are its first elements. -/
theorem flatMap_page (n : Nat) (rows : List α) (k : Nat) :
    ((List.range k).flatMap fun i => page n (i * n) rows) = rows.take (k * n) := by
  induction k with
  | zero => simp
  | succ k ih =>
      rw [List.range_succ, List.flatMap_append, ih, List.flatMap_singleton, page, Nat.succ_mul,
        List.take_add]

variable [LinearOrder T] {key : α → T} {rows rows' l l' : List α}

/-- The rows in the order of a query that sorts them, greatest key first. -/
structure Arranged (key : α → T) (rows l : List α) : Prop where
  perm : l.Perm rows
  sorted : l.Pairwise fun a b => key b ≤ key a

/-- **Keys that tell the rows apart leave one arrangement.** -/
theorem Arranged.unique (h : Arranged key rows l) (h' : Arranged key rows l')
    (hdistinct : ∀ a ∈ rows, ∀ b ∈ rows, key a = key b → a = b) : l = l' := by
  refine List.Perm.eq_of_pairwise ?_ h.sorted h'.sorted (h.perm.trans h'.perm.symm)
  intro a b ha hb hab hba
  exact hdistinct a (h.perm.mem_iff.mp ha) b (h'.perm.mem_iff.mp hb) (le_antisymm hba hab)

/-- **Pages of separate statements fit together** when the keys tell the rows apart: enough of them
list the rows in their order. -/
theorem flatMap_page_of_distinct {ls : Nat → List α} (h : ∀ i, Arranged key rows (ls i))
    (hdistinct : ∀ a ∈ rows, ∀ b ∈ rows, key a = key b → a = b) {n k : Nat}
    (hk : rows.length ≤ k * n) :
    ((List.range k).flatMap fun i => page n (i * n) (ls i)) = ls 0 := by
  have hsame : ls = fun _ => ls 0 := funext fun i => (h i).unique (h 0) hdistinct
  have hlength : (ls 0).length ≤ k * n := (h 0).perm.length_eq ▸ hk
  rw [hsame, flatMap_page, List.take_of_length_le hlength]

end Sql
