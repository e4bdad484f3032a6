import Mathlib.Data.List.DropRight

/-! # Reading a history

A storage slot that some calls write holds what the last of them wrote. For a reading `f`, which
says of a call what it writes if it writes the slot, `lastOf f` is that value, and `sinceLast f` is
what came after. Both are characterised by how they read one more call (`lastOf_concat`,
`sinceLast_concat_none`), which is what a proof over a run needs. -/

namespace Machine

variable {α β : Type*} {f : α → Option β} {history : List α} {e : α}

/-- What the last call with a value wrote. -/
def lastOf (f : α → Option β) (history : List α) : Option β := (history.filterMap f).getLast?

/-- The calls after the last one with a value. -/
def sinceLast (f : α → Option β) (history : List α) : List α :=
  history.rtakeWhile fun e => (f e).isNone

@[simp] theorem lastOf_nil : lastOf f [] = none := rfl

@[simp] theorem sinceLast_nil : sinceLast f [] = [] := rfl

/-- One more call is the last one, or leaves the one that was. -/
theorem lastOf_concat (f : α → Option β) (history : List α) (e : α) :
    lastOf f (history ++ [e]) = (f e).or (lastOf f history) := by
  rw [lastOf, List.filterMap_append]
  cases h : f e with
  | none => rw [List.filterMap_cons_none h, List.filterMap_nil, List.append_nil, Option.none_or,
      ← lastOf]
  | some v => rw [List.filterMap_cons_some h, List.filterMap_nil, List.getLast?_concat,
      Option.some_or]

/-- Nothing came after a call with a value. -/
theorem sinceLast_concat_some {v : β} (h : f e = some v) : sinceLast f (history ++ [e]) = [] :=
  List.rtakeWhile_concat_neg _ _ _ (by simp [h])

/-- Any other call came after it. -/
theorem sinceLast_concat_none (h : f e = none) :
    sinceLast f (history ++ [e]) = sinceLast f history ++ [e] :=
  List.rtakeWhile_concat_pos _ _ _ (by simp [h])

/-- One more call adds its value to those read. -/
theorem filterMap_concat (f : α → Option β) (history : List α) (e : α) :
    (history ++ [e]).filterMap f = history.filterMap f ++ (f e).toList := by
  rw [List.filterMap_append]
  cases h : f e <;> simp [h]

end Machine
