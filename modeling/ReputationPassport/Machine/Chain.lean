import Mathlib.Logic.Basic

/-! # Chains of handlers

A server passes a request through a chain of handlers. A handler may change the state the requests
share and the context of its own request, and either passes the context on or answers, and then
nothing behind it is reached. A chain is itself a handler: in front of another it answers for both
(`inSeries_append_of_some`) or hands over (`inSeries_append_of_none`). -/

namespace Machine

variable {σ χ α : Type*}

/-- A handler: what it makes of the state and the context, and its answer if it gives one. -/
abbrev Handler (σ χ α : Type*) : Type _ := σ → χ → σ × χ × Option α

/-- The handlers of a chain, up to the first that answers. -/
def inSeries : List (Handler σ χ α) → Handler σ χ α
  | [], s, c => (s, c, none)
  | h :: hs, s, c =>
      match h s c with
      | (s', c', some a) => (s', c', some a)
      | (s', c', none) => inSeries hs s' c'

variable {h : Handler σ χ α} {hs hs' : List (Handler σ χ α)} {s s' : σ} {c c' : χ} {a : α}

@[simp] theorem inSeries_nil (s : σ) (c : χ) :
    inSeries ([] : List (Handler σ χ α)) s c = (s, c, none) := rfl

/-- A handler that answers ends the chain. -/
theorem inSeries_cons_of_some (hanswer : h s c = (s', c', some a)) :
    inSeries (h :: hs) s c = (s', c', some a) := by
  simp only [inSeries, hanswer]

/-- A handler that passes on hands over to the rest. -/
theorem inSeries_cons_of_none (hnext : h s c = (s', c', none)) :
    inSeries (h :: hs) s c = inSeries hs s' c' := by
  simp only [inSeries, hnext]

/-- A chain that answers is not continued. -/
theorem inSeries_append_of_some (hanswer : inSeries hs s c = (s', c', some a)) :
    inSeries (hs ++ hs') s c = (s', c', some a) := by
  induction hs generalizing s c with
  | nil => cases hanswer
  | cons h hs ih =>
      rcases hh : h s c with ⟨t, d, _ | b⟩
      · rw [inSeries_cons_of_none hh] at hanswer
        rw [List.cons_append, inSeries_cons_of_none hh]
        exact ih hanswer
      · rw [inSeries_cons_of_some hh] at hanswer
        rw [List.cons_append, inSeries_cons_of_some hh, hanswer]

/-- A chain that passes on is continued. -/
theorem inSeries_append_of_none (hnext : inSeries hs s c = (s', c', none)) :
    inSeries (hs ++ hs') s c = inSeries hs' s' c' := by
  induction hs generalizing s c with
  | nil =>
      obtain ⟨rfl, hrest⟩ := Prod.mk.inj hnext
      obtain ⟨rfl, -⟩ := Prod.mk.inj hrest
      rfl
  | cons h hs ih =>
      rcases hh : h s c with ⟨t, d, _ | b⟩
      · rw [inSeries_cons_of_none hh] at hnext
        rw [List.cons_append, inSeries_cons_of_none hh]
        exact ih hnext
      · rw [inSeries_cons_of_some hh] at hnext
        cases hnext

end Machine
