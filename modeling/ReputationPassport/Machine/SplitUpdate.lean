import Mathlib.Data.List.Basic

/-! # Updates that read and write in separate steps

Calls update one shared value. A call has an effect `apply c : V → V` when it runs alone; run
concurrently it may read the value, compute, and write what it computed over whatever the value is
by then. What such a history has built is described by a *lineage*: the calls the present value
derives from, each applied to what the one before it left (`Built`). The value is that of a serial
execution of its lineage. It is that of all calls in some order when the lineage leaves none out, or
when it begins with a call that is *blind*, whose effect does not depend on the value: the calls
left out can be executed before it (`Built.serializable`). -/

namespace Machine

variable {V C : Type*} {apply : C → V → V}

/-- Execute calls one after another. -/
def serial (apply : C → V → V) (σ : List C) (v : V) : V := σ.foldl (fun v c => apply c v) v

@[simp] theorem serial_nil (v : V) : serial apply [] v = v := rfl

@[simp] theorem serial_cons (c : C) (σ : List C) (v : V) :
    serial apply (c :: σ) v = serial apply σ (apply c v) := rfl

theorem serial_append (σ τ : List C) (v : V) :
    serial apply (σ ++ τ) v = serial apply τ (serial apply σ v) := List.foldl_append

theorem serial_concat (σ : List C) (c : C) (v : V) :
    serial apply (σ ++ [c]) v = apply c (serial apply σ v) := serial_append σ [c] v

/-- A property of values that every call keeps holds after a serial execution. -/
theorem serial_induction {R : V → Prop} {σ : List C} (hR : ∀ c ∈ σ, ∀ v, R v → R (apply c v))
    {v : V} (hv : R v) : R (serial apply σ v) := by
  induction σ generalizing v with
  | nil => exact hv
  | cons c σ ih =>
      obtain ⟨hc, hσ⟩ := List.forall_mem_cons.mp hR
      exact ih hσ (hc v hv)

/-- Among the values with `R`, the effect of the call does not depend on the value. -/
def Blind (apply : C → V → V) (R : V → Prop) (c : C) : Prop :=
  ∀ v w, R v → R w → apply c v = apply c w

/-- **The lineage of a value**: the value is that of its lineage, executed serially from `v₀`, and
the lineage consists of completed calls. -/
structure Built (apply : C → V → V) (v₀ : V) (completed : List C) (v : V) (lineage : List C) :
    Prop where
  value : v = serial apply lineage v₀
  part : ∃ rest, (rest ++ lineage).Perm completed

namespace Built

variable {v₀ v : V} {completed lineage : List C} {c : C}

/-- The initial value has an empty lineage. -/
theorem init (v₀ : V) : Built apply v₀ [] v₀ [] := ⟨rfl, [], .refl _⟩

/-- A lineage stays one as other calls complete. -/
theorem mono (h : Built apply v₀ completed v lineage) (c : C) :
    Built apply v₀ (completed ++ [c]) v lineage := by
  obtain ⟨rest, hrest⟩ := h.part
  refine ⟨h.value, c :: rest, ?_⟩
  exact (List.Perm.cons c hrest).trans (List.perm_append_singleton c completed).symm

/-- **A call that completes extends the lineage of the value it read.** -/
theorem extend (h : Built apply v₀ completed v lineage) (c : C) :
    Built apply v₀ (completed ++ [c]) (apply c v) (lineage ++ [c]) := by
  obtain ⟨rest, hrest⟩ := h.part
  refine ⟨?_, rest, ?_⟩
  · rw [serial_concat, ← h.value]
  · rw [← List.append_assoc]
    exact hrest.append_right [c]

/-- **The value is that of all completed calls in some order**, if its lineage has them all or
begins with a blind call. -/
theorem serializable (h : Built apply v₀ completed v lineage) {R : V → Prop} (hv₀ : R v₀)
    (hR : ∀ c ∈ completed, ∀ v, R v → R (apply c v))
    (hlineage : lineage.length = completed.length ∨ ∃ c ∈ lineage.head?, Blind apply R c) :
    ∃ σ : List C, σ.Perm completed ∧ serial apply σ v₀ = v := by
  obtain ⟨rest, hrest⟩ := h.part
  refine ⟨rest ++ lineage, hrest, ?_⟩
  rw [serial_append, h.value]
  rcases hlineage with hlength | ⟨c, hc, hblind⟩
  · -- nothing was left out
    have hlen := hrest.length_eq
    rw [List.length_append, hlength, Nat.add_eq_right, List.length_eq_zero_iff] at hlen
    rw [hlen, serial_nil]
  · -- what was left out comes first, and the blind call overwrites it
    cases lineage with
    | nil => cases hc
    | cons d lineage =>
        obtain rfl := Option.some.inj hc
        have hrest' : R (serial apply rest v₀) :=
          serial_induction (fun c hc => hR c (hrest.subset (List.mem_append_left _ hc))) hv₀
        rw [serial_cons, serial_cons, hblind _ v₀ hrest' hv₀]

end Built

end Machine
