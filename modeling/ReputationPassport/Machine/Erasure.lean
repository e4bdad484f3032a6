import ReputationPassport.Machine.Ledger

/-! # Calls that an observer does not see

An observer of a contract looks at a part `view` of its state. Some calls are *invisible* to it:
they leave the view as it is. If in addition what a visible call does to the view, and whether it
succeeds, depends on nothing but the view (`Unseen`), then the invisible calls can be erased from
any run without a difference the observer could see (`exists_erased_run`): they have no influence on
what is observed. -/

namespace Machine

open Evm

variable {σ ι ρ ε τ : Type*}

/-- **The calls outside `visible` have no influence on the view.** -/
structure Unseen (exec : Block → σ → ι → Except ε (σ × ρ)) (view : σ → τ) (visible : ι → Bool) :
    Prop where
  /-- An invisible call leaves the view. -/
  leaves : ∀ b s c s' r, visible c = false → exec b s c = .ok (s', r) → view s' = view s
  /-- A visible call that succeeds does so, with the same result and the same effect on the view, in
  every state of the same view. -/
  depends : ∀ b s t c s' r, visible c = true → view s = view t → exec b s c = .ok (s', r) →
    ∃ t', exec b t c = .ok (t', r) ∧ view t' = view s'

namespace Ledger

/-- What is left of the actions when the invisible calls are erased. -/
def erase (visible : ι → Bool) (as : List (Action ι)) : List (Action ι) :=
  as.filter fun
    | .mine _ => true
    | .call c => visible c

/-- The calls the observer sees. -/
def seen (visible : ι → Bool) (history : List (Entry ι ρ)) : List (Entry ι ρ) :=
  history.filter fun e => visible e.call

/-- Two ledgers an observer cannot tell apart: the second has no invisible calls at all. -/
structure Alike (view : σ → τ) (visible : ι → Bool) (l m : Ledger σ ι ρ) : Prop where
  block : m.block = l.block
  view : view m.state = view l.state
  history : m.history = seen visible l.history

variable {exec : Block → σ → ι → Except ε (σ × ρ)} {view : σ → τ} {visible : ι → Bool}
  {l l' m : Ledger σ ι ρ}

theorem seen_concat (history : List (Entry ι ρ)) (e : Entry ι ρ) :
    seen visible (history ++ [e]) =
      seen visible history ++ if visible e.call then [e] else [] := by
  rw [seen, List.filter_append, List.filter_singleton, Bool.cond_eq_ite]
  rfl

/-- A visible call that reverts reverts in every state of the same view. -/
theorem exists_error (h : Unseen exec view visible) {b : Block} {s t : σ} {c : ι} {e : ε}
    (hc : visible c = true) (hview : view s = view t) (herror : exec b s c = .error e) :
    ∃ e', exec b t c = .error e' := by
  cases ht : exec b t c with
  | error e' => exact ⟨e', rfl⟩
  | ok v =>
      obtain ⟨s', hs', -⟩ := h.depends b t s c v.1 v.2 hc hview.symm ht
      rw [herror] at hs'
      cases hs'

/-- **A step, seen and erased**: the erased run makes the same step, or stays where it is. -/
theorem alike_step (h : Unseen exec view visible) (halike : Alike view visible l m)
    {a : Action ι} (hstep : step exec l a = some l') :
    ∃ m', run (step exec) m (erase visible [a]) = some m' ∧ Alike view visible l' m' := by
  obtain ⟨hblock, hview, hhistory⟩ := halike
  rcases step_cases hstep with ⟨b, rfl, hb, rfl⟩ | ⟨c, s, r, rfl, hc, rfl⟩ | ⟨c, e, rfl, hc, rfl⟩
  · have hmine : step exec m (.mine b) = some { m with block := b } := if_pos (hblock ▸ hb)
    exact ⟨_, run_cons_eq_some.mpr ⟨_, hmine, rfl⟩, rfl, hview, hhistory⟩
  · cases hvisible : visible c with
    | true =>
        -- the view decides, so the call succeeds in the erased run too
        obtain ⟨t, ht, hviews⟩ := h.depends _ _ m.state _ _ _ hvisible hview.symm hc
        rw [← hblock] at ht
        have herase : erase visible [.call c] = [.call c] := List.filter_cons_of_pos hvisible
        rw [herase]
        refine ⟨_, run_cons_eq_some.mpr ⟨_, step_call_ok ht, rfl⟩, hblock, hviews, ?_⟩
        rw [commit_history, commit_history, seen_concat, if_pos hvisible, hhistory, hblock]
    | false =>
        -- the erased run waits, and the view has not changed
        have herase : erase visible [.call c] = [] :=
          List.filter_cons_of_neg (by simp [hvisible])
        rw [herase]
        refine ⟨m, rfl, hblock, ?_, ?_⟩
        · exact hview.trans (h.leaves _ _ _ _ _ hvisible hc).symm
        · rw [commit_history, seen_concat, hvisible, if_neg Bool.false_ne_true, List.append_nil,
            hhistory]
  · cases hvisible : visible c with
    | true =>
        obtain ⟨e', he'⟩ := exists_error h hvisible hview.symm hc
        rw [← hblock] at he'
        have herase : erase visible [.call c] = [.call c] := List.filter_cons_of_pos hvisible
        rw [herase]
        exact ⟨m, run_cons_eq_some.mpr ⟨_, step_call_error he', rfl⟩, hblock, hview, hhistory⟩
    | false =>
        have herase : erase visible [.call c] = [] :=
          List.filter_cons_of_neg (by simp [hvisible])
        rw [herase]
        exact ⟨m, rfl, hblock, hview, hhistory⟩

/-- **Erasure**: the run without the invisible calls gets to a ledger that looks the same. -/
theorem exists_erased_run (h : Unseen exec view visible) {as : List (Action ι)} {b : Block} {s : σ}
    (hrun : run (step exec) (deployed b s) as = some l) :
    ∃ m, run (step exec) (deployed b s) (erase visible as) = some m ∧
      Alike view visible l m := by
  refine trace_invariant (P := fun as l => ∃ m, run (step exec) (deployed b s) (erase visible as) =
    some m ∧ Alike view visible l m) ⟨_, rfl, rfl, rfl, rfl⟩ ?_ hrun
  rintro as l a l' - ⟨m, hm, halike⟩ hstep
  obtain ⟨m', hm', halike'⟩ := alike_step h halike hstep
  refine ⟨m', ?_, halike'⟩
  rw [erase, List.filter_append]
  exact run_append_eq_some.mpr ⟨m, hm, hm'⟩

end Ledger

end Machine
