import ReputationPassport.Evm.Basic
import ReputationPassport.Machine.Run

/-! # Ledgers: contracts whose calls run to completion

A contract that never hands control to another one executes its calls one after another. Such a
contract is a function `exec : Block → σ → ι → Except ε (σ × ρ)`, and a `Ledger` is its state
together with the current block and the *history* of the calls that succeeded, each with the block
it ran in and the value it returned. A reverted call leaves no trace; a call made by a contract
that itself reverts later is undone with it and does not occur in the run at all.

`Ledger.step` performs one action: a call in the current block, or the passage to a block that is
not earlier. The proof rules reduce a property of every run to the two kinds of effect a step can
have on a ledger (`Ledger.step_cases`, `Ledger.step_preserves`). -/

namespace Machine

open Evm

/-- A successful call: the block it ran in, what was called and what it returned. -/
structure Entry (ι ρ : Type*) where
  block : Block
  call : ι
  result : ρ

/-- The current block, the state of the contract and the successful calls, oldest first. -/
structure Ledger (σ ι ρ : Type*) where
  block : Block
  state : σ
  history : List (Entry ι ρ)

namespace Ledger

variable {σ ι ρ ε : Type*}

/-- What can happen next: a new block, or a call in the current one. -/
inductive Action (ι : Type*) where
  | mine (block : Block)
  | call (call : ι)

/-- A fresh ledger: a contract deployed in a block, with no history. -/
def deployed (b : Block) (s : σ) : Ledger σ ι ρ := ⟨b, s, []⟩

/-- Record a successful call. -/
def commit (l : Ledger σ ι ρ) (s : σ) (c : ι) (r : ρ) : Ledger σ ι ρ :=
  { l with state := s, history := l.history ++ [⟨l.block, c, r⟩] }

@[simp] theorem commit_state (l : Ledger σ ι ρ) (s : σ) (c : ι) (r : ρ) :
    (l.commit s c r).state = s := rfl

@[simp] theorem commit_block (l : Ledger σ ι ρ) (s : σ) (c : ι) (r : ρ) :
    (l.commit s c r).block = l.block := rfl

@[simp] theorem commit_history (l : Ledger σ ι ρ) (s : σ) (c : ι) (r : ρ) :
    (l.commit s c r).history = l.history ++ [⟨l.block, c, r⟩] := rfl

/-- One action. A block earlier than the current one is not enabled; a call that reverts changes
nothing. -/
def step (exec : Block → σ → ι → Except ε (σ × ρ)) (l : Ledger σ ι ρ) :
    Action ι → Option (Ledger σ ι ρ)
  | .mine b => if l.block ≤ b then some { l with block := b } else none
  | .call c =>
      match exec l.block l.state c with
      | .ok (s, r) => some (l.commit s c r)
      | .error _ => some l

variable {exec : Block → σ → ι → Except ε (σ × ρ)} {l l' : Ledger σ ι ρ}

/-- A successful call commits its result. -/
theorem step_call_ok {c : ι} {s : σ} {r : ρ} (h : exec l.block l.state c = .ok (s, r)) :
    step exec l (.call c) = some (l.commit s c r) := by
  rw [step, h]

/-- A reverting call leaves the ledger as it is. -/
theorem step_call_error {c : ι} {e : ε} (h : exec l.block l.state c = .error e) :
    step exec l (.call c) = some l := by
  rw [step, h]

/-- **Inversion of a step**: it moves to a later block, commits a successful call, or is a
reverted call and changes nothing. -/
theorem step_cases {a : Action ι} (h : step exec l a = some l') :
    (∃ b, a = .mine b ∧ l.block ≤ b ∧ l' = { l with block := b }) ∨
    (∃ c s r, a = .call c ∧ exec l.block l.state c = .ok (s, r) ∧ l' = l.commit s c r) ∨
    (∃ c e, a = .call c ∧ exec l.block l.state c = .error e ∧ l' = l) := by
  cases a with
  | mine b =>
      simp only [step, Option.ite_none_right_eq_some, Option.some.injEq] at h
      exact Or.inl ⟨b, rfl, h.1, h.2.symm⟩
  | call c =>
      cases hc : exec l.block l.state c with
      | ok v =>
          rw [step_call_ok hc, Option.some.injEq] at h
          exact Or.inr (Or.inl ⟨c, v.1, v.2, rfl, hc, h.symm⟩)
      | error e =>
          rw [step_call_error hc, Option.some.injEq] at h
          exact Or.inr (Or.inr ⟨c, e, rfl, hc, h.symm⟩)

/-- **Preservation rule**: a property survives a step if it survives the passage to a later block
and every successful call. -/
theorem step_preserves {I : Ledger σ ι ρ → Prop}
    (hmine : ∀ l b, I l → l.block ≤ b → I { l with block := b })
    (hcall : ∀ l c s r, I l → exec l.block l.state c = .ok (s, r) → I (l.commit s c r))
    (l : Ledger σ ι ρ) (a : Action ι) (l' : Ledger σ ι ρ) (hl : I l)
    (h : step exec l a = some l') : I l' := by
  rcases step_cases h with ⟨b, -, hb, rfl⟩ | ⟨c, s, r, -, hc, rfl⟩ | ⟨c, e, -, -, rfl⟩
  · exact hmine l b hl hb
  · exact hcall l c s r hl hc
  · exact hl

/-- **Invariant rule for ledgers**: what holds at deployment and survives later blocks and
successful calls holds after every run. -/
theorem invariant {I : Ledger σ ι ρ → Prop} {l₀ : Ledger σ ι ρ}
    (hmine : ∀ l b, I l → l.block ≤ b → I { l with block := b })
    (hcall : ∀ l c s r, I l → exec l.block l.state c = .ok (s, r) → I (l.commit s c r))
    (h₀ : I l₀) {as : List (Action ι)} (hrun : run (step exec) l₀ as = some l) : I l :=
  run_invariant (step_preserves hmine hcall) h₀ hrun

/-- The history only grows. -/
theorem history_prefix_of_step {a : Action ι} (h : step exec l a = some l') :
    l.history <+: l'.history := by
  rcases step_cases h with ⟨b, -, -, rfl⟩ | ⟨c, s, r, -, -, rfl⟩ | ⟨c, e, -, -, rfl⟩
  · exact List.prefix_refl _
  · exact List.prefix_append _ _
  · exact List.prefix_refl _

/-- The history of every state a run visits is a prefix of the history at its end. -/
theorem history_prefix_always {as : List (Action ι)} (hrun : run (step exec) l as = some l') :
    Always (step exec) (fun t => t.history <+: l'.history) l as :=
  always_rel (R := fun s t : Ledger σ ι ρ => s.history <+: t.history)
    (fun _ => List.prefix_refl _) (fun _ _ _ h k => h.trans k)
    (fun _ _ _ h => history_prefix_of_step h) hrun

end Ledger

end Machine
