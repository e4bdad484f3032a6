import ReputationPassport.Machine.CallStack

/-! # Storage that follows its events

A contract appends to a log when it writes. An observer that knows nothing but the log keeps a copy
of a part of the storage by applying one event after another. The copy is right (`Replays.run`) if
every part of a call changes the storage as the events it appends say: between and inside
transactions, and after a rollback too, since a rollback takes the events back with the writes. -/

namespace Machine

open Evm

variable {σ ι κ ρ ε ω ν : Type*}

/-- The change from one state to another is what the events appended in between say. -/
def Logged (logs : σ → List ω) (view : σ → ν) (apply : ν → ω → ν) (s s' : σ) : Prop :=
  ∃ events, logs s' = logs s ++ events ∧ view s' = events.foldl apply (view s)

/-- **The view follows the log** through every part of every call. -/
structure Replays (k : Contract σ ι κ ρ ε) (logs : σ → List ω) (view : σ → ν)
    (apply : ν → ω → ν) : Prop where
  done : ∀ b s c s' r, k.start b s c = .ok (.done s' r) → Logged logs view apply s s'
  calls : ∀ b s c s' q, k.start b s c = .ok (.calls s' q) → Logged logs view apply s s'
  resume : ∀ b s q s' r, k.resume b s q = .ok (s', r) → Logged logs view apply s s'

variable {k : Contract σ ι κ ρ ε} {logs : σ → List ω} {view : σ → ν} {apply : ν → ω → ν}

/-- What appends nothing and leaves the view follows the log. -/
theorem logged_of_eq {s s' : σ} (hlogs : logs s' = logs s) (hview : view s' = view s) :
    Logged logs view apply s s' :=
  ⟨[], by rw [hlogs, List.append_nil], hview⟩

/-- A write that leaves what is shown of the record leaves what is shown of all records. -/
theorem comp_update_same {α β γ : Type*} [DecidableEq α] {f : β → γ} {records : α → β} {i : α}
    {x : β} (h : f x = f (records i)) : f ∘ Function.update records i x = f ∘ records := by
  rw [Function.comp_update, h]
  exact Function.update_eq_self i (f ∘ records)

/-- The replay of a log that has grown goes on from the replay of the log before. -/
theorem Logged.replay {s s' : σ} {v : ν} (h : Logged logs view apply s s')
    (hs : view s = (logs s).foldl apply v) : view s' = (logs s').foldl apply v := by
  obtain ⟨events, hlogs, hview⟩ := h
  rw [hlogs, List.foldl_append, ← hs, hview]

/-- **Replaying the log gives the view**, wherever a run gets to. -/
theorem Replays.run (h : Replays k logs view apply) {b : Block} {s : σ} {v : ν}
    (hs : view s = (logs s).foldl apply v) {as : List (CallStack.Action ι)}
    {c : CallStack σ ι κ ρ}
    (hrun : run (CallStack.step k) (CallStack.deployed b s) as = some c) :
    view c.ledger.state = (logs c.ledger.state).foldl apply v := by
  refine (CallStack.layered_run (I := fun l _ => view l.state = (logs l.state).foldl apply v)
    ?_ ?_ ?_ ?_ (CallStack.layered_closed _ rfl hs) hrun).1
  · exact fun _ _ hl _ => hl
  · exact fun _ _ _ _ _ hl ok => (h.done _ _ _ _ _ ok).replay hl
  · exact fun _ _ _ _ _ hl ok => (h.calls _ _ _ _ _ ok).replay hl
  · exact fun _ _ _ _ _ _ hl ok => (h.resume _ _ _ _ _ ok).replay hl

/-- A contract whose calls run to completion follows its log call by call. -/
theorem Replays.ofExec {exec : Block → σ → ι → Except ε (σ × ρ)}
    (h : ∀ b s c s' r, exec b s c = .ok (s', r) → Logged logs view apply s s') :
    Replays (Contract.ofExec exec) logs view apply where
  done b s c s' r ok := by
    obtain ⟨t, r', hexec, hdone⟩ := Contract.ofExec_start_eq_ok.mp ok
    obtain ⟨rfl, rfl⟩ := Progress.done.inj hdone
    exact h b s c _ _ hexec
  calls b s c s' q ok := by
    obtain ⟨t, r', -, hdone⟩ := Contract.ofExec_start_eq_ok.mp ok
    cases hdone
  resume b s q := q.elim

end Machine
