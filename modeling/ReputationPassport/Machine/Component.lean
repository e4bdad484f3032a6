import ReputationPassport.Machine.CallStack

/-! # Components of a system of contracts

Several contracts that live on one chain are again one `Contract`: its state is made of theirs, and
a call of the system is a call of one of them, or of one that calls another. A `Component` says how
one contract `k` is seen in a system `K`: its part of the state, the call of `k` that a call of the
system makes, and what it gets back.

To a component the others look like accounts that call it, or are called by it, and are not its
business. A call that another contract waits in is a foreign frame (`Component.frame`), and what the
system does is, seen from the component, one of its own actions or nothing at all
(`Component.exists_action`). So a run of the system is a run of each of its components
(`Component.exists_run`), and whatever holds after every run of a contract alone holds of it within
the system. -/

namespace Machine

open Evm

variable {σ ι κ ρ ε σ' ι' κ' ρ' ε' : Type*}

/-- **A component of a system**: the contract `k`, as a part of `K`. The condition `Inv` is what the
system keeps that the description of the component relies on. -/
structure Component (K : Contract σ ι κ ρ ε) (k : Contract σ' ι' κ' ρ' ε') where
  Inv : σ → Prop
  /-- The part of the state. -/
  state : σ → σ'
  /-- The call of the component that a call of the system makes, if it makes one. -/
  call : ι → Option ι'
  /-- What the component has still to do when the account it called returns. -/
  rest : κ → Option κ'
  /-- What the component returned, where a call of the system called it. -/
  result : ρ → ρ'
  done : ∀ b s c s' r, Inv s → K.start b s c = .ok (.done s' r) → Inv s' ∧
    match call c with
    | some c' => k.start b (state s) c' = .ok (.done (state s') (result r))
    | none => state s' = state s
  calls : ∀ b s c s' q, Inv s → K.start b s c = .ok (.calls s' q) → Inv s' ∧
    match call c, rest q with
    | some c', some q' => k.start b (state s) c' = .ok (.calls (state s') q')
    | none, none => state s' = state s
    | _, _ => False
  resume : ∀ b s q s' r, Inv s → K.resume b s q = .ok (s', r) → Inv s' ∧
    match rest q with
    | some q' => k.resume b (state s) q' = .ok (state s', result r)
    | none => state s' = state s

namespace Component

variable {K : Contract σ ι κ ρ ε} {k : Contract σ' ι' κ' ρ' ε'} (p : Component K k)

/-! ## The component's view -/

/-- A recorded call of the system, as a call of the component. -/
def entry (e : Entry ι ρ) : Option (Entry ι' ρ') :=
  (p.call e.call).map fun c => ⟨e.block, c, p.result e.result⟩

/-- The calls of the component among those of a history. -/
def history (es : List (Entry ι ρ)) : List (Entry ι' ρ') := es.filterMap p.entry

/-- The ledger of the component. -/
def ledger (l : Ledger σ ι ρ) : Ledger σ' ι' ρ' := ⟨l.block, p.state l.state, p.history l.history⟩

/-- A frame of the system: a pending call of the component, or foreign to it. -/
def frame : Frame σ ι κ ρ → Frame σ' ι' κ' ρ'
  | .pending c q saved =>
      match p.call c, p.rest q with
      | some c', some q' => .pending c' q' (p.ledger saved)
      | _, _ => .foreign (p.ledger saved)
  | .foreign saved => .foreign (p.ledger saved)

/-- **What the component sees of the system.** -/
def stack (c : CallStack σ ι κ ρ) : CallStack σ' ι' κ' ρ' :=
  ⟨p.ledger c.ledger, c.frames.map p.frame⟩

variable {p}

/-- Recording a call of the component. -/
theorem ledger_commit_some {l : Ledger σ ι ρ} {s : σ} {c : ι} {r : ρ} {c' : ι'}
    (h : p.call c = some c') :
    p.ledger (l.commit s c r) = (p.ledger l).commit (p.state s) c' (p.result r) := by
  simp only [ledger, history, Ledger.commit, List.filterMap_append, List.filterMap_cons,
    List.filterMap_nil, entry, h, Option.map_some]

/-- Recording a call that leaves the component alone. -/
theorem ledger_commit_none {l : Ledger σ ι ρ} {s : σ} {c : ι} {r : ρ} (h : p.call c = none)
    (hstate : p.state s = p.state l.state) : p.ledger (l.commit s c r) = p.ledger l := by
  simp only [ledger, history, Ledger.commit, List.filterMap_append, List.filterMap_cons,
    List.filterMap_nil, entry, h, Option.map_none, List.append_nil, hstate]

/-- The frame the component sees would restore the ledger it sees. -/
theorem frame_saved (f : Frame σ ι κ ρ) : (p.frame f).saved = p.ledger f.saved := by
  cases f with
  | pending c q saved =>
      unfold frame
      dsimp only
      split <;> rfl
  | foreign saved => rfl

/-! ## One step -/

variable (p)

/-- A pending call is a call of the component exactly when the component has something left to do
in it. -/
def Matched (x : ι × κ) : Prop := p.call x.1 = none ↔ p.rest x.2 = none

/-- What is carried along: the condition of the component, and that its pending calls are its
own. -/
def Kept (l : Ledger σ ι ρ) (ps : List (ι × κ)) : Prop := p.Inv l.state ∧ ∀ x ∈ ps, p.Matched x

variable {p} {l : Ledger σ ι ρ} {ps : List (ι × κ)} {c c' : CallStack σ ι κ ρ} {s : σ}
  {call : ι} {rest : κ} {r : ρ}

/-- A call that hands over control is a call of the component on both sides, or on none. -/
theorem calls_cases (hI : p.Inv l.state)
    (ok : K.start l.block l.state call = .ok (.calls s rest)) :
    (∃ c q, p.call call = some c ∧ p.rest rest = some q ∧
      k.start l.block (p.state l.state) c = .ok (.calls (p.state s) q)) ∨
    (p.call call = none ∧ p.rest rest = none ∧ p.state s = p.state l.state) := by
  have h := (p.calls _ _ _ _ _ hI ok).2
  cases hcall : p.call call with
  | none =>
      cases hrest : p.rest rest with
      | none =>
          rw [hcall, hrest] at h
          exact Or.inr ⟨rfl, rfl, h⟩
      | some q =>
          rw [hcall, hrest] at h
          exact h.elim
  | some c =>
      cases hrest : p.rest rest with
      | none =>
          -- a call of the component has a rest of the component
          rw [hcall, hrest] at h
          exact h.elim
      | some q =>
          rw [hcall, hrest] at h
          exact Or.inl ⟨c, q, rfl, rfl, h⟩

theorem matched_of_calls (hI : p.Inv l.state)
    (ok : K.start l.block l.state call = .ok (.calls s rest)) : p.Matched (call, rest) := by
  rcases calls_cases hI ok with ⟨c, q, hcall, hrest, -⟩ | ⟨hcall, hrest, -⟩
  · simp [Matched, hcall, hrest]
  · simp [Matched, hcall, hrest]

/-- The rest of a pending call, seen from the component: the rest of its own call, or nothing. -/
theorem resume_cases (hI : p.Inv l.state) (hmatched : p.Matched (call, rest))
    (ok : K.resume l.block l.state rest = .ok (s, r)) :
    (∃ c q, p.call call = some c ∧ p.rest rest = some q ∧
      k.resume l.block (p.state l.state) q = .ok (p.state s, p.result r)) ∨
    (p.call call = none ∧ p.rest rest = none ∧ p.state s = p.state l.state) := by
  have h := (p.resume _ _ _ _ _ hI ok).2
  cases hrest : p.rest rest with
  | none =>
      rw [hrest] at h
      exact Or.inr ⟨hmatched.mpr hrest, rfl, h⟩
  | some q =>
      rw [hrest] at h
      obtain ⟨c, hcall⟩ := Option.ne_none_iff_exists'.mp
        fun hnone => by simp [hmatched.mp hnone] at hrest
      exact Or.inl ⟨c, q, hcall, rfl, h⟩

/-- What is carried along survives a step. -/
theorem kept_step {a : CallStack.Action ι} (h : CallStack.Layered p.Kept c)
    (hstep : CallStack.Step K c a c') : CallStack.Layered p.Kept c' := by
  refine h.step hstep (fun _ _ _ hI => hI) ?_ ?_ ?_
  · intro call code s r _ ok
    exact ⟨(p.done _ _ _ _ _ h.1.1 ok).1, h.1.2⟩
  · intro call code s rest _ ok
    exact ⟨(p.calls _ _ _ _ _ h.1.1 ok).1,
      List.forall_mem_cons.mpr ⟨matched_of_calls h.1.1 ok, h.1.2⟩⟩
  · intro l call rest ps s r hI ok
    exact ⟨(p.resume _ _ _ _ _ hI.1 ok).1, (List.forall_mem_cons.mp hI.2).2⟩

/-- What is carried along survives a run. -/
theorem kept_run {as : List (CallStack.Action ι)} (h : CallStack.Layered p.Kept c)
    (hrun : run (CallStack.step K) c as = some c') : CallStack.Layered p.Kept c' :=
  run_invariant (fun _ _ _ hd hstep => kept_step hd (CallStack.step_cases hstep)) h hrun

/-- At the end of a transaction nothing is pending. -/
theorem kept_closed (hclosed : c.frames = []) (hI : p.Inv c.ledger.state) :
    CallStack.Layered p.Kept c :=
  CallStack.layered_closed c hclosed ⟨hI, fun _ hx => absurd hx List.not_mem_nil⟩

/-- A rollback of the innermost frame is a rollback for the component too. -/
theorem exists_rollback {f : Frame σ ι κ ρ} {frames : List (Frame σ ι κ ρ)}
    (top : c.frames = f :: frames) :
    ∃ a', CallStack.step k (p.stack c) a' = some (p.stack ⟨f.saved, frames⟩) := by
  cases hframe : p.frame f with
  | pending c' q saved =>
      refine ⟨.reject, ?_⟩
      have hsaved : saved = p.ledger f.saved := by
        rw [← frame_saved, hframe]
        rfl
      simp only [CallStack.step, stack, top, List.map_cons, hframe, hsaved]
  | foreign saved =>
      -- another contract was called, and what it did is undone
      refine ⟨.abort, ?_⟩
      have hsaved : saved = p.ledger f.saved := by
        rw [← frame_saved, hframe]
        rfl
      simp only [CallStack.step, stack, top, List.map_cons, hframe, hsaved]

/-- **A step of the system is an action of the component, or none.** -/
theorem exists_action {a : CallStack.Action ι} (h : CallStack.Layered p.Kept c)
    (hstep : CallStack.Step K c a c') :
    p.stack c' = p.stack c ∨ ∃ a', CallStack.step k (p.stack c) a' = some (p.stack c') := by
  obtain ⟨hI, hmatched⟩ := h.1
  cases hstep with
  | @mine b closed later =>
      refine Or.inr ⟨.mine b, ?_⟩
      have hlater : (p.stack c).ledger.block ≤ b := later
      simp only [stack, closed, CallStack.step, List.map_nil]
      exact if_pos hlater
  | @done call code s r ok =>
      -- a call that does not call the component leaves what it sees
      have hdone := (p.done _ _ _ _ _ hI ok).2
      cases hcall : p.call call with
      | none =>
          rw [hcall] at hdone
          refine Or.inl ?_
          simp only [stack, ledger_commit_none hcall hdone]
      | some c' =>
          rw [hcall] at hdone
          refine Or.inr ⟨.call c' code, ?_⟩
          have hstart : k.start (p.stack c).ledger.block (p.stack c).ledger.state c' = _ := hdone
          rw [CallStack.step_call_done hstart]
          simp only [stack, ledger_commit_some hcall]
  | @push call s rest ok =>
      rcases calls_cases hI ok with ⟨c', q, hcall, hrest, hcalls⟩ | ⟨hcall, hrest, hstate⟩
      · refine Or.inr ⟨.call c' true, ?_⟩
        have hstart : k.start (p.stack c).ledger.block (p.stack c).ledger.state c' = _ := hcalls
        rw [CallStack.step_call_push hstart]
        simp only [stack, ledger, List.map_cons, frame, hcall, hrest]
      · -- to the component, another contract is called
        refine Or.inr ⟨.enter, ?_⟩
        simp only [CallStack.step, stack, ledger, List.map_cons, frame, hcall, hstate]
  | @through call s s' rest r ok resumed =>
      -- the start and the rest are those of one call of the component, or of none
      have hI' : p.Inv s := (p.calls _ _ _ _ _ hI ok).1
      rcases resume_cases (l := { c.ledger with state := s }) hI' (matched_of_calls hI ok) resumed
        with ⟨c', q, hcall, hrest, hresume⟩ | ⟨hcall, hrest, hstate⟩
      · rcases calls_cases hI ok with ⟨d, q', hcall', hrest', hcalls⟩ | ⟨hcall', -, -⟩
        · obtain rfl := Option.some.inj (hcall.symm.trans hcall')
          obtain rfl := Option.some.inj (hrest.symm.trans hrest')
          refine Or.inr ⟨.call c' false, ?_⟩
          have hstart : k.start (p.stack c).ledger.block (p.stack c).ledger.state c' = _ := hcalls
          rw [CallStack.step_call_through hstart hresume]
          simp only [stack, ledger_commit_some hcall]
        · rw [hcall] at hcall'
          cases hcall'
      · rcases calls_cases hI ok with ⟨d, q', hcall', -, -⟩ | ⟨-, -, hstart⟩
        · rw [hcall] at hcall'
          cases hcall'
        · refine Or.inl ?_
          simp only [stack, ledger_commit_none hcall (hstate.trans hstart)]
  | reverted => exact Or.inl rfl
  | @accept call rest saved frames s r top resumed =>
      -- a pending call of the component is accepted, a foreign one left
      have hpending : p.Matched (call, rest) := by
        rw [top] at hmatched
        exact hmatched _ List.mem_cons_self
      rcases resume_cases hI hpending resumed with ⟨c', q, hcall, hrest, hresume⟩ |
        ⟨hcall, hrest, hstate⟩
      · refine Or.inr ⟨.accept, ?_⟩
        have hresume' : k.resume (p.ledger c.ledger).block (p.ledger c.ledger).state q = _ :=
          hresume
        simp only [CallStack.step, stack, top, List.map_cons, frame, hcall, hrest, hresume',
          CallStack.settle, ledger_commit_some hcall]
      · refine Or.inr ⟨.leave, ?_⟩
        simp only [CallStack.step, stack, top, List.map_cons, frame, hcall,
          ledger_commit_none hcall hstate]
  | @refused call rest saved frames e top resumed => exact Or.inr (exists_rollback top)
  | @reject call rest saved frames top => exact Or.inr (exists_rollback top)
  | enter => exact Or.inr ⟨.enter, rfl⟩
  | @leave saved frames top =>
      refine Or.inr ⟨.leave, ?_⟩
      simp only [CallStack.step, stack, top, List.map_cons, frame]
  | @abort saved frames top => exact Or.inr (exists_rollback top)

/-! ## Runs -/

/-- **A run of the system is a run of the component**: what the component sees of where the system
gets to is where the component gets to by a run of its own, from what it sees of the start. -/
theorem exists_run {as : List (CallStack.Action ι)} (h : CallStack.Layered p.Kept c)
    (hrun : run (CallStack.step K) c as = some c') :
    ∃ as', run (CallStack.step k) (p.stack c) as' = some (p.stack c') := by
  refine trace_invariant (P := fun _ d =>
    ∃ as', run (CallStack.step k) (p.stack c) as' = some (p.stack d)) ⟨[], rfl⟩ ?_ hrun
  rintro bs d a d' hbs ⟨as', has'⟩ hstep
  rcases exists_action (kept_run h hbs) (CallStack.step_cases hstep) with hsame | ⟨a', ha'⟩
  · exact ⟨as', has'.trans (congrArg some hsame.symm)⟩
  · exact ⟨as' ++ [a'], run_concat_eq_some.mpr ⟨_, has', ha'⟩⟩

/-- The condition holds after every run from a deployment. -/
theorem inv_run_deployed {b : Block} {s : σ} {as : List (CallStack.Action ι)} (hs : p.Inv s)
    (hrun : run (CallStack.step K) (CallStack.deployed b s) as = some c) : p.Inv c.ledger.state :=
  (kept_run (kept_closed rfl hs) hrun).1.1

/-- A run from a deployment is a run of the component from its deployment. -/
theorem exists_run_deployed {b : Block} {s : σ} {as : List (CallStack.Action ι)} (hs : p.Inv s)
    (hrun : run (CallStack.step K) (CallStack.deployed b s) as = some c) :
    ∃ as', run (CallStack.step k) (CallStack.deployed b (p.state s)) as' = some (p.stack c) :=
  exists_run (kept_closed rfl hs) hrun

end Component

/-- A component whose calls run to completion: it is called by calls of the system that are done at
once, and what happens otherwise leaves it alone. -/
def Component.atomic {K : Contract σ ι κ ρ ε} {exec : Block → σ' → ι' → Except ε' (σ' × ρ')}
    (Inv : σ → Prop) (state : σ → σ') (call : ι → Option ι') (result : ρ → ρ')
    (done : ∀ b s c s' r, Inv s → K.start b s c = .ok (.done s' r) → Inv s' ∧
      ((∃ m, call c = some m ∧ exec b (state s) m = .ok (state s', result r)) ∨
        (call c = none ∧ state s' = state s)))
    (calls : ∀ b s c s' q, Inv s → K.start b s c = .ok (.calls s' q) →
      Inv s' ∧ call c = none ∧ state s' = state s)
    (resume : ∀ b s q s' r, Inv s → K.resume b s q = .ok (s', r) → Inv s' ∧ state s' = state s) :
    Component K (Contract.ofExec exec) where
  Inv := Inv
  state := state
  call := call
  rest _ := none
  result := result
  done b s c s' r hI h := by
    obtain ⟨hI', ⟨m, hm, ok⟩ | ⟨hnone, hstate⟩⟩ := done b s c s' r hI h
    · rw [hm]
      exact ⟨hI', Contract.ofExec_start_eq_ok.mpr ⟨_, _, ok, rfl⟩⟩
    · rw [hnone]
      exact ⟨hI', hstate⟩
  calls b s c s' q hI h := by
    obtain ⟨hI', hnone, hstate⟩ := calls b s c s' q hI h
    rw [hnone]
    exact ⟨hI', hstate⟩
  resume := resume

/-- **A contract whose calls run to completion needs no call stack**: wherever a call stack of it
gets to from the end of a transaction, rollbacks of its callers included, its ledger gets to by a
run of its own. -/
theorem exists_ledger_run {exec : Block → σ → ι → Except ε (σ × ρ)}
    {as : List (CallStack.Action ι)} {c₀ c : CallStack σ ι Empty ρ} (hclosed : c₀.frames = [])
    (hrun : run (CallStack.step (Contract.ofExec exec)) c₀ as = some c) :
    ∃ as', run (Ledger.step exec) c₀.ledger as' = some c.ledger := by
  refine (CallStack.layered_run (I := fun l _ =>
    ∃ as', run (Ledger.step exec) c₀.ledger as' = some l) ?_ ?_ ?_ ?_
    (CallStack.layered_closed _ hclosed ⟨[], rfl⟩) hrun).1
  · rintro l b ⟨as', has'⟩ hb
    have hmine : Ledger.step exec l (.mine b) = some { l with block := b } := if_pos hb
    exact ⟨as' ++ [.mine b], run_concat_eq_some.mpr ⟨l, has', hmine⟩⟩
  · rintro l ps call s r ⟨as', has'⟩ ok
    obtain ⟨s', r', hexec, hdone⟩ := Contract.ofExec_start_eq_ok.mp ok
    obtain ⟨rfl, rfl⟩ := Progress.done.inj hdone
    exact ⟨as' ++ [.call call], run_concat_eq_some.mpr ⟨l, has', Ledger.step_call_ok hexec⟩⟩
  · intro l ps call s rest _ ok
    obtain ⟨s', r', -, hdone⟩ := Contract.ofExec_start_eq_ok.mp ok
    cases hdone
  · intro l call rest
    exact rest.elim

end Machine
