import ReputationPassport.Machine.Ledger

/-! # Call stacks: contracts that call back

A contract that calls another account in the middle of a function can be called again before that
function is done. Such a contract is given by two functions: `start` runs a call until it returns or
hands over control, and `resume` runs the rest of it once the callee has returned.

A `CallStack` is a ledger together with the frames that are open, innermost first: *pending* calls
of the contract that wait for their callee, and *foreign* frames of other contracts. Every frame
keeps the ledger it was opened with, because a revert undoes everything that happened inside it.
In between, any account may call the contract. A transaction is over when no frame is open, and only
then can a new block come.

The rule `Layered.step` reduces an invariant of all reachable call stacks to the contract: `start`
and `resume` have to keep it, given the list of the pending calls. -/

namespace Machine

open Evm

/-- How far a call gets on its own: it returns, or it calls another account and leaves the `rest` of
its body to be done. -/
inductive Progress (σ κ ρ : Type*) where
  | done (state : σ) (result : ρ)
  | calls (state : σ) (rest : κ)

/-- A contract: how a call starts, and how it goes on when the account it called has returned. -/
structure Contract (σ ι κ ρ ε : Type*) where
  start : Block → σ → ι → Except ε (Progress σ κ ρ)
  resume : Block → σ → κ → Except ε (σ × ρ)

/-- A contract whose calls run to completion: none hands over control. -/
def Contract.ofExec {σ ι ρ ε : Type*} (exec : Block → σ → ι → Except ε (σ × ρ)) :
    Contract σ ι Empty ρ ε where
  start b s c := (exec b s c).map fun p => .done p.1 p.2
  resume _ _ rest := rest.elim

/-- A call that runs to completion is done at once, or does not start. -/
theorem Contract.ofExec_start_eq_ok {σ ι ρ ε : Type*} {exec : Block → σ → ι → Except ε (σ × ρ)}
    {b : Block} {s : σ} {c : ι} {p : Progress σ Empty ρ} :
    (Contract.ofExec exec).start b s c = .ok p ↔ ∃ s' r, exec b s c = .ok (s', r) ∧
      p = .done s' r := by
  cases h : exec b s c with
  | ok v => simp [Contract.ofExec, h, Except.map, Prod.ext_iff, eq_comm]
  | error e => simp [Contract.ofExec, h, Except.map]

/-- An open frame with the ledger it was opened with. -/
inductive Frame (σ ι κ ρ : Type*) where
  | pending (call : ι) (rest : κ) (saved : Ledger σ ι ρ)
  | foreign (saved : Ledger σ ι ρ)

/-- A ledger and the open frames, innermost first. -/
structure CallStack (σ ι κ ρ : Type*) where
  ledger : Ledger σ ι ρ
  frames : List (Frame σ ι κ ρ)

variable {σ ι κ ρ ε : Type*}

/-- The ledger a rollback of the frame restores. -/
def Frame.saved : Frame σ ι κ ρ → Ledger σ ι ρ
  | .pending _ _ saved => saved
  | .foreign saved => saved

namespace CallStack

/-- The pending calls among the frames, with the rest of each. -/
def pendings : List (Frame σ ι κ ρ) → List (ι × κ)
  | [] => []
  | .pending call rest _ :: frames => (call, rest) :: pendings frames
  | .foreign _ :: frames => pendings frames

/-- What can happen next: a new block; a call of the contract, where `code` says whether the account
it calls, if any, has code to run; the callee of the innermost pending call returns (`accept`) or
reverts (`reject`); another contract is called (`enter`), returns (`leave`) or reverts
(`abort`). -/
inductive Action (ι : Type*) where
  | mine (block : Block)
  | call (call : ι) (code : Bool)
  | accept
  | reject
  | enter
  | leave
  | abort

/-- A freshly deployed contract with no frame open. -/
def deployed (b : Block) (s : σ) : CallStack σ ι κ ρ := ⟨Ledger.deployed b s, []⟩

/-- The ledger after a call: the result is committed, or the call is undone. -/
def settle (l saved : Ledger σ ι ρ) (c : ι) : Except ε (σ × ρ) → Ledger σ ι ρ
  | .ok (s, r) => l.commit s c r
  | .error _ => saved

/-- One action. An account without code is not called, so the call goes on at once. -/
def step (k : Contract σ ι κ ρ ε) (c : CallStack σ ι κ ρ) :
    Action ι → Option (CallStack σ ι κ ρ)
  | .mine b =>
      match c.frames with
      | [] => if c.ledger.block ≤ b then some ⟨{ c.ledger with block := b }, []⟩ else none
      | _ :: _ => none
  | .call call code =>
      match k.start c.ledger.block c.ledger.state call with
      | .ok (.done s r) => some ⟨c.ledger.commit s call r, c.frames⟩
      | .ok (.calls s rest) =>
          if code then
            some ⟨{ c.ledger with state := s }, .pending call rest c.ledger :: c.frames⟩
          else
            some ⟨settle c.ledger c.ledger call (k.resume c.ledger.block s rest), c.frames⟩
      | .error _ => some c
  | .accept =>
      match c.frames with
      | .pending call rest saved :: frames =>
          some ⟨settle c.ledger saved call (k.resume c.ledger.block c.ledger.state rest), frames⟩
      | _ => none
  | .reject =>
      match c.frames with
      | .pending _ _ saved :: frames => some ⟨saved, frames⟩
      | _ => none
  | .enter => some ⟨c.ledger, .foreign c.ledger :: c.frames⟩
  | .leave =>
      match c.frames with
      | .foreign _ :: frames => some ⟨c.ledger, frames⟩
      | _ => none
  | .abort =>
      match c.frames with
      | .foreign saved :: frames => some ⟨saved, frames⟩
      | _ => none

/-! ## What a step can do -/

/-- **The ways a step can go**: one constructor for each way the ledger and the frames change. -/
inductive Step (k : Contract σ ι κ ρ ε) (c : CallStack σ ι κ ρ) :
    Action ι → CallStack σ ι κ ρ → Prop where
  | mine {b : Block} (closed : c.frames = []) (later : c.ledger.block ≤ b) :
      Step k c (.mine b) ⟨{ c.ledger with block := b }, []⟩
  | done {call : ι} {code : Bool} {s : σ} {r : ρ}
      (ok : k.start c.ledger.block c.ledger.state call = .ok (.done s r)) :
      Step k c (.call call code) ⟨c.ledger.commit s call r, c.frames⟩
  | push {call : ι} {s : σ} {rest : κ}
      (ok : k.start c.ledger.block c.ledger.state call = .ok (.calls s rest)) :
      Step k c (.call call true)
        ⟨{ c.ledger with state := s }, .pending call rest c.ledger :: c.frames⟩
  | through {call : ι} {s s' : σ} {rest : κ} {r : ρ}
      (ok : k.start c.ledger.block c.ledger.state call = .ok (.calls s rest))
      (resumed : k.resume c.ledger.block s rest = .ok (s', r)) :
      Step k c (.call call false) ⟨c.ledger.commit s' call r, c.frames⟩
  | reverted {call : ι} {code : Bool} : Step k c (.call call code) c
  | accept {call : ι} {rest : κ} {saved : Ledger σ ι ρ} {frames : List (Frame σ ι κ ρ)} {s : σ}
      {r : ρ} (top : c.frames = .pending call rest saved :: frames)
      (resumed : k.resume c.ledger.block c.ledger.state rest = .ok (s, r)) :
      Step k c .accept ⟨c.ledger.commit s call r, frames⟩
  | refused {call : ι} {rest : κ} {saved : Ledger σ ι ρ} {frames : List (Frame σ ι κ ρ)} {e : ε}
      (top : c.frames = .pending call rest saved :: frames)
      (resumed : k.resume c.ledger.block c.ledger.state rest = .error e) :
      Step k c .accept ⟨saved, frames⟩
  | reject {call : ι} {rest : κ} {saved : Ledger σ ι ρ} {frames : List (Frame σ ι κ ρ)}
      (top : c.frames = .pending call rest saved :: frames) : Step k c .reject ⟨saved, frames⟩
  | enter : Step k c .enter ⟨c.ledger, .foreign c.ledger :: c.frames⟩
  | leave {saved : Ledger σ ι ρ} {frames : List (Frame σ ι κ ρ)}
      (top : c.frames = .foreign saved :: frames) : Step k c .leave ⟨c.ledger, frames⟩
  | abort {saved : Ledger σ ι ρ} {frames : List (Frame σ ι κ ρ)}
      (top : c.frames = .foreign saved :: frames) : Step k c .abort ⟨saved, frames⟩

variable {k : Contract σ ι κ ρ ε} {c c' : CallStack σ ι κ ρ} {a : Action ι}

/-- A call that is done at once is recorded. -/
theorem step_call_done {call : ι} {code : Bool} {s : σ} {r : ρ}
    (h : k.start c.ledger.block c.ledger.state call = .ok (.done s r)) :
    step k c (.call call code) = some ⟨c.ledger.commit s call r, c.frames⟩ := by
  simp only [step, h]

/-- A call that hands over control to an account with code opens a frame. -/
theorem step_call_push {call : ι} {s : σ} {rest : κ}
    (h : k.start c.ledger.block c.ledger.state call = .ok (.calls s rest)) :
    step k c (.call call true) =
      some ⟨{ c.ledger with state := s }, .pending call rest c.ledger :: c.frames⟩ := by
  simp only [step, h, if_true]

/-- A call that would hand over control to an account without code goes on at once. -/
theorem step_call_through {call : ι} {s s' : σ} {rest : κ} {r : ρ}
    (h : k.start c.ledger.block c.ledger.state call = .ok (.calls s rest))
    (hresume : k.resume c.ledger.block s rest = .ok (s', r)) :
    step k c (.call call false) = some ⟨c.ledger.commit s' call r, c.frames⟩ := by
  simp only [step, h, hresume, Bool.false_eq_true, if_false, settle]

/-- A call that does not start is undone. -/
theorem step_call_error {call : ι} {code : Bool} {e : ε}
    (h : k.start c.ledger.block c.ledger.state call = .error e) :
    step k c (.call call code) = some c := by
  simp only [step, h]

/-- When its callee returns, the pending call goes on. -/
theorem step_accept {call : ι} {rest : κ} {saved : Ledger σ ι ρ} {frames : List (Frame σ ι κ ρ)}
    {s : σ} {r : ρ} (top : c.frames = .pending call rest saved :: frames)
    (h : k.resume c.ledger.block c.ledger.state rest = .ok (s, r)) :
    step k c .accept = some ⟨c.ledger.commit s call r, frames⟩ := by
  simp only [step, top, h, settle]

/-- When its callee reverts, the pending call is undone. -/
theorem step_reject {call : ι} {rest : κ} {saved : Ledger σ ι ρ} {frames : List (Frame σ ι κ ρ)}
    (top : c.frames = .pending call rest saved :: frames) :
    step k c .reject = some ⟨saved, frames⟩ := by
  simp only [step, top]

/-- **Inversion of a step.** -/
theorem step_cases (h : step k c a = some c') : Step k c a c' := by
  cases a with
  | mine b =>
      simp only [step] at h
      split at h
      · next hframes =>
        rw [Option.ite_none_right_eq_some, Option.some.injEq] at h
        exact h.2 ▸ .mine hframes h.1
      · exact absurd h (by simp)
  | call call code =>
      simp only [step] at h
      split at h
      · next s r hstart =>
        exact Option.some.inj h ▸ .done hstart
      · next s rest hstart =>
        cases code with
        | true =>
            rw [if_pos rfl, Option.some.injEq] at h
            exact h ▸ .push hstart
        | false =>
            rw [if_neg Bool.false_ne_true, Option.some.injEq] at h
            cases hresume : k.resume c.ledger.block s rest with
            | ok v => exact h ▸ hresume ▸ .through hstart hresume
            -- the whole call is undone, its start included
            | error e => exact h ▸ hresume ▸ .reverted
      · exact Option.some.inj h ▸ .reverted
  | accept =>
      simp only [step] at h
      split at h
      · next call rest saved frames hframes =>
        rw [Option.some.injEq] at h
        cases hresume : k.resume c.ledger.block c.ledger.state rest with
        | ok v => exact h ▸ hresume ▸ .accept hframes hresume
        | error e => exact h ▸ hresume ▸ .refused hframes hresume
      · exact absurd h (by simp)
  | reject =>
      simp only [step] at h
      split at h
      · next hframes => exact Option.some.inj h ▸ .reject hframes
      · exact absurd h (by simp)
  | enter => exact Option.some.inj h ▸ .enter
  | leave =>
      simp only [step] at h
      split at h
      · next hframes => exact Option.some.inj h ▸ .leave hframes
      · exact absurd h (by simp)
  | abort =>
      simp only [step] at h
      split at h
      · next hframes => exact Option.some.inj h ▸ .abort hframes
      · exact absurd h (by simp)

/-! ## Layered invariants -/

/-- The invariant holds of the ledger each frame would restore, with the calls pending below it. -/
def Saved (I : Ledger σ ι ρ → List (ι × κ) → Prop) : List (Frame σ ι κ ρ) → Prop
  | [] => True
  | f :: frames => I f.saved (pendings frames) ∧ Saved I frames

/-- **A layered invariant**: it holds of the ledger with the calls that are pending, and of every
ledger that a rollback would restore. -/
def Layered (I : Ledger σ ι ρ → List (ι × κ) → Prop) (c : CallStack σ ι κ ρ) : Prop :=
  I c.ledger (pendings c.frames) ∧ Saved I c.frames

variable {I : Ledger σ ι ρ → List (ι × κ) → Prop}

theorem layered_closed (c : CallStack σ ι κ ρ) (h : c.frames = []) (hI : I c.ledger []) :
    Layered I c := by
  rw [Layered, h]
  exact ⟨hI, trivial⟩

/-- The ledger of the innermost frame is restored with the calls pending below it. -/
theorem Layered.rollback {f : Frame σ ι κ ρ} {frames : List (Frame σ ι κ ρ)} (h : Layered I c)
    (top : c.frames = f :: frames) : Layered I ⟨f.saved, frames⟩ := by
  have hsaved := h.2
  rw [top] at hsaved
  exact hsaved

/-- **Step rule.** A layered invariant survives a step if it survives the part of the contract the
step runs: the passage to a later block, a call that is done at once, the start of a call up to the
account it calls, and the rest of a pending call. -/
theorem Layered.step (h : Layered I c) (hstep : Step k c a c')
    (hmine : ∀ b, a = .mine b → c.ledger.block ≤ b → I c.ledger [] →
      I { c.ledger with block := b } [])
    (hdone : ∀ call code s r, a = .call call code →
      k.start c.ledger.block c.ledger.state call = .ok (.done s r) →
      I (c.ledger.commit s call r) (pendings c.frames))
    (hcalls : ∀ call code s rest, a = .call call code →
      k.start c.ledger.block c.ledger.state call = .ok (.calls s rest) →
      I { c.ledger with state := s } ((call, rest) :: pendings c.frames))
    (hresume : ∀ l call rest ps s r, I l ((call, rest) :: ps) →
      k.resume l.block l.state rest = .ok (s, r) → I (l.commit s call r) ps) :
    Layered I c' := by
  cases hstep with
  | mine closed later =>
      have hI := h.1
      rw [closed] at hI
      exact ⟨hmine _ rfl later hI, trivial⟩
  | done ok => exact ⟨hdone _ _ _ _ rfl ok, h.2⟩
  | push ok => exact ⟨hcalls _ _ _ _ rfl ok, h.1, h.2⟩
  | @through call s s' rest r ok resumed =>
      -- nobody is called, so the call is pending only between its two parts
      have hstarted := hcalls call false s rest rfl ok
      exact ⟨hresume { c.ledger with state := s } call rest _ s' r hstarted resumed, h.2⟩
  | reverted => exact h
  | accept top resumed =>
      obtain ⟨hI, hsaved⟩ := h
      rw [top] at hI hsaved
      exact ⟨hresume _ _ _ _ _ _ hI resumed, hsaved.2⟩
  | refused top resumed => exact h.rollback top
  | reject top => exact h.rollback top
  | enter => exact ⟨h.1, h.1, h.2⟩
  | leave top =>
      obtain ⟨hI, hsaved⟩ := h
      rw [top] at hI hsaved
      exact ⟨hI, hsaved.2⟩
  | abort top => exact h.rollback top

/-- **Invariant rule for call stacks**: what `start`, `resume` and later blocks keep holds, layer by
layer, after every run. -/
theorem layered_run
    (hmine : ∀ l b, I l [] → l.block ≤ b → I { l with block := b } [])
    (hdone : ∀ l ps call s r, I l ps → k.start l.block l.state call = .ok (.done s r) →
      I (l.commit s call r) ps)
    (hcalls : ∀ l ps call s rest, I l ps → k.start l.block l.state call = .ok (.calls s rest) →
      I { l with state := s } ((call, rest) :: ps))
    (hresume : ∀ l call rest ps s r, I l ((call, rest) :: ps) →
      k.resume l.block l.state rest = .ok (s, r) → I (l.commit s call r) ps)
    (h : Layered I c) {as : List (Action ι)} (hrun : run (CallStack.step k) c as = some c') :
    Layered I c' := by
  refine run_invariant (I := Layered I) ?_ h hrun
  intro c a c' hc hstep
  exact hc.step (step_cases hstep) (fun b _ hb hI => hmine _ b hI hb)
    (fun call _ s r _ ok => hdone _ _ call s r hc.1 ok)
    (fun call _ s rest _ ok => hcalls _ _ call s rest hc.1 ok) hresume

/-- What every frame would restore can be weakened. -/
theorem Saved.mono {J : Ledger σ ι ρ → List (ι × κ) → Prop} (hIJ : ∀ l ps, I l ps → J l ps)
    {frames : List (Frame σ ι κ ρ)} (h : Saved I frames) : Saved J frames := by
  induction frames with
  | nil => exact trivial
  | cons f frames ih => exact ⟨hIJ _ _ h.1, ih h.2⟩

/-- A layered invariant can be weakened. -/
theorem Layered.mono {J : Ledger σ ι ρ → List (ι × κ) → Prop} (hIJ : ∀ l ps, I l ps → J l ps)
    (h : Layered I c) : Layered J c :=
  ⟨hIJ _ _ h.1, h.2.mono hIJ⟩

/-! ## Where recorded calls come from -/

/-- A run starts a call at some point, and the call gets this far. -/
def Started (k : Contract σ ι κ ρ ε) (c₀ : CallStack σ ι κ ρ) (as : List (Action ι)) (call : ι)
    (p : Progress σ κ ρ) : Prop :=
  ∃ bs code cs u, as = bs ++ .call call code :: cs ∧ run (CallStack.step k) c₀ bs = some u ∧
    k.start u.ledger.block u.ledger.state call = .ok p

/-- A run starts a call that returns this result, at once or when it is resumed. -/
def Returned (k : Contract σ ι κ ρ ε) (c₀ : CallStack σ ι κ ρ) (as : List (Action ι))
    (e : Entry ι ρ) : Prop :=
  (∃ s, Started k c₀ as e.call (.done s e.result)) ∨
    ∃ s rest b s₁ s₂, Started k c₀ as e.call (.calls s rest) ∧
      k.resume b s₁ rest = .ok (s₂, e.result)

variable {c₀ : CallStack σ ι κ ρ} {as : List (Action ι)} {call : ι}

/-- A call that was started stays started as the run goes on. -/
theorem Started.concat {p : Progress σ κ ρ} (h : Started k c₀ as call p) (a : Action ι) :
    Started k c₀ (as ++ [a]) call p := by
  obtain ⟨bs, code, cs, u, rfl, hu, hp⟩ := h
  exact ⟨bs, code, cs ++ [a], u, by simp, hu, hp⟩

/-- The call a run ends with is started there. -/
theorem Started.last {p : Progress σ κ ρ} {code : Bool}
    (hrun : run (CallStack.step k) c₀ as = some c)
    (hp : k.start c.ledger.block c.ledger.state call = .ok p) :
    Started k c₀ (as ++ [.call call code]) call p :=
  ⟨as, code, [], c, rfl, hrun, hp⟩

theorem Returned.concat {e : Entry ι ρ} (h : Returned k c₀ as e) (a : Action ι) :
    Returned k c₀ (as ++ [a]) e := by
  rcases h with ⟨s, h⟩ | ⟨s, rest, b, s₁, s₂, h, hresume⟩
  · exact Or.inl ⟨s, h.concat a⟩
  · exact Or.inr ⟨s, rest, b, s₁, s₂, h.concat a, hresume⟩

/-- **Origin rule**: every recorded call was started by the run in a state it visited, and got from
there to the result that is recorded. -/
theorem returned_of_run {b₀ : Block} {s₀ : σ}
    (hrun : run (CallStack.step k) (deployed b₀ s₀) as = some c) :
    ∀ e ∈ c.ledger.history, Returned k (deployed b₀ s₀) as e := by
  -- the pending calls were started too, so what they return later has an origin
  suffices h : Layered (fun l ps => (∀ e ∈ l.history, Returned k (deployed b₀ s₀) as e) ∧
      ∀ p ∈ ps, ∃ s, Started k (deployed b₀ s₀) as p.1 (.calls s p.2)) c from h.1.1
  refine trace_invariant (P := fun as c => Layered (fun l ps =>
      (∀ e ∈ l.history, Returned k (deployed b₀ s₀) as e) ∧
      ∀ p ∈ ps, ∃ s, Started k (deployed b₀ s₀) as p.1 (.calls s p.2)) c) ?_ ?_ hrun
  · exact layered_closed _ rfl ⟨fun _ he => absurd he List.not_mem_nil,
      fun _ hp => absurd hp List.not_mem_nil⟩
  · intro as c a c' hc h hstep
    have hold := h.mono (J := fun l ps =>
        (∀ e ∈ l.history, Returned k (deployed b₀ s₀) (as ++ [a]) e) ∧
        ∀ p ∈ ps, ∃ s, Started k (deployed b₀ s₀) (as ++ [a]) p.1 (.calls s p.2))
      fun l ps ⟨hhistory, hps⟩ => ⟨fun e he => (hhistory e he).concat a,
        fun p hp => (hps p hp).imp fun _ hs => hs.concat a⟩
    refine hold.step (step_cases hstep) ?_ ?_ ?_ ?_
    · exact fun _ _ _ hI => hI
    · rintro call code s r rfl hstart
      refine ⟨fun e he => ?_, hold.1.2⟩
      rcases List.mem_append.mp he with he | he
      · exact hold.1.1 e he
      · rw [List.mem_singleton.mp he]
        exact Or.inl ⟨s, Started.last hc hstart⟩
    · rintro call code s rest rfl hstart
      refine ⟨hold.1.1, List.forall_mem_cons.mpr ⟨⟨s, Started.last hc hstart⟩, hold.1.2⟩⟩
    · rintro l call rest ps s r ⟨hhistory, hps⟩ hresume
      obtain ⟨⟨s₀, hstarted⟩, hps⟩ := List.forall_mem_cons.mp hps
      refine ⟨fun e he => ?_, hps⟩
      rcases List.mem_append.mp he with he | he
      · exact hhistory e he
      · rw [List.mem_singleton.mp he]
        exact Or.inr ⟨s₀, rest, l.block, l.state, s, hstarted, hresume⟩

/-! ## What a rollback restores -/

/-- A frame is opened with the ledger it would restore. -/
theorem frames_of_step (h : Step k c a c') {f : Frame σ ι κ ρ} (hf : f ∈ c'.frames) :
    f ∈ c.frames ∨ f.saved = c.ledger := by
  cases h with
  | mine => exact absurd hf List.not_mem_nil
  | done => exact Or.inl hf
  | push ok => exact (List.mem_cons.mp hf).symm.imp_right (congrArg Frame.saved)
  | through => exact Or.inl hf
  | reverted => exact Or.inl hf
  | accept top => exact Or.inl (top ▸ List.mem_cons_of_mem _ hf)
  | refused top => exact Or.inl (top ▸ List.mem_cons_of_mem _ hf)
  | reject top => exact Or.inl (top ▸ List.mem_cons_of_mem _ hf)
  | enter => exact (List.mem_cons.mp hf).symm.imp_right (congrArg Frame.saved)
  | leave top => exact Or.inl (top ▸ List.mem_cons_of_mem _ hf)
  | abort top => exact Or.inl (top ▸ List.mem_cons_of_mem _ hf)

/-- The ledger an open frame would restore is one the run has been in. -/
theorem saved_of_run (hclosed : c₀.frames = []) (hrun : run (CallStack.step k) c₀ as = some c) :
    ∀ f ∈ c.frames, ∃ bs u, bs <+: as ∧ run (CallStack.step k) c₀ bs = some u ∧
      u.ledger = f.saved := by
  refine trace_invariant (P := fun as c => ∀ f ∈ c.frames, ∃ bs u, bs <+: as ∧
    run (CallStack.step k) c₀ bs = some u ∧ u.ledger = f.saved) ?_ ?_ hrun
  · rw [hclosed]
    exact fun f hf => absurd hf List.not_mem_nil
  · intro as c a c' hc ih hstep f hf
    rcases frames_of_step (step_cases hstep) hf with hold | hnew
    · obtain ⟨bs, u, hbs, hu, hledger⟩ := ih f hold
      exact ⟨bs, u, hbs.trans (List.prefix_append as [a]), hu, hledger⟩
    · exact ⟨as, c, List.prefix_append as [a], hc, hnew.symm⟩

/-- **Rollback rule**: a rollback takes the ledger back to one the run has been in. -/
theorem rollback_of_run (hclosed : c₀.frames = []) (hrun : run (CallStack.step k) c₀ as = some c)
    (hstep : CallStack.step k c a = some c') (hback : a = .reject ∨ a = .abort) :
    ∃ bs u, bs <+: as ∧ run (CallStack.step k) c₀ bs = some u ∧ u.ledger = c'.ledger := by
  have hsaved := saved_of_run hclosed hrun
  rcases hback with rfl | rfl
  · cases step_cases hstep with
    | reject top => exact hsaved _ (top ▸ List.mem_cons_self)
  · cases step_cases hstep with
    | abort top => exact hsaved _ (top ▸ List.mem_cons_self)

end CallStack

end Machine
