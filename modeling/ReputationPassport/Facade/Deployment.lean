import ReputationPassport.Facade.Filing
import ReputationPassport.Passport.Contract

/-! # The facade over the DAO and the passport token

`PassportFacade.issuePassport` forwards to `PassportSBT.safeMint` by a message call of its own, so
the token sees the facade as `msg.sender`, and the receiver of the mint gets control before the call
is done. A `Deployment` is the `World` of the facade and the DAO together with the token, as a
`Machine.Contract` that can be called again in the meantime.

`issuePassport` asks for `FACADE_ADMIN_ROLE` and carries no other modifier. The two getters of the
facade read the other contracts and change nothing; they have no counterpart here. -/

namespace ReputationPassport.PassportFacade

open Evm Machine OpenZeppelin

/-- The facade, the DAO and the passport token. -/
structure Deployment where
  world : World
  passport : PassportSBT.State

/-- All contracts right after their deployment. -/
def Deployment.deploy (self facadeDeployer daoDeployer passportDeployer : Account) :
    Deployment where
  world := World.deploy self facadeDeployer daoDeployer
  passport := PassportSBT.deploy passportDeployer

/-- The calls that change the deployment. -/
inductive Call where
  | world (fn : Fn)
  | passport (fn : PassportSBT.Fn)
  | issuePassport (to' : Address) (subjectHash credentialType uri : Bytes) (expiresAt : Nat)

/-- How far a call of the token gets, seen from the deployment. -/
def Deployment.withPassport (d : Deployment) :
    PassportSBT.Outcome → Progress Deployment PassportSBT.Rest (Option Nat)
  | .done passport r => .done { d with passport } r
  | .calls passport rest => .calls { d with passport } rest

/-- `PassportFacade.issuePassport`, up to the call of the receiver. -/
def issuePassport (b : Block) (d : Deployment) (sender : Account) (to' : Address)
    (subjectHash credentialType uri : Bytes) (expiresAt : Nat) :
    Result (Progress Deployment PassportSBT.Rest (Option Nat)) := do
  onlyRole d.world.facade.roles facadeAdminRole sender
  -- `msg.sender` in the token is the facade
  let p ← PassportSBT.start b d.passport
    ⟨d.world.self, .safeMint to' subjectHash credentialType uri expiresAt⟩
  pure (d.withPassport p)

/-- Start a call: run it until it returns or calls the receiver of a token. -/
def start (b : Block) (d : Deployment) (c : Message Call) :
    Result (Progress Deployment PassportSBT.Rest (Option Nat)) :=
  match c.fn with
  | .world fn => do
      let (world, r) ← exec b d.world ⟨c.sender, fn⟩
      pure (.done { d with world } r)
  | .passport fn => do
      let p ← PassportSBT.start b d.passport ⟨c.sender, fn⟩
      pure (d.withPassport p)
  | .issuePassport to' subjectHash credentialType uri expiresAt =>
      issuePassport b d c.sender to' subjectHash credentialType uri expiresAt

/-- Resume a call after the receiver has returned. -/
def resume (b : Block) (d : Deployment) (rest : PassportSBT.Rest) :
    Result (Deployment × Option Nat) := do
  let (passport, r) ← PassportSBT.resume b d.passport rest
  pure ({ d with passport }, r)

/-- The contracts together. -/
def contract : Contract Deployment (Message Call) PassportSBT.Rest (Option Nat)
    (Revert OzError) := ⟨start, resume⟩

/-! ## What a call does to the facade -/

/-- The world is left alone by what a call of the token does. -/
theorem Deployment.withPassport_cases (d : Deployment) (p : PassportSBT.Outcome) :
    (∃ passport r, p = .done passport r ∧ d.withPassport p = .done { d with passport } r) ∨
      ∃ passport rest, p = .calls passport rest ∧
        d.withPassport p = .calls { d with passport } rest := by
  cases p with
  | done passport r => exact Or.inl ⟨passport, r, rfl, rfl⟩
  | calls passport rest => exact Or.inr ⟨passport, rest, rfl, rfl⟩

/-- **Inversion of a start**: a call of the world is done at once, and every other call is a call of
the token, made by the sender or by the facade. -/
theorem start_cases {b : Block} {d : Deployment} {c : Message Call}
    {p : Progress Deployment PassportSBT.Rest (Option Nat)} (h : start b d c = .ok p) :
    (∃ fn w r, c.fn = .world fn ∧ exec b d.world ⟨c.sender, fn⟩ = .ok (w, r) ∧
      p = .done { d with world := w } r) ∨
    ∃ a fn q, PassportSBT.start b d.passport ⟨a, fn⟩ = .ok q ∧ p = d.withPassport q := by
  obtain ⟨sender, fn⟩ := c
  cases fn with
  | world fn =>
      simp only [start, bind_eq_ok, pure_eq_ok, Prod.exists] at h
      obtain ⟨w, r, hw, rfl⟩ := h
      exact Or.inl ⟨fn, w, r, rfl, hw, rfl⟩
  | passport fn =>
      simp only [start, bind_eq_ok, pure_eq_ok] at h
      obtain ⟨q, hq, rfl⟩ := h
      exact Or.inr ⟨sender, fn, q, hq, rfl⟩
  | issuePassport to' subjectHash credentialType uri expiresAt =>
      simp only [start, issuePassport, bind_eq_ok, pure_eq_ok, onlyRole_eq_ok,
        exists_and_left, exists_const] at h
      obtain ⟨-, q, hq, rfl⟩ := h
      exact Or.inr ⟨d.world.self, _, q, hq, rfl⟩

/-- A call that is done at once leaves the flag of the facade. -/
theorem facade_paused_of_done {b : Block} {d d' : Deployment} {c : Message Call}
    {r : Option Nat} (h : start b d c = .ok (.done d' r)) :
    d'.world.facade.paused = d.world.facade.paused := by
  rcases start_cases h with ⟨fn, w, r', -, hw, hp⟩ | ⟨a, fn, q, -, hp⟩
  · obtain ⟨rfl, -⟩ := Progress.done.inj hp
    exact (exec_cases hw).2.1
  · rcases d.withPassport_cases q with ⟨passport, r', -, hq⟩ | ⟨passport, rest, -, hq⟩
    · obtain ⟨rfl, -⟩ := Progress.done.inj (hp.trans hq)
      rfl
    · exact absurd (hp.trans hq) (by simp)

/-- A call that hands over control leaves the flag of the facade. -/
theorem facade_paused_of_calls {b : Block} {d d' : Deployment} {c : Message Call}
    {rest : PassportSBT.Rest} (h : start b d c = .ok (.calls d' rest)) :
    d'.world.facade.paused = d.world.facade.paused := by
  rcases start_cases h with ⟨fn, w, r', -, -, hp⟩ | ⟨a, fn, q, -, hp⟩
  · exact absurd hp (by simp)
  · rcases d.withPassport_cases q with ⟨passport, r', -, hq⟩ | ⟨passport, rest', -, hq⟩
    · exact absurd (hp.trans hq) (by simp)
    · obtain ⟨rfl, -⟩ := Progress.calls.inj (hp.trans hq)
      rfl

/-- The rest of a call leaves the facade and the DAO. -/
theorem world_of_resume {b : Block} {d d' : Deployment} {rest : PassportSBT.Rest}
    {r : Option Nat} (h : resume b d rest = .ok (d', r)) : d'.world = d.world := by
  simp only [resume, bind_eq_ok, pure_eq_ok, Prod.exists, Prod.mk.injEq] at h
  obtain ⟨passport, r', -, rfl, -⟩ := h
  rfl

end ReputationPassport.PassportFacade
