import SmartWallet.Proofs.Except
import SmartWallet.Wallet.Services

set_option autoImplicit false

/-! # Running actions

`Action.exec x s` is the outcome of the action `x` in the state `s`, together with the state
after it. There is one lemma for each way to build an action, so that a proof about an operation
goes through its steps without opening the monads. `exec_bind_eq_ok_iff` and
`exec_bind_eq_error_iff` take a run apart: a sequence succeeds when both parts do, and fails in
its first part or in its second. -/

namespace SmartWallet

namespace Action

variable {σ α β ε : Type}

/-- The outcome of an action in a state, and the state after it. -/
def exec (x : Action σ α) (s : SessionState σ) : Except WalletError α × SessionState σ :=
  x.run.run s

/-! ## Single steps -/

@[simp] theorem exec_pure (a : α) (s : SessionState σ) :
    (pure a : Action σ α).exec s = (.ok a, s) := rfl

@[simp] theorem exec_get (s : SessionState σ) :
    (get : Action σ (SessionState σ)).exec s = (.ok s, s) := rfl

@[simp] theorem exec_modify (f : SessionState σ → SessionState σ) (s : SessionState σ) :
    (modify f : Action σ PUnit).exec s = (.ok ⟨⟩, f s) := rfl

@[simp] theorem exec_ask (request : Request) (fail : ε → WalletError)
    (answer : σ → Except ε α × σ) (s : SessionState σ) :
    (ask request fail answer).exec s
      = ((answer s.services).1.mapError fail,
        { s with services := (answer s.services).2, journal := s.journal ++ [request] }) := rfl

@[simp] theorem exec_ofExcept (fail : ε → WalletError) (x : Except ε α) (s : SessionState σ) :
    (ofExcept fail x : Action σ α).exec s = (x.mapError fail, s) := rfl

@[simp] theorem exec_liftExcept (x : Except AuthError α) (s : SessionState σ) :
    (liftM x : Action σ α).exec s = (x.mapError .auth, s) := rfl

@[simp] theorem exec_liftState (x : StateM (SessionState σ) α) (s : SessionState σ) :
    (liftM x : Action σ α).exec s = (.ok (x.run s).1, (x.run s).2) := rfl

/-! ## Sequences -/

theorem exec_bind (x : Action σ α) (f : α → Action σ β) (s : SessionState σ) :
    (x >>= f).exec s = match x.exec s with
      | (.ok a, t) => (f a).exec t
      | (.error e, t) => (.error e, t) := by
  show ((x >>= f).run.run s) = _
  rw [ExceptT.run_bind]
  unfold exec
  rw [StateT.run_bind]
  rcases hx : x.run.run s with ⟨r, t⟩
  cases r <;> rfl

theorem exec_map (g : α → β) (x : Action σ α) (s : SessionState σ) :
    (g <$> x).exec s = ((x.exec s).1.map g, (x.exec s).2) := by
  rw [map_eq_pure_bind, exec_bind]
  rcases x.exec s with ⟨r, t⟩
  cases r <;> rfl

theorem exec_bind_of_ok {x : Action σ α} {f : α → Action σ β} {s t : SessionState σ} {a : α}
    (h : x.exec s = (.ok a, t)) : (x >>= f).exec s = (f a).exec t := by
  rw [exec_bind, h]

theorem exec_bind_of_error {x : Action σ α} {f : α → Action σ β} {s t : SessionState σ}
    {e : WalletError} (h : x.exec s = (.error e, t)) : (x >>= f).exec s = (.error e, t) := by
  rw [exec_bind, h]

theorem exec_lift_bind_of_ok {x : Except AuthError α} {f : α → Action σ β} {a : α}
    (h : x = .ok a) (s : SessionState σ) :
    ((liftM x : Action σ α) >>= f).exec s = (f a).exec s := by
  rw [exec_bind, exec_liftExcept, h]
  rfl

theorem exec_lift_bind_of_error {x : Except AuthError α} {f : α → Action σ β} {e : AuthError}
    (h : x = .error e) (s : SessionState σ) :
    ((liftM x : Action σ α) >>= f).exec s = (.error (.auth e), s) := by
  rw [exec_bind, exec_liftExcept, h]
  rfl

/-- A sequence succeeds when both of its parts do. -/
theorem exec_bind_eq_ok_iff {x : Action σ α} {f : α → Action σ β} {s t : SessionState σ} {b : β} :
    (x >>= f).exec s = (.ok b, t) ↔ ∃ a u, x.exec s = (.ok a, u) ∧ (f a).exec u = (.ok b, t) := by
  rw [exec_bind]
  rcases x.exec s with ⟨r, u⟩
  cases r with
  | error e => simp
  | ok a =>
      constructor
      · exact fun h => ⟨a, u, rfl, h⟩
      · rintro ⟨a, u, ⟨⟩, h⟩
        exact h

/-- A sequence fails in its first part, or in its second. -/
theorem exec_bind_eq_error_iff {x : Action σ α} {f : α → Action σ β} {s t : SessionState σ}
    {e : WalletError} :
    (x >>= f).exec s = (.error e, t) ↔
      x.exec s = (.error e, t) ∨ ∃ a u, x.exec s = (.ok a, u) ∧ (f a).exec u = (.error e, t) := by
  rw [exec_bind]
  rcases x.exec s with ⟨r, u⟩
  cases r with
  | error e => simp
  | ok a =>
      constructor
      · exact fun h => .inr ⟨a, u, rfl, h⟩
      · rintro (⟨⟨⟩⟩ | ⟨a, u, ⟨⟩, h⟩)
        exact h

end Action

end SmartWallet
