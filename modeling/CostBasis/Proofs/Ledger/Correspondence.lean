import CostBasis.Proofs.Ledger.Session

/-!
# Computations side by side

Two computations correspond when they stop for one reason or give related results.  Sequences of computations
that correspond step by step correspond, and so do the sessions of two positions that answer fill by fill.
-/

namespace CostBasis

/-- Two computations that stop for one reason, or give results that are related. -/
inductive Corresponds {ε α β : Type} (R : α → β → Prop) : Except ε α → Except ε β → Prop where
  | ok {a : α} {b : β} (related : R a b) : Corresponds R (.ok a) (.ok b)
  | error (e : ε) : Corresponds R (.error e) (.error e)

namespace Corresponds

section

variable {ε α β γ δ : Type} {R : α → β → Prop} {S : γ → δ → Prop} {x : Except ε α} {y : Except ε β}

theorem bind {f : α → Except ε γ} {g : β → Except ε δ} (h : Corresponds R x y)
    (related : ∀ a b, R a b → Corresponds S (f a) (g b)) : Corresponds S (x >>= f) (y >>= g) := by
  cases h with
  | ok same => exact related _ _ same
  | error e => exact .error e

/-- One computation gives both sides the same result. -/
theorem bind_left {f : α → Except ε γ} {g : α → Except ε δ} (x : Except ε α)
    (related : ∀ a, Corresponds S (f a) (g a)) : Corresponds S (x >>= f) (x >>= g) := by
  cases x with
  | ok a => exact related a
  | error e => exact .error e

theorem mapError {ε' : Type} (h : Corresponds R x y) (f : ε → ε') :
    Corresponds R (x.mapError f) (y.mapError f) := by
  cases h with
  | ok same => exact .ok same
  | error e => exact .error (f e)

/-- What is related is what the computations give. -/
theorem results (h : Corresponds R x y) : Corresponds (fun a b => R a b ∧ x = .ok a ∧ y = .ok b) x y := by
  cases h with
  | ok same => exact .ok ⟨same, rfl, rfl⟩
  | error e => exact .error e

theorem exists_ok {a : α} (h : Corresponds R (.ok a) y) : ∃ b, y = .ok b ∧ R a b := by
  cases h with
  | ok same => exact ⟨_, rfl, same⟩

end

theorem checked {α β : Type} {R : α → β → Prop} {x : Option α} {y : Option β} (h : Option.Rel R x y)
    (stage : Stage) : Corresponds R (Obstacle.checked stage x) (Obstacle.checked stage y) := by
  cases h with
  | some same => exact .ok same
  | none => exact .error _

end Corresponds

namespace Session

/-- Sessions stay related when their positions correspond and what those accept keeps the relation. -/
theorem corresponds_step {s s' : Session} {fill fill' : Fill} {S : Session → Session → Prop}
    {R : Position × FillOutcome → Position × FillOutcome → Prop}
    (filled : Corresponds R (s.position.apply fill) (s'.position.apply fill')) (same : S s s')
    (accepted : ∀ result result', R result result' →
      S (s.accept fill result.1 result.2) (s'.accept fill' result'.1 result'.2)) :
    Corresponds S (s.step (.fill fill)) (s'.step (.fill fill')) := by
  simp only [Session.step]
  generalize s.position.apply fill = x, s'.position.apply fill' = y at filled ⊢
  cases filled with
  | ok results => exact .ok (accepted _ _ results)
  | error failure =>
    cases failure with
    | refused error => exact .ok same
    | fault fault => exact .error fault

end Session

end CostBasis
