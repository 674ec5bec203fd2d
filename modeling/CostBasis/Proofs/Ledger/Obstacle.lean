import CostBasis.Fault
import CostBasis.Proofs.Decimal.Grid
import CostBasis.Proofs.Outcome

/-!
# Computations that may be stopped

Inversion of computations that succeed, and the computations that no trusted operation stops.
-/

namespace CostBasis

namespace Obstacle

open Decimal

theorem checked_eq_ok {α : Type} {stage : Stage} {result : Option α} {a : α} :
    checked stage result = .ok a ↔ result = some a := by
  cases result <;> simp [checked]

theorem checked_some {α : Type} {stage : Stage} {result : Option α} {a : α} (h : result = some a) :
    checked stage result = .ok a := checked_eq_ok.mpr h

theorem subtract_eq_ok {a b d : Decimal} (h : subtract a b = .ok d) :
    nearest? (a.value - b.value) = some d.value := by
  unfold subtract at h
  split at h
  next found =>
    cases h
    exact (sub?_rounds a b).nearest?_eq found
  next => cases h

theorem multiply_eq_ok {a b d : Decimal} (h : multiply a b = .ok d) :
    nearest? (a.value * b.value) = some d.value := by
  unfold multiply at h
  split at h
  next found =>
    cases h
    exact (mul?_rounds a b).nearest?_eq found
  next => cases h

theorem exists_subtract {a b : Decimal} (close : |a.value - b.value| < limit) :
    ∃ d, subtract a b = .ok d ∧ nearest? (a.value - b.value) = some d.value := by
  obtain ⟨d, found, nearest⟩ := (sub?_rounds a b).exists_of_lt close
  exact ⟨d, by rw [subtract, found], nearest⟩

theorem exists_multiply {a b : Decimal} (close : |a.value * b.value| < limit) :
    ∃ d, multiply a b = .ok d ∧ nearest? (a.value * b.value) = some d.value := by
  obtain ⟨d, found, nearest⟩ := (mul?_rounds a b).exists_of_lt close
  exact ⟨d, by rw [multiply, found], nearest⟩

theorem exists_subtract_exact {a b : Decimal} (difference : Representable (a.value - b.value)) :
    ∃ d, subtract a b = .ok d ∧ d.value = a.value - b.value := by
  obtain ⟨d, found, value⟩ := (sub?_rounds a b).exact difference
  exact ⟨d, by rw [subtract, found], value⟩

/-- Taking no more than there is stays in range. -/
theorem exists_subtract_of_le {a b : Decimal} (nonneg : 0 ≤ b.value) (le : b.value ≤ a.value) :
    ∃ d, subtract a b = .ok d ∧ nearest? (a.value - b.value) = some d.value := by
  refine exists_subtract (lt_of_le_of_lt ?_ maxMantissa_lt_limit)
  have bound := (le_abs_self _).trans (abs_value_le a)
  rw [abs_le]
  constructor <;> linarith

/-- A product with a sign is exact. -/
theorem exists_multiply_sign {a b : Decimal} (unit : b.value = 1 ∨ b.value = -1) :
    ∃ d, multiply a b = .ok d ∧ d.value = a.value * b.value := by
  have product : Representable (a.value * b.value) := by
    cases unit with
    | inl one =>
      rw [one, mul_one]
      exact representable_value a
    | inr minus =>
      rw [minus, mul_neg_one]
      exact (representable_value a).neg
  obtain ⟨d, found, value⟩ := (mul?_rounds a b).exact product
  exact ⟨d, by rw [multiply, found], value⟩

end Obstacle

def FaultFree {α : Type} (x : Except Obstacle α) : Prop := ∀ fault, x ≠ .error (.fault fault)

namespace FaultFree

variable {α β : Type}

theorem ok (a : α) : FaultFree (.ok a) := by
  intro fault h
  cases h

theorem of_ok {x : Except Obstacle α} {a : α} (h : x = .ok a) : FaultFree x := h ▸ ok a

theorem checked (stage : Stage) (result : Option α) : FaultFree (Obstacle.checked stage result) := by
  intro fault h
  cases result <;> cases h

theorem bind {x : Except Obstacle α} {f : α → Except Obstacle β} (hx : FaultFree x)
    (hf : ∀ a, x = .ok a → FaultFree (f a)) : FaultFree (x >>= f) := by
  intro fault h
  cases x with
  | ok a => exact hf a rfl fault h
  | error e =>
    cases h
    exact hx fault rfl

end FaultFree

end CostBasis
