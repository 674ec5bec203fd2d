/-!
# Outcomes

Inversion of computations that end well.
-/

namespace CostBasis

theorem bind_eq_ok {ε α β : Type} {x : Except ε α} {f : α → Except ε β} {b : β} :
    (x >>= f) = .ok b ↔ ∃ a, x = .ok a ∧ f a = .ok b := by
  constructor
  · intro h
    cases x with
    | ok a => exact ⟨a, rfl, h⟩
    | error e => cases h
  · rintro ⟨a, rfl, h⟩
    exact h

/-- A computation has one result: what holds of some result holds of this one. -/
theorem of_exists_ok {ε α : Type} {x : Except ε α} {a : α} {motive : α → Prop}
    (some_result : ∃ b, x = .ok b ∧ motive b) (ended : x = .ok a) : motive a := by
  obtain ⟨b, ended', holds⟩ := some_result
  obtain rfl : b = a := Except.ok.inj (ended'.symm.trans ended)
  exact holds

/-- What is observed of a computation is so of its result. -/
theorem exists_of_observed {ε α β : Type} {x : Except ε α} {observe : α → β} {b : β}
    (observed : x.toOption.map observe = some b) : ∃ a, x = .ok a ∧ observe a = b := by
  cases x with
  | ok a => exact ⟨a, rfl, Option.some_inj.mp observed⟩
  | error => cases observed

theorem eq_of_observed {ε α β : Type} {x : Except ε α} {a : α} {observe : α → β} {b : β}
    (observed : x.toOption.map observe = some b) (ended : x = .ok a) : observe a = b := by
  obtain ⟨a', ended', same⟩ := exists_of_observed observed
  obtain rfl := Except.ok.inj (ended.symm.trans ended')
  exact same

theorem ok_bind {ε α β : Type} (a : α) (f : α → Except ε β) : (Except.ok a >>= f) = f a := rfl

theorem mapError_eq_ok {ε ε' α : Type} {x : Except ε α} {f : ε → ε'} {a : α} :
    x.mapError f = .ok a ↔ x = .ok a := by
  cases x with
  | ok => constructor <;> (rintro ⟨⟩; rfl)
  | error => constructor <;> rintro ⟨⟩

end CostBasis
