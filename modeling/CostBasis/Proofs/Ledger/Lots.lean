import CostBasis.Lot
import CostBasis.Proofs.Ledger.Obstacle

/-!
# Sound lots

A lot is sound when something is left of it, its price is not negative and its cost is in range.
Consuming part of a sound lot, merging two of them and averaging any number of them are never stopped
by a trusted operation, and what they leave is sound again.
-/

namespace CostBasis

open Decimal

namespace Lot

/-- A lot as a ledger holds it. -/
structure Sound (lot : Lot) : Prop where
  quantity_pos : 0 < lot.quantity.value
  price_nonneg : 0 ≤ lot.price.value
  cost_lt : lot.quantity.value * lot.price.value < limit

/-! ## Making and consuming -/

theorem make?_eq_some {quantity price : Decimal} {lot : Lot} (h : make? quantity price = some lot) :
    lot = ⟨quantity, price⟩ ∧ |quantity.value * price.value| < limit := by
  unfold make? at h
  cases product : quantity.mul? price with
  | none =>
    rw [product] at h
    cases h
  | some cost =>
    rw [product] at h
    cases h
    exact ⟨rfl, abs_lt_limit_of_nearest? ((mul?_rounds _ _).nearest?_eq product)⟩

theorem exists_make? {quantity price : Decimal} (close : |quantity.value * price.value| < limit) :
    make? quantity price = some ⟨quantity, price⟩ := by
  obtain ⟨cost, found, _⟩ := (mul?_rounds quantity price).exists_of_lt close
  simp only [make?]
  rw [found]
  rfl

theorem Sound.of_make? {quantity price : Decimal} {lot : Lot} (h : make? quantity price = some lot)
    (quantity_pos : 0 < quantity.value) (price_nonneg : 0 ≤ price.value) : lot.Sound := by
  obtain ⟨rfl, close⟩ := make?_eq_some h
  exact ⟨quantity_pos, price_nonneg, (le_abs_self _).trans_lt close⟩

theorem Sound.exists_cost {lot : Lot} (sound : lot.Sound) :
    ∃ cost, lot.cost = .ok cost ∧
      nearest? (lot.quantity.value * lot.price.value) = some cost.value := by
  refine Obstacle.exists_multiply ?_
  rw [abs_of_nonneg (mul_nonneg sound.quantity_pos.le sound.price_nonneg)]
  exact sound.cost_lt

/-- What a partial close leaves of a lot. -/
theorem Sound.exists_consume {lot : Lot} (sound : lot.Sound) {taken : Decimal}
    (nonneg : 0 ≤ taken.value) (lt : taken.value < lot.quantity.value) :
    ∃ left, lot.consume taken = .ok left ∧ left.Sound ∧ left.price = lot.price ∧
      nearest? (lot.quantity.value - taken.value) = some left.quantity.value := by
  have least : (min taken lot.quantity).value = taken.value := by
    rw [value_min, min_eq_left lt.le]
  obtain ⟨quantity, found, nearest⟩ :=
    Obstacle.exists_subtract_of_le (a := lot.quantity) (b := min taken lot.quantity)
      (by rw [least]; exact nonneg) (by rw [least]; exact lt.le)
  rw [least] at nearest
  have positive : 0 < quantity.value :=
    nearest?_pos ((onGrid_value _).sub (onGrid_value _)) (by linarith) nearest
  have le : quantity.value ≤ lot.quantity.value :=
    nearest?_le nearest (by linarith) (representable_value _)
  refine ⟨{ lot with quantity }, ?_, ⟨positive, sound.price_nonneg, ?_⟩, rfl, nearest⟩
  · simp only [consume]
    rw [found]
    rfl
  · exact (mul_le_mul_of_nonneg_right le sound.price_nonneg).trans_lt sound.cost_lt

/-! ## Merging -/

/-- The places that the mean price of two lots keeps. -/
def meanPlaces (a b : Lot) : ℕ := max averagePlaces (max a.price.scale b.price.scale)

/-- Every step of a merge that succeeds is the nearest decimal to its exact result. -/
theorem merge_eq_ok {a b merged : Lot} (h : a.merge b = .ok merged) :
    ∃ costA costB cost mean : Decimal,
      nearest? (a.quantity.value + b.quantity.value) = some merged.quantity.value ∧
      a.cost = .ok costA ∧ b.cost = .ok costB ∧
      nearest? (costA.value + costB.value) = some cost.value ∧
      nearest? (cost.value / merged.quantity.value) = some mean.value ∧
      make? merged.quantity (mean.roundTo (meanPlaces a b)) = some merged := by
  unfold merge at h
  simp only [bind_eq_ok, Obstacle.checked_eq_ok] at h
  obtain ⟨quantity, sum, costA, foundA, costB, foundB, cost, total, mean, quotient, made⟩ := h
  obtain ⟨rfl, _⟩ := make?_eq_some made
  exact ⟨costA, costB, cost, mean, (add?_rounds _ _).nearest?_eq sum, foundA, foundB,
    (add?_rounds _ _).nearest?_eq total, nearest?_of_div? quotient, made⟩

theorem Sound.cost_nonneg {lot : Lot} (sound : lot.Sound) {cost : Decimal}
    (h : lot.cost = .ok cost) : 0 ≤ cost.value :=
  nearest?_nonneg (mul_nonneg sound.quantity_pos.le sound.price_nonneg) (Obstacle.multiply_eq_ok h)

theorem Sound.merge {a b merged : Lot} (hA : a.Sound) (hB : b.Sound) (h : a.merge b = .ok merged) :
    merged.Sound := by
  obtain ⟨costA, costB, cost, mean, sum, foundA, foundB, total, quotient, made⟩ := merge_eq_ok h
  have quantity_pos : 0 < merged.quantity.value := by
    have more : a.quantity.value ≤ a.quantity.value + b.quantity.value := by
      have := hB.quantity_pos
      linarith
    exact hA.quantity_pos.trans_le (le_nearest? sum more (representable_value _))
  have cost_nonneg : 0 ≤ cost.value :=
    nearest?_nonneg (add_nonneg (hA.cost_nonneg foundA) (hB.cost_nonneg foundB)) total
  have mean_nonneg : 0 ≤ mean.value :=
    nearest?_nonneg (div_nonneg cost_nonneg quantity_pos.le) quotient
  have price_nonneg : 0 ≤ (mean.roundTo (meanPlaces a b)).value := by
    have zero : roundAt (meanPlaces a b) 0 = 0 := roundAt_of_whole (n := 0) (by simp)
    rw [value_roundTo, ← zero]
    exact roundAt_mono _ mean_nonneg
  exact Sound.of_make? made quantity_pos price_nonneg

/-! ## Averages -/

/-- Sums over a first lot and others. -/
theorem Totals.add_cons_eq_ok {t u : Totals} {lot : Lot} {rest : List Lot} :
    t.add (lot :: rest) = .ok u ↔ ∃ quantity lotCost cost, t.quantity.add? lot.quantity = some quantity ∧
      lot.cost = .ok lotCost ∧ t.cost.add? lotCost = some cost ∧
      Totals.add { quantity, cost, places := max t.places lot.price.scale } rest = .ok u := by
  simp only [add, bind_eq_ok, Obstacle.checked_eq_ok]
  constructor
  · rintro ⟨quantity, summed, lotCost, costed, cost, totalled, added⟩
    exact ⟨quantity, lotCost, cost, summed, costed, totalled, added⟩
  · rintro ⟨quantity, lotCost, cost, summed, costed, totalled, added⟩
    exact ⟨quantity, summed, lotCost, costed, cost, totalled, added⟩

/-- The average of one lot is its own price, down to the scale. -/
theorem averagePrice_singleton {lot : Lot} (sound : lot.Sound) :
    averagePrice [lot] = .ok lot.price := by
  obtain ⟨cost, found, _⟩ := sound.exists_cost
  have zero_add : ∀ d : Decimal, (0 : Decimal).add? d = some d := fun _ => rfl
  simp only [averagePrice, Totals.add, Totals.add]
  rw [found]
  simp only [zero_add, Obstacle.checked, ok_bind]
  rfl

end Lot

end CostBasis
