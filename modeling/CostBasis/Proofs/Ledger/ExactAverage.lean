import Mathlib.Data.Finset.Max
import CostBasis.Proofs.Ledger.ExactMean

/-!
# The average price of lots in the exact range

The average of several lots is rounded as the mean price of a merge is, to twelve places or to the finest
scale among the prices.  So it lies between the lowest and the highest of them, and the lots are worth what
they cost up to a unit of the twelfth place of their quantity.
-/

namespace CostBasis

open Decimal

/-! ## Costs between prices -/

section

variable {lots : List (ℚ × ℚ)} (positive : ∀ lot ∈ lots, 0 < lot.1) {price : ℚ}

include positive

theorem mul_held_le_worth (le : ∀ lot ∈ lots, price ≤ lot.2) : price * held lots ≤ worth lots := by
  induction lots with
  | nil => simp
  | cons lot rest ih =>
    rw [List.forall_mem_cons] at positive le
    have first := mul_le_mul_of_nonneg_left le.1 positive.1.le
    have others := ih positive.2 le.2
    rw [held_cons, worth_cons]
    linarith

theorem worth_le_mul_held (le : ∀ lot ∈ lots, lot.2 ≤ price) : worth lots ≤ price * held lots := by
  induction lots with
  | nil => simp
  | cons lot rest ih =>
    rw [List.forall_mem_cons] at positive le
    have first := mul_le_mul_of_nonneg_left le.1 positive.1.le
    have others := ih positive.2 le.2
    rw [held_cons, worth_cons]
    linarith

end

namespace Lot

/-- A price that stands for the prices of lots. -/
structure IsAverage (lots : List Lot) (average : Decimal) : Prop where
  low : ∃ lot ∈ lots, lot.price.value ≤ average.value
  high : ∃ lot ∈ lots, average.value ≤ lot.price.value
  places : average.scale ≤ averagePlaces ∨ ∃ lot ∈ lots, average.scale ≤ lot.price.scale
  error : |held (lots.map values) * average.value - worth (lots.map values)|
    ≤ held (lots.map values) / 10 ^ averagePlaces

theorem exists_cheapest {lots : List Lot} (nonempty : lots ≠ []) :
    ∃ low ∈ lots, ∀ lot ∈ lots, low.price.value ≤ lot.price.value := by
  obtain ⟨low, member, least⟩ :=
    lots.toFinset.exists_min_image (fun lot => lot.price.value) (List.toFinset_nonempty_iff lots |>.mpr nonempty)
  exact ⟨low, List.mem_toFinset.mp member, fun lot found => least lot (List.mem_toFinset.mpr found)⟩

theorem exists_dearest {lots : List Lot} (nonempty : lots ≠ []) :
    ∃ high ∈ lots, ∀ lot ∈ lots, lot.price.value ≤ high.price.value := by
  obtain ⟨high, member, most⟩ :=
    lots.toFinset.exists_max_image (fun lot => lot.price.value) (List.toFinset_nonempty_iff lots |>.mpr nonempty)
  exact ⟨high, List.mem_toFinset.mp member, fun lot found => most lot (List.mem_toFinset.mpr found)⟩

/-- The places to round to are at least those of every price, and no more than there is a reason for. -/
theorem Totals.places_of_add {lots : List Lot} {t t' : Totals} (h : t.add lots = .ok t') :
    t.places ≤ t'.places ∧ (∀ lot ∈ lots, lot.price.scale ≤ t'.places) ∧
      (t'.places = t.places ∨ ∃ lot ∈ lots, t'.places = lot.price.scale) := by
  -- Along the lots: each price raises the places to its own, if they were fewer.
  induction lots generalizing t with
  | nil =>
    cases h
    exact ⟨le_rfl, by simp, .inl rfl⟩
  | cons lot rest ih =>
    obtain ⟨quantity, lotCost, cost, _, _, _, h⟩ := add_cons_eq_ok.mp h
    obtain ⟨more, finer, reason⟩ := ih h
    simp only [sup_le_iff] at more
    refine ⟨more.1, List.forall_mem_cons.mpr ⟨more.2, finer⟩, ?_⟩
    obtain same | ⟨lot', found, same⟩ := reason
    · rw [same]
      rcases max_choice t.places lot.price.scale with left | right
      · exact .inl left
      · exact .inr ⟨lot, List.mem_cons_self, right⟩
    · exact .inr ⟨lot', List.mem_cons_of_mem lot found, same⟩

/-- Of one lot the average is its own price. -/
theorem Sound.isAverage {lot : Lot} (sound : lot.Sound) : IsAverage [lot] lot.price where
  low := ⟨lot, List.mem_cons_self, le_rfl⟩
  high := ⟨lot, List.mem_cons_self, le_rfl⟩
  places := .inr ⟨lot, List.mem_cons_self, le_rfl⟩
  error := by
    have quantity_pos := sound.quantity_pos
    simp only [List.map_singleton, values, held_cons, held_nil, worth_cons, worth_nil, add_zero, sub_self, abs_zero]
    positivity

/-- An average of exact lots is itself a price of the exact range. -/
theorem IsAverage.within {lots : List Lot} {average : Decimal} (isAverage : IsAverage lots average) {a b : ℕ}
    {top : ℚ} (exact : ∀ lot ∈ lots, lot.Exact a b top) (finer : averagePlaces ≤ b) :
    average.scale ≤ b ∧ 0 ≤ average.value ∧ average.value ≤ top := by
  obtain ⟨⟨low, low_mem, low_le⟩, ⟨high, high_mem, le_high⟩, places, _⟩ := isAverage
  refine ⟨?_, (exact low low_mem).sound.price_nonneg.trans low_le, le_high.trans (exact high high_mem).price_le⟩
  obtain few | ⟨lot, found, scale_le⟩ := places
  · exact few.trans finer
  · exact scale_le.trans (exact lot found).price_scale

section

variable {a b : ℕ} {volume top : ℚ} (bounds : Bounds a b volume top) {lots : List Lot}
  (exact : ∀ lot ∈ lots, lot.Exact a b top) (nonempty : lots ≠ []) (le : held (lots.map values) ≤ volume)

include bounds exact nonempty le

/-- The rounded quotient of the running sums is an average of the lots. -/
theorem exists_isAverage :
    ∃ totals mean, Totals.add {} lots = .ok totals ∧ totals.cost.div? totals.quantity = some mean ∧
      IsAverage lots (mean.roundTo totals.places) := by
  have zero : (0 : Decimal).value = 0 := value_zero
  have positive := values_pos fun lot found => (exact lot found).sound
  obtain ⟨totals, added, quantity_eq, cost_eq⟩ :=
    Totals.add_exact bounds exact {} (zero ▸ .zero) zero.ge (zero ▸ .zero) zero.ge
      (by simp) (by rw [zero, zero_add]; exact le)
  rw [zero, zero_add] at quantity_eq cost_eq
  obtain ⟨more, finer, reason⟩ := Totals.places_of_add added
  obtain ⟨low, low_mem, low_le⟩ := exists_cheapest nonempty
  obtain ⟨high, high_mem, le_high⟩ := exists_dearest nonempty
  have quantity_pos : 0 < totals.quantity.value := by
    have first_le := le_held positive (List.mem_map_of_mem low_mem)
    rw [quantity_eq]
    exact (exact low low_mem).sound.quantity_pos.trans_le first_le
  -- At the lowest price the lots would cost no more than they do, and at the highest no less.
  obtain ⟨mean, divided, low_le_mean, mean_le_high, error⟩ := bounds.exists_mean quantity_pos
    (exact low low_mem).sound.price_nonneg
    (by
      rw [cost_eq, quantity_eq]
      exact mul_held_le_worth positive (List.forall_mem_map.mpr low_le))
    (by
      rw [cost_eq, quantity_eq]
      exact worth_le_mul_held positive (List.forall_mem_map.mpr le_high))
    (finer low low_mem) (finer high high_mem) (exact high high_mem).price_scale
    (exact high high_mem).price_le more
  rw [quantity_eq, cost_eq] at error
  refine ⟨totals, mean, added, divided, ⟨low, low_mem, low_le_mean⟩, ⟨high, high_mem, mean_le_high⟩, ?_, error⟩
  have scale_le := scale_roundTo_le mean totals.places
  obtain same | ⟨lot, found, same⟩ := reason
  · exact .inl (same ▸ scale_le)
  · exact .inr ⟨lot, found, same ▸ scale_le⟩

/-- The average price of exact lots is right to twelve places. -/
theorem averagePrice_exact : ∃ average, averagePrice lots = .ok average ∧ IsAverage lots average := by
  obtain ⟨totals, mean, added, divided, isAverage⟩ := exists_isAverage bounds exact nonempty le
  cases lots with
  | nil => exact absurd rfl nonempty
  | cons first others =>
    have sound := (exact first List.mem_cons_self).sound
    cases others with
    | nil => exact ⟨first.price, averagePrice_singleton sound, sound.isAverage⟩
    | cons second rest =>
      refine ⟨mean.roundTo totals.places, ?_, isAverage⟩
      simp only [averagePrice]
      rw [added, ok_bind, divided, Obstacle.checked_some rfl, ok_bind]
      rfl

omit nonempty in
/-- The average price never leaves the range. -/
theorem exists_averagePrice : ∃ average, averagePrice lots = .ok average := by
  by_cases none : lots = []
  · exact ⟨0, by rw [none]; rfl⟩
  · obtain ⟨average, averaged, _⟩ := averagePrice_exact bounds exact none le
    exact ⟨average, averaged⟩

end

end Lot

end CostBasis
