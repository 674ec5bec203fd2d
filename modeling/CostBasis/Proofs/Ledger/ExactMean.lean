import CostBasis.Proofs.Ledger.ExactLots

/-!
# Mean prices in the exact range

Costs and sums of costs are exact, so a mean price is rounded twice only: as a quotient and to the
places it keeps.  It never leaves the range, lies between the prices it is the mean of, and is worth
what they are worth up to twelve decimal places of the quantity.
-/

namespace CostBasis

open Decimal

variable {a b : ℕ} {volume top : ℚ}

theorem lt_limit_of_places {x : ℚ} {places : ℕ} (nonneg : 0 ≤ x) (finer : averagePlaces ≤ places)
    (small : x * 10 ^ places < 2 ^ 96) : x < limit := by
  have powers : (10 : ℚ) ^ averagePlaces ≤ 10 ^ places := pow_le_pow_right₀ (by norm_num) finer
  have scaled := (mul_le_mul_of_nonneg_left powers nonneg).trans_lt small
  simp only [limit]
  rw [maxMantissa_eq]
  norm_num [averagePlaces] at scaled ⊢
  linarith

theorem Bounds.top_lt_limit (bounds : Bounds a b volume top) : top < limit :=
  lt_limit_of_places bounds.top_nonneg bounds.places bounds.price_lt

theorem Bounds.amount_lt_limit (bounds : Bounds a b volume top) : volume * top < limit :=
  lt_limit_of_places (mul_nonneg bounds.volume_nonneg bounds.top_nonneg)
    (bounds.places.trans (Nat.le_add_left b a)) bounds.product_lt

/-! ## Rounding a mean -/

/-- A price of a bounded run leaves room for twelve decimal places. -/
theorem Bounds.price_room (bounds : Bounds a b volume top) {x : ℚ} {price : Decimal} (nonneg : 0 ≤ x)
    (le : x ≤ price.value) (price_scale : price.scale ≤ b) (price_le : price.value ≤ top) :
    |x| * 10 ^ averagePlaces < limit := by
  have price_nonneg := nonneg.trans le
  have powers : (10 : ℚ) ^ averagePlaces ≤ 10 ^ b := pow_le_pow_right₀ (by norm_num) bounds.places
  have digits : |price.value| * 10 ^ b ≤ maxMantissa := by
    refine (onGrid_of_scale price_scale).le_maxMantissa ?_
    rw [abs_of_nonneg price_nonneg]
    exact (mul_le_mul_of_nonneg_right price_le (by positivity)).trans_lt bounds.price_lt
  rw [abs_of_nonneg price_nonneg] at digits
  rw [abs_of_nonneg nonneg]
  calc x * 10 ^ averagePlaces ≤ price.value * 10 ^ b := mul_le_mul le powers (by positivity) price_nonneg
    _ ≤ maxMantissa := digits
    _ < limit := maxMantissa_lt_limit

theorem roundAt_of_onGrid {places : ℕ} {x : ℚ} (grid : OnGrid places x) : roundAt places x = x := by
  obtain ⟨n, whole⟩ := grid
  exact roundAt_of_whole whole

/-- A mean rounded to the places of the prices around it stays between them. -/
theorem roundAt_between {x : ℚ} {mean low high : Decimal} {places : ℕ}
    (nearest : nearest? x = some mean.value) (low_le : low.value ≤ x) (le_high : x ≤ high.value)
    (low_scale : low.scale ≤ places) (high_scale : high.scale ≤ places) :
    low.value ≤ roundAt places mean.value ∧ roundAt places mean.value ≤ high.value := by
  constructor
  · rw [← roundAt_of_onGrid (onGrid_of_scale low_scale)]
    exact roundAt_mono places (le_nearest? nearest low_le (representable_value low))
  · rw [← roundAt_of_onGrid (onGrid_of_scale high_scale)]
    exact roundAt_mono places (nearest?_le nearest le_high (representable_value high))

/-- Two roundings to twelve places or more are off by at most one unit of the twelfth. -/
theorem abs_roundAt_mean_sub_le {x y : ℚ} {places : ℕ} (nearest : nearest? x = some y)
    (room : |x| * 10 ^ averagePlaces < limit) (finer : averagePlaces ≤ places) :
    |roundAt places y - x| ≤ 1 / 10 ^ averagePlaces := by
  have first : |y - x| ≤ 1 / 2 / 10 ^ averagePlaces :=
    abs_sub_le_of_nearest? nearest (by decide) room
  have second : |roundAt places y - y| ≤ 1 / 2 / 10 ^ averagePlaces := by
    refine (abs_roundAt_sub_le places y).trans ?_
    exact div_le_div_of_nonneg_left (by norm_num) (by positivity)
      (pow_le_pow_right₀ (by norm_num) finer)
  calc |roundAt places y - x| ≤ |roundAt places y - y| + |y - x| := abs_sub_le _ _ _
    _ ≤ 1 / 2 / 10 ^ averagePlaces + 1 / 2 / 10 ^ averagePlaces := add_le_add second first
    _ = 1 / 10 ^ averagePlaces := by ring

/-- A cost per quantity that lies between two prices has a rounded mean between them, which is worth
the cost up to a unit of the twelfth place of the quantity. -/
theorem Bounds.exists_mean (bounds : Bounds a b volume top) {cost quantity low high : Decimal}
    {places : ℕ} (quantity_pos : 0 < quantity.value) (low_nonneg : 0 ≤ low.value)
    (low_le : low.value * quantity.value ≤ cost.value)
    (le_high : cost.value ≤ high.value * quantity.value) (low_scale : low.scale ≤ places)
    (high_scale : high.scale ≤ places) (high_places : high.scale ≤ b) (high_le : high.value ≤ top)
    (finer : averagePlaces ≤ places) :
    ∃ mean, cost.div? quantity = some mean ∧ low.value ≤ (mean.roundTo places).value ∧
      (mean.roundTo places).value ≤ high.value ∧
      |quantity.value * (mean.roundTo places).value - cost.value|
        ≤ quantity.value / 10 ^ averagePlaces := by
  rw [← le_div_iff₀ quantity_pos] at low_le
  rw [← div_le_iff₀ quantity_pos] at le_high
  have quotient_nonneg := low_nonneg.trans low_le
  have divisor : ¬ quantity.IsZero := by
    rw [isZero_iff]
    exact quantity_pos.ne'
  obtain ⟨mean, divided, nearest⟩ := (div?_rounds cost quantity divisor).exists_of_lt (by
    rw [abs_of_nonneg quotient_nonneg]
    exact (le_high.trans high_le).trans_lt bounds.top_lt_limit)
  obtain ⟨low_le_mean, mean_le_high⟩ := roundAt_between nearest low_le le_high low_scale high_scale
  have error := abs_roundAt_mean_sub_le nearest
    (bounds.price_room quotient_nonneg le_high high_places high_le) finer
  refine ⟨mean, divided, ?_, ?_, ?_⟩
  · rw [value_roundTo]
    exact low_le_mean
  · rw [value_roundTo]
    exact mean_le_high
  · rw [value_roundTo]
    calc |quantity.value * roundAt places mean.value - cost.value|
        = quantity.value * |roundAt places mean.value - cost.value / quantity.value| := by
          rw [← abs_of_pos quantity_pos, ← abs_mul, abs_of_pos quantity_pos, mul_sub,
            mul_div_cancel₀ _ quantity_pos.ne']
      _ ≤ quantity.value * (1 / 10 ^ averagePlaces) := mul_le_mul_of_nonneg_left error quantity_pos.le
      _ = quantity.value / 10 ^ averagePlaces := by ring

namespace Lot

theorem Exact.cost_grid {lot : Lot} (exact : lot.Exact a b top) :
    OnGrid (a + b) (lot.quantity.value * lot.price.value) :=
  exact.quantity_grid.mul (onGrid_of_scale exact.price_scale)

/-- Of the prices of two lots, the lower and the higher. -/
theorem Exact.exists_ordered {first second : Lot} (exact₁ : first.Exact a b top)
    (exact₂ : second.Exact a b top) :
    ∃ low high : Decimal, low.value = min first.price.value second.price.value ∧
      high.value = max first.price.value second.price.value ∧
      low.scale ≤ meanPlaces first second ∧ high.scale ≤ meanPlaces first second ∧
      high.scale ≤ b ∧ high.value ≤ top := by
  have scale₁ : first.price.scale ≤ meanPlaces first second :=
    (le_max_left _ _).trans (le_max_right _ _)
  have scale₂ : second.price.scale ≤ meanPlaces first second :=
    (le_max_right _ _).trans (le_max_right _ _)
  cases le_total first.price.value second.price.value with
  | inl ordered =>
    exact ⟨first.price, second.price, (min_eq_left ordered).symm, (max_eq_right ordered).symm, scale₁,
      scale₂, exact₂.price_scale, exact₂.price_le⟩
  | inr ordered =>
    exact ⟨second.price, first.price, (min_eq_right ordered).symm, (max_eq_left ordered).symm, scale₂,
      scale₁, exact₁.price_scale, exact₁.price_le⟩

section

variable (bounds : Bounds a b volume top)

include bounds

theorem Exact.exists_cost {lot : Lot} (exact : lot.Exact a b top)
    (le : lot.quantity.value ≤ volume) :
    ∃ cost, lot.cost = .ok cost ∧ cost.value = lot.quantity.value * lot.price.value := by
  obtain ⟨cost, found, nearest⟩ := exact.sound.exists_cost
  refine ⟨cost, found, ?_⟩
  have nonneg := mul_nonneg exact.sound.quantity_pos.le exact.sound.price_nonneg
  have bound : lot.quantity.value * lot.price.value ≤ volume * top :=
    mul_le_mul le exact.price_le exact.sound.price_nonneg bounds.volume_nonneg
  rw [nearest?_of_representable
    (bounds.representable_amount exact.cost_grid (by rwa [abs_of_nonneg nonneg]))] at nearest
  exact (Option.some_inj.mp nearest).symm

/-- Running sums over lots are exact. -/
theorem Totals.add_exact {lots : List Lot} (exact : ∀ lot ∈ lots, lot.Exact a b top) (t : Totals)
    (quantity_grid : OnGrid a t.quantity.value) (quantity_nonneg : 0 ≤ t.quantity.value)
    (cost_grid : OnGrid (a + b) t.cost.value) (cost_nonneg : 0 ≤ t.cost.value)
    (cost_le : t.cost.value ≤ t.quantity.value * top)
    (le : t.quantity.value + held (lots.map values) ≤ volume) :
    ∃ t' : Totals, t.add lots = .ok t' ∧
      t'.quantity.value = t.quantity.value + held (lots.map values) ∧
      t'.cost.value = t.cost.value + worth (lots.map values) := by
  -- Along the lots, both sums stay on their grids and the cost within the quantity at the top price.
  induction lots generalizing t with
  | nil => exact ⟨t, rfl, by simp, by simp⟩
  | cons lot rest ih =>
    have lot_exact := exact lot List.mem_cons_self
    have rest_exact : ∀ lot ∈ rest, lot.Exact a b top := fun lot' found =>
      exact lot' (List.mem_cons_of_mem lot found)
    have rest_held : 0 ≤ held (rest.map values) :=
      held_nonneg (values_pos fun lot' found => (rest_exact lot' found).sound)
    have lot_positive := lot_exact.sound.quantity_pos
    rw [List.map_cons, held_cons] at le
    simp only [values] at le
    obtain ⟨lotCost, costed, lotCost_eq⟩ := lot_exact.exists_cost bounds (by linarith)
    have lotCost_nonneg : 0 ≤ lotCost.value := lot_exact.sound.cost_nonneg costed
    have lotCost_le : lotCost.value ≤ lot.quantity.value * top := by
      rw [lotCost_eq]
      exact mul_le_mul_of_nonneg_left lot_exact.price_le lot_positive.le
    obtain ⟨quantity, summed, quantity_eq⟩ := (add?_rounds t.quantity lot.quantity).exact
      (bounds.representable_quantity (quantity_grid.add lot_exact.quantity_grid)
        (by rw [abs_of_nonneg (by linarith)]; linarith))
    have cost_bound : t.cost.value + lotCost.value ≤ quantity.value * top := by
      rw [quantity_eq, add_mul]
      linarith
    have volume_bound : quantity.value * top ≤ volume * top :=
      mul_le_mul_of_nonneg_right (by rw [quantity_eq]; linarith) bounds.top_nonneg
    have sum_grid : OnGrid (a + b) (t.cost.value + lotCost.value) :=
      cost_grid.add (lotCost_eq ▸ lot_exact.cost_grid)
    obtain ⟨cost, totalled, cost_eq⟩ := (add?_rounds t.cost lotCost).exact
      (bounds.representable_amount sum_grid (by rw [abs_of_nonneg (by linarith)]; linarith))
    obtain ⟨t', added, quantity', cost'⟩ := ih rest_exact
      { quantity, cost, places := max t.places lot.price.scale }
      (quantity_eq ▸ quantity_grid.add lot_exact.quantity_grid) (by rw [quantity_eq]; linarith)
      (cost_eq ▸ sum_grid) (by rw [cost_eq]; linarith) (by rw [cost_eq]; exact cost_bound)
      (by rw [quantity_eq]; linarith)
    refine ⟨t', ?_, ?_, ?_⟩
    · simp only [Totals.add]
      rw [summed, Obstacle.checked_some rfl, ok_bind, costed, ok_bind, totalled,
        Obstacle.checked_some rfl, ok_bind]
      exact added
    · rw [quantity', quantity_eq, List.map_cons, held_cons, values]
      ring
    · rw [cost', cost_eq, lotCost_eq, List.map_cons, worth_cons, values]
      ring

/-- The quantities and the costs of two lots add up exactly. -/
theorem Exact.exists_sums {first second : Lot} (exact₁ : first.Exact a b top)
    (exact₂ : second.Exact a b top) (le : first.quantity.value + second.quantity.value ≤ volume) :
    ∃ quantity cost₁ cost₂ cost : Decimal, first.quantity.add? second.quantity = some quantity ∧
      first.cost = .ok cost₁ ∧ second.cost = .ok cost₂ ∧ cost₁.add? cost₂ = some cost ∧
      quantity.value = first.quantity.value + second.quantity.value ∧
      cost.value = first.quantity.value * first.price.value
        + second.quantity.value * second.price.value := by
  have positive₁ := exact₁.sound.quantity_pos
  have positive₂ := exact₂.sound.quantity_pos
  obtain ⟨quantity, summed, quantity_eq⟩ := (add?_rounds first.quantity second.quantity).exact
    (bounds.representable_quantity (exact₁.quantity_grid.add exact₂.quantity_grid)
      (by rw [abs_of_nonneg (by linarith)]; exact le))
  obtain ⟨cost₁, costed₁, cost₁_eq⟩ := exact₁.exists_cost bounds (by linarith)
  obtain ⟨cost₂, costed₂, cost₂_eq⟩ := exact₂.exists_cost bounds (by linarith)
  have grid : OnGrid (a + b) (cost₁.value + cost₂.value) := by
    rw [cost₁_eq, cost₂_eq]
    exact exact₁.cost_grid.add exact₂.cost_grid
  have within : |cost₁.value + cost₂.value| ≤ volume * top := by
    rw [abs_of_nonneg (add_nonneg (exact₁.sound.cost_nonneg costed₁) (exact₂.sound.cost_nonneg costed₂)),
      cost₁_eq, cost₂_eq]
    calc first.quantity.value * first.price.value + second.quantity.value * second.price.value
        ≤ first.quantity.value * top + second.quantity.value * top :=
          add_le_add (mul_le_mul_of_nonneg_left exact₁.price_le positive₁.le)
            (mul_le_mul_of_nonneg_left exact₂.price_le positive₂.le)
      _ = (first.quantity.value + second.quantity.value) * top := by ring
      _ ≤ volume * top := mul_le_mul_of_nonneg_right le bounds.top_nonneg
  obtain ⟨cost, totalled, cost_eq⟩ :=
    (add?_rounds cost₁ cost₂).exact (bounds.representable_amount grid within)
  refine ⟨quantity, cost₁, cost₂, cost, summed, costed₁, costed₂, totalled, quantity_eq, ?_⟩
  rw [cost_eq, cost₁_eq, cost₂_eq]

/-- A merge adds the quantities, and its price lies between the two and is right to twelve places. -/
theorem Exact.merge {first second : Lot} (exact₁ : first.Exact a b top) (exact₂ : second.Exact a b top)
    (le : first.quantity.value + second.quantity.value ≤ volume) :
    ∃ merged, first.merge second = .ok merged ∧ merged.Exact a b top ∧
      merged.quantity.value = first.quantity.value + second.quantity.value ∧
      min first.price.value second.price.value ≤ merged.price.value ∧
      merged.price.value ≤ max first.price.value second.price.value ∧
      |merged.quantity.value * merged.price.value
        - (first.quantity.value * first.price.value + second.quantity.value * second.price.value)|
        ≤ merged.quantity.value / 10 ^ averagePlaces := by
  have positive₁ := exact₁.sound.quantity_pos
  have positive₂ := exact₂.sound.quantity_pos
  obtain ⟨quantity, cost₁, cost₂, cost, summed, costed₁, costed₂, totalled, quantity_eq, cost_eq⟩ :=
    exact₁.exists_sums bounds exact₂ le
  have quantity_pos : 0 < quantity.value := by linarith
  obtain ⟨low, high, low_eq, high_eq, low_scale, high_scale, high_places, high_le⟩ :=
    exact₁.exists_ordered exact₂
  have low_nonneg : 0 ≤ low.value := by
    rw [low_eq]
    exact le_min exact₁.sound.price_nonneg exact₂.sound.price_nonneg
  -- A cost at two prices lies between the costs at the lower and at the higher of them.
  have low_le : low.value * quantity.value ≤ cost.value := by
    have low_le₁ : low.value ≤ first.price.value := low_eq ▸ min_le_left _ _
    have low_le₂ : low.value ≤ second.price.value := low_eq ▸ min_le_right _ _
    rw [cost_eq, quantity_eq]
    nlinarith
  have le_high : cost.value ≤ high.value * quantity.value := by
    have le_high₁ : first.price.value ≤ high.value := high_eq ▸ le_max_left _ _
    have le_high₂ : second.price.value ≤ high.value := high_eq ▸ le_max_right _ _
    rw [cost_eq, quantity_eq]
    nlinarith
  obtain ⟨mean, divided, low_le_price, price_le_high, error⟩ := bounds.exists_mean quantity_pos
    low_nonneg low_le le_high low_scale high_scale high_places high_le (le_max_left _ _)
  have price_nonneg := low_nonneg.trans low_le_price
  have price_le := price_le_high.trans high_le
  have made : make? quantity (mean.roundTo (meanPlaces first second))
      = some ⟨quantity, mean.roundTo (meanPlaces first second)⟩ := by
    refine exists_make? ?_
    rw [abs_of_nonneg (mul_nonneg quantity_pos.le price_nonneg)]
    refine lt_of_le_of_lt ?_ bounds.amount_lt_limit
    exact mul_le_mul (by linarith) price_le price_nonneg bounds.volume_nonneg
  refine ⟨⟨quantity, mean.roundTo (meanPlaces first second)⟩, ?_, ⟨?_, ?_, ?_, price_le⟩, quantity_eq,
    low_eq ▸ low_le_price, high_eq ▸ price_le_high, ?_⟩
  · simp only [Lot.merge]
    rw [summed, Obstacle.checked_some rfl, ok_bind, costed₁, ok_bind, costed₂, ok_bind, totalled,
      Obstacle.checked_some rfl, ok_bind, divided, Obstacle.checked_some rfl, ok_bind]
    exact Obstacle.checked_some made
  · exact .of_make? made quantity_pos price_nonneg
  · exact quantity_eq ▸ exact₁.quantity_grid.add exact₂.quantity_grid
  · refine (scale_roundTo_le _ _).trans (max_le bounds.places (max_le ?_ ?_))
    · exact exact₁.price_scale
    · exact exact₂.price_scale
  · rw [← cost_eq]
    exact error

end

end Lot

end CostBasis
