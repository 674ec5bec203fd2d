import CostBasis.Proofs.Ledger.ExactRange

/-!
# Lots in the exact range

Taking quantity from lots and booking the profit on it, where no operation is rounded.
-/

namespace CostBasis

open Decimal

/-! ## Quantities and costs as numbers -/

def worth (lots : List (ℚ × ℚ)) : ℚ := (lots.map fun lot => lot.1 * lot.2).sum

@[simp] theorem worth_nil : worth [] = 0 := rfl

@[simp] theorem worth_cons (lot : ℚ × ℚ) (rest : List (ℚ × ℚ)) :
    worth (lot :: rest) = lot.1 * lot.2 + worth rest := by
  simp [worth]

@[simp] theorem worth_append (first second : List (ℚ × ℚ)) :
    worth (first ++ second) = worth first + worth second := by
  simp [worth]

/-- The profit per unit of direction on `amount` taken from lots, oldest first, at a price. -/
def gain (price amount : ℚ) : List (ℚ × ℚ) → ℚ
  | [] => 0
  | (quantity, entry) :: rest =>
    min amount quantity * (price - entry) + gain price (amount - min amount quantity) rest

section

variable {lots : List (ℚ × ℚ)} (positive : ∀ lot ∈ lots, 0 < lot.1)

include positive

theorem held_nonneg : 0 ≤ held lots := by
  refine List.sum_nonneg fun x member => ?_
  obtain ⟨lot, found, rfl⟩ := List.mem_map.mp member
  exact (positive lot found).le

theorem le_held {lot : ℚ × ℚ} (member : lot ∈ lots) : lot.1 ≤ held lots := by
  obtain ⟨before, after, rfl⟩ := List.append_of_mem member
  have before_nonneg := held_nonneg fun lot found => positive lot (List.mem_append_left _ found)
  have after_nonneg := held_nonneg fun lot' found =>
    positive lot' (List.mem_append_right _ (List.mem_cons_of_mem lot found))
  rw [held_append, held_cons]
  linarith

theorem eq_nil_of_held_eq_zero (zero : held lots = 0) : lots = [] := by
  cases lots with
  | nil => rfl
  | cons lot rest =>
    have first := positive lot List.mem_cons_self
    have others := le_held positive (List.mem_cons_self (a := lot) (l := rest))
    linarith

theorem gain_zero (price : ℚ) : gain price 0 lots = 0 := by
  induction lots with
  | nil => rfl
  | cons lot rest ih =>
    have first := positive lot List.mem_cons_self
    rw [gain, min_eq_left first.le, zero_mul, sub_zero, zero_add]
    exact ih fun lot' found => positive lot' (List.mem_cons_of_mem lot found)

/-- The profit is what the amount is worth at the price, less what the lots lost in cost. -/
theorem gain_eq (price : ℚ) {amount : ℚ} (nonneg : 0 ≤ amount) (le : amount ≤ held lots) :
    gain price amount lots = amount * price - (worth lots - worth (drain id amount lots)) := by
  induction lots generalizing amount with
  | nil =>
    obtain rfl : amount = 0 := le_antisymm le nonneg
    simp [gain, drain]
  | cons lot rest ih =>
    have rest_positive : ∀ lot ∈ rest, 0 < lot.1 := fun lot' found =>
      positive lot' (List.mem_cons_of_mem lot found)
    rw [held_cons] at le
    rw [gain, drain]
    by_cases outright : lot.1 ≤ amount
    · rw [min_eq_right outright, if_pos outright, ih rest_positive (by linarith) (by linarith),
        worth_cons, id]
      ring
    · rw [min_eq_left (not_le.mp outright).le, if_neg outright, sub_self, gain_zero rest_positive,
        worth_cons, worth_cons, id]
      ring

end

theorem held_drain {lots : List (ℚ × ℚ)} {amount : ℚ} (nonneg : 0 ≤ amount) (le : amount ≤ held lots) :
    held (drain id amount lots) = held lots - amount := by
  induction lots generalizing amount with
  | nil =>
    rw [held_nil] at le
    rw [drain, held_nil]
    linarith
  | cons lot rest ih =>
    rw [held_cons] at le
    rw [drain]
    split
    next outright =>
      rw [id, ih (by linarith) (by linarith), held_cons]
      ring
    next partly =>
      rw [held_cons, held_cons, id]
      ring

theorem onGrid_held {lots : List (ℚ × ℚ)} {a : ℕ} (grids : ∀ lot ∈ lots, OnGrid a lot.1) :
    OnGrid a (held lots) := by
  induction lots with
  | nil => exact .zero
  | cons lot rest ih =>
    rw [held_cons]
    exact (grids lot List.mem_cons_self).add (ih fun lot' found =>
      grids lot' (List.mem_cons_of_mem lot found))

theorem onGrid_of_mem_drain {lots : List (ℚ × ℚ)} {a : ℕ} {amount : ℚ} (grid : OnGrid a amount)
    (grids : ∀ lot ∈ lots, OnGrid a lot.1) {lot : ℚ × ℚ} (member : lot ∈ drain id amount lots) :
    OnGrid a lot.1 := by
  induction lots generalizing amount with
  | nil => cases member
  | cons first rest ih =>
    have first_grid := grids first List.mem_cons_self
    have rest_grids : ∀ lot ∈ rest, OnGrid a lot.1 := fun lot found =>
      grids lot (List.mem_cons_of_mem first found)
    rw [drain] at member
    split at member
    next => exact ih (grid.sub first_grid) rest_grids member
    next =>
      rcases List.mem_cons.mp member with rfl | found
      · exact first_grid.sub grid
      · exact rest_grids lot found

/-! ## Lots -/

/-- A sound lot of a bounded run. -/
structure Lot.Exact (a b : ℕ) (top : ℚ) (lot : Lot) : Prop where
  sound : lot.Sound
  quantity_grid : OnGrid a lot.quantity.value
  price_scale : lot.price.scale ≤ b
  price_le : lot.price.value ≤ top

section

variable {a b : ℕ} {volume top : ℚ} (bounds : Bounds a b volume top)

include bounds

/-- No difference of a drain is rounded. -/
theorem drain_rounded {lots : List (ℚ × ℚ)} {amount : ℚ} (positive : ∀ lot ∈ lots, 0 < lot.1)
    (grids : ∀ lot ∈ lots, OnGrid a lot.1) (le : held lots ≤ volume) (grid : OnGrid a amount)
    (nonneg : 0 ≤ amount) (amount_le : amount ≤ volume) :
    drain rounded amount lots = drain id amount lots := by
  induction lots generalizing amount with
  | nil => rfl
  | cons lot rest ih =>
    have lot_positive := positive lot List.mem_cons_self
    have lot_grid := grids lot List.mem_cons_self
    have rest_positive : ∀ lot ∈ rest, 0 < lot.1 := fun lot' found =>
      positive lot' (List.mem_cons_of_mem lot found)
    have rest_held := held_nonneg rest_positive
    rw [held_cons] at le
    rw [drain, drain]
    -- Either way the difference is on the grid and no larger than the volume.
    by_cases outright : lot.1 ≤ amount
    · have difference : rounded (amount - lot.1) = amount - lot.1 := by
        refine rounded_of_representable (bounds.representable_quantity (grid.sub lot_grid) ?_)
        rw [abs_of_nonneg (by linarith)]
        linarith
      rw [if_pos outright, if_pos outright, difference, id]
      exact ih rest_positive (fun lot' found => grids lot' (List.mem_cons_of_mem lot found))
        (by linarith) (grid.sub lot_grid) (by linarith) (by linarith)
    · have difference : rounded (lot.1 - amount) = lot.1 - amount := by
        refine rounded_of_representable (bounds.representable_quantity (lot_grid.sub grid) ?_)
        rw [abs_of_nonneg (by linarith)]
        linarith
      rw [if_neg outright, if_neg outright, difference, id]

namespace Position

variable {price direction : Decimal} (price_scale : price.scale ≤ b) (price_nonneg : 0 ≤ price.value)
  (price_le : price.value ≤ top) (unit : direction.value = 1 ∨ direction.value = -1)

include price_scale price_nonneg price_le unit

/-- The profit on a quantity of a lot is exact. -/
theorem Walk.exists_profit {lot : Lot} (exact : lot.Exact a b top) {consumed : ℚ}
    (grid : OnGrid a consumed) (nonneg : 0 ≤ consumed) (le : consumed ≤ volume)
    {difference signed : Decimal}
    (difference_eq : nearest? (price.value - lot.price.value) = some difference.value)
    (signed_eq : signed.value = consumed * direction.value) :
    ∃ profit : Decimal, difference.mul? signed = some profit ∧
      profit.value = direction.value * (consumed * (price.value - lot.price.value)) ∧
      OnGrid (a + b) profit.value ∧ |profit.value| ≤ consumed * top := by
  have difference_grid : OnGrid b (price.value - lot.price.value) :=
    (onGrid_of_scale price_scale).sub (onGrid_of_scale exact.price_scale)
  have difference_le : |price.value - lot.price.value| ≤ top := by
    have lot_nonneg := exact.sound.price_nonneg
    have lot_le := exact.price_le
    rw [abs_le]
    constructor <;> linarith
  rw [nearest?_of_representable (bounds.representable_price difference_grid difference_le),
    Option.some_inj] at difference_eq
  have product_eq : difference.value * signed.value
      = consumed * direction.value * (price.value - lot.price.value) := by
    rw [← difference_eq, signed_eq]
    ring
  have profit_grid : OnGrid (a + b) (difference.value * signed.value) := by
    rw [product_eq]
    exact (grid.mul_unit unit).mul difference_grid
  have magnitude : |difference.value * signed.value| ≤ consumed * top := by
    have unit_abs : |direction.value| = 1 := by
      cases unit with
      | inl one => rw [one, abs_one]
      | inr minus => rw [minus, abs_neg, abs_one]
    rw [product_eq, abs_mul, abs_mul, abs_of_nonneg nonneg, unit_abs, mul_one]
    exact mul_le_mul_of_nonneg_left difference_le nonneg
  obtain ⟨profit, multiplied, profit_eq⟩ := (mul?_rounds difference signed).exact
    (bounds.representable_amount profit_grid
      (magnitude.trans (mul_le_mul_of_nonneg_right le bounds.top_nonneg)))
  rw [← profit_eq] at product_eq profit_grid magnitude
  refine ⟨profit, multiplied, ?_, profit_grid, magnitude⟩
  rw [product_eq]
  ring

/-- One lot of a walk: the quantity still to be closed and the profit booked are exact. -/
theorem Walk.through_cons_exact {w : Walk} {lot : Lot} (rest : List Lot) (exact : lot.Exact a b top)
    (open_ : ¬ w.remaining.IsZero) (grid : OnGrid a w.remaining.value) (nonneg : 0 ≤ w.remaining.value)
    (remaining_le : w.remaining.value ≤ volume) (realized_grid : OnGrid (a + b) w.realized.value)
    (le : |w.realized.value| + w.remaining.value * top ≤ volume * top) :
    ∃ remaining realized : Decimal,
      Walk.through price direction w (lot :: rest)
        = Walk.through price direction (w.pass lot remaining realized) rest ∧
      remaining.value = w.remaining.value - min w.remaining.value lot.quantity.value ∧
      realized.value = w.realized.value
        + direction.value * (min w.remaining.value lot.quantity.value
          * (price.value - lot.price.value)) ∧
      OnGrid a remaining.value ∧ OnGrid (a + b) realized.value ∧
      |realized.value| ≤ |w.realized.value| + min w.remaining.value lot.quantity.value * top := by
  obtain ⟨difference, signed, remaining, difference_eq, signed_eq, remaining_eq, through⟩ :=
    Walk.through_cons price_nonneg unit rest exact.sound nonneg open_
  have consumed_nonneg : 0 ≤ min w.remaining.value lot.quantity.value :=
    le_min nonneg exact.sound.quantity_pos.le
  have consumed_le : min w.remaining.value lot.quantity.value ≤ w.remaining.value := min_le_left _ _
  have consumed_grid : OnGrid a (min w.remaining.value lot.quantity.value) := by
    cases min_choice w.remaining.value lot.quantity.value with
    | inl eq => rwa [eq]
    | inr eq => rw [eq]; exact exact.quantity_grid
  rw [nearest?_of_representable (bounds.representable_quantity (grid.sub consumed_grid)
    (by rw [abs_of_nonneg (by linarith)]; linarith)), Option.some_inj] at remaining_eq
  obtain ⟨profit, multiplied, profit_eq, profit_grid, profit_le⟩ :=
    Walk.exists_profit bounds price_scale price_nonneg price_le unit exact consumed_grid
      consumed_nonneg (by linarith) difference_eq signed_eq
  -- What has been booked with this profit stays in range: it takes the place of what may be booked.
  have within : |w.realized.value + profit.value| ≤ volume * top := by
    have sum_le := abs_add_le w.realized.value profit.value
    have consumed_cost : min w.remaining.value lot.quantity.value * top ≤ w.remaining.value * top :=
      mul_le_mul_of_nonneg_right consumed_le bounds.top_nonneg
    linarith
  obtain ⟨realized, added, realized_eq⟩ := (add?_rounds w.realized profit).exact
    (bounds.representable_amount (realized_grid.add profit_grid) within)
  refine ⟨remaining, realized, ?_, remaining_eq.symm, ?_, ?_, ?_, ?_⟩
  · rw [through, multiplied, Obstacle.checked_some rfl, ok_bind, added, Obstacle.checked_some rfl,
      ok_bind]
  · rw [realized_eq, profit_eq]
  · exact remaining_eq ▸ grid.sub consumed_grid
  · exact realized_eq ▸ realized_grid.add profit_grid
  · rw [realized_eq]
    exact (abs_add_le _ _).trans (add_le_add_right profit_le _)

/-- A walk books exactly the gain, as long as what it has booked and may still book is in range. -/
theorem Walk.through_exact {lots : List Lot} (exact : ∀ lot ∈ lots, lot.Exact a b top) (w : Walk)
    (grid : OnGrid a w.remaining.value) (nonneg : 0 ≤ w.remaining.value)
    (remaining_le : w.remaining.value ≤ volume) (realized_grid : OnGrid (a + b) w.realized.value)
    (le : |w.realized.value| + w.remaining.value * top ≤ volume * top) :
    ∃ w', Walk.through price direction w lots = .ok w' ∧
      OnGrid (a + b) w'.realized.value ∧
      |w'.realized.value| ≤ |w.realized.value| + w.remaining.value * top ∧
      w'.realized.value = w.realized.value
        + direction.value * gain price.value w.remaining.value (lots.map Lot.values) := by
  have may_book : 0 ≤ w.remaining.value * top := mul_nonneg nonneg bounds.top_nonneg
  -- Along the lots, what is booked and what may still be booked together never grow.
  induction lots generalizing w with
  | nil => exact ⟨w, rfl, realized_grid, by linarith, by simp [gain]⟩
  | cons lot rest ih =>
    have lot_exact := exact lot List.mem_cons_self
    by_cases zero : w.remaining.IsZero
    · refine ⟨w, Walk.through_of_isZero zero price direction _, realized_grid, by linarith, ?_⟩
      rw [(isZero_iff _).mp zero, gain_zero (Lot.values_pos fun lot' found => (exact lot' found).sound),
        mul_zero, add_zero]
    · obtain ⟨remaining, realized, through, remaining_eq, realized_eq, remaining_grid, grid', le'⟩ :=
        Walk.through_cons_exact bounds price_scale price_nonneg price_le unit rest lot_exact
          zero grid nonneg remaining_le realized_grid le
      have consumed_le : min w.remaining.value lot.quantity.value ≤ w.remaining.value :=
        min_le_left _ _
      have consumed_nonneg : 0 ≤ min w.remaining.value lot.quantity.value :=
        le_min nonneg lot_exact.sound.quantity_pos.le
      obtain ⟨w', walked, total_grid, total_le, total⟩ :=
        ih (fun lot' found => exact lot' (List.mem_cons_of_mem lot found))
          (w.pass lot remaining realized)
          (by rwa [Walk.pass_remaining])
          (by rw [Walk.pass_remaining]; linarith)
          (by rw [Walk.pass_remaining]; linarith)
          (by rwa [Walk.pass_realized])
          (by
            rw [Walk.pass_remaining, Walk.pass_realized, remaining_eq, sub_mul]
            linarith)
          (by
            rw [Walk.pass_remaining, remaining_eq]
            exact mul_nonneg (by linarith) bounds.top_nonneg)
      rw [Walk.pass_remaining, Walk.pass_realized, remaining_eq, sub_mul] at total_le
      refine ⟨w', through.trans walked, total_grid, by linarith, ?_⟩
      rw [total, Walk.pass_remaining, Walk.pass_realized, remaining_eq, realized_eq, List.map_cons,
        gain]
      simp only [Lot.values]
      ring

/-- A whole walk books exactly the gain. -/
theorem Walk.exists_through {lots : List Lot} (exact : ∀ lot ∈ lots, lot.Exact a b top)
    {quantity : Decimal} (grid : OnGrid a quantity.value) (nonneg : 0 ≤ quantity.value)
    (le : quantity.value ≤ volume) :
    ∃ w, Walk.through price direction { remaining := quantity } lots = .ok w ∧
      OnGrid (a + b) w.realized.value ∧ |w.realized.value| ≤ quantity.value * top ∧
      w.realized.value = direction.value * gain price.value quantity.value (lots.map Lot.values) := by
  have zero : (0 : Decimal).value = 0 := value_zero
  obtain ⟨w, walked, realized_grid, realized_le, realized_eq⟩ :=
    Walk.through_exact bounds price_scale price_nonneg price_le unit exact { remaining := quantity } grid
      nonneg le (zero ▸ .zero) (by
        simp only [zero, abs_zero, zero_add]
        exact mul_le_mul_of_nonneg_right le bounds.top_nonneg)
  simp only [zero, abs_zero, zero_add] at realized_le realized_eq
  exact ⟨w, walked, realized_grid, realized_le, realized_eq⟩

end Position

end

end CostBasis
