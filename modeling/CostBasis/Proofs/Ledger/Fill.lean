import Mathlib.Tactic.LinearCombination
import CostBasis.Proofs.Ledger.Walk

/-!
# What a fill does

Inversion of the fills that are accepted: an adding fill and a closing fill each say what they leave
of the size, the lots and the average price, in decimals nearest to exact results.  Soundness of the
ledger is kept by every fill.
-/

namespace CostBasis

open Decimal

/-- A fill as it is asked for. -/
structure Fill where
  side : Side
  quantity : Decimal
  price : Decimal
deriving DecidableEq

def Fill.IsPositive (fill : Fill) : Prop := 0 < fill.quantity.value ∧ 0 < fill.price.value

/-- What a fill of this side adds to the size, per unit of its quantity, as a number. -/
def Side.factor (side : Side) : ℚ := side.sign

theorem Side.factor_cases (side : Side) : side.factor = 1 ∨ side.factor = -1 := by
  cases side <;> simp [factor, sign]

theorem Side.factor_mul_self (side : Side) : side.factor * side.factor = 1 := by
  cases side <;> simp [factor, sign]

theorem Side.abs_factor_mul (side : Side) (x : ℚ) : |side.factor * x| = |x| := by
  cases side <;> simp [factor, sign]

theorem Side.factor_opposite (side : Side) : side.opposite.factor = -side.factor := by
  cases side <;> simp [factor, sign, opposite]

theorem Side.eq_factor_mul_abs {side : Side} {x : ℚ} (along : side.factor * x = |x|) :
    x = side.factor * |x| := by
  rw [← along, ← mul_assoc, side.factor_mul_self, one_mul]

theorem nearest?_factor_mul (side : Side) (x : ℚ) :
    nearest? (side.factor * x) = (nearest? x).map (side.factor * ·) := by
  cases side.factor_cases with
  | inl one =>
    simp [one]
  | inr minus =>
    simp only [minus, neg_one_mul]
    exact nearest?_neg x

namespace Position

def apply (p : Position) (fill : Fill) : Except FillFailure (Position × FillOutcome) :=
  p.fill fill.side fill.quantity fill.price

/-- The fill would reduce the holding. -/
def Opposes (p : Position) (side : Side) : Prop := p.direction.openingSide? = some side.opposite

instance (p : Position) (side : Side) : Decidable (p.Opposes side) :=
  inferInstanceAs (Decidable (p.direction.openingSide? = some side.opposite))

theorem direction_of_pos {p : Position} (h : 0 < p.size.value) : p.direction = .long := by
  have long : (0 : Decimal) < p.size := by rwa [lt_iff, value_zero]
  exact if_pos long

theorem direction_of_neg {p : Position} (h : p.size.value < 0) : p.direction = .short := by
  have not_long : ¬ (0 : Decimal) < p.size := by
    rw [lt_iff, value_zero]
    exact not_lt.mpr h.le
  have short : p.size < 0 := by rwa [lt_iff, value_zero]
  rw [direction, directionOf, if_neg not_long, if_pos short]

theorem direction_of_zero {p : Position} (h : p.size.value = 0) : p.direction = .flat := by
  have not_long : ¬ (0 : Decimal) < p.size := by
    rw [lt_iff, value_zero]
    exact not_lt.mpr h.le
  have not_short : ¬ p.size < 0 := by
    rw [lt_iff, value_zero]
    exact not_lt.mpr h.ge
  rw [direction, directionOf, if_neg not_long, if_neg not_short]

theorem opposes_iff (p : Position) (side : Side) :
    p.Opposes side ↔ side.factor * p.size.value < 0 := by
  simp only [Opposes]
  rcases lt_trichotomy p.size.value 0 with negative | zero | positive
  · rw [direction_of_neg negative]
    cases side <;> simp [Direction.openingSide?, Side.opposite, Side.factor, Side.sign] <;> linarith
  · rw [direction_of_zero zero, zero]
    simp [Direction.openingSide?]
  · rw [direction_of_pos positive]
    cases side <;> simp [Direction.openingSide?, Side.opposite, Side.factor, Side.sign] <;> linarith

theorem opposes_congr {p p' : Position} (same : p'.size = p.size) {side : Side} :
    p'.Opposes side ↔ p.Opposes side := by
  rw [Opposes, Opposes, direction, direction, same]

theorem abs_size_of_opposes {p : Position} {side : Side} (h : p.Opposes side) :
    |p.size.value| = -(side.factor * p.size.value) := by
  rw [← side.abs_factor_mul]
  exact abs_of_neg ((opposes_iff p side).mp h)

theorem abs_size_pos {p : Position} {side : Side} (h : p.Opposes side) : 0 < |p.size.value| := by
  rw [abs_size_of_opposes h, neg_pos]
  exact (opposes_iff p side).mp h

theorem abs_size_of_not_opposes {p : Position} {side : Side} (h : ¬ p.Opposes side) :
    |p.size.value| = side.factor * p.size.value := by
  rw [← side.abs_factor_mul]
  exact abs_of_nonneg (not_lt.mp fun negative => h ((opposes_iff p side).mpr negative))

theorem closingSign_of_opposes {p : Position} {side : Side} (h : p.Opposes side) :
    p.closingSign.value = -side.factor := by
  rw [opposes_iff] at h
  simp only [closingSign]
  cases side.factor_cases with
  | inl buy =>
    rw [if_neg, value_neg, value_one, buy]
    rw [lt_iff, value_zero]
    rw [buy] at h
    linarith
  | inr sell =>
    rw [if_pos, value_one, sell, neg_neg]
    rw [lt_iff, value_zero]
    rw [sell] at h
    linarith

/-- The closing direction gives the magnitude of the size its sign. -/
theorem abs_size_mul_closingSign {p : Position} {side : Side} (h : p.Opposes side) :
    |p.size.value| * p.closingSign.value = p.size.value := by
  rw [closingSign_of_opposes h, abs_size_of_opposes h]
  linear_combination p.size.value * side.factor_mul_self

theorem closingSign_cases (p : Position) : p.closingSign.value = 1 ∨ p.closingSign.value = -1 := by
  simp only [closingSign]
  split <;> simp

/-! ## Magnitudes -/

/-- The magnitude of the size after an adding fill, whatever its side. -/
theorem nearest?_abs_add {p : Position} {side : Side} {quantity size : ℚ} (h : ¬ p.Opposes side)
    (positive : 0 < quantity)
    (nearest : nearest? (p.size.value + side.factor * quantity) = some size) :
    nearest? (|p.size.value| + quantity) = some |size| ∧ size = side.factor * |size| := by
  have sum : |p.size.value| + quantity = side.factor * (p.size.value + side.factor * quantity) := by
    rw [mul_add, ← mul_assoc, side.factor_mul_self, one_mul, abs_size_of_not_opposes h]
  have magnitude : nearest? (|p.size.value| + quantity) = some (side.factor * size) := by
    rw [sum, nearest?_factor_mul, nearest, Option.map_some]
  have nonneg : 0 ≤ side.factor * size :=
    nearest?_nonneg (add_nonneg (abs_nonneg _) positive.le) magnitude
  have abs_eq : |size| = side.factor * size := by
    rw [← side.abs_factor_mul, abs_of_nonneg nonneg]
  refine ⟨abs_eq ▸ magnitude, ?_⟩
  rw [abs_eq, ← mul_assoc, side.factor_mul_self, one_mul]

/-- What a closing fill leaves of the size, whatever its side. -/
theorem size_sub_eq {p : Position} {side : Side} (h : p.Opposes side) (quantity : ℚ) :
    p.size.value - p.closingSign.value * quantity = -(side.factor * (|p.size.value| - quantity)) := by
  rw [closingSign_of_opposes h, abs_size_of_opposes h]
  linear_combination -p.size.value * side.factor_mul_self

theorem abs_size_sub {p : Position} {side : Side} {quantity : ℚ} (h : p.Opposes side)
    (le : quantity ≤ |p.size.value|) :
    |p.size.value - p.closingSign.value * quantity| = |p.size.value| - quantity := by
  rw [size_sub_eq h, abs_neg, side.abs_factor_mul, abs_of_nonneg (sub_nonneg.mpr le)]

/-- The magnitude of the size after a closing fill, whatever its side. -/
theorem nearest?_abs_sub {p : Position} {side : Side} {quantity size : ℚ} (h : p.Opposes side)
    (le : quantity ≤ |p.size.value|)
    (nearest : nearest? (p.size.value - p.closingSign.value * quantity) = some size) :
    nearest? (|p.size.value| - quantity) = some |size| ∧ size = -side.factor * |size| := by
  have difference : |p.size.value| - quantity
      = -(side.factor * (p.size.value - p.closingSign.value * quantity)) := by
    rw [size_sub_eq h]
    linear_combination (quantity - |p.size.value|) * side.factor_mul_self
  have magnitude : nearest? (|p.size.value| - quantity) = some (-(side.factor * size)) := by
    rw [difference, nearest?_neg, nearest?_factor_mul, nearest, Option.map_some, Option.map_some]
  have nonneg : 0 ≤ -(side.factor * size) := nearest?_nonneg (sub_nonneg.mpr le) magnitude
  have abs_eq : |size| = -(side.factor * size) := by
    rw [← side.abs_factor_mul, abs_of_nonpos (neg_nonneg.mp nonneg)]
  refine ⟨abs_eq ▸ magnitude, ?_⟩
  rw [abs_eq]
  linear_combination -size * side.factor_mul_self

/-! ## Adding -/

/-- Opening a lot appends it, or folds it into the last one. -/
theorem lotsAfterOpen_eq_ok {p : Position} {lot : Lot} {lots : List Lot} {average : Decimal}
    (h : p.lotsAfterOpen lot = .ok (lots, average)) :
    (∃ front last merged, p.method = .weightedAverage ∧ p.lots = front ++ [last] ∧
      last.merge lot = .ok merged ∧ lots = front ++ [merged] ∧ average = merged.price) ∨
    ((p.method = .fifo ∨ p.lots = []) ∧ lots = p.lots ++ [lot] ∧
      Lot.averagePrice lots = .ok average) := by
  unfold lotsAfterOpen at h
  split at h
  next last weighted newest =>
    rw [bind_eq_ok] at h
    obtain ⟨merged, folded, h⟩ := h
    cases h
    refine .inl ⟨p.lots.dropLast, last, merged, weighted, ?_, folded, rfl, rfl⟩
    exact (List.dropLast_append_getLast? last newest).symm
  next unmerged =>
    rw [bind_eq_ok] at h
    obtain ⟨average, averaged, h⟩ := h
    cases h
    refine .inr ⟨?_, rfl, averaged⟩
    -- Either condition for merging can be the one that fails.
    cases method : p.method with
    | fifo => exact .inl rfl
    | weightedAverage =>
      cases newest : p.lots.getLast? with
      | none => exact .inr (List.getLast?_eq_none_iff.mp newest)
      | some last => exact absurd newest (unmerged last method)

def grow? (p : Position) (side : Side) (quantity : Decimal) : Option Decimal :=
  match side with
  | .buy => p.size.add? quantity
  | .sell => p.size.sub? quantity

theorem grow?_rounds (p : Position) (side : Side) (quantity : Decimal) :
    Rounds (p.grow? side quantity) (p.size.value + side.factor * quantity.value) := by
  cases side with
  | buy =>
    rw [Side.factor, Side.sign, Int.cast_one, one_mul]
    exact add?_rounds p.size quantity
  | sell =>
    rw [Side.factor, Side.sign, Int.cast_neg, Int.cast_one, neg_one_mul, ← sub_eq_add_neg]
    exact sub?_rounds p.size quantity

theorem add_eq (p : Position) (side : Side) (quantity price : Decimal) :
    p.add side quantity price = (do
      let lot ← Obstacle.checked .lotCost (Lot.make? quantity price)
      let size ← Obstacle.checked .positionSize (p.grow? side quantity)
      let (lots, averagePrice) ← p.lotsAfterOpen lot
      return ({ p with size, averagePrice, lots }, { opened := quantity })) := by
  cases side <;> rfl

theorem add_eq_ok {p next : Position} {side : Side} {quantity price : Decimal}
    {outcome : FillOutcome} (h : p.add side quantity price = .ok (next, outcome)) :
    ∃ size lots average, Lot.make? quantity price = some ⟨quantity, price⟩ ∧
      nearest? (p.size.value + side.factor * quantity.value) = some size.value ∧
      p.lotsAfterOpen ⟨quantity, price⟩ = .ok (lots, average) ∧
      next = { p with size, averagePrice := average, lots } ∧ outcome = { opened := quantity } := by
  rw [add_eq] at h
  simp only [bind_eq_ok, Obstacle.checked_eq_ok] at h
  obtain ⟨lot, made, size, sum, ⟨lots, average⟩, opened, h⟩ := h
  obtain ⟨rfl, _⟩ := Lot.make?_eq_some made
  cases h
  exact ⟨size, lots, average, made, (p.grow?_rounds side quantity).nearest?_eq sum, opened, rfl, rfl⟩

/-! ## Closing -/

theorem value_of_change {p : Position} {quantity change : Decimal}
    (changed : Obstacle.multiply quantity p.closingSign = .ok change) :
    change.value = p.closingSign.value * quantity.value := by
  obtain ⟨change', changed', change_eq⟩ :=
    Obstacle.exists_multiply_sign (a := quantity) p.closingSign_cases
  obtain rfl : change' = change := Except.ok.inj (changed'.symm.trans changed)
  rw [change_eq, mul_comm]

/-- A close takes the size towards zero, so the difference cannot leave the range. -/
theorem size_apart_of_change {p : Position} {side : Side} {quantity change : Decimal}
    (opposes : p.Opposes side) (nonneg : 0 ≤ quantity.value) (enough : quantity.value ≤ |p.size.value|)
    (changed : Obstacle.multiply quantity p.closingSign = .ok change) :
    |p.size.value - change.value| < limit := by
  have bound := abs_value_le p.size
  rw [value_of_change changed, abs_size_sub opposes enough]
  exact lt_of_le_of_lt (by linarith) maxMantissa_lt_limit

theorem reduce_eq_ok {p next : Position} {quantity price : Decimal} {outcome : FillOutcome}
    (h : p.reduce quantity price = .ok (next, outcome)) :
    ∃ walk realizedPnl lots average size,
      Walk.through price p.closingSign { remaining := quantity } p.lots = .ok walk ∧
      p.realizedPnl.add? walk.realized = some realizedPnl ∧
      survivors p.lots walk = .ok lots ∧ Lot.averagePrice lots = .ok average ∧
      nearest? (p.size.value - p.closingSign.value * quantity.value) = some size.value ∧
      outcome = { closed := quantity, realizedPnl := walk.realized } ∧
      (size.IsZero ∧ next = { p with size := 0, averagePrice := 0, lots := [], realizedPnl } ∨
        ¬ size.IsZero ∧ next = { p with size, averagePrice := average, lots, realizedPnl }) := by
  rw [reduce_eq] at h
  simp only [bind_eq_ok, Obstacle.checked_eq_ok] at h
  -- Each step of the sequence succeeded, in the order in which a close takes them.
  obtain ⟨walk, walked, realizedPnl, booked, lots, left, average, averaged, change, changed, size,
    subtracted, h⟩ := h
  have sized := Obstacle.subtract_eq_ok subtracted
  rw [value_of_change changed] at sized
  refine ⟨walk, realizedPnl, lots, average, size, walked, booked, left, averaged, sized, ?_⟩
  split at h
  next zero =>
    cases h
    exact ⟨rfl, .inl ⟨zero, rfl⟩⟩
  next open_ =>
    cases h
    exact ⟨rfl, .inr ⟨open_, rfl⟩⟩

/-- A closing fill of which every step succeeds; it normalises a position that ends flat. -/
theorem exists_reduce {p : Position} {quantity price realizedPnl average change size : Decimal}
    {walk : Walk} {lots : List Lot}
    (walked : Walk.through price p.closingSign { remaining := quantity } p.lots = .ok walk)
    (booked : p.realizedPnl.add? walk.realized = some realizedPnl)
    (survived : survivors p.lots walk = .ok lots) (averaged : Lot.averagePrice lots = .ok average)
    (changed : Obstacle.multiply quantity p.closingSign = .ok change)
    (subtracted : Obstacle.subtract p.size change = .ok size) :
    ∃ next, p.reduce quantity price
        = .ok (next, { closed := quantity, realizedPnl := walk.realized }) ∧
      next.realizedPnl = realizedPnl ∧
      (size.IsZero ∧ next.size = 0 ∧ next.lots = [] ∨
        ¬ size.IsZero ∧ next.size = size ∧ next.lots = lots) := by
  by_cases zero : size.IsZero
  · refine ⟨{ p with size := 0, averagePrice := 0, lots := [], realizedPnl }, ?_, rfl,
      .inl ⟨zero, rfl, rfl⟩⟩
    rw [reduce_eq, walked, ok_bind, booked, Obstacle.checked_some rfl, ok_bind, survived, ok_bind, averaged,
      ok_bind, changed, ok_bind, subtracted, ok_bind, if_pos zero]
    rfl
  · refine ⟨{ p with size, averagePrice := average, lots, realizedPnl }, ?_, rfl,
      .inr ⟨zero, rfl, rfl⟩⟩
    rw [reduce_eq, walked, ok_bind, booked, Obstacle.checked_some rfl, ok_bind, survived, ok_bind, averaged,
      ok_bind, changed, ok_bind, subtracted, ok_bind, if_neg zero]
    rfl

/-- Within the holding the new size is in range, so what is left to check are the profit and the average. -/
theorem exists_reduce_of_enough {p : Position} {side : Side} {quantity price realizedPnl average : Decimal}
    {walk : Walk} {lots : List Lot} (opposes : p.Opposes side) (nonneg : 0 ≤ quantity.value)
    (enough : quantity.value ≤ |p.size.value|)
    (walked : Walk.through price p.closingSign { remaining := quantity } p.lots = .ok walk)
    (booked : p.realizedPnl.add? walk.realized = some realizedPnl)
    (survived : survivors p.lots walk = .ok lots) (averaged : Lot.averagePrice lots = .ok average) :
    ∃ next, p.reduce quantity price
        = .ok (next, { closed := quantity, realizedPnl := walk.realized }) ∧
      next.realizedPnl = realizedPnl := by
  obtain ⟨change, changed, _⟩ := Obstacle.exists_multiply_sign (a := quantity) p.closingSign_cases
  obtain ⟨size, subtracted, _⟩ :=
    Obstacle.exists_subtract (size_apart_of_change opposes nonneg enough changed)
  obtain ⟨next, reduced, next_realized, _⟩ := exists_reduce walked booked survived averaged changed subtracted
  exact ⟨next, reduced, next_realized⟩

/-- A close that takes the profit realized so far out of range. -/
theorem reduce_of_overflow {p : Position} {quantity price : Decimal} {walk : Walk}
    (walked : Walk.through price p.closingSign { remaining := quantity } p.lots = .ok walk)
    (out : p.realizedPnl.add? walk.realized = none) :
    p.reduce quantity price = .error (.overflow .realizedPnl) := by
  rw [reduce_eq, walked, ok_bind, out]
  rfl

/-! ## Fills -/

theorem failure_congr {p p' : Position} (same : p'.symbol = p.symbol) (quantity price : Decimal) :
    p'.failure quantity price = p.failure quantity price := by
  funext obstacle
  cases obstacle with
  | overflow stage => simp only [failure, same]
  | fault fault => rfl

theorem not_invalid_iff (quantity price : Decimal) :
    ¬ (quantity ≤ 0 ∨ price ≤ 0) ↔ 0 < quantity.value ∧ 0 < price.value := by
  rw [not_or, le_iff, le_iff, value_zero, not_le, not_le]

/-- The two kinds of fills that are accepted. -/
theorem fill_eq_ok {p next : Position} {side : Side} {quantity price : Decimal}
    {outcome : FillOutcome} (h : p.fill side quantity price = .ok (next, outcome)) :
    0 < quantity.value ∧ 0 < price.value ∧
    ∃ p', next = { p' with tradeCount := p'.tradeCount + 1 } ∧
      (p.Opposes side ∧ quantity.value ≤ |p.size.value| ∧
          p.reduce quantity price = .ok (p', outcome) ∨
        ¬ p.Opposes side ∧ p.add side quantity price = .ok (p', outcome)) := by
  unfold fill at h
  split at h
  next => cases h
  next valid =>
    obtain ⟨quantity_pos, price_pos⟩ := (not_invalid_iff quantity price).mp valid
    rw [bind_eq_ok] at h
    obtain ⟨⟨p', outcome'⟩, traded, h⟩ := h
    cases h
    refine ⟨quantity_pos, price_pos, p', rfl, ?_⟩
    unfold trade at traded
    split at traded
    next opposes =>
      unfold close at traded
      split at traded
      next => cases traded
      next enough =>
        rw [lt_iff, value_abs, not_lt] at enough
        exact .inl ⟨opposes, enough, mapError_eq_ok.mp traded⟩
    next joins => exact .inr ⟨joins, mapError_eq_ok.mp traded⟩

theorem fill_of_invalid {quantity price : Decimal} (invalid : quantity ≤ 0 ∨ price ≤ 0) (p : Position)
    (side : Side) : p.fill side quantity price = .error (.refused (.invalidFill quantity price)) :=
  if_pos invalid

theorem trade_of_opposes {p : Position} {side : Side} (h : p.Opposes side) (quantity price : Decimal) :
    p.trade side quantity price = p.close quantity price := if_pos h

theorem trade_of_not_opposes {p : Position} {side : Side} (h : ¬ p.Opposes side)
    (quantity price : Decimal) :
    p.trade side quantity price
      = (p.add side quantity price).mapError (p.failure quantity price) := if_neg h

theorem close_of_enough {p : Position} {quantity : Decimal} (enough : quantity.value ≤ |p.size.value|)
    (price : Decimal) :
    p.close quantity price = (p.reduce quantity price).mapError (p.failure quantity price) := by
  have within : ¬ p.size.abs < quantity := by
    rw [lt_iff, value_abs]
    exact not_lt.mpr enough
  exact if_neg within

section

variable {p : Position} {side : Side} {quantity price : Decimal} (quantity_pos : 0 < quantity.value)
  (price_pos : 0 < price.value)

include quantity_pos price_pos

theorem fill_eq_trade : p.fill side quantity price = (do
    let (next, outcome) ← p.trade side quantity price
    return ({ next with tradeCount := next.tradeCount + 1 }, outcome)) :=
  if_neg ((not_invalid_iff quantity price).mpr ⟨quantity_pos, price_pos⟩)

/-- A close larger than the holding is refused whole. -/
theorem fill_of_insufficient (opposes : p.Opposes side) (less : |p.size.value| < quantity.value) :
    p.fill side quantity price
      = .error (.refused (.insufficientPosition p.symbol quantity p.size.abs)) := by
  have larger : p.size.abs < quantity := by
    rw [lt_iff, value_abs]
    exact less
  rw [fill_eq_trade quantity_pos price_pos, trade_of_opposes opposes, close, if_pos larger]
  rfl

theorem fill_of_reduce {next : Position} {outcome : FillOutcome} (opposes : p.Opposes side)
    (enough : quantity.value ≤ |p.size.value|) (reduced : p.reduce quantity price = .ok (next, outcome)) :
    p.fill side quantity price = .ok ({ next with tradeCount := next.tradeCount + 1 }, outcome) := by
  rw [fill_eq_trade quantity_pos price_pos, trade_of_opposes opposes, close_of_enough enough, reduced]
  rfl

theorem fill_of_reduce_error {obstacle : Obstacle} (opposes : p.Opposes side)
    (enough : quantity.value ≤ |p.size.value|) (stopped : p.reduce quantity price = .error obstacle) :
    p.fill side quantity price = .error (p.failure quantity price obstacle) := by
  rw [fill_eq_trade quantity_pos price_pos, trade_of_opposes opposes, close_of_enough enough, stopped]
  rfl

theorem fill_of_add {next : Position} {outcome : FillOutcome} (joins : ¬ p.Opposes side)
    (added : p.add side quantity price = .ok (next, outcome)) :
    p.fill side quantity price = .ok ({ next with tradeCount := next.tradeCount + 1 }, outcome) := by
  rw [fill_eq_trade quantity_pos price_pos, trade_of_not_opposes joins, added]
  rfl

end

/-- The outcome of a fill tells whether it went against the holding. -/
theorem isClosing_iff_opposes {p next : Position} {side : Side} {quantity price : Decimal}
    {outcome : FillOutcome} (h : p.fill side quantity price = .ok (next, outcome)) :
    outcome.IsClosing ↔ p.Opposes side := by
  obtain ⟨quantity_pos, _, p', _, ⟨opposes, _, reduced⟩ | ⟨joins, added⟩⟩ := fill_eq_ok h
  · obtain ⟨_, _, _, _, _, _, _, _, _, _, rfl, _⟩ := reduce_eq_ok reduced
    refine iff_of_true ?_ opposes
    rw [FillOutcome.IsClosing, lt_iff, value_zero]
    exact quantity_pos
  · obtain ⟨_, _, _, _, _, _, _, rfl⟩ := add_eq_ok added
    refine iff_of_false ?_ joins
    rw [FillOutcome.IsClosing, lt_iff]
    exact lt_irrefl _

theorem method_of_fill {p next : Position} {side : Side} {quantity price : Decimal}
    {outcome : FillOutcome} (h : p.fill side quantity price = .ok (next, outcome)) :
    next.method = p.method := by
  obtain ⟨_, _, p', rfl, ⟨_, _, reduced⟩ | ⟨_, added⟩⟩ := fill_eq_ok h
  · obtain ⟨_, _, _, _, _, _, _, _, _, _, _, ⟨_, rfl⟩ | ⟨_, rfl⟩⟩ := reduce_eq_ok reduced <;> rfl
  · obtain ⟨_, _, _, _, _, _, rfl, _⟩ := add_eq_ok added
    rfl

theorem symbol_of_fill {p next : Position} {side : Side} {quantity price : Decimal}
    {outcome : FillOutcome} (h : p.fill side quantity price = .ok (next, outcome)) :
    next.symbol = p.symbol := by
  obtain ⟨_, _, p', rfl, ⟨_, _, reduced⟩ | ⟨_, added⟩⟩ := fill_eq_ok h
  · obtain ⟨_, _, _, _, _, _, _, _, _, _, _, ⟨_, rfl⟩ | ⟨_, rfl⟩⟩ := reduce_eq_ok reduced <;> rfl
  · obtain ⟨_, _, _, _, _, _, rfl, _⟩ := add_eq_ok added
    rfl

/-- The lots that a close leaves have the prices of the newest of those before. -/
theorem prices_suffix_of_fill {p next : Position} {side : Side} {quantity price : Decimal}
    {outcome : FillOutcome} (opposes : p.Opposes side)
    (h : p.fill side quantity price = .ok (next, outcome)) :
    next.lots.map Lot.price <:+ p.lots.map Lot.price := by
  obtain ⟨_, _, p', rfl, ⟨_, _, reduced⟩ | ⟨joins, _⟩⟩ := fill_eq_ok h
  · obtain ⟨walk, _, lots, _, _, _, _, left, _, _, _, ⟨_, rfl⟩ | ⟨_, rfl⟩⟩ := reduce_eq_ok reduced
    · exact List.nil_suffix
    · rw [prices_of_survivors left]
      exact List.drop_suffix _ _
  · exact absurd opposes joins

/-! ## Soundness -/

/-- A ledger of sound lots, without any when the position is flat. -/
structure Sound (p : Position) : Prop where
  lots : ∀ lot ∈ p.lots, lot.Sound
  flat : p.size.IsZero → p.lots = []

theorem Sound.new (symbol : String) (method : Method) : (Position.new symbol method).Sound where
  lots := by simp [Position.new]
  flat _ := rfl

section

variable {p : Position} {side : Side} {quantity price : Decimal}

theorem Sound.lot_of_make? (made : Lot.make? quantity price = some ⟨quantity, price⟩)
    (quantity_pos : 0 < quantity.value) (price_pos : 0 < price.value) :
    (⟨quantity, price⟩ : Lot).Sound := .of_make? made quantity_pos price_pos.le

theorem Sound.lotsAfterOpen (sound : p.Sound) {lot : Lot} (lot_sound : lot.Sound) {lots : List Lot}
    {average : Decimal} (h : p.lotsAfterOpen lot = .ok (lots, average)) : ∀ lot ∈ lots, lot.Sound := by
  rcases lotsAfterOpen_eq_ok h with ⟨front, last, merged, _, split, folded, rfl, _⟩ | ⟨_, rfl, _⟩
  · have lots_sound := sound.lots
    rw [split, List.forall_mem_append, List.forall_mem_singleton] at lots_sound
    rw [List.forall_mem_append, List.forall_mem_singleton]
    exact ⟨lots_sound.1, lots_sound.2.merge lot_sound folded⟩
  · rw [List.forall_mem_append, List.forall_mem_singleton]
    exact ⟨sound.lots, lot_sound⟩

/-- A size that is not zero does not become zero by adding to it. -/
theorem size_pos_of_add {size : Decimal} (joins : ¬ p.Opposes side) (quantity_pos : 0 < quantity.value)
    (nearest : nearest? (p.size.value + side.factor * quantity.value) = some size.value) :
    0 < |size.value| := by
  have sum := (nearest?_abs_add joins quantity_pos nearest).1
  rw [← value_abs] at sum
  exact nearest?_pos ((onGrid_value _).add (onGrid_value _))
    (add_pos_of_nonneg_of_pos (by rw [value_abs]; exact abs_nonneg _) quantity_pos) sum

theorem Sound.add {next : Position} {outcome : FillOutcome} (sound : p.Sound)
    (joins : ¬ p.Opposes side) (quantity_pos : 0 < quantity.value) (price_pos : 0 < price.value)
    (h : p.add side quantity price = .ok (next, outcome)) : next.Sound := by
  obtain ⟨size, lots, average, made, sized, opened, rfl, _⟩ := add_eq_ok h
  refine ⟨sound.lotsAfterOpen (lot_of_make? made quantity_pos price_pos) opened, fun zero => ?_⟩
  have positive := size_pos_of_add joins quantity_pos sized
  rw [(isZero_iff size).mp zero, abs_zero] at positive
  exact absurd positive (lt_irrefl _)

/-- The lots that a closing fill leaves, as a recursion on what was there. -/
theorem Sound.survivors (sound : p.Sound) {walk : Walk} (quantity_pos : 0 < quantity.value)
    (price_pos : 0 < price.value)
    (walked : Walk.through price p.closingSign { remaining := quantity } p.lots = .ok walk) :
    ∃ left, Position.survivors p.lots walk = .ok left ∧ (∀ lot ∈ left, lot.Sound) ∧
      left.map Lot.values = drain rounded quantity.value (p.lots.map Lot.values) := by
  obtain ⟨_, n, left, exhausted, found, left_sound, left_eq⟩ :=
    Walk.through_eq_ok price_pos.le p.closingSign_cases sound.lots { remaining := quantity }
      quantity_pos.le value_zero walked
  rw [Nat.zero_add] at exhausted
  exact ⟨left, by rw [← found, ← exhausted], left_sound, left_eq⟩

theorem Sound.reduce {next : Position} {outcome : FillOutcome} (sound : p.Sound)
    (quantity_pos : 0 < quantity.value) (price_pos : 0 < price.value)
    (h : p.reduce quantity price = .ok (next, outcome)) : next.Sound := by
  obtain ⟨walk, realizedPnl, lots, average, size, walked, _, left, _, _, _, closed⟩ := reduce_eq_ok h
  obtain ⟨left', found, left_sound, _⟩ := sound.survivors quantity_pos price_pos walked
  obtain rfl : left' = lots := Except.ok.inj (found.symm.trans left)
  rcases closed with ⟨_, rfl⟩ | ⟨open_, rfl⟩
  · exact ⟨by simp, fun _ => rfl⟩
  · exact ⟨left_sound, fun zero => absurd zero open_⟩

theorem Sound.fill {next : Position} {outcome : FillOutcome} (sound : p.Sound)
    (h : p.fill side quantity price = .ok (next, outcome)) : next.Sound := by
  obtain ⟨quantity_pos, price_pos, p', rfl, ⟨_, _, reduced⟩ | ⟨joins, added⟩⟩ := fill_eq_ok h
  · have := sound.reduce quantity_pos price_pos reduced
    exact ⟨this.lots, this.flat⟩
  · have := sound.add joins quantity_pos price_pos added
    exact ⟨this.lots, this.flat⟩

end

end Position

end CostBasis
