import Mathlib.Tactic.LinearCombination
import CostBasis.Proofs.Ledger.ExactAverage

/-!
# Fills in the exact range

In the exact range a positive fill is refused for one reason only, that it would close more than is
held.  Every other one is accepted and does exactly what it should: an adding fill appends its lot or
merges it, and a closing fill drains the oldest lots and books the gain on them.
-/

namespace CostBasis

open Decimal

/-- A positive fill of a bounded run. -/
structure Fill.Exact (a b : ℕ) (top : ℚ) (fill : Fill) : Prop where
  positive : fill.IsPositive
  quantity_scale : fill.quantity.scale ≤ a
  price_scale : fill.price.scale ≤ b
  price_le : fill.price.value ≤ top

theorem ExactRange.fill_exact {a b : ℕ} {fills : List Fill} (range : ExactRange a b fills) {fill : Fill}
    (member : fill ∈ fills) (positive : fill.IsPositive) : fill.Exact a b (largestPrice fills) where
  positive := positive
  quantity_scale := (range.scales fill member positive).1
  price_scale := (range.scales fill member positive).2
  price_le := le_largestPrice member positive

/-- A positive fill that comes next in the exact range has its parts in range, and there is room for it. -/
theorem ExactRange.next {a b : ℕ} {fills done : List Fill} {fill : Fill} (range : ExactRange a b fills)
    (before : done ++ [fill] <+: fills) (positive : fill.IsPositive) :
    fill.Exact a b (largestPrice fills) ∧ turnover done + fill.quantity.value ≤ turnover fills := by
  have member : fill ∈ fills := before.subset (List.mem_append_right _ List.mem_cons_self)
  have room := turnover_mono before
  rw [turnover_append, turnover_singleton positive] at room
  exact ⟨range.fill_exact member positive, room⟩

theorem Fill.Exact.quantity_grid {a b : ℕ} {top : ℚ} {fill : Fill} (exact : fill.Exact a b top) :
    OnGrid a fill.quantity.value :=
  onGrid_of_scale exact.quantity_scale

/-- The lot of a fill has its cost in range. -/
theorem Fill.Exact.lot {a b : ℕ} {volume top : ℚ} {fill : Fill} (exact : fill.Exact a b top)
    (bounds : Bounds a b volume top) (room : fill.quantity.value ≤ volume) :
    Lot.make? fill.quantity fill.price = some ⟨fill.quantity, fill.price⟩ ∧
      (⟨fill.quantity, fill.price⟩ : Lot).Exact a b top := by
  obtain ⟨quantity_pos, price_pos⟩ := exact.positive
  have made : Lot.make? fill.quantity fill.price = some ⟨fill.quantity, fill.price⟩ := by
    refine Lot.exists_make? ?_
    rw [abs_of_nonneg (mul_nonneg quantity_pos.le price_pos.le)]
    refine lt_of_le_of_lt ?_ bounds.amount_lt_limit
    exact mul_le_mul room exact.price_le price_pos.le bounds.volume_nonneg
  exact ⟨made, .of_make? made quantity_pos price_pos.le, exact.quantity_grid, exact.price_scale,
    exact.price_le⟩

namespace Position

/-- A position that has come through a volume of `used` in the exact range. -/
structure Exact (a b : ℕ) (top used : ℚ) (p : Position) : Prop where
  lots : ∀ lot ∈ p.lots, lot.Exact a b top
  size_eq : |p.size.value| = held (p.lots.map Lot.values)
  size_le : |p.size.value| ≤ used
  realized_grid : OnGrid (a + b) p.realizedPnl.value
  realized_le : |p.realizedPnl.value| + |p.size.value| * top ≤ used * top

/-- What an adding fill does in the exact range. -/
structure Grown (p : Position) (fill : Fill) (next : Position) (outcome : FillOutcome) : Prop where
  outcome_eq : outcome = { opened := fill.quantity }
  size_eq : next.size.value = p.size.value + fill.side.factor * fill.quantity.value
  realized_eq : next.realizedPnl = p.realizedPnl
  lots_eq : p.method = .fifo ∨ p.lots = [] → next.lots = p.lots ++ [⟨fill.quantity, fill.price⟩]
  worth_le : |worth (next.lots.map Lot.values)
    - (worth (p.lots.map Lot.values) + fill.quantity.value * fill.price.value)|
    ≤ |next.size.value| / 10 ^ averagePlaces

/-- What a closing fill does in the exact range. -/
structure Shrunk (p : Position) (fill : Fill) (next : Position) (outcome : FillOutcome) : Prop where
  opened_eq : outcome.opened = 0
  closed_eq : outcome.closed = fill.quantity
  booked_eq : outcome.realizedPnl.value
    = -fill.side.factor * gain fill.price.value fill.quantity.value (p.lots.map Lot.values)
  size_eq : next.size.value = p.size.value + fill.side.factor * fill.quantity.value
  realized_eq : next.realizedPnl.value = p.realizedPnl.value + outcome.realizedPnl.value
  lots_eq : next.lots.map Lot.values = drain id fill.quantity.value (p.lots.map Lot.values)

section

variable {p next : Position} {fill : Fill} {outcome : FillOutcome}

/-- Measured along its side, an adding fill makes the size larger by its quantity. -/
theorem Grown.size_along (grown : p.Grown fill next outcome) (joins : ¬ p.Opposes fill.side) :
    fill.side.factor * next.size.value = |p.size.value| + fill.quantity.value := by
  rw [grown.size_eq, abs_size_of_not_opposes joins]
  linear_combination fill.quantity.value * fill.side.factor_mul_self

/-- Measured against its side, a closing fill makes the size smaller by its quantity. -/
theorem Shrunk.size_along (shrunk : p.Shrunk fill next outcome) (opposes : p.Opposes fill.side) :
    fill.side.opposite.factor * next.size.value = |p.size.value| - fill.quantity.value := by
  rw [fill.side.factor_opposite, shrunk.size_eq, abs_size_of_opposes opposes]
  linear_combination -fill.quantity.value * fill.side.factor_mul_self

theorem Grown.abs_size_eq (grown : p.Grown fill next outcome) (joins : ¬ p.Opposes fill.side)
    (positive : 0 < fill.quantity.value) :
    |next.size.value| = |p.size.value| + fill.quantity.value := by
  rw [← fill.side.abs_factor_mul, grown.size_along joins]
  exact abs_of_nonneg (add_nonneg (abs_nonneg _) positive.le)

theorem Grown.not_isFlat (grown : p.Grown fill next outcome) (joins : ¬ p.Opposes fill.side)
    (positive : 0 < fill.quantity.value) : ¬ next.IsFlat := by
  intro flat
  have abs_size := grown.abs_size_eq joins positive
  rw [(isZero_iff _).mp flat, abs_zero] at abs_size
  have size_nonneg := abs_nonneg p.size.value
  linarith

theorem Shrunk.abs_size_eq (shrunk : p.Shrunk fill next outcome) (opposes : p.Opposes fill.side)
    (enough : fill.quantity.value ≤ |p.size.value|) :
    |next.size.value| = |p.size.value| - fill.quantity.value := by
  rw [← fill.side.opposite.abs_factor_mul, shrunk.size_along opposes]
  exact abs_of_nonneg (sub_nonneg.mpr enough)

end

section

variable {a b : ℕ} {top used : ℚ} {p : Position}

theorem Exact.values_pos (exact : p.Exact a b top used) :
    ∀ lot ∈ p.lots.map Lot.values, 0 < lot.1 :=
  Lot.values_pos fun lot member => (exact.lots lot member).sound

theorem Exact.values_grid (exact : p.Exact a b top used) :
    ∀ lot ∈ p.lots.map Lot.values, OnGrid a lot.1 := by
  rintro values member
  obtain ⟨lot, found, rfl⟩ := List.mem_map.mp member
  exact (exact.lots lot found).quantity_grid

theorem Exact.sound (exact : p.Exact a b top used) : p.Sound where
  lots lot member := (exact.lots lot member).sound
  flat zero := by
    have none : held (p.lots.map Lot.values) = 0 := by
      rw [← exact.size_eq, (isZero_iff _).mp zero, abs_zero]
    exact List.map_eq_nil_iff.mp (eq_nil_of_held_eq_zero exact.values_pos none)

theorem Exact.used_nonneg (exact : p.Exact a b top used) : 0 ≤ used :=
  (abs_nonneg _).trans exact.size_le

theorem Exact.size_grid (exact : p.Exact a b top used) : OnGrid a p.size.value := by
  have grid : OnGrid a |p.size.value| := by
    rw [exact.size_eq]
    exact onGrid_held exact.values_grid
  cases abs_choice p.size.value with
  | inl eq =>
    rwa [eq] at grid
  | inr eq =>
    rw [eq] at grid
    exact neg_neg p.size.value ▸ grid.neg

theorem Exact.new (a b : ℕ) (top : ℚ) (symbol : String) (method : Method) :
    (Position.new symbol method).Exact a b top 0 where
  lots := by simp [Position.new]
  size_eq := by simp [Position.new]
  size_le := by simp [Position.new]
  realized_grid := by
    change OnGrid (a + b) (0 : Decimal).value
    exact value_zero ▸ .zero
  realized_le := by simp [Position.new]

/-! ## Adding -/

variable {volume : ℚ} (bounds : Bounds a b volume top)

include bounds

/-- Merged into the last lot, a lot changes what the lots are worth by no more than the rounding. -/
theorem Exact.exists_merged (exact : p.Exact a b top used) {last lot : Lot}
    (newest : p.lots.getLast? = some last) (lot_exact : lot.Exact a b top)
    (room : |p.size.value| + lot.quantity.value ≤ volume) :
    ∃ merged, last.merge lot = .ok merged ∧
      (∀ lot ∈ p.lots.dropLast ++ [merged], lot.Exact a b top) ∧
      held ((p.lots.dropLast ++ [merged]).map Lot.values) = |p.size.value| + lot.quantity.value ∧
      |worth ((p.lots.dropLast ++ [merged]).map Lot.values)
        - (worth (p.lots.map Lot.values) + lot.quantity.value * lot.price.value)|
        ≤ (|p.size.value| + lot.quantity.value) / 10 ^ averagePlaces := by
  have split : p.lots = p.lots.dropLast ++ [last] :=
    (List.dropLast_append_getLast? last newest).symm
  have front_exact : ∀ lot ∈ p.lots.dropLast, lot.Exact a b top := fun lot member =>
    exact.lots lot (List.mem_of_mem_dropLast member)
  have last_le : last.quantity.value ≤ |p.size.value| := by
    rw [exact.size_eq]
    exact le_held exact.values_pos (List.mem_map_of_mem (List.mem_of_getLast? newest))
  obtain ⟨merged, folded, merged_exact, quantity_eq, _, _, error⟩ :=
    (exact.lots last (List.mem_of_getLast? newest)).merge bounds lot_exact (by linarith)
  refine ⟨merged, folded, ?_, ?_, ?_⟩
  · rw [List.forall_mem_append, List.forall_mem_singleton]
    exact ⟨front_exact, merged_exact⟩
  · have size_eq := exact.size_eq
    rw [split, List.map_append, held_append] at size_eq
    rw [List.map_append, held_append, size_eq]
    simp only [List.map_singleton, held_cons, held_nil, Lot.values, quantity_eq]
    ring
  · have change : worth ((p.lots.dropLast ++ [merged]).map Lot.values)
        - (worth (p.lots.map Lot.values) + lot.quantity.value * lot.price.value)
        = merged.quantity.value * merged.price.value
          - (last.quantity.value * last.price.value + lot.quantity.value * lot.price.value) := by
      conv_lhs => rw [split]
      simp only [List.map_append, worth_append, List.map_singleton, worth_cons, worth_nil, Lot.values,
        List.dropLast_concat]
      ring
    rw [change]
    refine error.trans ?_
    gcongr
    rw [quantity_eq]
    linarith

/-- Appended as it is, a lot leaves an average price in range. -/
theorem Exact.exists_appended (exact : p.Exact a b top used) {lot : Lot}
    (lot_exact : lot.Exact a b top) (room : |p.size.value| + lot.quantity.value ≤ volume) :
    ∃ average, Lot.averagePrice (p.lots ++ [lot]) = .ok average ∧
      (∀ lot' ∈ p.lots ++ [lot], lot'.Exact a b top) ∧
      held ((p.lots ++ [lot]).map Lot.values) = |p.size.value| + lot.quantity.value := by
  have lots_exact : ∀ lot' ∈ p.lots ++ [lot], lot'.Exact a b top := by
    rw [List.forall_mem_append, List.forall_mem_singleton]
    exact ⟨exact.lots, lot_exact⟩
  have held_eq : held ((p.lots ++ [lot]).map Lot.values) = |p.size.value| + lot.quantity.value := by
    rw [List.map_append, held_append, exact.size_eq]
    simp [Lot.values]
  obtain ⟨average, averaged⟩ := Lot.exists_averagePrice bounds lots_exact (held_eq.trans_le room)
  exact ⟨average, averaged, lots_exact, held_eq⟩

theorem Exact.exists_lotsAfterOpen (exact : p.Exact a b top used) {lot : Lot}
    (lot_exact : lot.Exact a b top) (room : |p.size.value| + lot.quantity.value ≤ volume) :
    ∃ lots average, p.lotsAfterOpen lot = .ok (lots, average) ∧ (∀ lot ∈ lots, lot.Exact a b top) ∧
      held (lots.map Lot.values) = |p.size.value| + lot.quantity.value ∧
      (p.method = .fifo ∨ p.lots = [] → lots = p.lots ++ [lot]) ∧
      |worth (lots.map Lot.values)
        - (worth (p.lots.map Lot.values) + lot.quantity.value * lot.price.value)|
        ≤ (|p.size.value| + lot.quantity.value) / 10 ^ averagePlaces := by
  simp only [lotsAfterOpen]
  split
  next last weighted newest =>
    obtain ⟨merged, folded, lots_exact, held_eq, error⟩ :=
      exact.exists_merged bounds newest lot_exact room
    refine ⟨p.lots.dropLast ++ [merged], merged.price, ?_, lots_exact, held_eq, ?_, error⟩
    · rw [folded]
      rfl
    · intro appends
      cases appends with
      | inl fifo =>
        rw [weighted] at fifo
        cases fifo
      | inr none =>
        rw [none] at newest
        cases newest
  next =>
    obtain ⟨average, averaged, lots_exact, held_eq⟩ := exact.exists_appended bounds lot_exact room
    refine ⟨p.lots ++ [lot], average, ?_, lots_exact, held_eq, fun _ => rfl, ?_⟩
    · simp only [averaged, ok_bind]
      rfl
    · have lot_positive := lot_exact.sound.quantity_pos
      rw [List.map_append, worth_append]
      simp only [List.map_singleton, worth_cons, worth_nil, Lot.values, add_zero, sub_self, abs_zero]
      positivity

variable {fill : Fill} (fill_exact : fill.Exact a b top)
  (room : used + fill.quantity.value ≤ volume)

include fill_exact room

/-- An adding fill is accepted. -/
theorem Exact.exists_grown (exact : p.Exact a b top used) (joins : ¬ p.Opposes fill.side) :
    ∃ next outcome, p.add fill.side fill.quantity fill.price = .ok (next, outcome) ∧
      next.Exact a b top (used + fill.quantity.value) ∧ p.Grown fill next outcome := by
  obtain ⟨quantity_pos, price_pos⟩ := fill_exact.positive
  have used_nonneg := exact.used_nonneg
  have size_le := exact.size_le
  obtain ⟨made, lot_exact⟩ := fill_exact.lot bounds (by linarith)
  have sum_eq : p.size.value + fill.side.factor * fill.quantity.value
      = fill.side.factor * (|p.size.value| + fill.quantity.value) := by
    rw [abs_size_of_not_opposes joins]
    linear_combination -p.size.value * fill.side.factor_mul_self
  have sum_abs : |p.size.value + fill.side.factor * fill.quantity.value|
      = |p.size.value| + fill.quantity.value := by
    rw [sum_eq, Side.abs_factor_mul]
    exact abs_of_nonneg (add_nonneg (abs_nonneg _) quantity_pos.le)
  have sum_representable : Representable (p.size.value + fill.side.factor * fill.quantity.value) := by
    refine bounds.representable_quantity (exact.size_grid.add ?_) (by rw [sum_abs]; linarith)
    rw [mul_comm]
    exact fill_exact.quantity_grid.mul_unit fill.side.factor_cases
  obtain ⟨size, summed, size_eq⟩ :=
    (p.grow?_rounds fill.side fill.quantity).exact sum_representable
  obtain ⟨lots, average, opened, lots_exact, held_eq, appended, worth_le⟩ :=
    exact.exists_lotsAfterOpen bounds lot_exact (by linarith)
  rw [← size_eq] at sum_abs
  have realized_le := exact.realized_le
  refine ⟨{ p with size, averagePrice := average, lots }, { opened := fill.quantity }, ?_,
    ⟨lots_exact, ?_, ?_, exact.realized_grid, ?_⟩, ⟨rfl, size_eq, rfl, appended, ?_⟩⟩
  · rw [add_eq, made, Obstacle.checked_some rfl, ok_bind, summed, Obstacle.checked_some rfl, ok_bind, opened,
      ok_bind]
    rfl
  · exact sum_abs.trans held_eq.symm
  · change |size.value| ≤ _
    linarith
  · change |p.realizedPnl.value| + |size.value| * top ≤ _
    rw [sum_abs, add_mul, add_mul]
    linarith
  · change _ ≤ |size.value| / _
    rw [sum_abs]
    exact worth_le

/-! ## Closing -/

/-- What a closing fill leaves of the lots: no difference is rounded. -/
theorem Exact.exists_survivors (exact : p.Exact a b top used) {walk : Walk}
    (walked : Walk.through fill.price p.closingSign { remaining := fill.quantity } p.lots = .ok walk) :
    ∃ left, survivors p.lots walk = .ok left ∧ (∀ lot ∈ left, lot.Exact a b top) ∧
      left.map Lot.values = drain id fill.quantity.value (p.lots.map Lot.values) := by
  obtain ⟨quantity_pos, price_pos⟩ := fill_exact.positive
  have used_nonneg := exact.used_nonneg
  have quantity_grid := fill_exact.quantity_grid
  obtain ⟨left, found, left_sound, left_eq⟩ := exact.sound.survivors quantity_pos price_pos walked
  have held_le : held (p.lots.map Lot.values) ≤ volume := by
    have size_le := exact.size_le
    rw [exact.size_eq] at size_le
    linarith
  rw [drain_rounded bounds exact.values_pos exact.values_grid held_le quantity_grid quantity_pos.le
    (by linarith)] at left_eq
  refine ⟨left, found, fun lot member => ?_, left_eq⟩
  have grid : OnGrid a lot.values.1 := by
    refine onGrid_of_mem_drain quantity_grid exact.values_grid ?_
    rw [← left_eq]
    exact List.mem_map_of_mem member
  -- The price is that of one of the lots before.
  have price_member : lot.price ∈ p.lots.map Lot.price := by
    refine List.mem_of_mem_drop (i := walk.exhausted) ?_
    rw [← prices_of_survivors found]
    exact List.mem_map_of_mem member
  obtain ⟨before, before_member, price_eq⟩ := List.mem_map.mp price_member
  have before_exact := exact.lots before before_member
  exact ⟨left_sound lot member, grid, price_eq ▸ before_exact.price_scale,
    price_eq ▸ before_exact.price_le⟩

/-- A closing fill books the gain, and the profit so far takes it in. -/
theorem Exact.exists_booking (exact : p.Exact a b top used) (opposes : p.Opposes fill.side) :
    ∃ (walk : Walk) (realizedPnl : Decimal),
      Walk.through fill.price p.closingSign { remaining := fill.quantity } p.lots = .ok walk ∧
      p.realizedPnl.add? walk.realized = some realizedPnl ∧
      walk.realized.value
        = -fill.side.factor * gain fill.price.value fill.quantity.value (p.lots.map Lot.values) ∧
      realizedPnl.value = p.realizedPnl.value + walk.realized.value ∧
      OnGrid (a + b) realizedPnl.value ∧
      |realizedPnl.value| ≤ |p.realizedPnl.value| + fill.quantity.value * top := by
  obtain ⟨quantity_pos, price_pos⟩ := fill_exact.positive
  have used_nonneg := exact.used_nonneg
  obtain ⟨walk, walked, walk_grid, walk_le, walk_eq⟩ :=
    Walk.exists_through bounds fill_exact.price_scale price_pos.le fill_exact.price_le
      p.closingSign_cases exact.lots fill_exact.quantity_grid quantity_pos.le
      (by linarith)
  rw [closingSign_of_opposes opposes] at walk_eq
  have sum_le := abs_add_le p.realizedPnl.value walk.realized.value
  -- What is realized already leaves room for what this fill may book.
  have within : |p.realizedPnl.value + walk.realized.value| ≤ volume * top := by
    have realized_le := exact.realized_le
    have size_cost : 0 ≤ |p.size.value| * top := mul_nonneg (abs_nonneg _) bounds.top_nonneg
    have room_cost : (used + fill.quantity.value) * top ≤ volume * top :=
      mul_le_mul_of_nonneg_right room bounds.top_nonneg
    rw [add_mul] at room_cost
    linarith
  have sum_grid := exact.realized_grid.add walk_grid
  obtain ⟨realizedPnl, booked, realizedPnl_eq⟩ := (add?_rounds p.realizedPnl walk.realized).exact
    (bounds.representable_amount sum_grid within)
  rw [← realizedPnl_eq] at sum_grid sum_le
  exact ⟨walk, realizedPnl, walked, booked, walk_eq, realizedPnl_eq, sum_grid, by linarith⟩

/-- The size after a closing fill is exact. -/
theorem Exact.exists_size (exact : p.Exact a b top used) (opposes : p.Opposes fill.side)
    (enough : fill.quantity.value ≤ |p.size.value|) :
    ∃ change size, Obstacle.multiply fill.quantity p.closingSign = .ok change ∧
      Obstacle.subtract p.size change = .ok size ∧
      size.value = p.size.value + fill.side.factor * fill.quantity.value := by
  obtain ⟨change, changed, change_eq⟩ :=
    Obstacle.exists_multiply_sign (a := fill.quantity) p.closingSign_cases
  have change_grid : OnGrid a change.value := by
    rw [change_eq]
    exact fill_exact.quantity_grid.mul_unit p.closingSign_cases
  have within : |p.size.value - change.value| ≤ volume := by
    have size_le := exact.size_le
    have quantity_pos := fill_exact.positive.1
    rw [change_eq, mul_comm, abs_size_sub opposes enough]
    linarith
  obtain ⟨size, subtracted, size_eq⟩ := Obstacle.exists_subtract_exact
    (bounds.representable_quantity (exact.size_grid.sub change_grid) within)
  refine ⟨change, size, changed, subtracted, ?_⟩
  rw [size_eq, change_eq, closingSign_of_opposes opposes]
  ring

/-- A closing fill no larger than the holding is accepted. -/
theorem Exact.exists_shrunk (exact : p.Exact a b top used) (opposes : p.Opposes fill.side)
    (enough : fill.quantity.value ≤ |p.size.value|) :
    ∃ next outcome, p.reduce fill.quantity fill.price = .ok (next, outcome) ∧
      next.Exact a b top (used + fill.quantity.value) ∧ p.Shrunk fill next outcome := by
  have quantity_pos := fill_exact.positive.1
  have used_nonneg := exact.used_nonneg
  have size_le := exact.size_le
  obtain ⟨walk, realizedPnl, walked, booked, walk_eq, realizedPnl_eq, realized_grid, realized_le⟩ :=
    exact.exists_booking bounds fill_exact room opposes
  obtain ⟨left, survived, left_exact, left_eq⟩ := exact.exists_survivors bounds fill_exact room walked
  obtain ⟨change, size, changed, subtracted, size_eq⟩ :=
    exact.exists_size bounds fill_exact room opposes enough
  -- The lots that are left are as large as the size that is left.
  have left_held : held (left.map Lot.values) = |p.size.value| - fill.quantity.value := by
    rw [left_eq, held_drain quantity_pos.le (exact.size_eq ▸ enough), exact.size_eq]
  obtain ⟨average, averaged⟩ := Lot.exists_averagePrice bounds left_exact (by linarith)
  obtain ⟨next, reduced, next_realized, ended⟩ :=
    Position.exists_reduce walked booked survived averaged changed subtracted
  -- Normalising a size of zero does not change its value.
  have next_size : next.size.value = size.value := by
    rcases ended with ⟨zero, sized, _⟩ | ⟨_, sized, _⟩
    · rw [sized, value_zero, (isZero_iff _).mp zero]
    · rw [sized]
  have abs_size : |next.size.value| = |p.size.value| - fill.quantity.value := by
    rw [next_size, size_eq, ← abs_size_sub opposes enough, closingSign_of_opposes opposes]
    ring_nf
  have next_lots : next.lots = left := by
    rcases ended with ⟨zero, _, none⟩ | ⟨_, _, lots⟩
    · -- A position that ends flat has nothing left to clear.
      rw [next_size, (isZero_iff _).mp zero, abs_zero, ← left_held] at abs_size
      have left_pos := Lot.values_pos fun lot found => (left_exact lot found).sound
      rw [none, List.map_eq_nil_iff.mp (eq_nil_of_held_eq_zero left_pos abs_size.symm)]
    · exact lots
  have quantity_cost : 0 ≤ fill.quantity.value * top := mul_nonneg quantity_pos.le bounds.top_nonneg
  have used_cost := exact.realized_le
  refine ⟨next, _, reduced, ⟨next_lots ▸ left_exact, ?_, ?_, next_realized ▸ realized_grid, ?_⟩,
    ⟨rfl, rfl, walk_eq, next_size.trans size_eq, next_realized ▸ realizedPnl_eq, next_lots ▸ left_eq⟩⟩
  · rw [abs_size, next_lots, left_held]
  · rw [abs_size]
    linarith
  · rw [abs_size, next_realized, sub_mul, add_mul]
    linarith

/-! ## Any positive fill -/

/-- A positive fill is refused when it would close more than is held, and accepted otherwise. -/
theorem Exact.apply_cases (exact : p.Exact a b top used) :
    p.Opposes fill.side ∧ |p.size.value| < fill.quantity.value ∧
        p.apply fill
          = .error (.refused (.insufficientPosition p.symbol fill.quantity p.size.abs)) ∨
      ∃ next outcome, p.apply fill = .ok (next, outcome) ∧
        next.Exact a b top (used + fill.quantity.value) ∧
        (p.Opposes fill.side ∧ fill.quantity.value ≤ |p.size.value| ∧ p.Shrunk fill next outcome ∨
          ¬ p.Opposes fill.side ∧ p.Grown fill next outcome) := by
  obtain ⟨quantity_pos, price_pos⟩ := fill_exact.positive
  by_cases opposes : p.Opposes fill.side
  · rcases lt_or_ge |p.size.value| fill.quantity.value with less | enough
    · exact .inl ⟨opposes, less, fill_of_insufficient quantity_pos price_pos opposes less⟩
    · obtain ⟨next, outcome, reduced, next_exact, shrunk⟩ :=
        exact.exists_shrunk bounds fill_exact room opposes enough
      refine .inr ⟨_, outcome, fill_of_reduce quantity_pos price_pos opposes enough reduced,
        ⟨next_exact.lots, next_exact.size_eq, next_exact.size_le, next_exact.realized_grid,
          next_exact.realized_le⟩, .inl ⟨opposes, enough, ?_⟩⟩
      exact ⟨shrunk.opened_eq, shrunk.closed_eq, shrunk.booked_eq, shrunk.size_eq, shrunk.realized_eq,
        shrunk.lots_eq⟩
  · obtain ⟨next, outcome, added, next_exact, grown⟩ :=
      exact.exists_grown bounds fill_exact room opposes
    refine .inr ⟨_, outcome, fill_of_add quantity_pos price_pos opposes added,
      ⟨next_exact.lots, next_exact.size_eq, next_exact.size_le, next_exact.realized_grid,
        next_exact.realized_le⟩, .inr ⟨opposes, ?_⟩⟩
    exact ⟨grown.outcome_eq, grown.size_eq, grown.realized_eq, grown.lots_eq, grown.worth_le⟩

/-- A positive fill that closes no more than is held is accepted. -/
theorem Exact.exists_apply (exact : p.Exact a b top used)
    (enough : p.Opposes fill.side → fill.quantity.value ≤ |p.size.value|) :
    ∃ next outcome, p.apply fill = .ok (next, outcome) ∧
      next.Exact a b top (used + fill.quantity.value) := by
  obtain ⟨opposes, less, _⟩ | ⟨next, outcome, filled, next_exact, _⟩ :=
    exact.apply_cases bounds fill_exact room
  · exact absurd (enough opposes) (not_le.mpr less)
  · exact ⟨next, outcome, filled, next_exact⟩

end

end Position

end CostBasis
