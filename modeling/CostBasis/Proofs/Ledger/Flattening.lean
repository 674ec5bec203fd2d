import CostBasis.Proofs.Ledger.AverageLot
import CostBasis.Proofs.Ledger.ExactRun
import CostBasis.Proofs.Ledger.Marks

/-!
# Marks and flattening

The unrealized profit at a price is what a fill would book that closes the whole position at that price.  The
mark multiplies the signed size with the distance to the average price and saturates; the close sums up over
the lots and refuses what is out of range.
-/

namespace CostBasis

open Decimal

namespace Position

section

variable {p next : Position} {side : Side} {quantity price : Decimal} {outcome : FillOutcome}

/-! ## The average price of the lots -/

/-- A fill leaves the average of the lots that it leaves. -/
theorem Sound.averagePrice_of_fill (sound : p.Sound) (averaged : p.method = .weightedAverage → p.Averaged)
    (filled : p.fill side quantity price = .ok (next, outcome)) :
    Lot.averagePrice next.lots = .ok next.averagePrice := by
  have next_sound := sound.fill filled
  obtain ⟨_, _, p', rfl, ⟨_, _, reduced⟩ | ⟨_, added⟩⟩ := fill_eq_ok filled
  · obtain ⟨_, _, lots, average, size, _, _, _, averages, _, _, ⟨_, rfl⟩ | ⟨_, rfl⟩⟩ := reduce_eq_ok reduced
    · rfl
    · exact averages
  · obtain ⟨size, lots, average, _, _, opened, rfl, _⟩ := add_eq_ok added
    obtain ⟨front, last, merged, weighted, split, _, rfl, rfl⟩ | ⟨_, _, averages⟩ := lotsAfterOpen_eq_ok opened
    · -- Under weighted average the lot that was merged into is the only one.
      have single := (averaged weighted).single
      rw [split, List.length_append, List.length_singleton] at single
      obtain rfl : front = [] := List.eq_nil_of_length_eq_zero (by omega)
      exact Lot.averagePrice_singleton (next_sound.lots merged (by simp))
    · exact averages

/-! ## What is held -/

theorem not_isFlat_of_opposes (opposes : p.Opposes side) : ¬p.IsFlat := fun flat =>
  (abs_size_pos opposes).ne' (abs_eq_zero.mpr ((isZero_iff _).mp flat))

/-- The unrealized profit where the distance to the average price is in range. -/
theorem saturates_unrealizedPnl_of_nearest? {distance : ℚ}
    (nearest : nearest? (price.value - p.averagePrice.value) = some distance) :
    Saturates (p.size.value * distance) (p.unrealizedPnl price) := by
  rw [← (saturates_sub price p.averagePrice).value_eq nearest]
  exact p.saturates_unrealizedPnl price

/-! ## Under weighted average -/

section

variable (opposes : p.Opposes side) (whole : quantity.value = |p.size.value|) (price_pos : 0 < price.value)

include opposes whole price_pos

/-- The walk that closes the only lot books one product, of the distance between the prices and the size. -/
theorem Walk.through_whole {lot : Lot} (lot_sound : lot.Sound) (one : p.lots = [lot])
    (size_eq : |p.size.value| = lot.quantity.value) :
    ∃ distance signed remaining : Decimal,
      nearest? (price.value - lot.price.value) = some distance.value ∧ signed.value = p.size.value ∧
      Walk.through price p.closingSign { remaining := quantity } p.lots = (do
        let pnl ← Obstacle.checked .realizedPnl (distance.mul? signed)
        return { remaining, realized := pnl, exhausted := 1 }) := by
  have quantity_pos : 0 < quantity.value := whole ▸ abs_size_pos opposes
  obtain ⟨distance, signed, remaining, nearest, signed_eq, _, through⟩ :=
    Walk.through_cons price_pos.le p.closingSign_cases (w := { remaining := quantity }) [] lot_sound
      quantity_pos.le (mt (isZero_iff _).mp quantity_pos.ne')
  rw [whole, ← size_eq, min_self, abs_size_mul_closingSign opposes] at signed_eq
  refine ⟨distance, signed, remaining, nearest, signed_eq, ?_⟩
  rw [one, through]
  have all : lot.quantity.value ≤ quantity.value := by rw [whole, size_eq]
  simp only [Walk.pass, all, if_true]
  rfl

/-- Under weighted average, flattening books the unrealized profit, unless it is out of range. -/
theorem Averaged.flatten (averaged : p.Averaged) (sound : p.Sound) :
    (∃ next outcome, p.fill side quantity price = .ok (next, outcome) ∧
        outcome.realizedPnl.value = (p.unrealizedPnl price).value ∧
        next.realizedPnl.value = (p.totalPnl price).value) ∨
      p.fill side quantity price = .error (.refused (.overflow p.symbol .realizedPnl quantity price)) ∧
        ((p.unrealizedPnl price).IsBound ∨ (p.totalPnl price).IsBound) := by
  have held := not_isFlat_of_opposes opposes
  have quantity_pos : 0 < quantity.value := whole ▸ abs_size_pos opposes
  obtain ⟨zero, _⟩ | ⟨lot, one, size_eq, average_eq⟩ := averaged.nil_or_singleton
  · exact absurd ((isZero_iff _).mpr zero) held
  have lot_sound := sound.lots lot (by simp [one])
  obtain ⟨distance, signed, remaining, nearest, signed_eq, walked⟩ :=
    Walk.through_whole opposes whole price_pos lot_sound one size_eq
  -- The mark and the walk round one and the same product.
  have product := mul?_rounds distance signed
  rw [← average_eq] at nearest
  have marked := saturates_unrealizedPnl_of_nearest? nearest
  rw [signed_eq, mul_comm] at product
  have refused : p.reduce quantity price = .error (.overflow .realizedPnl) →
      p.fill side quantity price = .error (.refused (.overflow p.symbol .realizedPnl quantity price)) :=
    fill_of_reduce_error quantity_pos price_pos opposes whole.le
  cases multiplied : distance.mul? signed with
  | none =>
    rw [multiplied] at walked
    refine .inr ⟨refused ?_, .inl ?_⟩
    · rw [Position.reduce_eq, walked]
      rfl
    · exact marked.isBound (product.nearest?_eq_none multiplied)
  | some pnl =>
    rw [multiplied] at walked
    have pnl_eq := marked.value_eq (product.nearest?_eq multiplied)
    have sum := add?_rounds p.realizedPnl pnl
    rw [← pnl_eq] at sum
    have total : Saturates _ (p.totalPnl price) := saturates_add p.realizedPnl (p.unrealizedPnl price)
    cases booked : p.realizedPnl.add? pnl with
    | none =>
      exact .inr ⟨refused (reduce_of_overflow walked booked), .inr (total.isBound (sum.nearest?_eq_none booked))⟩
    | some realizedPnl =>
      obtain ⟨next, reduced, next_realized⟩ :=
        exists_reduce_of_enough opposes quantity_pos.le whole.le walked booked (by rw [one]; rfl) rfl
      refine .inl ⟨_, _, fill_of_reduce quantity_pos price_pos opposes whole.le reduced, pnl_eq.symm, ?_⟩
      rw [total.value_eq (sum.nearest?_eq booked), ← next_realized]

end

/-! ## In the exact range -/

section

variable {a b : ℕ} {top used volume : ℚ} (exact : p.Exact a b top used) (bounds : Bounds a b volume top)
  (averages : Lot.averagePrice p.lots = .ok p.averagePrice) (held : ¬p.IsFlat)

include exact bounds averages held

theorem Exact.isAverage (room : |p.size.value| ≤ volume) : Lot.IsAverage p.lots p.averagePrice := by
  have nonempty : p.lots ≠ [] := fun none => held <| by
    have size_eq := exact.size_eq
    rw [none, List.map_nil, held_nil] at size_eq
    exact (isZero_iff _).mpr (abs_eq_zero.mp size_eq)
  obtain ⟨average, averaged, isAverage⟩ :=
    Lot.averagePrice_exact bounds exact.lots nonempty (exact.size_eq ▸ room)
  obtain rfl : average = p.averagePrice := Except.ok.inj (averaged.symm.trans averages)
  exact isAverage

/-- In the exact range the unrealized profit is exact. -/
theorem Exact.value_unrealizedPnl (room : |p.size.value| ≤ volume) (price_scale : price.scale ≤ b)
    (price_nonneg : 0 ≤ price.value) (price_le : price.value ≤ top) :
    (p.unrealizedPnl price).value = p.size.value * (price.value - p.averagePrice.value) := by
  obtain ⟨scale, nonneg, le⟩ := (exact.isAverage bounds averages held room).within exact.lots bounds.places
  have distance_grid : OnGrid b (price.value - p.averagePrice.value) :=
    (onGrid_of_scale price_scale).sub (onGrid_of_scale scale)
  have distance_le : |price.value - p.averagePrice.value| ≤ top := by
    rw [abs_le]
    constructor <;> linarith
  have product_le : |p.size.value * (price.value - p.averagePrice.value)| ≤ volume * top := by
    rw [abs_mul]
    exact mul_le_mul room distance_le (abs_nonneg _) bounds.volume_nonneg
  have nearest := nearest?_of_representable (bounds.representable_price distance_grid distance_le)
  refine (saturates_unrealizedPnl_of_nearest? nearest).value_eq (nearest?_of_representable ?_)
  exact bounds.representable_amount (exact.size_grid.mul distance_grid) product_le

end

/-- What a fill books that closes all lots: their worth at its price, less what they cost. -/
theorem Exact.booked_of_whole {a b : ℕ} {top used used' : ℚ} {fill : Fill} (exact : p.Exact a b top used)
    (next_exact : next.Exact a b top used') (shrunk : p.Shrunk fill next outcome)
    (opposes : p.Opposes fill.side) (whole : fill.quantity.value = |p.size.value|) :
    outcome.realizedPnl.value
      = -fill.side.factor * (|p.size.value| * fill.price.value - worth (p.lots.map Lot.values)) := by
  -- Nothing is held afterwards, so the whole cost of the lots is drained.
  have size_zero : |next.size.value| = 0 := by
    rw [shrunk.abs_size_eq opposes whole.le, whole, sub_self]
  have none : next.lots.map Lot.values = [] :=
    eq_nil_of_held_eq_zero next_exact.values_pos (next_exact.size_eq ▸ size_zero)
  have covered : |p.size.value| ≤ held (p.lots.map Lot.values) := exact.size_eq.le
  rw [shrunk.booked_eq, whole, gain_eq exact.values_pos _ (abs_nonneg _) covered, ← whole, ← shrunk.lots_eq,
    none, worth_nil, sub_zero]

/-- In the exact range, flattening books the unrealized profit up to the rounding of the average price. -/
theorem Exact.flatten {a b : ℕ} {top used volume : ℚ} (exact : p.Exact a b top used)
    (bounds : Bounds a b volume top) (averages : Lot.averagePrice p.lots = .ok p.averagePrice) {fill : Fill}
    (fill_exact : fill.Exact a b top) (room : used + fill.quantity.value ≤ volume)
    (opposes : p.Opposes fill.side) (whole : fill.quantity.value = |p.size.value|) :
    ∃ next outcome, p.apply fill = .ok (next, outcome) ∧
      |outcome.realizedPnl.value - (p.unrealizedPnl fill.price).value|
        ≤ |p.size.value| / 10 ^ averagePlaces ∧
      (p.lots.length = 1 → outcome.realizedPnl.value = (p.unrealizedPnl fill.price).value) := by
  have held := not_isFlat_of_opposes opposes
  have size_room : |p.size.value| ≤ volume := by
    have used_nonneg := exact.used_nonneg
    linarith
  obtain ⟨_, less, _⟩ | ⟨next, outcome, filled, next_exact, ⟨_, _, shrunk⟩ | ⟨joins, _⟩⟩ :=
    exact.apply_cases bounds fill_exact room
  · exact absurd whole.le (not_le.mpr less)
  · have marked := exact.value_unrealizedPnl bounds averages held size_room fill_exact.price_scale
      fill_exact.positive.2.le fill_exact.price_le
    have booked := exact.booked_of_whole next_exact shrunk opposes whole
    -- The two differ in what the lots cost, as they are and at their average price.
    have difference : outcome.realizedPnl.value - (p.unrealizedPnl fill.price).value
        = -fill.side.factor * (|p.size.value| * p.averagePrice.value - worth (p.lots.map Lot.values)) := by
      rw [booked, marked, abs_size_of_opposes opposes]
      linear_combination
        p.size.value * (fill.price.value - p.averagePrice.value) * fill.side.factor_mul_self
    refine ⟨next, outcome, filled, ?_, fun single => ?_⟩
    · rw [difference, neg_mul, abs_neg, Side.abs_factor_mul, exact.size_eq]
      exact (exact.isAverage bounds averages held size_room).error
    · obtain ⟨lot, one⟩ := List.length_eq_one_iff.mp single
      have lot_sound := exact.sound.lots lot (by simp [one])
      rw [one, Lot.averagePrice_singleton lot_sound, Except.ok.injEq] at averages
      rw [← sub_eq_zero, difference, exact.size_eq, one, ← averages]
      simp [Lot.values]
  · exact absurd opposes joins

end

end Position

namespace Session

/-- The average price of a position is that of its lots, whatever was asked of it. -/
theorem averagePrice_of_run (symbol : String) (method : Method) (requests : List Request) :
    ∃ s, (start symbol method).run requests = .ok s ∧ s.position.Sound ∧
      (s.position.method = .weightedAverage → s.position.Averaged) ∧
      Lot.averagePrice s.position.lots = .ok s.position.averagePrice := by
  refine run_induction (start symbol method)
    (motive := fun _ s => (s.position.method = .weightedAverage → s.position.Averaged) ∧
      Lot.averagePrice s.position.lots = .ok s.position.averagePrice)
    (start_sound symbol method) ⟨fun _ => Position.averaged_of_nil isZero_zero rfl, rfl⟩ ?_ requests
  intro _ s request s' _ sound ⟨averaged, averages⟩ _ turn
  refine ⟨averaged_of_turn sound averaged turn, ?_⟩
  cases turn with
  | switched | unswitched | refused => exact averages
  | accepted filled => exact sound.averagePrice_of_fill averaged filled

/-- Whatever was asked of a position, consider a fill that closes all that is held.  Under weighted average
it books the unrealized profit at its price, or is refused for an overflow of the profit, which the
unrealized or the total profit meets by a bound.  In the exact range it is accepted and books the unrealized
profit up to a unit of the twelfth place of the size, and exactly when there is one lot. -/
theorem flatten_of_run (symbol : String) (method : Method) (requests : List Request) :
    ∃ s, (start symbol method).run requests = .ok s ∧
      ∀ fill, s.position.Opposes fill.side → fill.quantity.value = |s.position.size.value| →
        0 < fill.price.value →
        (s.position.method = .weightedAverage →
          (∃ next outcome, s.position.apply fill = .ok (next, outcome) ∧
            outcome.realizedPnl.value = (s.position.unrealizedPnl fill.price).value ∧
            next.realizedPnl.value = (s.position.totalPnl fill.price).value) ∨
          s.position.apply fill
              = .error (.refused (.overflow s.position.symbol .realizedPnl fill.quantity fill.price)) ∧
            ((s.position.unrealizedPnl fill.price).IsBound ∨ (s.position.totalPnl fill.price).IsBound)) ∧
        ∀ a b, ExactRange a b (fillsOf (requests ++ [.fill fill])) →
          ∃ next outcome, s.position.apply fill = .ok (next, outcome) ∧
            |outcome.realizedPnl.value - (s.position.unrealizedPnl fill.price).value|
              ≤ |s.position.size.value| / 10 ^ 12 ∧
            (s.position.lots.length = 1 →
              outcome.realizedPnl.value = (s.position.unrealizedPnl fill.price).value) := by
  obtain ⟨s, ran, sound, averaged, averages⟩ := averagePrice_of_run symbol method requests
  refine ⟨s, ran, fun fill opposes whole price_pos => ⟨fun weighted => ?_, fun a b range => ?_⟩⟩
  · exact (averaged weighted).flatten opposes whole price_pos sound
  · have positive : fill.IsPositive := ⟨whole ▸ Position.abs_size_pos opposes, price_pos⟩
    -- The run before the fill is a prefix of a run in the exact range.
    obtain ⟨s', ran', exact⟩ := exact_run range symbol method (List.prefix_append requests [.fill fill])
    obtain rfl : s' = s := Except.ok.inj (ran'.symm.trans ran)
    obtain ⟨fill_exact, room⟩ := range.next (fillsOf_next (List.prefix_refl _)) positive
    exact exact.flatten range.bounds averages fill_exact room opposes whole

/-- Two lots whose average price `5 / 3` is rounded. -/
def boughtTwice : List Request :=
  let two := Decimal.written 2 0
  [.fill ⟨.buy, 1, 1⟩, .fill ⟨.buy, two, two⟩]

/-- The lots close for seven, and the rounded average price promised a unit of the twelfth place less. -/
theorem flatten_of_run_boughtTwice :
    let fill : Fill := ⟨.sell, .written 3 0, .written 4 0⟩
    ∃ s, (start "X" .fifo).run boughtTwice = .ok s ∧ s.position.Opposes fill.side ∧
      fill.quantity.value = |s.position.size.value| ∧ 0 < fill.price.value ∧
      ExactRange 0 12 (fillsOf (boughtTwice ++ [.fill fill])) ∧
      ∃ next outcome, s.position.apply fill = .ok (next, outcome) ∧
        outcome.realizedPnl = .written 7 0 ∧
        s.position.unrealizedPnl fill.price = .written 6999999999999 12 ∧
        |outcome.realizedPnl.value - (s.position.unrealizedPnl fill.price).value|
          ≤ |s.position.size.value| / 10 ^ 12 := by
  intro fill
  obtain ⟨s, ran, flatten⟩ := flatten_of_run "X" .fifo boughtTwice
  have observed : ((start "X" .fifo).run boughtTwice).toOption.map
      (fun s => (s.position.size, s.position.unrealizedPnl fill.price,
        (s.position.apply fill).toOption.map fun sold => sold.2.realizedPnl))
      = some (.written 3 0, .written 6999999999999 12, some (.written 7 0)) := by decide +kernel
  have bought := eq_of_observed observed ran
  simp only [Prod.mk.injEq] at bought
  obtain ⟨size, promised, sold⟩ := bought
  have opposes : s.position.Opposes fill.side := by
    rw [Position.Opposes, Position.direction, size]
    decide +kernel
  have whole : fill.quantity.value = |s.position.size.value| := by
    rw [size]
    decide +kernel
  have price_pos : 0 < fill.price.value := by decide +kernel
  have range : ExactRange 0 12 (fillsOf (boughtTwice ++ [.fill fill])) :=
    ⟨by decide, by decide, by decide +kernel, by decide +kernel⟩
  obtain ⟨next, outcome, filled, close, _⟩ := (flatten fill opposes whole price_pos).2 0 12 range
  have booked := eq_of_observed sold filled
  exact ⟨s, ran, opposes, whole, price_pos, range, next, outcome, filled, booked, promised, close⟩

end Session

end CostBasis
