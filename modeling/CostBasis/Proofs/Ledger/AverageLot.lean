import CostBasis.Proofs.Ledger.Session

/-!
# The average lot

Under weighted average a ledger has at most one lot, and the size and that lot are two copies of one
quantity.  They are updated by different operations, on a signed number and on its magnitude, and
stay equal because rounding is symmetric in the sign and depends on values alone.
-/

namespace CostBasis

open Decimal

namespace Position

/-- A ledger with at most one lot, which has the quantity and the price of the position. -/
structure Averaged (p : Position) : Prop where
  single : p.lots.length ≤ 1
  flat_iff : p.size.IsZero ↔ p.lots = []
  size_eq : ∀ lot ∈ p.lots, |p.size.value| = lot.quantity.value
  averagePrice_eq : ∀ lot ∈ p.lots, p.averagePrice = lot.price

/-- What a close against the average lot does: the lot covers it, and what is left of the lot keeps
its price. -/
structure Covered (p : Position) (fill : Fill) (next : Position) : Prop where
  remaining : ∃ walk, Walk.through fill.price p.closingSign { remaining := fill.quantity } p.lots
    = .ok walk ∧ walk.remaining.IsZero
  averagePrice_eq : ¬ next.IsFlat → next.averagePrice = p.averagePrice
  prices_eq : ¬ next.IsFlat → next.lots.map Lot.price = p.lots.map Lot.price

theorem averaged_of_nil {p : Position} (zero : p.size.IsZero) (none : p.lots = []) : p.Averaged where
  single := by simp [none]
  flat_iff := ⟨fun _ => none, fun _ => zero⟩
  size_eq := by simp [none]
  averagePrice_eq := by simp [none]

theorem averaged_of_singleton {p : Position} (lot : Lot) (one : p.lots = [lot])
    (positive : 0 < lot.quantity.value) (size_eq : |p.size.value| = lot.quantity.value)
    (average : p.averagePrice = lot.price) : p.Averaged where
  single := by simp [one]
  flat_iff := by
    rw [isZero_iff, ← abs_eq_zero, size_eq, one]
    exact ⟨fun zero => absurd zero positive.ne', fun none => nomatch none⟩
  size_eq := by simpa [one] using size_eq
  averagePrice_eq := by simpa [one] using average

theorem Averaged.nil_or_singleton {p : Position} (averaged : p.Averaged) :
    p.size.value = 0 ∧ p.lots = [] ∨
      ∃ lot, p.lots = [lot] ∧ |p.size.value| = lot.quantity.value ∧ p.averagePrice = lot.price := by
  cases lots : p.lots with
  | nil => exact .inl ⟨(isZero_iff _).mp (averaged.flat_iff.mpr lots), rfl⟩
  | cons lot rest =>
    have single := averaged.single
    rw [lots, List.length_cons] at single
    obtain rfl : rest = [] := List.eq_nil_of_length_eq_zero (by omega)
    have member : lot ∈ p.lots := by simp [lots]
    exact .inr ⟨lot, rfl, averaged.size_eq lot member, averaged.averagePrice_eq lot member⟩

section

variable {p next : Position} {side : Side} {quantity price : Decimal} {outcome : FillOutcome}

theorem Averaged.add (averaged : p.Averaged) (sound : p.Sound) (weighted : p.method = .weightedAverage)
    (joins : ¬ p.Opposes side) (quantity_pos : 0 < quantity.value) (price_pos : 0 < price.value)
    (h : p.add side quantity price = .ok (next, outcome)) : next.Averaged := by
  have next_sound := sound.add joins quantity_pos price_pos h
  obtain ⟨size, lots, average, made, sized, opened, rfl, _⟩ := add_eq_ok h
  have magnitude := (nearest?_abs_add joins quantity_pos sized).1
  have new_sound := Sound.lot_of_make? made quantity_pos price_pos
  rcases averaged.nil_or_singleton with ⟨zero, none⟩ | ⟨lot, one, size_eq, _⟩
  · -- The position was flat: the fill is the first lot, and the size is its quantity.
    rcases lotsAfterOpen_eq_ok opened with ⟨front, last, _, _, split, _⟩ | ⟨_, rfl, averaged_lots⟩
    · rw [none] at split
      simp at split
    · rw [none, List.nil_append, Lot.averagePrice_singleton new_sound] at averaged_lots
      cases averaged_lots
      rw [zero, abs_zero, zero_add, nearest?_of_representable (representable_value _),
        Option.some_inj] at magnitude
      refine averaged_of_singleton ⟨quantity, price⟩ ?_ quantity_pos magnitude.symm rfl
      simp [none]
  · -- The fill is merged: the size and the lot grow by the same rounded sum.
    rcases lotsAfterOpen_eq_ok opened with
      ⟨front, last, merged, _, split, folded, rfl, rfl⟩ | ⟨unmerged, _⟩
    · obtain ⟨rfl, rfl⟩ : front = [] ∧ last = lot := by
        rw [one] at split
        cases front with
        | nil => simpa using split.symm
        | cons _ _ => simp at split
      obtain ⟨_, _, _, _, sum, _⟩ := Lot.merge_eq_ok folded
      rw [size_eq] at magnitude
      refine averaged_of_singleton merged rfl ?_ ?_ rfl
      · exact (next_sound.lots merged (by simp)).quantity_pos
      · exact Option.some_inj.mp (magnitude.symm.trans sum)
    · rw [weighted, one] at unmerged
      simp at unmerged

/-- A walk over one lot that is large enough leaves nothing to be closed. -/
theorem unfilled_singleton {amount : ℚ} {lot : ℚ × ℚ} (le : amount ≤ lot.1) :
    unfilled rounded amount [lot] = 0 := by
  rcases le.lt_or_eq with partly | rfl
  · simp only [unfilled, if_neg (not_le.mpr partly)]
  · simp only [unfilled, if_pos le_rfl, sub_self]
    exact rounded_of_representable ⟨0, value_zero⟩

theorem Averaged.reduce (averaged : p.Averaged) (sound : p.Sound) (opposes : p.Opposes side)
    (quantity_pos : 0 < quantity.value) (price_pos : 0 < price.value)
    (enough : quantity.value ≤ |p.size.value|)
    (h : p.reduce quantity price = .ok (next, outcome)) :
    next.Averaged ∧ p.Covered ⟨side, quantity, price⟩ next := by
  obtain ⟨walk, realizedPnl, lots, average, size, walked, _, left, means, sized, _, closed⟩ :=
    reduce_eq_ok h
  have magnitude := (nearest?_abs_sub opposes enough sized).1
  obtain ⟨lots', found, lots_sound, lots_eq⟩ := sound.survivors quantity_pos price_pos walked
  obtain rfl : lots' = lots := Except.ok.inj (found.symm.trans left)
  have remaining_eq := (Walk.through_eq_ok price_pos.le p.closingSign_cases sound.lots
    { remaining := quantity } quantity_pos.le value_zero walked).1
  rcases averaged.nil_or_singleton with ⟨zero, _⟩ | ⟨lot, one, size_eq, average_eq⟩
  · rw [opposes_iff, zero, mul_zero] at opposes
    exact absurd opposes (lt_irrefl 0)
  rw [one, List.map_singleton] at remaining_eq lots_eq
  rw [size_eq] at enough magnitude
  have covered : walk.remaining.IsZero := by
    rw [isZero_iff, remaining_eq]
    exact unfilled_singleton enough
  rcases closed with ⟨zero, rfl⟩ | ⟨open_, rfl⟩
  · refine ⟨averaged_of_nil isZero_zero rfl, ⟨walk, walked, covered⟩, ?_, ?_⟩
    · exact fun open_ => absurd isZero_zero open_
    · exact fun open_ => absurd isZero_zero open_
  · -- The close stays inside the lot, for otherwise the size would be zero.
    have partly : quantity.value < lot.quantity.value := by
      refine lt_of_le_of_ne enough fun eq => open_ ?_
      rw [eq, sub_self, nearest?_of_representable ⟨0, value_zero⟩, Option.some_inj] at magnitude
      rw [isZero_iff]
      exact abs_eq_zero.mp magnitude.symm
    have drained : lots'.map Lot.values
        = [(rounded (lot.quantity.value - quantity.value), lot.price.value)] := by
      rw [lots_eq, Lot.values, drain, if_neg (not_le.mpr partly)]
    obtain ⟨rest, rfl, values_eq⟩ := List.map_eq_singleton_iff.mp drained
    -- Were the lot used up, no price would be left.
    have price_eq : rest.price = lot.price := by
      have prices := prices_of_survivors left
      rw [one] at prices
      cases exhausted : walk.exhausted with
      | zero => simpa [exhausted] using prices
      | succ n => simp [exhausted] at prices
    have rest_sound := lots_sound rest (by simp)
    rw [Lot.averagePrice_singleton rest_sound] at means
    cases means
    have quantity_eq : |size.value| = rest.quantity.value := by
      rw [← rounded_eq magnitude]
      exact (congrArg Prod.fst values_eq).symm
    refine ⟨?_, ⟨walk, walked, covered⟩, ?_, ?_⟩
    · exact averaged_of_singleton rest rfl rest_sound.quantity_pos quantity_eq rfl
    · exact fun _ => price_eq.trans average_eq.symm
    · intro _
      simp [one, price_eq]

theorem Averaged.fill (averaged : p.Averaged) (sound : p.Sound)
    (weighted : p.method = .weightedAverage) (h : p.fill side quantity price = .ok (next, outcome)) :
    next.Averaged ∧ (outcome.IsClosing → p.Covered ⟨side, quantity, price⟩ next) := by
  rw [isClosing_iff_opposes h]
  obtain ⟨quantity_pos, price_pos, p', rfl, ⟨opposes, enough, reduced⟩ | ⟨joins, added⟩⟩ := fill_eq_ok h
  · obtain ⟨kept, covered⟩ := averaged.reduce sound opposes quantity_pos price_pos enough reduced
    exact ⟨⟨kept.single, kept.flat_iff, kept.size_eq, kept.averagePrice_eq⟩,
      fun _ => ⟨covered.remaining, covered.averagePrice_eq, covered.prices_eq⟩⟩
  · have kept := averaged.add sound weighted joins quantity_pos price_pos added
    exact ⟨⟨kept.single, kept.flat_iff, kept.size_eq, kept.averagePrice_eq⟩,
      fun opposes => absurd opposes joins⟩

end

end Position

namespace Session

theorem averaged_of_turn {s s' : Session} {request : Request} (sound : s.position.Sound)
    (averaged : s.position.method = .weightedAverage → s.position.Averaged)
    (turn : Turn s request s') (weighted : s'.position.method = .weightedAverage) :
    s'.position.Averaged := by
  cases turn with
  | switched method flat => exact Position.averaged_of_nil flat (sound.flat flat)
  | unswitched | refused => exact averaged weighted
  | accepted filled =>
    have before := (Position.method_of_fill filled).symm.trans weighted
    exact ((averaged before).fill sound before filled).1

/-- Whenever a position is under weighted average, it has at most one lot, of its own size and average
price, and that lot covers every close that is accepted. -/
theorem averaged_of_run (symbol : String) (method : Method) (requests : List Request) :
    ∃ s, (start symbol method).run requests = .ok s ∧
      (s.position.method = .weightedAverage →
        s.position.Averaged ∧
        ∀ fill next outcome, s.position.apply fill = .ok (next, outcome) → outcome.IsClosing →
          s.position.Covered fill next) := by
  obtain ⟨s, ran, sound, averaged⟩ :=
    run_induction (start symbol method)
      (motive := fun _ s => s.position.method = .weightedAverage → s.position.Averaged)
      (start_sound symbol method) (fun _ => Position.averaged_of_nil isZero_zero rfl)
      (fun _ _ _ _ _ sound averaged _ turn => averaged_of_turn sound averaged turn) requests
  refine ⟨s, ran, fun weighted => ⟨averaged weighted, fun fill next outcome filled => ?_⟩⟩
  exact ((averaged weighted).fill sound weighted filled).2

end Session

end CostBasis
