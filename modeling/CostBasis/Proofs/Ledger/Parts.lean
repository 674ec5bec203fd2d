import CostBasis.Proofs.Ledger.Flattening
import CostBasis.Proofs.Ledger.Methods

/-!
# Closing in parts

An order may be filled in parts.  Whatever the parts, in the exact range they drain the lots as one fill of
the whole order does, and book together what it books.  So the ledger does not depend on how an order was
split; only the number of fills does.
-/

namespace CostBasis

open Decimal

/-! ## Draining in parts -/

section

variable {lots : List (ℚ × ℚ)} (positive : ∀ lot ∈ lots, 0 < lot.1)

include positive

theorem drain_zero : drain id 0 lots = lots := by
  cases lots with
  | nil => rfl
  | cons lot rest =>
    have first := positive lot List.mem_cons_self
    rw [drain, if_neg (not_le.mpr first), id, sub_zero]

theorem drain_pos {amount : ℚ} : ∀ lot ∈ drain id amount lots, 0 < lot.1 := by
  induction lots generalizing amount with
  | nil => exact List.forall_mem_nil _
  | cons lot rest ih =>
    rw [List.forall_mem_cons] at positive
    rw [drain]
    split
    next => exact ih positive.2
    next partly =>
      rw [List.forall_mem_cons]
      exact ⟨sub_pos.mpr (not_le.mp partly), positive.2⟩

end

/-- The second part goes on where the first stopped. -/
theorem drain_drain {lots : List (ℚ × ℚ)} {first second : ℚ} (nonneg : 0 ≤ second) :
    drain id second (drain id first lots) = drain id (first + second) lots := by
  induction lots generalizing first with
  | nil => rfl
  | cons lot rest ih =>
    rw [drain, drain]
    by_cases outright : lot.1 ≤ first
    · rw [if_pos outright, if_pos (by linarith), id, id, ih]
      congr 1
      ring
    · rw [if_neg outright, id, drain]
      -- The first part stopped inside this lot; the second may finish it.
      by_cases finished : lot.1 - first ≤ second
      · rw [if_pos finished, if_pos (by linarith), id, id]
        congr 1
        ring
      · rw [if_neg finished, if_neg (by linarith), id, id, sub_sub]

theorem gain_add {lots : List (ℚ × ℚ)} (positive : ∀ lot ∈ lots, 0 < lot.1) (price : ℚ) {first second : ℚ}
    (first_nonneg : 0 ≤ first) (second_nonneg : 0 ≤ second) (le : first + second ≤ held lots) :
    gain price first lots + gain price second (drain id first lots) = gain price (first + second) lots := by
  have left : second ≤ held (drain id first lots) := by
    rw [held_drain first_nonneg (by linarith)]
    linarith
  rw [gain_eq positive price first_nonneg (by linarith), gain_eq (drain_pos positive) price second_nonneg left,
    gain_eq positive price (add_nonneg first_nonneg second_nonneg) le, drain_drain second_nonneg]
  ring

/-! ## Average prices by value -/

namespace Lot

/-- Sums over lots of the same values are of the same values. -/
theorem Totals.add_congr {lots lots' : List Lot} (values_eq : lots'.map values = lots.map values)
    (prices_eq : lots'.map price = lots.map price) {t t' u u' : Totals}
    (quantity_eq : t'.quantity.value = t.quantity.value) (cost_eq : t'.cost.value = t.cost.value)
    (places_eq : t'.places = t.places) (h : t.add lots = .ok u) (h' : t'.add lots' = .ok u') :
    u'.quantity.value = u.quantity.value ∧ u'.cost.value = u.cost.value ∧ u'.places = u.places := by
  induction lots generalizing lots' t t' with
  | nil =>
    obtain rfl : lots' = [] := List.map_eq_nil_iff.mp values_eq
    cases h
    cases h'
    exact ⟨quantity_eq, cost_eq, places_eq⟩
  | cons lot rest ih =>
    obtain ⟨lot', rest', rfl, lot_eq, rest_eq⟩ := List.map_eq_cons_iff.mp values_eq
    simp only [List.map_cons, List.cons.injEq] at prices_eq
    obtain ⟨quantity, lotCost, cost, summed, costed, totalled, h⟩ := add_cons_eq_ok.mp h
    obtain ⟨quantity', lotCost', cost', summed', costed', totalled', h'⟩ := add_cons_eq_ok.mp h'
    have lot_quantity : lot'.quantity.value = lot.quantity.value := congrArg Prod.fst lot_eq
    have lot_price : lot'.price.value = lot.price.value := congrArg Prod.snd lot_eq
    -- Each sum and each product is nearest to one and the same number.
    have quantity_near := (add?_rounds _ _).nearest?_eq summed
    have quantity_near' := (add?_rounds _ _).nearest?_eq summed'
    have lotCost_near := Obstacle.multiply_eq_ok costed
    have lotCost_near' := Obstacle.multiply_eq_ok costed'
    rw [quantity_eq, lot_quantity, quantity_near, Option.some_inj] at quantity_near'
    rw [lot_quantity, lot_price, lotCost_near, Option.some_inj] at lotCost_near'
    have cost_near := (add?_rounds _ _).nearest?_eq totalled
    have cost_near' := (add?_rounds _ _).nearest?_eq totalled'
    rw [cost_eq, ← lotCost_near', cost_near, Option.some_inj] at cost_near'
    exact ih rest_eq prices_eq.2 quantity_near'.symm cost_near'.symm (by rw [places_eq, prices_eq.1]) h h'

theorem averagePrice_congr {lots lots' : List Lot} (values_eq : lots'.map values = lots.map values)
    (prices_eq : lots'.map price = lots.map price) {average average' : Decimal}
    (averages : averagePrice lots = .ok average) (averages' : averagePrice lots' = .ok average') :
    average'.value = average.value := by
  simp only [averagePrice, bind_eq_ok] at averages averages'
  obtain ⟨totals, added, averages⟩ := averages
  obtain ⟨totals', added', averages'⟩ := averages'
  obtain ⟨quantity_eq, cost_eq, places_eq⟩ := Totals.add_congr values_eq prices_eq rfl rfl rfl added added'
  -- No lot, one lot or several, and as many on either side.
  cases lots with
  | nil =>
    obtain rfl : lots' = [] := List.map_eq_nil_iff.mp prices_eq
    cases averages
    cases averages'
    rfl
  | cons lot rest =>
    obtain ⟨lot', rest', rfl, price_eq, rest_eq⟩ := List.map_eq_cons_iff.mp prices_eq
    cases rest with
    | nil =>
      obtain rfl : rest' = [] := List.map_eq_nil_iff.mp rest_eq
      cases averages
      cases averages'
      exact congrArg value price_eq
    | cons second others =>
      obtain ⟨second', others', rfl, _, _⟩ := List.map_eq_cons_iff.mp rest_eq
      simp only [bind_eq_ok, Obstacle.checked_eq_ok] at averages averages'
      obtain ⟨mean, divided, rounded⟩ := averages
      obtain ⟨mean', divided', rounded'⟩ := averages'
      cases rounded
      cases rounded'
      have near := nearest?_of_div? divided
      have near' := nearest?_of_div? divided'
      rw [cost_eq, quantity_eq, near, Option.some_inj] at near'
      rw [value_roundTo, value_roundTo, places_eq, near']

end Lot

namespace Position

/-! ## What is left after closing an amount -/

/-- A position that closing an amount at a price, from the oldest lots on, leaves of another. -/
structure ClosedBy (p : Position) (side : Side) (price amount : ℚ) (next : Position) : Prop where
  symbol_eq : next.symbol = p.symbol
  method_eq : next.method = p.method
  size_eq : next.size.value = p.size.value + side.factor * amount
  lots_eq : next.lots.map Lot.values = drain id amount (p.lots.map Lot.values)
  prices_suffix : next.lots.map Lot.price <:+ p.lots.map Lot.price
  realized_eq : next.realizedPnl.value
    = p.realizedPnl.value - side.factor * gain price amount (p.lots.map Lot.values)

/-- Two ledgers of the same values. -/
structure SameValues (p p' : Position) : Prop where
  symbol : p'.symbol = p.symbol
  method : p'.method = p.method
  size : p'.size.value = p.size.value
  lots : p'.lots.map Lot.values = p.lots.map Lot.values
  averagePrice : p'.averagePrice.value = p.averagePrice.value
  realizedPnl : p'.realizedPnl.value = p.realizedPnl.value

namespace ClosedBy

variable {p mid next : Position} {side : Side} {price first second amount : ℚ}

theorem refl (positive : ∀ lot ∈ p.lots.map Lot.values, 0 < lot.1) (side : Side) (price : ℚ) :
    p.ClosedBy side price 0 p where
  symbol_eq := rfl
  method_eq := rfl
  size_eq := by rw [mul_zero, add_zero]
  lots_eq := (drain_zero positive).symm
  prices_suffix := List.suffix_rfl
  realized_eq := by rw [gain_zero positive, mul_zero, sub_zero]

theorem trans (one : p.ClosedBy side price first mid) (two : mid.ClosedBy side price second next)
    (positive : ∀ lot ∈ p.lots.map Lot.values, 0 < lot.1) (first_nonneg : 0 ≤ first)
    (second_nonneg : 0 ≤ second) (le : first + second ≤ held (p.lots.map Lot.values)) :
    p.ClosedBy side price (first + second) next where
  symbol_eq := two.symbol_eq.trans one.symbol_eq
  method_eq := two.method_eq.trans one.method_eq
  size_eq := by
    rw [two.size_eq, one.size_eq]
    ring
  lots_eq := by rw [two.lots_eq, one.lots_eq, drain_drain second_nonneg]
  prices_suffix := two.prices_suffix.trans one.prices_suffix
  realized_eq := by
    rw [two.realized_eq, one.realized_eq, one.lots_eq,
      ← gain_add positive price first_nonneg second_nonneg le]
    ring

/-- The amount closed says it all. -/
theorem sameValues {next' : Position} (closed : p.ClosedBy side price amount next)
    (closed' : p.ClosedBy side price amount next') (averages : Lot.averagePrice next.lots = .ok next.averagePrice)
    (averages' : Lot.averagePrice next'.lots = .ok next'.averagePrice) : next.SameValues next' := by
  have lots_eq : next'.lots.map Lot.values = next.lots.map Lot.values :=
    closed'.lots_eq.trans closed.lots_eq.symm
  -- As many prices are left, and they are the newest of one list.
  have prices_eq : next'.lots.map Lot.price = next.lots.map Lot.price := by
    have length_eq := congrArg List.length lots_eq
    simp only [List.length_map] at length_eq
    have nested := List.suffix_of_suffix_length_le closed'.prices_suffix closed.prices_suffix
      (by simp [length_eq])
    exact nested.eq_of_length (by simp [length_eq])
  exact ⟨closed'.symbol_eq.trans closed.symbol_eq.symm, closed'.method_eq.trans closed.method_eq.symm,
    closed'.size_eq.trans closed.size_eq.symm, lots_eq,
    Lot.averagePrice_congr lots_eq prices_eq averages averages',
    closed'.realized_eq.trans closed.realized_eq.symm⟩

end ClosedBy

theorem Shrunk.closedBy {p next : Position} {fill : Fill} {outcome : FillOutcome}
    (shrunk : p.Shrunk fill next outcome) (opposes : p.Opposes fill.side)
    (filled : p.apply fill = .ok (next, outcome)) :
    p.ClosedBy fill.side fill.price.value fill.quantity.value next where
  symbol_eq := symbol_of_fill filled
  method_eq := method_of_fill filled
  size_eq := shrunk.size_eq
  lots_eq := shrunk.lots_eq
  prices_suffix := prices_suffix_of_fill opposes filled
  realized_eq := by
    rw [shrunk.realized_eq, shrunk.booked_eq]
    ring

/-- In the exact range, a close of no more than is held leaves the position closed by its quantity. -/
theorem Exact.exists_closedBy {p : Position} {a b : ℕ} {top used volume : ℚ} (exact : p.Exact a b top used)
    (bounds : Bounds a b volume top) {fill : Fill} (fill_exact : fill.Exact a b top)
    (room : used + fill.quantity.value ≤ volume) (opposes : p.Opposes fill.side)
    (enough : fill.quantity.value ≤ |p.size.value|) :
    ∃ next outcome, p.apply fill = .ok (next, outcome) ∧
      next.Exact a b top (used + fill.quantity.value) ∧ p.Shrunk fill next outcome ∧
      p.ClosedBy fill.side fill.price.value fill.quantity.value next := by
  obtain ⟨_, less, _⟩ | ⟨next, outcome, filled, next_exact, ⟨_, _, shrunk⟩ | ⟨joins, _⟩⟩ :=
    exact.apply_cases bounds fill_exact room
  · exact absurd enough (not_le.mpr less)
  · exact ⟨next, outcome, filled, next_exact, shrunk, shrunk.closedBy opposes filled⟩
  · exact absurd opposes joins

end Position

/-! ## Orders -/

/-- The fills of an order at one price, part by part. -/
def partialFills (side : Side) (price : Decimal) (parts : List Decimal) : List Fill :=
  parts.map fun quantity => ⟨side, quantity, price⟩

/-- Quantities that the whole of an order was split into. -/
structure Splits (parts : List Decimal) (whole : Decimal) : Prop where
  some_part : parts ≠ []
  positive : ∀ part ∈ parts, 0 < part.value
  sum_eq : (parts.map Decimal.value).sum = whole.value

theorem Splits.whole_pos {parts : List Decimal} {whole : Decimal} (splits : Splits parts whole) :
    0 < whole.value := by
  rw [← splits.sum_eq]
  refine List.sum_pos _ (List.forall_mem_map.mpr splits.positive) ?_
  exact mt List.map_eq_nil_iff.mp splits.some_part

namespace Session

/-- What the fills of an order, all of them accepted, made of a session. -/
structure FilledBy (s : Session) (side : Side) (price : Decimal) (parts : List Decimal) (t : Session)
    (new : List Entry) : Prop where
  entries_eq : t.entries = s.entries ++ new
  fills_eq : new.map (·.fill) = partialFills side price parts
  closed : s.position.ClosedBy side price.value (parts.map Decimal.value).sum t.position
  closed_eq : (new.map (·.outcome.closed.value)).sum = (parts.map Decimal.value).sum
  booked_eq : t.position.realizedPnl.value
    = s.position.realizedPnl.value + (new.map (·.outcome.realizedPnl.value)).sum
  count_eq : t.position.tradeCount = s.position.tradeCount + parts.length

theorem FilledBy.nil {s : Session} (positive : ∀ lot ∈ s.position.lots.map Lot.values, 0 < lot.1) (side : Side)
    (price : Decimal) : s.FilledBy side price [] s [] where
  entries_eq := (List.append_nil _).symm
  fills_eq := rfl
  closed := .refl positive side price.value
  closed_eq := rfl
  booked_eq := (add_zero _).symm
  count_eq := rfl

theorem FilledBy.cons {s t : Session} {side : Side} {price part : Decimal} {rest : List Decimal}
    {next : Position} {outcome : FillOutcome} {new : List Entry}
    (filled : s.position.apply ⟨side, part, price⟩ = .ok (next, outcome))
    (shrunk : s.position.Shrunk ⟨side, part, price⟩ next outcome)
    (others : (s.accept ⟨side, part, price⟩ next outcome).FilledBy side price rest t new)
    (closed : s.position.ClosedBy side price.value (part.value + (rest.map Decimal.value).sum) t.position) :
    s.FilledBy side price (part :: rest) t (⟨⟨side, part, price⟩, s.position, next, outcome⟩ :: new) where
  entries_eq := by
    rw [others.entries_eq, accept, List.append_assoc]
    rfl
  fills_eq := by
    rw [List.map_cons, others.fills_eq]
    rfl
  closed := by rwa [List.map_cons, List.sum_cons]
  closed_eq := by
    rw [List.map_cons, List.sum_cons, List.map_cons, List.sum_cons, others.closed_eq, shrunk.closed_eq]
  booked_eq := by
    rw [others.booked_eq, List.map_cons, List.sum_cons, ← add_assoc]
    exact congrArg (· + _) shrunk.realized_eq
  count_eq := by
    rw [others.count_eq, List.length_cons, accept, (Position.moves_of_fill filled).tradeCount_eq]
    omega

section

variable {a b : ℕ} {volume top : ℚ} (bounds : Bounds a b volume top)

include bounds

/-- Part by part, the fills of an order are accepted as long as something is held on the other side. -/
theorem exists_filledBy {s : Session} {used : ℚ} (exact : s.position.Exact a b top used) {side : Side}
    {price : Decimal} {parts : List Decimal}
    (against : side.opposite.factor * s.position.size.value = |s.position.size.value|)
    (fills_exact : ∀ fill ∈ partialFills side price parts, fill.Exact a b top)
    (room : used + (parts.map Decimal.value).sum ≤ volume)
    (enough : (parts.map Decimal.value).sum ≤ |s.position.size.value|) :
    ∃ t new, s.runFills (partialFills side price parts) = .ok t ∧ s.FilledBy side price parts t new := by
  -- On the parts; each leaves a holding on the same side that is large enough for the rest.
  induction parts generalizing s used with
  | nil => exact ⟨s, [], rfl, .nil exact.values_pos side price⟩
  | cons part rest ih =>
    simp only [partialFills, List.map_cons, List.forall_mem_cons] at fills_exact
    obtain ⟨fill_exact, rest_exact⟩ := fills_exact
    have part_pos : 0 < part.value := fill_exact.positive.1
    have rest_nonneg : 0 ≤ (rest.map Decimal.value).sum := by
      refine List.sum_nonneg (List.forall_mem_map.mpr fun quantity member => ?_)
      exact (rest_exact _ (List.mem_map_of_mem member)).positive.1.le
    rw [List.map_cons, List.sum_cons] at room enough
    have opposes : s.position.Opposes side := by
      rw [Position.opposes_iff, ← neg_pos, ← neg_mul, ← side.factor_opposite, against]
      linarith
    obtain ⟨next, outcome, filled, next_exact, shrunk, closed⟩ :=
      exact.exists_closedBy bounds fill_exact (by linarith) opposes (by linarith)
    have abs_size := shrunk.abs_size_eq opposes (by linarith)
    obtain ⟨t, new, ran, rest_filled⟩ :=
      ih (s := s.accept ⟨side, part, price⟩ next outcome) next_exact
        ((shrunk.size_along opposes).trans abs_size.symm) rest_exact (by linarith)
        (by
          change _ ≤ |next.size.value|
          rw [abs_size]
          linarith)
    have whole := closed.trans rest_filled.closed exact.values_pos part_pos.le rest_nonneg
      (exact.size_eq ▸ enough)
    exact ⟨t, _, (runFills_of_apply filled _).trans ran, .cons filled shrunk rest_filled whole⟩

end

theorem turnover_partialFills {side : Side} {price : Decimal} {parts : List Decimal}
    (positive : ∀ fill ∈ partialFills side price parts, fill.IsPositive) :
    turnover (partialFills side price parts) = (parts.map Decimal.value).sum := by
  rw [turnover, List.filter_eq_self.mpr fun fill member => decide_eq_true (positive fill member), partialFills,
    List.map_map]
  rfl

/-- The parts of an order are all accepted when the order is no larger than the holding. -/
theorem exists_filledBy_of_run {symbol : String} {method : Method} {a b : ℕ} {requests : List Request}
    {s : Session} (ran : (start symbol method).run requests = .ok s) {side : Side} {price whole : Decimal}
    {parts : List Decimal} (splits : Splits parts whole) (price_pos : 0 < price.value)
    (range : ExactRange a b (fillsOf (requests ++ (partialFills side price parts).map .fill)))
    (opposes : s.position.Opposes side) (enough : whole.value ≤ |s.position.size.value|) :
    ∃ t new, s.runFills (partialFills side price parts) = .ok t ∧ s.FilledBy side price parts t new := by
  have positive : ∀ fill ∈ partialFills side price parts, fill.IsPositive := by
    refine List.forall_mem_map.mpr fun part member => ?_
    exact ⟨splits.positive part member, price_pos⟩
  have exact := of_exists_ok (exact_run range symbol method (List.prefix_append _ _)) ran
  rw [fillsOf_append, fillsOf_map_fill] at range exact
  refine exists_filledBy range.bounds exact ?_ (fun fill member => ?_) ?_ (splits.sum_eq.trans_le enough)
  · rw [side.factor_opposite, neg_mul, Position.abs_size_of_opposes opposes]
  · exact range.fill_exact (List.mem_append_right _ member) (positive fill member)
  · rw [turnover_append, turnover_partialFills positive]

/-- Whatever was asked of a position, an order that closes no more than is held is accepted as a whole and in
any parts, in the exact range.  The parts lead to the ledger that the whole order leads to, and close and
book as much together; they only count as more fills. -/
theorem parts_agree (symbol : String) (method : Method) {a b : ℕ} {requests : List Request} {side : Side}
    {price whole : Decimal} {parts : List Decimal} (splits : Splits parts whole) (price_pos : 0 < price.value)
    (range_parts : ExactRange a b (fillsOf (requests ++ (partialFills side price parts).map .fill)))
    (range_whole : ExactRange a b (fillsOf (requests ++ [.fill ⟨side, whole, price⟩]))) :
    ∃ s, (start symbol method).run requests = .ok s ∧
      (s.position.Opposes side → whole.value ≤ |s.position.size.value| →
        ∃ t new next outcome, s.runFills (partialFills side price parts) = .ok t ∧
          t.entries = s.entries ++ new ∧ new.map (·.fill) = partialFills side price parts ∧
          s.position.apply ⟨side, whole, price⟩ = .ok (next, outcome) ∧
          next.SameValues t.position ∧
          (new.map (·.outcome.closed.value)).sum = outcome.closed.value ∧
          (new.map (·.outcome.realizedPnl.value)).sum = outcome.realizedPnl.value ∧
          t.position.tradeCount + 1 = next.tradeCount + parts.length) := by
  obtain ⟨s, ran, sound, averaged, _⟩ := averagePrice_of_run symbol method requests
  refine ⟨s, ran, fun opposes enough => ?_⟩
  have whole_pos := splits.whole_pos
  obtain ⟨t, new, ran_t, parts_filled⟩ :=
    exists_filledBy_of_run ran splits price_pos range_parts opposes enough
  have exact := of_exists_ok (exact_run range_whole symbol method (List.prefix_append _ _)) ran
  obtain ⟨fill_exact, room⟩ := range_whole.next (fillsOf_next (List.prefix_refl _)) ⟨whole_pos, price_pos⟩
  obtain ⟨next, outcome, filled, _, shrunk, closed⟩ :=
    exact.exists_closedBy range_whole.bounds fill_exact room opposes enough
  have ran_parts : (start symbol method).run (requests ++ (partialFills side price parts).map .fill) = .ok t := by
    rw [run_append, ran, ok_bind]
    exact ran_t
  obtain ⟨_, _, averages⟩ := of_exists_ok (averagePrice_of_run symbol method _) ran_parts
  have same : next.SameValues t.position := by
    refine closed.sameValues ?_ (sound.averagePrice_of_fill averaged filled) averages
    exact splits.sum_eq ▸ parts_filled.closed
  refine ⟨t, new, next, outcome, ran_t, parts_filled.entries_eq, parts_filled.fills_eq, filled, same, ?_, ?_, ?_⟩
  · rw [parts_filled.closed_eq, splits.sum_eq, shrunk.closed_eq]
  · have total := same.realizedPnl
    rw [parts_filled.booked_eq, shrunk.realized_eq] at total
    exact add_left_cancel total
  · rw [parts_filled.count_eq, (Position.moves_of_fill filled).tradeCount_eq]
    omega

/-- Two lots of two each. -/
def twoLots : List Request :=
  let two := Decimal.written 2 0
  [.fill ⟨.buy, two, 1⟩, .fill ⟨.buy, two, .written 3 0⟩]

/-- An order for three is filled in two parts: the first ends inside the first lot, and the second uses that
lot up and goes on into the other.  They close one and two for three and four, the whole order closes three
for seven, and one of the second lot is left of either. -/
theorem parts_agree_twoLots :
    let price : Decimal := .written 4 0
    let whole : Decimal := .written 3 0
    let parts : List Decimal := [1, .written 2 0]
    Splits parts whole ∧ 0 < price.value ∧
      ExactRange 0 12 (fillsOf (twoLots ++ (partialFills .sell price parts).map .fill)) ∧
      ExactRange 0 12 (fillsOf (twoLots ++ [.fill ⟨.sell, whole, price⟩])) ∧
      ∃ s, (start "X" .fifo).run twoLots = .ok s ∧ s.position.Opposes .sell ∧
        whole.value ≤ |s.position.size.value| ∧
        ∃ t new next outcome, s.runFills (partialFills .sell price parts) = .ok t ∧
          t.entries = s.entries ++ new ∧ new.map (·.fill) = partialFills .sell price parts ∧
          t.position.lots = [⟨1, .written 3 0⟩] ∧ t.position.realizedPnl = .written 7 0 ∧
          new.map (·.outcome.closed.value) = [1, 2] ∧ new.map (·.outcome.realizedPnl.value) = [3, 4] ∧
          s.position.apply ⟨.sell, whole, price⟩ = .ok (next, outcome) ∧
          next.SameValues t.position ∧ outcome.closed.value = 3 ∧ outcome.realizedPnl.value = 7 ∧
          t.position.tradeCount = 4 ∧ next.tradeCount = 3 := by
  intro price whole parts
  have splits : Splits parts whole := ⟨by decide, by decide +kernel, by decide +kernel⟩
  have price_pos : 0 < price.value := by decide +kernel
  have range_parts : ExactRange 0 12 (fillsOf (twoLots ++ (partialFills .sell price parts).map .fill)) :=
    ⟨by decide, by decide, by decide +kernel, by decide +kernel⟩
  have range_whole : ExactRange 0 12 (fillsOf (twoLots ++ [.fill ⟨.sell, whole, price⟩])) :=
    ⟨by decide, by decide, by decide +kernel, by decide +kernel⟩
  obtain ⟨s, ran, agree⟩ := parts_agree "X" .fifo splits price_pos range_parts range_whole
  have size_observed : ((start "X" .fifo).run twoLots).toOption.map
      (fun s => (s.position.size, s.entries.length)) = some (.written 4 0, 2) := by decide +kernel
  have ledger_observed : ((start "X" .fifo).run twoLots).toOption.map
      (fun s => (s.runFills (partialFills .sell price parts)).toOption.map fun t =>
        (t.position.lots, t.position.realizedPnl, t.position.tradeCount))
      = some (some ([⟨1, .written 3 0⟩], .written 7 0, 4)) := by decide +kernel
  have fills_observed : ((start "X" .fifo).run twoLots).toOption.map
      (fun s => (s.runFills (partialFills .sell price parts)).toOption.map fun t =>
        ((t.entries.drop 2).map (·.outcome.closed.value),
          (t.entries.drop 2).map (·.outcome.realizedPnl.value)))
      = some (some ([1, 2], [3, 4])) := by decide +kernel
  have held := eq_of_observed size_observed ran
  have ledger := eq_of_observed ledger_observed ran
  have fills := eq_of_observed fills_observed ran
  obtain ⟨size, length⟩ := Prod.mk.inj held
  have opposes : s.position.Opposes .sell := by
    rw [Position.Opposes, Position.direction, size]
    decide +kernel
  have enough : whole.value ≤ |s.position.size.value| := by
    rw [size]
    decide +kernel
  obtain ⟨t, new, next, outcome, ran_t, entries_eq, fills_eq, filled, same, closed_eq, booked_eq, count_eq⟩ :=
    agree opposes enough
  have ledger_t := eq_of_observed ledger ran_t
  have fills_t := eq_of_observed fills ran_t
  simp only [Prod.mk.injEq] at ledger_t fills_t
  obtain ⟨lots, realized, count⟩ := ledger_t
  rw [entries_eq, ← length, List.drop_left] at fills_t
  obtain ⟨closed, booked⟩ := fills_t
  rw [closed] at closed_eq
  rw [booked] at booked_eq
  have next_count : next.tradeCount = 3 := by
    rw [count] at count_eq
    exact (Nat.add_right_cancel (m := 2) count_eq).symm
  exact ⟨splits, price_pos, range_parts, range_whole, s, ran, opposes, enough, t, new, next, outcome, ran_t,
    entries_eq, fills_eq, lots, realized, closed, booked, filled, same, closed_eq.symm.trans (by norm_num),
    booked_eq.symm.trans (by norm_num), count, next_count⟩

end Session

end CostBasis
