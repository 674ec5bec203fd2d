import CostBasis.Proofs.Ledger.Conservation
import CostBasis.Proofs.Ledger.Correspondence

/-!
# Quantities under either method

How much is held depends on how much was bought and sold, and not on the method: a size is computed from
the size before and the quantity of a fill alone.  In the exact range no price or profit stops a fill, so a
position under FIFO and one under weighted average go through the same sizes.  Their profits part with the
lots that they close first, and meet again whenever nothing is held.
-/

namespace CostBasis

open Decimal

/-- The same quantities, whatever was earned on them. -/
structure FillOutcome.SameQuantities (o o' : FillOutcome) : Prop where
  opened : o'.opened = o.opened
  closed : o'.closed = o.closed

namespace Position

/-- The same holding after as many fills, whatever it cost. -/
structure SameHolding (p p' : Position) : Prop where
  symbol : p'.symbol = p.symbol
  size : p'.size = p.size
  tradeCount : p'.tradeCount = p.tradeCount

/-- Fills left the same holding and had the same quantities. -/
def SameMove (result result' : Position × FillOutcome) : Prop :=
  result.1.SameHolding result'.1 ∧ result.2.SameQuantities result'.2

/-! ## What is computed from quantities alone -/

/-- The size after a fill.  A position that ends flat is normalised. -/
def resize (p : Position) (side : Side) (quantity : Decimal) : Except Obstacle Decimal :=
  if p.Opposes side then do
    let change ← Obstacle.multiply quantity p.closingSign
    let size ← Obstacle.subtract p.size change
    return if size.IsZero then 0 else size
  else Obstacle.checked .positionSize (p.grow? side quantity)

/-- What an accepted fill does to quantities. -/
structure Moves (p : Position) (fill : Fill) (next : Position) (outcome : FillOutcome) : Prop where
  symbol_eq : next.symbol = p.symbol
  size_eq : p.resize fill.side fill.quantity = .ok next.size
  tradeCount_eq : next.tradeCount = p.tradeCount + 1
  opened_eq : outcome.opened = if p.Opposes fill.side then 0 else fill.quantity
  closed_eq : outcome.closed = if p.Opposes fill.side then fill.quantity else 0

section

variable {p next : Position} {side : Side} {quantity price : Decimal} {outcome : FillOutcome}

theorem resize_of_reduce (opposes : p.Opposes side) (h : p.reduce quantity price = .ok (next, outcome)) :
    p.resize side quantity = .ok next.size ∧ next.symbol = p.symbol ∧ next.tradeCount = p.tradeCount ∧
      outcome.opened = 0 ∧ outcome.closed = quantity := by
  simp only [reduce_eq, bind_eq_ok] at h
  obtain ⟨walk, _, realizedPnl, _, lots, _, average, _, change, changed, size, subtracted, h⟩ := h
  rw [resize, if_pos opposes, changed, ok_bind, subtracted, ok_bind]
  split at h
  next zero =>
    cases h
    rw [if_pos zero]
    exact ⟨rfl, rfl, rfl, rfl, rfl⟩
  next open_ =>
    cases h
    rw [if_neg open_]
    exact ⟨rfl, rfl, rfl, rfl, rfl⟩

theorem resize_of_add (joins : ¬ p.Opposes side) (h : p.add side quantity price = .ok (next, outcome)) :
    p.resize side quantity = .ok next.size ∧ next.symbol = p.symbol ∧ next.tradeCount = p.tradeCount ∧
      outcome.opened = quantity ∧ outcome.closed = 0 := by
  rw [add_eq] at h
  simp only [bind_eq_ok] at h
  obtain ⟨lot, _, size, sized, ⟨lots, average⟩, _, h⟩ := h
  cases h
  rw [resize, if_neg joins]
  exact ⟨sized, rfl, rfl, rfl, rfl⟩

theorem moves_of_fill {fill : Fill} (filled : p.apply fill = .ok (next, outcome)) :
    p.Moves fill next outcome := by
  obtain ⟨_, _, p', rfl, ⟨opposes, _, reduced⟩ | ⟨joins, added⟩⟩ := fill_eq_ok filled
  · obtain ⟨size_eq, symbol_eq, tradeCount_eq, opened_eq, closed_eq⟩ := resize_of_reduce opposes reduced
    refine ⟨symbol_eq, size_eq, congrArg (· + 1) tradeCount_eq, ?_, ?_⟩
    · rw [if_pos opposes, opened_eq]
    · rw [if_pos opposes, closed_eq]
  · obtain ⟨size_eq, symbol_eq, tradeCount_eq, opened_eq, closed_eq⟩ := resize_of_add joins added
    refine ⟨symbol_eq, size_eq, congrArg (· + 1) tradeCount_eq, ?_, ?_⟩
    · rw [if_neg joins, opened_eq]
    · rw [if_neg joins, closed_eq]

end

/-! ## One fill of two positions -/

namespace SameHolding

variable {p p' : Position} (same : p.SameHolding p')

include same

theorem direction : p'.direction = p.direction := by
  rw [Position.direction, Position.direction, same.size]

theorem resize (side : Side) (quantity : Decimal) : p'.resize side quantity = p.resize side quantity := by
  simp only [Position.resize, closingSign, grow?, opposes_congr same.size, same.size]

theorem moved {fill : Fill} {next next' : Position} {outcome outcome' : FillOutcome}
    (moves : p.Moves fill next outcome) (moves' : p'.Moves fill next' outcome') :
    SameMove (next, outcome) (next', outcome') := by
  have size_eq : next'.size = next.size := by
    have resized := moves'.size_eq.symm.trans (same.resize fill.side fill.quantity)
    exact Except.ok.inj (resized.trans moves.size_eq)
  refine ⟨⟨?_, size_eq, ?_⟩, ⟨?_, ?_⟩⟩
  · rw [moves'.symbol_eq, moves.symbol_eq, same.symbol]
  · rw [moves'.tradeCount_eq, moves.tradeCount_eq, same.tradeCount]
  · simp only [moves'.opened_eq, moves.opened_eq, opposes_congr same.size]
  · simp only [moves'.closed_eq, moves.closed_eq, opposes_congr same.size]

/-- A close of more than is held is refused by both, and every other positive fill is accepted by both. -/
theorem apply {a b : ℕ} {top used volume : ℚ} {fill : Fill} (exact : p.Exact a b top used)
    (exact' : p'.Exact a b top used) (bounds : Bounds a b volume top) (fill_exact : fill.Exact a b top)
    (room : used + fill.quantity.value ≤ volume) :
    Corresponds SameMove (p.apply fill) (p'.apply fill) := by
  by_cases enough : p.Opposes fill.side → fill.quantity.value ≤ |p.size.value|
  · have enough' : p'.Opposes fill.side → fill.quantity.value ≤ |p'.size.value| := by
      rwa [opposes_congr same.size, same.size]
    obtain ⟨next, outcome, filled, _⟩ := exact.exists_apply bounds fill_exact room enough
    obtain ⟨next', outcome', filled', _⟩ := exact'.exists_apply bounds fill_exact room enough'
    rw [filled, filled']
    exact .ok (same.moved (moves_of_fill filled) (moves_of_fill filled'))
  · obtain ⟨quantity_pos, price_pos⟩ := fill_exact.positive
    rw [Classical.not_imp, not_le] at enough
    obtain ⟨opposes, less⟩ := enough
    have less' : |p'.size.value| < fill.quantity.value := by rwa [same.size]
    rw [Position.apply, Position.apply, fill_of_insufficient quantity_pos price_pos opposes less,
      fill_of_insufficient quantity_pos price_pos ((opposes_congr same.size).mpr opposes) less', same.symbol,
      same.size]
    exact .error _

end SameHolding

end Position

/-! ## Runs of two positions -/

/-- The same fill was accepted, of the same holding and with the same quantities. -/
structure Entry.SameMove (e e' : Entry) : Prop where
  fill : e'.fill = e.fill
  before : e.before.SameHolding e'.before
  after : e.after.SameHolding e'.after
  outcome : e.outcome.SameQuantities e'.outcome

theorem cash_eq_of_sameMove {entries entries' : List Entry}
    (same : List.Forall₂ Entry.SameMove entries entries') : cash entries' = cash entries := by
  have fills_eq : entries'.map (·.fill) = entries.map (·.fill) := by
    induction same with
    | nil => rfl
    | cons first _ rest => rw [List.map_cons, List.map_cons, first.fill, rest]
  -- Cash is a function of the fills.
  have traded_eq (side : Side) (entries : List Entry) : traded side entries
      = (((entries.map (·.fill)).filter (·.side = side)).map fun fill =>
          fill.quantity.value * fill.price.value).sum := by
    rw [List.filter_map, List.map_map]
    rfl
  simp only [cash, traded_eq, fills_eq]

namespace Session

/-- Fill by fill, the same were accepted, and the same is held. -/
structure SameMoves (s s' : Session) : Prop where
  position : s.position.SameHolding s'.position
  entries : List.Forall₂ Entry.SameMove s.entries s'.entries

theorem SameMoves.start (symbol : String) (method method' : Method) :
    (start symbol method).SameMoves (start symbol method') := ⟨⟨rfl, rfl, rfl⟩, .nil⟩

theorem SameMoves.accept {s s' : Session} (same : s.SameMoves s') (fill : Fill)
    {result result' : Position × FillOutcome} (moved : Position.SameMove result result') :
    (s.accept fill result.1 result.2).SameMoves (s'.accept fill result'.1 result'.2) := by
  have entry : Entry.SameMove ⟨fill, s.position, result.1, result.2⟩ ⟨fill, s'.position, result'.1, result'.2⟩ :=
    ⟨rfl, same.position, moved.1, moved.2⟩
  exact ⟨moved.1, List.rel_append same.entries (.cons entry .nil)⟩

theorem method_of_runFills (symbol : String) (method : Method) (fills : List Fill) :
    ∃ s, (start symbol method).runFills fills = .ok s ∧ s.position.Sound ∧
      s.position.method = method ∧ ∀ e ∈ s.entries, e.before.method = method := by
  refine runFills_induction (start symbol method)
    (motive := fun _ s => s.position.method = method ∧ ∀ e ∈ s.entries, e.before.method = method)
    (start_sound symbol method) ⟨rfl, List.forall_mem_nil _⟩ ?_ fills
  intro _ s fill s' _ _ ⟨method_eq, earlier⟩ _ turn
  cases turn with
  | refused => exact ⟨method_eq, earlier⟩
  | accepted filled =>
    refine ⟨(Position.method_of_fill filled).trans method_eq, ?_⟩
    rw [Session.accept, List.forall_mem_append, List.forall_mem_singleton]
    exact ⟨earlier, method_eq⟩

section

variable {a b : ℕ} {fills : List Fill} (range : ExactRange a b fills) {done : List Fill}

include range

theorem exact_of_runFills {symbol : String} {method : Method} (before : done <+: fills) {s : Session}
    (ran : (start symbol method).runFills done = .ok s) :
    s.position.Exact a b (largestPrice fills) (turnover done) := by
  have range' : ExactRange a b (fillsOf (fills.map .fill)) := by rwa [fillsOf_map_fill]
  have exact := of_exists_ok (exact_run range' symbol method (before.map Request.fill)) ran
  rwa [fillsOf_map_fill, fillsOf_map_fill] at exact

/-- The step: both positions do the same with the next fill. -/
theorem corresponds_next {s s' : Session} (same : s.SameMoves s') {fill : Fill}
    (exact : s.position.Exact a b (largestPrice fills) (turnover done))
    (exact' : s'.position.Exact a b (largestPrice fills) (turnover done))
    (before : done ++ [fill] <+: fills) :
    Corresponds Position.SameMove (s.position.apply fill) (s'.position.apply fill) := by
  by_cases positive : fill.IsPositive
  · obtain ⟨fill_exact, room⟩ := range.next before positive
    exact same.position.apply exact exact' range.bounds fill_exact room
  · have invalid : fill.quantity ≤ 0 ∨ fill.price ≤ 0 := by
      by_contra valid
      exact positive ((Position.not_invalid_iff _ _).mp valid)
    rw [Position.apply, Position.apply, Position.fill_of_invalid invalid, Position.fill_of_invalid invalid]
    exact .error _

theorem sameMoves_of_run (symbol : String) (method method' : Method) (before : done <+: fills) :
    ∃ s s', (start symbol method).runFills done = .ok s ∧ (start symbol method').runFills done = .ok s' ∧
      s.SameMoves s' := by
  induction done using List.reverseRecOn with
  | nil => exact ⟨_, _, rfl, rfl, .start symbol method method'⟩
  | append_singleton done fill ih =>
    have earlier : done <+: fills := (List.prefix_append done [fill]).trans before
    obtain ⟨s, s', ran, ran', same⟩ := ih earlier
    have exact := exact_of_runFills range earlier ran
    have exact' := exact_of_runFills range earlier ran'
    have stepped := corresponds_step (corresponds_next range same exact exact' before) same
      fun _ _ moved => same.accept fill moved
    -- No fill stops the first position, so the other goes on with it.
    obtain ⟨next, step_eq, _⟩ := exists_turn exact.sound (.fill fill)
    rw [step_eq] at stepped
    obtain ⟨next', step_eq', same'⟩ := stepped.exists_ok
    refine ⟨next, next', ?_, ?_, same'⟩
    · rw [runFills_concat, ran, ok_bind, step_eq]
    · rw [runFills_concat, ran', ok_bind, step_eq']

end

/-- A run in the exact range does the same to quantities under FIFO and under weighted average, fill by fill
and refusal by refusal.  Whenever nothing is held, the profits are as far apart as the merges may have
drifted. -/
theorem methods_agree (symbol : String) {a b : ℕ} {fills done : List Fill} (range : ExactRange a b fills)
    (before : done <+: fills) :
    ∃ s t, (start symbol .fifo).runFills done = .ok s ∧
      (start symbol .weightedAverage).runFills done = .ok t ∧ s.SameMoves t ∧
      t.position.direction = s.position.direction ∧
      (∀ fill, done ++ [fill] <+: fills →
        Corresponds Position.SameMove (s.position.apply fill) (t.position.apply fill)) ∧
      (s.position.IsFlat →
        |s.position.realizedPnl.value - t.position.realizedPnl.value| ≤ drift t.entries) := by
  have range' : ExactRange a b (fillsOf (fills.map .fill)) := by rwa [fillsOf_map_fill]
  obtain ⟨s, t, ran, ran_t, same⟩ := sameMoves_of_run range symbol .fifo .weightedAverage before
  have exact := exact_of_runFills range before ran
  have exact_t := exact_of_runFills range before ran_t
  refine ⟨s, t, ran, ran_t, same, same.position.direction, fun fill next => ?_, fun flat => ?_⟩
  · exact corresponds_next range same exact exact_t next
  · have before' := before.map Request.fill
    have balanced := of_exists_ok (abs_imbalance_of_run symbol .fifo range' before') ran
    have balanced_t := of_exists_ok (abs_imbalance_of_run symbol .weightedAverage range' before') ran_t
    obtain ⟨_, _, fifo⟩ := of_exists_ok (method_of_runFills symbol .fifo done) ran
    have flat_t : t.position.IsFlat := by rwa [Position.IsFlat, same.position.size]
    -- Both profits are the cash flow, one of them exactly.
    rw [drift_of_fifo fifo, Position.imbalance, Position.basis_of_isFlat flat, add_zero, abs_nonpos_iff,
      sub_eq_zero] at balanced
    rw [Position.imbalance, Position.basis_of_isFlat flat_t, add_zero, cash_eq_of_sameMove same.entries,
      ← balanced, abs_sub_comm] at balanced_t
    exact balanced_t

/-- Two purchases at prices of a rounded average, and sales in two parts at a profit. -/
def soldInParts : List Fill :=
  let two := Decimal.written 2 0
  let three := Decimal.written 3 0
  [⟨.buy, 1, 1⟩, ⟨.buy, two, two⟩, ⟨.sell, 1, three⟩, ⟨.sell, two, three⟩]

/-- With two held, the lots have different prices, and the last sale does the same to both.  With nothing held,
the profits are one unit of the twelfth place apart, of the three that the merge may have drifted. -/
theorem methods_agree_soldInParts :
    let two := Decimal.written 2 0
    let last : Fill := ⟨.sell, two, .written 3 0⟩
    ExactRange 0 12 soldInParts ∧ soldInParts.take 3 ++ [last] <+: soldInParts ∧
      (∃ s t, (start "X" .fifo).runFills (soldInParts.take 3) = .ok s ∧
        (start "X" .weightedAverage).runFills (soldInParts.take 3) = .ok t ∧
        s.position.lots = [⟨two, two⟩] ∧ t.position.lots = [⟨two, .written 1666666666667 12⟩] ∧
        s.SameMoves t ∧ t.position.direction = .long ∧
        Corresponds Position.SameMove (s.position.apply last) (t.position.apply last)) ∧
      ∃ s t, (start "X" .fifo).runFills soldInParts = .ok s ∧
        (start "X" .weightedAverage).runFills soldInParts = .ok t ∧ s.SameMoves t ∧ s.position.IsFlat ∧
        s.position.realizedPnl = .written 4 0 ∧ t.position.realizedPnl = .written 3999999999999 12 ∧
        drift t.entries = 3 / 10 ^ 12 ∧
        |s.position.realizedPnl.value - t.position.realizedPnl.value| ≤ drift t.entries := by
  intro two last
  have range : ExactRange 0 12 soldInParts := ⟨by decide, by decide, by decide +kernel, by decide +kernel⟩
  have next : soldInParts.take 3 ++ [last] <+: soldInParts := List.prefix_refl _
  refine ⟨range, next, ?held, ?flat⟩
  case held =>
    obtain ⟨s, t, ran, ran_t, same, direction, agree, _⟩ :=
      methods_agree "X" range (List.take_prefix 3 soldInParts)
    have fifo_observed : ((start "X" .fifo).runFills (soldInParts.take 3)).toOption.map
        (fun s => (s.position.lots, s.position.direction)) = some ([⟨two, two⟩], .long) := by
      decide +kernel
    have averaged_observed : ((start "X" .weightedAverage).runFills (soldInParts.take 3)).toOption.map
        (fun t => t.position.lots) = some [⟨two, .written 1666666666667 12⟩] := by decide +kernel
    have facts := eq_of_observed fifo_observed ran
    have lots_t := eq_of_observed averaged_observed ran_t
    obtain ⟨lots, long⟩ := Prod.mk.inj facts
    exact ⟨s, t, ran, ran_t, lots, lots_t, same, direction.trans long, agree last next⟩
  case flat =>
    obtain ⟨s, t, ran, ran_t, same, _, _, close⟩ := methods_agree "X" range (List.prefix_refl _)
    have fifo_observed : ((start "X" .fifo).runFills soldInParts).toOption.map
        (fun s => (decide s.position.IsFlat, s.position.realizedPnl)) = some (true, .written 4 0) := by
      decide +kernel
    have averaged_observed : ((start "X" .weightedAverage).runFills soldInParts).toOption.map
        (fun t => (t.position.realizedPnl, drift t.entries))
        = some (.written 3999999999999 12, 3 / 10 ^ 12) := by decide +kernel
    have facts := eq_of_observed fifo_observed ran
    have facts_t := eq_of_observed averaged_observed ran_t
    simp only [Prod.mk.injEq, decide_eq_true_eq] at facts facts_t
    obtain ⟨flat, realized⟩ := facts
    obtain ⟨realized_t, drift_eq⟩ := facts_t
    exact ⟨s, t, ran, ran_t, same, flat, realized, realized_t, drift_eq, close flat⟩

end Session

end CostBasis
