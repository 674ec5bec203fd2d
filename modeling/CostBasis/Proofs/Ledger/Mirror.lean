import CostBasis.Position.Mark
import CostBasis.Proofs.Decimal.Reflection
import CostBasis.Proofs.Ledger.Correspondence

/-!
# Long and short

To exchange buys and sells is to look at a ledger in a mirror: the lots and their prices stay, size and
profits change their signs, and what is refused is refused for the same reason.  Soundness plays no part in
this; each operation of one side is the mirror image of the operation that the other side does in its place.
-/

namespace CostBasis

namespace Corresponds

open Decimal

variable {a a' b b' : Decimal}

theorem subtract (ha : a.Mirrors a') (hb : b.Mirrors b') :
    Corresponds Decimal.Mirrors (Obstacle.subtract a b) (Obstacle.subtract a' b') := by
  have difference := mirrors_sub? ha hb
  simp only [Obstacle.subtract]
  generalize a.sub? b = x, a'.sub? b' = y at difference ⊢
  cases difference with
  | some same => exact .ok same
  | none => exact .error _

theorem multiply (h : b.Mirrors b') (a : Decimal) :
    Corresponds Decimal.Mirrors (Obstacle.multiply a b) (Obstacle.multiply a b') := by
  have product := mirrors_mul?_right h a
  simp only [Obstacle.multiply]
  generalize a.mul? b = x, a.mul? b' = y at product ⊢
  cases product with
  | some same => exact .ok same
  | none => exact .error _

end Corresponds

/-! ## Mirror images -/

def Fill.mirror (fill : Fill) : Fill := { fill with side := fill.side.opposite }

/-- The mirror image of what a fill did. -/
structure FillOutcome.Mirrors (o o' : FillOutcome) : Prop where
  opened : o'.opened = o.opened
  closed : o'.closed = o.closed
  realizedPnl : o.realizedPnl.Mirrors o'.realizedPnl

namespace Position

/-- The mirror image of a position. -/
structure Mirrors (p p' : Position) : Prop where
  symbol : p'.symbol = p.symbol
  size : p.size.Mirrors p'.size
  averagePrice : p'.averagePrice = p.averagePrice
  method : p'.method = p.method
  lots : p'.lots = p.lots
  realizedPnl : p.realizedPnl.Mirrors p'.realizedPnl
  tradeCount : p'.tradeCount = p.tradeCount

/-- The mirror image of what a fill leaves and did. -/
def Reflects (result result' : Position × FillOutcome) : Prop :=
  result.1.Mirrors result'.1 ∧ result.2.Mirrors result'.2

/-- The mirror image of a walk through the same lots. -/
structure Walk.Mirrors (w w' : Walk) : Prop where
  remaining : w'.remaining = w.remaining
  realized : w.realized.Mirrors w'.realized
  exhausted : w'.exhausted = w.exhausted
  taken : w'.taken = w.taken

theorem Walk.mirrors_through {w w' : Walk} (same : w.Mirrors w') {direction direction' : Decimal}
    (opposite : direction.Mirrors direction') (price : Decimal) (lots : List Lot) :
    Corresponds Walk.Mirrors (Walk.through price direction w lots)
      (Walk.through price direction' w' lots) := by
  -- Along the lots: both walks come to a lot with one quantity left, and take the same from it.
  induction lots generalizing w w' with
  | nil => exact .ok same
  | cons lot rest ih =>
    obtain ⟨remaining_eq, realized_mirrors, exhausted, taken⟩ := same
    rw [Walk.through, Walk.through, remaining_eq]
    split
    next => exact .ok ⟨remaining_eq, realized_mirrors, exhausted, taken⟩
    next =>
      refine .bind_left _ fun gain => ?_
      refine .bind (.multiply opposite _) fun signed signed' signs => ?_
      refine .bind (.checked (Decimal.mirrors_mul?_right signs gain) _) fun pnl pnl' booked => ?_
      refine .bind (.checked (Decimal.mirrors_add? realized_mirrors booked) _) fun _ _ realized => ?_
      refine .bind_left _ fun remaining => ih ?_
      split
      next => exact ⟨rfl, realized, congrArg (· + 1) exhausted, taken⟩
      next => exact ⟨rfl, realized, exhausted, rfl⟩

theorem Walk.Mirrors.survivors {w w' : Walk} (same : w.Mirrors w') (lots : List Lot) :
    Position.survivors lots w' = Position.survivors lots w := by
  rw [Position.survivors, Position.survivors, same.exhausted, same.taken]

namespace Mirrors

variable {p p' : Position} (same : p.Mirrors p') {side : Side} {quantity price : Decimal}

include same

theorem opposes_iff : p'.Opposes side.opposite ↔ p.Opposes side := by
  rw [Position.opposes_iff, Position.opposes_iff, side.factor_opposite, same.size.value, neg_mul_neg]

theorem closingSign (opposes : p.Opposes side) : p.closingSign.Mirrors p'.closingSign := by
  have held : p.size.value ≠ 0 := abs_pos.mp (abs_size_pos opposes)
  have short_iff : ¬0 < p.size ↔ p.size < 0 := by
    rw [Decimal.lt_iff, Decimal.lt_iff, Decimal.value_zero, not_lt, le_iff_lt_or_eq, or_iff_left held]
  simp only [Position.closingSign, same.size.pos_iff, ← short_iff]
  split
  next => exact .of_neg 1
  next => exact (Decimal.Mirrors.of_neg 1).symm

theorem lotsAfterOpen (lot : Lot) : p'.lotsAfterOpen lot = p.lotsAfterOpen lot := by
  simp only [Position.lotsAfterOpen, same.method, same.lots]

/-- One side adds where the other takes away, which is to add the opposite. -/
theorem grow? (nonzero : ¬quantity.IsZero) :
    Option.Rel Decimal.Mirrors (p.grow? side quantity) (p'.grow? side.opposite quantity) := by
  cases side with
  | buy =>
    simp only [Position.grow?, Side.opposite, Decimal.sub?_eq_add?_neg nonzero]
    exact Decimal.mirrors_add? same.size (.of_neg quantity)
  | sell =>
    simp only [Position.grow?, Side.opposite, Decimal.sub?_eq_add?_neg nonzero]
    exact Decimal.mirrors_add? same.size (Decimal.Mirrors.of_neg quantity).symm

theorem add (nonzero : ¬quantity.IsZero) :
    Corresponds Reflects (p.add side quantity price) (p'.add side.opposite quantity price) := by
  rw [add_eq, add_eq]
  refine .bind_left _ fun lot => .bind (.checked (same.grow? nonzero) _) fun size size' sizes => ?_
  rw [same.lotsAfterOpen]
  refine .bind_left _ fun opened => .ok ⟨?_, rfl, rfl, .of_isZero Decimal.isZero_zero⟩
  exact { same with size := sizes, averagePrice := rfl, lots := rfl }

theorem reduce (opposes : p.Opposes side) :
    Corresponds Reflects (p.reduce quantity price) (p'.reduce quantity price) := by
  have opposite := same.closingSign opposes
  have started : Walk.Mirrors { remaining := quantity } { remaining := quantity } :=
    ⟨rfl, .of_isZero Decimal.isZero_zero, rfl, rfl⟩
  -- Step by step; what is read off the lots alone is the same on both sides.
  simp only [Position.reduce_eq, same.lots]
  refine .bind (Walk.mirrors_through started opposite price _) fun walk walk' walks => ?_
  refine .bind (.checked (Decimal.mirrors_add? same.realizedPnl walks.realized) _) fun _ _ realizedPnl => ?_
  rw [walks.survivors]
  refine .bind_left _ fun lots => .bind_left _ fun average => ?_
  refine .bind (.multiply opposite quantity) fun change change' changes => ?_
  refine .bind (.subtract same.size changes) fun size size' sizes => ?_
  simp only [sizes.isZero_iff]
  have outcome : FillOutcome.Mirrors { closed := quantity, realizedPnl := walk.realized }
      { closed := quantity, realizedPnl := walk'.realized } := ⟨rfl, rfl, walks.realized⟩
  split
  next => exact .ok ⟨⟨same.symbol, .of_isZero Decimal.isZero_zero, rfl, same.method, rfl, realizedPnl,
    same.tradeCount⟩, outcome⟩
  next => exact .ok ⟨⟨same.symbol, sizes, rfl, same.method, rfl, realizedPnl, same.tradeCount⟩, outcome⟩

theorem close (opposes : p.Opposes side) :
    Corresponds Reflects (p.close quantity price) (p'.close quantity price) := by
  simp only [Position.close, same.size.abs, same.symbol, failure_congr same.symbol]
  split
  next => exact .error _
  next => exact (same.reduce opposes).mapError _

theorem trade (nonzero : ¬quantity.IsZero) :
    Corresponds Reflects (p.trade side quantity price) (p'.trade side.opposite quantity price) := by
  by_cases opposes : p.Opposes side
  · rw [trade_of_opposes opposes, trade_of_opposes (same.opposes_iff.mpr opposes)]
    exact same.close opposes
  · have joins := mt same.opposes_iff.mp opposes
    rw [trade_of_not_opposes opposes, trade_of_not_opposes joins, failure_congr same.symbol]
    exact (same.add nonzero).mapError _

/-- The step: a fill and the same fill on the other side. -/
theorem apply (fill : Fill) : Corresponds Reflects (p.apply fill) (p'.apply fill.mirror) := by
  rw [Position.apply, Position.apply, Fill.mirror, Position.fill, Position.fill]
  by_cases invalid : fill.quantity ≤ 0 ∨ fill.price ≤ 0
  · rw [if_pos invalid, if_pos invalid]
    exact .error _
  · rw [if_neg invalid, if_neg invalid]
    rw [not_invalid_iff] at invalid
    have nonzero : ¬fill.quantity.IsZero := mt (Decimal.isZero_iff _).mp invalid.1.ne'
    refine .bind (same.trade nonzero) fun result result' results => .ok ⟨?_, results.2⟩
    exact { results.1 with tradeCount := congrArg (· + 1) results.1.tradeCount }

/-! ## Marks -/

theorem unrealizedPnl (mark : Decimal) : (p.unrealizedPnl mark).Mirrors (p'.unrealizedPnl mark) := by
  have flat_iff : p'.IsFlat ↔ p.IsFlat := same.size.isZero_iff
  simp only [Position.unrealizedPnl, flat_iff, same.averagePrice]
  split
  next => exact .of_isZero Decimal.isZero_zero
  next => exact Decimal.mirrors_saturatingMul same.size _

theorem totalPnl (mark : Decimal) : (p.totalPnl mark).Mirrors (p'.totalPnl mark) :=
  Decimal.mirrors_saturatingAdd same.realizedPnl (same.unrealizedPnl mark)

theorem notionalValue (mark : Decimal) : p'.notionalValue mark = p.notionalValue mark := by
  rw [Position.notionalValue, Position.notionalValue, same.size.abs]

end Mirrors

theorem mirrors_new (symbol : String) (method : Method) :
    (Position.new symbol method).Mirrors (.new symbol method) :=
  ⟨rfl, .of_isZero Decimal.isZero_zero, rfl, rfl, rfl, .of_isZero Decimal.isZero_zero, rfl⟩

end Position

/-! ## Runs -/

/-- The mirror image of an accepted fill. -/
structure Entry.Mirrors (e e' : Entry) : Prop where
  fill : e'.fill = e.fill.mirror
  before : e.before.Mirrors e'.before
  after : e.after.Mirrors e'.after
  outcome : e.outcome.Mirrors e'.outcome

namespace Session

/-- The mirror image of a session: fill by fill, the same were accepted. -/
structure Mirrors (s s' : Session) : Prop where
  position : s.position.Mirrors s'.position
  entries : List.Forall₂ Entry.Mirrors s.entries s'.entries

namespace Mirrors

variable {s s' : Session}

theorem step (same : s.Mirrors s') (fill : Fill) :
    Corresponds Mirrors (s.step (.fill fill)) (s'.step (.fill fill.mirror)) := by
  refine corresponds_step (same.position.apply fill) same fun result result' results => ?_
  have entry : Entry.Mirrors ⟨fill, s.position, result.1, result.2⟩
      ⟨fill.mirror, s'.position, result'.1, result'.2⟩ := ⟨rfl, same.position, results.1, results.2⟩
  exact ⟨results.1, List.rel_append same.entries (.cons entry .nil)⟩

theorem runFills (same : s.Mirrors s') (fills : List Fill) :
    Corresponds Mirrors (s.runFills fills) (s'.runFills (fills.map Fill.mirror)) := by
  induction fills generalizing s s' with
  | nil => exact .ok same
  | cons fill rest ih =>
    simp only [Session.runFills, Session.run, List.map_cons, List.foldlM_cons] at ih ⊢
    exact .bind (same.step fill) fun _ _ next => ih next

end Mirrors

/-- A run of fills and the run with buys and sells exchanged are mirror images: after every fill, at every
mark, and in what they do with the next fill. -/
theorem runFills_mirror (symbol : String) (method : Method) (fills : List Fill) :
    ∃ s s', (start symbol method).runFills fills = .ok s ∧
      (start symbol method).runFills (fills.map Fill.mirror) = .ok s' ∧ s.Mirrors s' ∧
      s'.position.size.value = -s.position.size.value ∧
      s'.position.realizedPnl.value = -s.position.realizedPnl.value ∧
      (∀ mark, (s'.position.unrealizedPnl mark).value = -(s.position.unrealizedPnl mark).value ∧
        (s'.position.totalPnl mark).value = -(s.position.totalPnl mark).value ∧
        s'.position.notionalValue mark = s.position.notionalValue mark) ∧
      ∀ fill, Corresponds Position.Reflects (s.position.apply fill) (s'.position.apply fill.mirror) := by
  -- That the first run is not stopped is all that soundness is needed for.
  obtain ⟨s, ran, -⟩ := runFills_induction (start symbol method) (motive := fun _ _ => True)
    (start_sound symbol method) trivial (fun _ _ _ _ _ _ _ _ _ => trivial) fills
  have started : (start symbol method).Mirrors (start symbol method) :=
    ⟨Position.mirrors_new symbol method, .nil⟩
  have runs := started.runFills fills
  rw [ran] at runs
  obtain ⟨s', ran', same⟩ := runs.exists_ok
  refine ⟨s, s', ran, ran', same, same.position.size.value, same.position.realizedPnl.value,
    fun mark => ⟨?_, ?_, same.position.notionalValue mark⟩, same.position.apply⟩
  · exact (same.position.unrealizedPnl mark).value
  · exact (same.position.totalPnl mark).value

end Session

end CostBasis
