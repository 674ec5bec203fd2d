import CostBasis.Position.Basic

/-!
# Fills

A fill on the side of the holding adds to it; a fill against it closes quantity from the oldest lots
on and books the difference between its price and theirs.  A close larger than the holding is refused
whole.  A refused fill gives no new position.
-/

namespace CostBasis

/-- What an accepted fill did. -/
structure FillOutcome where
  /-- Quantity that opened or added to the position. -/
  opened : Decimal := 0
  /-- Quantity that closed existing exposure. -/
  closed : Decimal := 0
  /-- Profit booked by this fill alone. -/
  realizedPnl : Decimal := 0
deriving DecidableEq

/-- Why a fill is refused. -/
inductive FillError where
  | invalidFill (quantity price : Decimal)
  | insufficientPosition (symbol : String) (requested available : Decimal)
  | overflow (symbol : String) (stage : Stage) (quantity price : Decimal)
deriving DecidableEq

def FillError.message : FillError → String
  | .invalidFill quantity price =>
    s!"Invalid fill: quantity {quantity} and price {price} must both be positive"
  | .insufficientPosition symbol requested available =>
    s!"Insufficient position in {symbol}: closing fill of {requested} exceeds open size {available}"
  | .overflow symbol stage quantity price =>
    s!"Arithmetic overflow in {symbol}: {stage.text} for fill of {quantity} @ {price}"

/-- Why a fill gives no new position: it is refused, or a trusted operation left its range. -/
inductive FillFailure where
  | refused (error : FillError)
  | fault (fault : Fault)
deriving DecidableEq

namespace FillOutcome

def IsClosing (o : FillOutcome) : Prop := 0 < o.closed

instance (o : FillOutcome) : Decidable o.IsClosing := inferInstanceAs (Decidable (0 < o.closed))

def fieldNames : List String := ["opened_qty", "closed_qty", "realized_pnl"]

def toJson (o : FillOutcome) : Json :=
  .record
    [("opened_qty", o.opened.toJson), ("closed_qty", o.closed.toJson),
      ("realized_pnl", o.realizedPnl.toJson)]

def ofJson? (j : Json) : Option FillOutcome := do
  let fields ← j.fields? fieldNames
  let opened ← Json.required? fields "opened_qty" Decimal.ofJson?
  let closed ← Json.required? fields "closed_qty" Decimal.ofJson?
  let realizedPnl ← Json.required? fields "realized_pnl" Decimal.ofJson?
  return { opened, closed, realizedPnl }

end FillOutcome

namespace Position

/-! ## Adding -/

/-- The ledger after opening a lot: a lot of its own, or folded into the average lot. -/
def lotsAfterOpen (p : Position) (lot : Lot) : Except Obstacle (List Lot × Decimal) :=
  match p.method, p.lots.getLast? with
  | .weightedAverage, some average => do
    let merged ← average.merge lot
    return (p.lots.dropLast ++ [merged], merged.price)
  | _, _ => do
    let lots := p.lots ++ [lot]
    return (lots, ← Lot.averagePrice lots)

def add (p : Position) (side : Side) (quantity price : Decimal) :
    Except Obstacle (Position × FillOutcome) := do
  let lot ← Obstacle.checked .lotCost (Lot.make? quantity price)
  let size ← Obstacle.checked .positionSize
    (match side with
      | .buy => p.size.add? quantity
      | .sell => p.size.sub? quantity)
  let (lots, averagePrice) ← p.lotsAfterOpen lot
  return ({ p with size, averagePrice, lots }, { opened := quantity })

/-! ## Closing -/

/-- How far a closing fill has come through the lots. -/
structure Walk where
  /-- Quantity that still has to be closed. -/
  remaining : Decimal
  realized : Decimal := 0
  /-- Lots closed outright. -/
  exhausted : Nat := 0
  /-- Quantity taken from the lot after them. -/
  taken : Decimal := 0

/-- Walks on through lots, oldest first, until nothing remains to be closed.  `direction` is one for
a long holding and minus one for a short one. -/
def Walk.through (price direction : Decimal) (w : Walk) : List Lot → Except Obstacle Walk
  | [] => .ok w
  | lot :: rest =>
    if w.remaining.IsZero then .ok w
    else do
      let consumed := min w.remaining lot.quantity
      let gain ← Obstacle.subtract price lot.price
      let signed ← Obstacle.multiply consumed direction
      let pnl ← Obstacle.checked .realizedPnl (gain.mul? signed)
      let realized ← Obstacle.checked .realizedPnl (w.realized.add? pnl)
      let remaining ← Obstacle.subtract w.remaining consumed
      let next : Walk :=
        if consumed ≈ lot.quantity then
          { w with remaining, realized, exhausted := w.exhausted + 1 }
        else { w with remaining, realized, taken := consumed }
      Walk.through price direction next rest

/-- The lots that a close is to leave, worked out on copies. -/
def survivors (lots : List Lot) (w : Walk) : Except Obstacle (List Lot) :=
  match lots.drop w.exhausted with
  | [] => .ok []
  | lot :: rest => do
    let lot ← lot.consume w.taken
    return lot :: rest

/-- A ledger without as many of its oldest lots, which leave it one by one. -/
def popLots : Nat → List Lot → List Lot
  | 0, lots => lots
  | n + 1, lots => popLots n lots.tail

/-- What a close does to the ledger itself: the closed lots leave it, and what was taken comes off the
lot that is then the oldest. -/
def settle (lots : List Lot) (w : Walk) : Except Obstacle (List Lot) :=
  match popLots w.exhausted lots with
  | [] => .ok []
  | oldest :: rest => do
    let oldest ← oldest.consume w.taken
    return oldest :: rest

theorem popLots_eq_drop (n : Nat) (lots : List Lot) : popLots n lots = lots.drop n := by
  induction n generalizing lots with
  | zero => rfl
  | succ n ih => rw [popLots, ih, List.drop_tail]

/-- The ledger loses what was worked out on its copies. -/
theorem settle_eq_survivors (lots : List Lot) (w : Walk) : settle lots w = survivors lots w := by
  rw [settle, survivors, popLots_eq_drop]

def closingSign (p : Position) : Decimal := if 0 < p.size then 1 else -1

/-- Closes a quantity no larger than the holding.  A position that ends flat is normalised: its size
and average price are plain zero and its ledger is empty. -/
def reduce (p : Position) (quantity price : Decimal) :
    Except Obstacle (Position × FillOutcome) := do
  let walk ← Walk.through price p.closingSign { remaining := quantity } p.lots
  let realizedPnl ← Obstacle.checked .realizedPnl (p.realizedPnl.add? walk.realized)
  let averagePrice ← Lot.averagePrice (← survivors p.lots walk)
  let lots ← settle p.lots walk
  let change ← Obstacle.multiply quantity p.closingSign
  let size ← Obstacle.subtract p.size change
  let outcome : FillOutcome := { closed := quantity, realizedPnl := walk.realized }
  if size.IsZero then
    return ({ p with size := 0, averagePrice := 0, lots := [], realizedPnl }, outcome)
  else return ({ p with size, averagePrice, lots, realizedPnl }, outcome)

/-- A close in terms of the survivors alone. -/
theorem reduce_eq (p : Position) (quantity price : Decimal) :
    p.reduce quantity price = (do
      let walk ← Walk.through price p.closingSign { remaining := quantity } p.lots
      let realizedPnl ← Obstacle.checked .realizedPnl (p.realizedPnl.add? walk.realized)
      let lots ← survivors p.lots walk
      let averagePrice ← Lot.averagePrice lots
      let change ← Obstacle.multiply quantity p.closingSign
      let size ← Obstacle.subtract p.size change
      let outcome : FillOutcome := { closed := quantity, realizedPnl := walk.realized }
      if size.IsZero then
        return ({ p with size := 0, averagePrice := 0, lots := [], realizedPnl }, outcome)
      else return ({ p with size, averagePrice, lots, realizedPnl }, outcome)) := by
  simp only [reduce, settle_eq_survivors]
  refine bind_congr fun walk => bind_congr fun realizedPnl => ?_
  cases survivors p.lots walk <;> rfl

/-! ## Any fill -/

def failure (p : Position) (quantity price : Decimal) : Obstacle → FillFailure
  | .overflow stage => .refused (.overflow p.symbol stage quantity price)
  | .fault fault => .fault fault

def close (p : Position) (quantity price : Decimal) :
    Except FillFailure (Position × FillOutcome) :=
  if p.size.abs < quantity then
    .error (.refused (.insufficientPosition p.symbol quantity p.size.abs))
  else (p.reduce quantity price).mapError (p.failure quantity price)

def trade (p : Position) (side : Side) (quantity price : Decimal) :
    Except FillFailure (Position × FillOutcome) :=
  if p.direction.openingSide? = some side.opposite then p.close quantity price
  else (p.add side quantity price).mapError (p.failure quantity price)

def fill (p : Position) (side : Side) (quantity price : Decimal) :
    Except FillFailure (Position × FillOutcome) :=
  if quantity ≤ 0 ∨ price ≤ 0 then .error (.refused (.invalidFill quantity price))
  else do
    let (next, outcome) ← p.trade side quantity price
    return ({ next with tradeCount := next.tradeCount + 1 }, outcome)

end Position

end CostBasis
