import CostBasis.Fault
import CostBasis.Decimal.Quotient
import CostBasis.Json.Reading

/-!
# Lots

A lot is open quantity at one entry price.  Under FIFO each opening fill is a lot of its own; under
weighted average they are folded into one lot at the mean price.  Mean prices are rounded to twelve
places, or to the finest scale among the entry prices if that is finer.
-/

namespace CostBasis

/-- Open quantity at a price. -/
@[ext]
structure Lot where
  quantity : Decimal
  price : Decimal
deriving DecidableEq

/-- The decimal places kept of a mean price. -/
def averagePlaces : Nat := 12

namespace Lot

def cost (lot : Lot) : Except Obstacle Decimal := Obstacle.multiply lot.quantity lot.price

def make? (quantity price : Decimal) : Option Lot := do
  let _ ← quantity.mul? price
  some ⟨quantity, price⟩

/-- The lot without up to `quantity` of its own. -/
def consume (lot : Lot) (quantity : Decimal) : Except Obstacle Lot := do
  let left ← Obstacle.subtract lot.quantity (min quantity lot.quantity)
  return { lot with quantity := left }

/-- Two lots as one at their quantity-weighted mean price. -/
def merge (a b : Lot) : Except Obstacle Lot := do
  let quantity ← Obstacle.checked .averagePrice (a.quantity.add? b.quantity)
  let costA ← a.cost
  let costB ← b.cost
  let cost ← Obstacle.checked .averagePrice (costA.add? costB)
  let mean ← Obstacle.checked .averagePrice (cost.div? quantity)
  let places := max averagePlaces (max a.price.scale b.price.scale)
  Obstacle.checked .averagePrice (make? quantity (mean.roundTo places))

/-- Running sums over lots. -/
structure Totals where
  quantity : Decimal := 0
  cost : Decimal := 0
  /-- The scale to round a mean price to. -/
  places : Nat := averagePlaces

def Totals.add (t : Totals) : List Lot → Except Obstacle Totals
  | [] => .ok t
  | lot :: rest => do
    let quantity ← Obstacle.checked .averagePrice (t.quantity.add? lot.quantity)
    let lotCost ← lot.cost
    let cost ← Obstacle.checked .averagePrice (t.cost.add? lotCost)
    Totals.add { quantity, cost, places := max t.places lot.price.scale } rest

/-- The quantity-weighted mean price of lots: zero without any, and of one lot its own price. -/
def averagePrice (lots : List Lot) : Except Obstacle Decimal := do
  let totals ← Totals.add {} lots
  match lots with
  | [] => return 0
  | [lot] => return lot.price
  | _ => do
    let mean ← Obstacle.checked .averagePrice (totals.cost.div? totals.quantity)
    return mean.roundTo totals.places

def fieldNames : List String := ["quantity", "price"]

def toJson (lot : Lot) : Json :=
  .record [("quantity", lot.quantity.toJson), ("price", lot.price.toJson)]

def ofJson? (j : Json) : Option Lot := do
  let fields ← j.fields? fieldNames
  let quantity ← Json.required? fields "quantity" Decimal.ofJson?
  let price ← Json.required? fields "price" Decimal.ofJson?
  return { quantity, price }

end Lot

end CostBasis
