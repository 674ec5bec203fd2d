import CostBasis.Decimal.Arithmetic
import CostBasis.Json.Reading

/-!
# Execution reports

An execution report tells what happened to an order.  Of it the ledger reads the symbol and the
quantity and price of the last fill; the rest is carried along for reconciliation.
-/

namespace CostBasis

/-- An order id, as its sender assigned it. -/
structure OrderId where
  text : String := ""
deriving DecidableEq, Repr

instance : ToString OrderId := ⟨OrderId.text⟩

def OrderId.toJson (id : OrderId) : Json := .text id.text

def OrderId.ofJson? (j : Json) : Option OrderId := j.text?.map OrderId.mk

/-- The state of an order. -/
inductive OrderStatus where
  | new
  | partiallyFilled
  | filled
  | cancelled
  | rejected
  | expired
deriving DecidableEq, Repr

namespace OrderStatus

def all : List OrderStatus := [new, partiallyFilled, filled, cancelled, rejected, expired]

def name : OrderStatus → String
  | new => "New"
  | partiallyFilled => "PartiallyFilled"
  | filled => "Filled"
  | cancelled => "Cancelled"
  | rejected => "Rejected"
  | expired => "Expired"

def ofName? (s : String) : Option OrderStatus := all.find? fun status => status.name = s

def isActive : OrderStatus → Bool
  | new | partiallyFilled => true
  | _ => false

def isFill : OrderStatus → Bool
  | partiallyFilled | filled => true
  | _ => false

def toJson (s : OrderStatus) : Json := .text s.name

def ofJson? : Json → Option OrderStatus := Json.variant? (all.map fun s => (s.name, s))

end OrderStatus

/-- What happened to an order. -/
structure ExecutionReport where
  symbol : String
  clientOrderId : OrderId := {}
  venueOrderId : OrderId := {}
  /-- Quantity of this fill. -/
  lastFillQuantity : Decimal
  /-- Price of this fill. -/
  lastFillPrice : Decimal
  status : OrderStatus
  /-- Cumulative filled quantity of the order. -/
  executedQuantity : Decimal := 0
  /-- Average fill price of the order so far. -/
  averagePrice : Decimal := 0
  /-- The time of the last fill at the venue, in nanoseconds. -/
  timestamp : Nat := 0
  reason : Option String := none
deriving DecidableEq

namespace ExecutionReport

def ofFill (symbol : String) (quantity price : Decimal) (status : OrderStatus) :
    ExecutionReport where
  symbol := symbol
  lastFillQuantity := quantity
  lastFillPrice := price
  status := status
  executedQuantity := quantity
  averagePrice := price

def HasFill (r : ExecutionReport) : Prop := 0 < r.lastFillQuantity ∧ r.status.isFill = true

instance (r : ExecutionReport) : Decidable r.HasFill :=
  inferInstanceAs (Decidable (0 < r.lastFillQuantity ∧ r.status.isFill = true))

/-- The worth of the last fill, saturating. -/
def fillNotional (r : ExecutionReport) : Decimal :=
  r.lastFillPrice.saturatingMul r.lastFillQuantity

/-! ## JSON -/

def fieldNames : List String :=
  ["symbol", "client_order_id", "venue_order_id", "last_fill_qty", "last_fill_price", "status",
    "executed_qty", "avg_price", "last_ts_ns", "reason"]

def members (r : ExecutionReport) : List (String × Json) :=
  [("symbol", .text r.symbol), ("client_order_id", r.clientOrderId.toJson),
    ("venue_order_id", r.venueOrderId.toJson), ("last_fill_qty", r.lastFillQuantity.toJson),
    ("last_fill_price", r.lastFillPrice.toJson), ("status", r.status.toJson),
    ("executed_qty", r.executedQuantity.toJson), ("avg_price", r.averagePrice.toJson),
    ("last_ts_ns", .count r.timestamp),
    ("reason", match r.reason with
      | some reason => .text reason
      | none => .null)]

def toJson (r : ExecutionReport) : Json := .record r.members

/-- Reads a report from the fields of a record, with a reader for its status. -/
def ofFields? (status? : Json → Option OrderStatus) (fields : List (String × Json)) :
    Option ExecutionReport := do
  let symbol ← Json.required? fields "symbol" Json.text?
  let clientOrderId ← Json.optional? fields "client_order_id" OrderId.ofJson? {}
  let venueOrderId ← Json.optional? fields "venue_order_id" OrderId.ofJson? {}
  let lastFillQuantity ← Json.required? fields "last_fill_qty" Decimal.ofJson?
  let lastFillPrice ← Json.required? fields "last_fill_price" Decimal.ofJson?
  let status ← Json.required? fields "status" status?
  let executedQuantity ← Json.optional? fields "executed_qty" Decimal.ofJson? 0
  let averagePrice ← Json.optional? fields "avg_price" Decimal.ofJson? 0
  let timestamp ← Json.optional? fields "last_ts_ns" Json.count? 0
  let reason ← Json.optional? fields "reason" (Json.nullable? Json.text?) none
  return {
    symbol, clientOrderId, venueOrderId, lastFillQuantity, lastFillPrice, status, executedQuantity,
    averagePrice, timestamp, reason }

def ofJson? (j : Json) : Option ExecutionReport := do
  ofFields? OrderStatus.ofJson? (← j.fields? fieldNames)

end ExecutionReport

end CostBasis
