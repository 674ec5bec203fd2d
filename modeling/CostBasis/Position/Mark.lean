import CostBasis.Position.Basic

/-!
# Marks

What a position is worth at a price.  All of it saturates at the bounds of the decimals.
-/

namespace CostBasis

/-- A position at a moment, marked at a price. -/
structure Snapshot where
  symbol : String
  size : Decimal
  averagePrice : Decimal
  direction : Direction
  realizedPnl : Decimal
  unrealizedPnl : Decimal
  notionalValue : Decimal
  /-- The price that the unrealized profit and the notional value are computed at. -/
  markPrice : Decimal
  method : Method
  lotCount : Nat
  tradeCount : Nat
deriving DecidableEq

namespace Position

def unrealizedPnl (p : Position) (price : Decimal) : Decimal :=
  if p.IsFlat then 0 else p.size.saturatingMul (price.saturatingSub p.averagePrice)

def totalPnl (p : Position) (price : Decimal) : Decimal :=
  p.realizedPnl.saturatingAdd (p.unrealizedPnl price)

def notionalValue (p : Position) (price : Decimal) : Decimal := p.size.abs.saturatingMul price

def snapshot (p : Position) (price : Decimal) : Snapshot where
  symbol := p.symbol
  size := p.size
  averagePrice := p.averagePrice
  direction := p.direction
  realizedPnl := p.realizedPnl
  unrealizedPnl := p.unrealizedPnl price
  notionalValue := p.notionalValue price
  markPrice := price
  method := p.method
  lotCount := p.lots.length
  tradeCount := p.tradeCount

end Position

namespace Snapshot

def totalPnl (s : Snapshot) : Decimal := s.realizedPnl.saturatingAdd s.unrealizedPnl

def IsFlat (s : Snapshot) : Prop := s.direction = .flat

instance (s : Snapshot) : Decidable s.IsFlat := inferInstanceAs (Decidable (s.direction = .flat))

def fieldNames : List String :=
  ["symbol", "size", "avg_price", "side", "realized_pnl", "unrealized_pnl", "notional_value",
    "mark_price", "cost_basis_method", "lot_count", "trade_count"]

def toJson (s : Snapshot) : Json :=
  .record
    [("symbol", .text s.symbol), ("size", s.size.toJson), ("avg_price", s.averagePrice.toJson),
      ("side", s.direction.toJson), ("realized_pnl", s.realizedPnl.toJson),
      ("unrealized_pnl", s.unrealizedPnl.toJson), ("notional_value", s.notionalValue.toJson),
      ("mark_price", s.markPrice.toJson), ("cost_basis_method", s.method.toJson),
      ("lot_count", .count s.lotCount), ("trade_count", .count s.tradeCount)]

def ofJson? (j : Json) : Option Snapshot := do
  let fields ← j.fields? fieldNames
  let symbol ← Json.required? fields "symbol" Json.text?
  let size ← Json.required? fields "size" Decimal.ofJson?
  let averagePrice ← Json.required? fields "avg_price" Decimal.ofJson?
  let direction ← Json.required? fields "side" Direction.ofJson?
  let realizedPnl ← Json.required? fields "realized_pnl" Decimal.ofJson?
  let unrealizedPnl ← Json.required? fields "unrealized_pnl" Decimal.ofJson?
  let notionalValue ← Json.required? fields "notional_value" Decimal.ofJson?
  let markPrice ← Json.required? fields "mark_price" Decimal.ofJson?
  let method ← Json.required? fields "cost_basis_method" Method.ofJson?
  let lotCount ← Json.required? fields "lot_count" Json.count?
  let tradeCount ← Json.required? fields "trade_count" Json.count?
  return {
    symbol, size, averagePrice, direction, realizedPnl, unrealizedPnl, notionalValue, markPrice,
    method, lotCount, tradeCount }

end Snapshot

end CostBasis
