import CostBasis.Book.Basic

/-!
# Sums over a book

Profit and exposure across all positions of a book.  Sums start from zero, take one position after
the other in the order of the book, and saturate at the bounds of the decimals.  Only positions with
a price count towards what depends on prices.
-/

namespace CostBasis

/-- Profit and exposure of a book. -/
structure Summary where
  realizedPnl : Decimal := 0
  unrealizedPnl : Decimal := 0
  totalPnl : Decimal := 0
  /-- The sum of the absolute exposures. -/
  grossExposure : Decimal := 0
  /-- The sum of the signed exposures. -/
  netExposure : Decimal := 0
  openPositions : Nat := 0
  /-- Symbols of open positions without a price, in order. -/
  unpricedSymbols : List String := []
deriving DecidableEq

namespace Summary

def fieldNames : List String :=
  ["realized_pnl", "unrealized_pnl", "total_pnl", "gross_exposure", "net_exposure",
    "open_positions", "unpriced_symbols"]

def toJson (s : Summary) : Json :=
  .record
    [("realized_pnl", s.realizedPnl.toJson), ("unrealized_pnl", s.unrealizedPnl.toJson),
      ("total_pnl", s.totalPnl.toJson), ("gross_exposure", s.grossExposure.toJson),
      ("net_exposure", s.netExposure.toJson), ("open_positions", .count s.openPositions),
      ("unpriced_symbols", .array (s.unpricedSymbols.map Json.text))]

def ofJson? (j : Json) : Option Summary := do
  let fields ← j.fields? fieldNames
  let realizedPnl ← Json.required? fields "realized_pnl" Decimal.ofJson?
  let unrealizedPnl ← Json.required? fields "unrealized_pnl" Decimal.ofJson?
  let totalPnl ← Json.required? fields "total_pnl" Decimal.ofJson?
  let grossExposure ← Json.required? fields "gross_exposure" Decimal.ofJson?
  let netExposure ← Json.required? fields "net_exposure" Decimal.ofJson?
  let openPositions ← Json.required? fields "open_positions" Json.count?
  let unpricedSymbols ← Json.required? fields "unpriced_symbols" (Json.list? Json.text?)
  return {
    realizedPnl, unrealizedPnl, totalPnl, grossExposure, netExposure, openPositions,
    unpricedSymbols }

end Summary

def sortSymbols (symbols : List String) : List String :=
  symbols.mergeSort fun a b => decide (a ≤ b)

namespace Book

/-! ## Positions in order -/

def sortedPositions (b : Book) : List Position :=
  b.positions.mergeSort fun p q => decide (p.symbol ≤ q.symbol)

/-- Snapshots of the positions that have a price, in the order of their symbols. -/
def snapshots (b : Book) (prices : Prices) : List Snapshot :=
  b.sortedPositions.filterMap fun p => (prices.get? p.symbol).map p.snapshot

/-! ## Totals -/

def sum (ds : List Decimal) : Decimal := ds.foldl Decimal.saturatingAdd 0

def totalRealizedPnl (b : Book) : Decimal := sum (b.positions.map Position.realizedPnl)

def totalUnrealizedPnl (b : Book) (prices : Prices) : Decimal :=
  sum (b.positions.filterMap fun p => (prices.get? p.symbol).map p.unrealizedPnl)

def totalPnl (b : Book) (prices : Prices) : Decimal :=
  b.totalRealizedPnl.saturatingAdd (b.totalUnrealizedPnl prices)

/-! ## Summary -/

/-- Counts one position into a summary in the making. -/
def tally (prices : Prices) (s : Summary) (p : Position) : Summary :=
  let s := { s with realizedPnl := s.realizedPnl.saturatingAdd p.realizedPnl }
  if p.IsFlat then s
  else
    let s := { s with openPositions := s.openPositions + 1 }
    match prices.get? p.symbol with
    | none => { s with unpricedSymbols := s.unpricedSymbols ++ [p.symbol] }
    | some price =>
      { s with
        unrealizedPnl := s.unrealizedPnl.saturatingAdd (p.unrealizedPnl price)
        grossExposure := s.grossExposure.saturatingAdd (p.notionalValue price)
        netExposure := s.netExposure.saturatingAdd (p.size.saturatingMul price) }

def summary (b : Book) (prices : Prices) : Summary :=
  let s := b.positions.foldl (tally prices) {}
  { s with
    totalPnl := s.realizedPnl.saturatingAdd s.unrealizedPnl
    unpricedSymbols := sortSymbols s.unpricedSymbols }

def summaryEvents (s : Summary) : List Event :=
  if s.unpricedSymbols.isEmpty then []
  else
    let symbols := ", ".intercalate (s.unpricedSymbols.map Text.quoted)
    [⟨.debug, s!"No price for open positions [{symbols}], excluded from unrealized PnL"⟩]

end Book

end CostBasis
