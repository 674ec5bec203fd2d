import CostBasis.Book.Basic
import CostBasis.Text.Quoted

/-!
# Values spelled out

The texts in which positions, books and errors show themselves field by field, with their texts in
quotes.
-/

namespace CostBasis

def spellRecord (name : String) (fields : List (String × String)) : String :=
  let parts := fields.map fun (field, value) => s!"{field}: {value}"
  name ++ " \x7b " ++ ", ".intercalate parts ++ " \x7d"

def Method.spell : Method → String
  | weightedAverage => "WeightedAverage"
  | fifo => "Fifo"

def Lot.spell (lot : Lot) : String :=
  spellRecord "Lot" [("quantity", lot.quantity.text), ("price", lot.price.text)]

def Position.spell (p : Position) : String :=
  spellRecord "Position"
    [("symbol", Text.quoted p.symbol), ("size", p.size.text), ("avg_price", p.averagePrice.text),
      ("cost_basis_method", p.method.spell),
      ("lots", "[" ++ ", ".intercalate (p.lots.map Lot.spell) ++ "]"),
      ("realized_pnl", p.realizedPnl.text), ("trade_count", toString p.tradeCount)]

def Book.spell (b : Book) : String :=
  spellRecord "PositionManager"
    [("positions", toString b.positions.length),
      ("default_cost_basis_method", b.defaultMethod.spell),
      ("subscribers", toString b.subscriptions.length),
      ("update_channels", toString b.publisher.listenerCount),
      ("last_sequence", toString b.publisher.sequence)]

def FillError.spell : FillError → String
  | invalidFill quantity price =>
    spellRecord "InvalidFill" [("qty", quantity.text), ("price", price.text)]
  | insufficientPosition symbol requested available =>
    spellRecord "InsufficientPosition"
      [("symbol", Text.quoted symbol), ("requested", requested.text),
        ("available", available.text)]
  | overflow symbol stage quantity price =>
    spellRecord "Overflow"
      [("symbol", Text.quoted symbol), ("operation", Text.quoted stage.text),
        ("qty", quantity.text), ("price", price.text)]

def MethodError.spell : MethodError → String
  | positionOpen symbol size =>
    spellRecord "PositionOpen" [("symbol", Text.quoted symbol), ("size", size.text)]

end CostBasis
