import CostBasis.Lot
import CostBasis.Log
import CostBasis.Method
import CostBasis.Side

/-!
# Positions

A position is the net holding in one symbol: a signed size, the open lots behind it from the oldest
to the newest, their average price and the profit realized so far.
-/

namespace CostBasis

/-- Net holding in one symbol with its cost-basis ledger. -/
@[ext]
structure Position where
  symbol : String
  /-- Positive when long, negative when short. -/
  size : Decimal := 0
  /-- The average entry price of the open lots, zero when flat. -/
  averagePrice : Decimal := 0
  method : Method
  /-- Open lots, oldest first. -/
  lots : List Lot := []
  realizedPnl : Decimal := 0
  /-- The number of fills applied. -/
  tradeCount : Nat := 0
deriving DecidableEq

/-- Why the method of a position cannot change. -/
inductive MethodError where
  | positionOpen (symbol : String) (size : Decimal)
deriving DecidableEq

def MethodError.message : MethodError → String
  | .positionOpen symbol size =>
    s!"Cannot change cost basis method of {symbol} while position is open (size {size})"

namespace Position

def new (symbol : String) (method : Method) : Position := { symbol, method }

def directionOf (size : Decimal) : Direction :=
  if 0 < size then .long else if size < 0 then .short else .flat

def direction (p : Position) : Direction := directionOf p.size

def IsFlat (p : Position) : Prop := p.size.IsZero

instance (p : Position) : Decidable p.IsFlat := inferInstanceAs (Decidable p.size.IsZero)

/-- Changes the method, which only a flat position can. -/
def setMethod (p : Position) (method : Method) : Except MethodError (Logged Position) :=
  if method = p.method then .ok { value := p }
  else if p.IsFlat then
    .ok
      { value := { p with method }
        events :=
          [⟨.info, s!"Cost basis method for {p.symbol} changed: {p.method} -> {method}"⟩] }
  else .error (.positionOpen p.symbol p.size)

/-! ## Equality by value -/

def sameLot (a b : Lot) : Bool := decide (a.quantity ≈ b.quantity) && decide (a.price ≈ b.price)

/-- Two positions that agree in everything but the scales and zero signs of their decimals. -/
def same (p q : Position) : Bool :=
  p.symbol == q.symbol && decide (p.size ≈ q.size) && decide (p.averagePrice ≈ q.averagePrice)
    && decide (p.method = q.method) && p.lots.length == q.lots.length
    && (p.lots.zip q.lots).all (fun (a, b) => sameLot a b)
    && decide (p.realizedPnl ≈ q.realizedPnl) && p.tradeCount == q.tradeCount

end Position

end CostBasis
