import CostBasis.Json.Reading
import CostBasis.Text.Lowercase

/-!
# Sides and directions

A fill buys or sells.  The net holding in a symbol is long, short or flat, and each open direction is
increased by fills of its opening side.
-/

namespace CostBasis

/-- The side of a fill. -/
inductive Side where
  | buy
  | sell
deriving DecidableEq, Repr

namespace Side

def opposite : Side → Side
  | buy => sell
  | sell => buy

@[simp] theorem opposite_opposite (s : Side) : s.opposite.opposite = s := by cases s <;> rfl

/-- What a fill of this side adds to the size, per unit of its quantity. -/
def sign : Side → Int
  | buy => 1
  | sell => -1

def text : Side → String
  | buy => "BUY"
  | sell => "SELL"

instance : ToString Side := ⟨text⟩

def name : Side → String
  | buy => "Buy"
  | sell => "Sell"

/-- Reads a side in any case; a refused text comes back in lowercase. -/
def parse (s : String) : Except String Side :=
  let lower := Text.lowercase s
  if ["buy", "b", "bid"].contains lower then .ok buy
  else if ["sell", "s", "ask"].contains lower then .ok sell
  else .error s!"unknown side '{lower}'"

def toJson (s : Side) : Json := .text s.name

def ofJson? : Json → Option Side := Json.variant? ([buy, sell].map fun s => (s.name, s))

end Side

/-- The direction of a holding. -/
inductive Direction where
  | long
  | short
  | flat
deriving DecidableEq, Repr

namespace Direction

def openingSide? : Direction → Option Side
  | long => some .buy
  | short => some .sell
  | flat => none

def text : Direction → String
  | long => "LONG"
  | short => "SHORT"
  | flat => "FLAT"

def name : Direction → String
  | long => "Long"
  | short => "Short"
  | flat => "Flat"

def toJson (d : Direction) : Json := .text d.name

def ofJson? : Json → Option Direction :=
  Json.variant? ([long, short, flat].map fun d => (d.name, d))

end Direction

end CostBasis
