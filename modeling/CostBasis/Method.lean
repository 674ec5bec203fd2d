import CostBasis.Json.Reading
import CostBasis.Text.Lowercase

/-!
# Cost basis methods

The method decides what a closing fill is matched against: under `fifo` the oldest lots at their own
prices, under `weightedAverage` one lot at the running average price.
-/

namespace CostBasis

/-- How the cost of closed quantity is determined. -/
inductive Method where
  | weightedAverage
  | fifo
deriving DecidableEq, Repr

namespace Method

def default : Method := weightedAverage

def text : Method → String
  | weightedAverage => "weighted_average"
  | fifo => "fifo"

instance : ToString Method := ⟨text⟩

/-- Reads a method in any case; a refused text comes back in lowercase. -/
def parse (s : String) : Except String Method :=
  let lower := Text.lowercase s
  if ["weighted_average", "weighted-average", "wavg", "average"].contains lower then
    .ok weightedAverage
  else if lower = "fifo" then .ok fifo
  else
    .error s!"unknown cost basis method '{lower}', expected 'weighted_average' or 'fifo'"

def toJson (m : Method) : Json := .text m.text

def ofJson? : Json → Option Method :=
  Json.variant? ([weightedAverage, fifo].map fun m => (m.text, m))

end Method

end CostBasis
