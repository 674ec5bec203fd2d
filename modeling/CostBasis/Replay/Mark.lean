import CostBasis.Book.Basic
import CostBasis.Decimal.Text
import CostBasis.Text.Basic

/-!
# Marks

A mark is written `SYMBOL=PRICE`, with blanks allowed around both parts.  The symbol ends at the
first equals sign and is not empty; the price is positive.
-/

namespace CostBasis

/-- What is wrong with a mark. -/
inductive MarkFault where
  | noEquals
  | noSymbol
  | badPrice (error : DecimalError)
  | notPositive
deriving DecidableEq, Repr

/-- Why a text is no mark; the text is kept as it was given. -/
structure MarkError where
  text : String
  fault : MarkFault
deriving DecidableEq, Repr

def MarkError.message (e : MarkError) : String :=
  match e.fault with
  | .noEquals => s!"expected SYMBOL=PRICE, got '{e.text}'"
  | .noSymbol => s!"missing symbol in '{e.text}'"
  | .badPrice error => s!"invalid price in '{e.text}': {error.message}"
  | .notPositive => s!"price must be positive in '{e.text}'"

/-- A price given to a symbol. -/
structure Mark where
  symbol : String
  price : Decimal
deriving DecidableEq

namespace Mark

/-- The parts before and after the first equals sign. -/
def splitEquals : List Char → Option (List Char × List Char)
  | [] => none
  | c :: rest =>
    if c = '=' then some ([], rest)
    else (splitEquals rest).map fun (before, after) => (c :: before, after)

def read (cs : List Char) : Except MarkFault Mark :=
  match splitEquals cs with
  | none => .error .noEquals
  | some (before, after) =>
    let symbol := Text.trim before
    if symbol = [] then .error .noSymbol
    else
      match Decimal.parseChars (Text.trim after) with
      | .error e => .error (.badPrice e)
      | .ok price =>
        if price ≤ 0 then .error .notPositive else .ok ⟨String.ofList symbol, price⟩

def parse (s : String) : Except MarkError Mark := (read s.toList).mapError fun fault => ⟨s, fault⟩

end Mark

/-- Prices with marks put over them, later marks over earlier ones. -/
def Prices.withMarks (p : Prices) (marks : List Mark) : Prices :=
  marks.foldl (fun p m => p.insert m.symbol m.price) p

end CostBasis
