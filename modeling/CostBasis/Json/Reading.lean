import CostBasis.Double
import CostBasis.Json.Basic

/-!
# Reading JSON values

A record is an object, whose members may come in any order and whose unknown members are ignored, or
an array of its fields in their declared order, which may stop early.  A field given twice is an
error.  A variant is its name, or an object with that name for its only member and null for the value.

A count is an unsigned literal of at most 64 bits.  A decimal is a string, or an integer literal of at
most 64 bits, or any other number by way of a double: the digits of the literal that fit in 64 bits are
scaled by a power of ten in floating point, and the shortest digits of the result are read as a decimal.
-/

namespace CostBasis

/-! ## Records and variants -/

namespace Json

/-- The members of an object with their names; none if a name has no text. -/
def named? (members : List (Option String × Json)) : Option (List (String × Json)) :=
  members.mapM fun m => m.1.map fun name => (name, m.2)

/-- The members with one of the given names, if each name comes at most once. -/
def select? (names : List String) (members : List (String × Json)) : Option (List (String × Json)) :=
  let known := members.filter fun m => names.contains m.1
  if (known.map Prod.fst).Nodup then some known else none

def fields? (names : List String) : Json → Option (List (String × Json))
  | object members => do select? names (← named? members)
  | array items => if items.length ≤ names.length then some (names.zip items) else none
  | _ => none

def required? {α : Type} (fields : List (String × Json)) (name : String) (read? : Json → Option α) :
    Option α := do
  read? (← fields.lookup name)

def optional? {α : Type} (fields : List (String × Json)) (name : String) (read? : Json → Option α)
    (default : α) : Option α :=
  match fields.lookup name with
  | some j => read? j
  | none => some default

def variant? {α : Type} (variants : List (String × α)) : Json → Option α
  | string (some name) => variants.lookup name
  | object [(some name, null)] => variants.lookup name
  | _ => none

end Json

/-! ## Scalars -/

namespace Number

/-- Appends digits while the number stays below `2 ^ 64`; also counts the digits left over. -/
def growDigits (n : Nat) : List Nat → Nat × Nat
  | [] => (n, 0)
  | d :: ds => if n * 10 + d < pow2 64 then growDigits (n * 10 + d) ds else (n, ds.length + 1)

/-- The leading digits of a number that fit in 64 bits and the power of ten that goes with them. -/
def leading (n : Number) : Nat × Int :=
  let wholeDigits := (Nat.toDigits 10 n.whole).map fun c => c.toNat - '0'.toNat
  let (whole, beyond) := growDigits 0 wholeDigits
  let (digits, unused) := growDigits whole n.fraction
  (digits, (beyond : Int) - ((n.fraction.length : Int) - unused) + n.exponent.getD 0)

def double? (n : Number) : Option Double := do
  let (digits, power) := n.leading
  (← Double.nearest? digits 1).scaleByTen? power

def isInteger (n : Number) : Bool := n.fraction.isEmpty && n.exponent.isNone

def count? (n : Number) : Option Nat :=
  if n.isInteger ∧ ¬ n.negative ∧ n.whole < pow2 64 then some n.whole else none

/-- The decimal that an integer literal of at most 64 bits is. -/
def integer? (n : Number) : Option Decimal :=
  if n.isInteger ∧ (if n.negative then 0 < n.whole ∧ n.whole ≤ pow2 63 else n.whole < pow2 64) then
    Decimal.ofParts? n.negative n.whole 0
  else none

def decimal? (n : Number) : Option Decimal :=
  match n.integer? with
  | some d => some d
  | none => do
    let x ← n.double?
    let sign := if n.negative then ['-'] else []
    (Decimal.parseChars (sign ++ x.shortestChars)).toOption

end Number

namespace Json

def text? : Json → Option String
  | string s => s
  | _ => none

def bool? : Json → Option Bool
  | bool b => some b
  | _ => none

def count? : Json → Option Nat
  | number n => n.count?
  | _ => none

def list? {α : Type} (item? : Json → Option α) : Json → Option (List α)
  | array items => items.mapM item?
  | _ => none

def nullable? {α : Type} (value? : Json → Option α) : Json → Option (Option α)
  | null => some none
  | j => (value? j).map some

end Json

namespace Decimal

def toJson (d : Decimal) : Json := .text d.text

def ofJson? : Json → Option Decimal
  | .string (some s) => (parse s).toOption
  | .number n => n.decimal?
  | _ => none

end Decimal

end CostBasis
