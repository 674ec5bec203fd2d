import CostBasis.Decimal.Arithmetic
import CostBasis.Decimal.Text

/-!
# Binary floating point

The finite doubles without their sign: a mantissa below `2 ^ 53` times a power of two no less than
`2 ^ -1074`.  Products and quotients are the exact ones rounded to the nearest double, a half to the
even mantissa; what would round past the greatest double is none.
-/

namespace CostBasis

/-- The number `mantissa * 2 ^ exponent`. -/
structure Double where
  mantissa : Nat
  exponent : Int
deriving DecidableEq, Repr

namespace Double

def zero : Double := ⟨0, -1074⟩

/-- The largest integer `k` with `2 ^ k ≤ n / d`, for positive `n` and `d`. -/
def magnitude (n d : Nat) : Int :=
  let guess : Int := (Nat.log2 n : Int) - Nat.log2 d
  if n * pow2 (-guess).toNat < d * pow2 guess.toNat then guess - 1 else guess

/-- The double nearest to `n / d`, for positive `d`. -/
def nearest? (n d : Nat) : Option Double :=
  if n = 0 then some zero
  else
    let exponent := max (-1074) (magnitude n d - 52)
    let mantissa := divHalfEven (n * pow2 (-exponent).toNat) (d * pow2 exponent.toNat)
    let rounded : Double :=
      if mantissa = pow2 53 then ⟨pow2 52, exponent + 1⟩ else ⟨mantissa, exponent⟩
    if rounded.exponent ≤ 971 then some rounded else none

def num (x : Double) : Nat := x.mantissa * pow2 x.exponent.toNat

def den (x : Double) : Nat := pow2 (-x.exponent).toNat

def mul? (x y : Double) : Option Double := nearest? (x.num * y.num) (x.den * y.den)

def div? (x y : Double) : Option Double := nearest? (x.num * y.den) (x.den * y.num)

def tenPower? (n : Nat) : Option Double := nearest? (pow10 n) 1

def maxTenPower : Nat := 308

/-- `x * 10 ^ e`, rounded at each of its steps: one product, or one quotient, or for a power below
`10 ^ -308` two quotients of which the first is by `10 ^ 308`. -/
def scaleByTen? (x : Double) (e : Int) : Option Double := do
  if x.mantissa = 0 then some zero
  else if (maxTenPower : Int) < e then none
  else if 0 ≤ e then x.mul? (← tenPower? e.toNat)
  else if -(maxTenPower : Int) ≤ e then x.div? (← tenPower? (-e).toNat)
  else if -2 * (maxTenPower : Int) ≤ e then
    let y ← x.div? (← tenPower? maxTenPower)
    y.div? (← tenPower? (-e - maxTenPower).toNat)
  else some zero

/-! ## Shortest digits

The numbers that round to a double form an interval, which holds its ends when the mantissa is even.
The shortest digits are those of the coarsest decimal grid with a point in that interval; of two such
points the nearer one is taken, and of two as near the upper. -/

/-- The interval of a double in units of `2 ^ (exponent - 2)`: its lower end, the double, its upper
end. -/
def interval (x : Double) : Nat × Nat × Nat :=
  let below := if x.mantissa = pow2 52 then 1 else 2
  (4 * x.mantissa - below, 4 * x.mantissa, 4 * x.mantissa + 2)

/-- Whether the interval of a double with this mantissa holds its ends. -/
def closed (x : Double) : Bool := x.mantissa % 2 = 0

/-- Compares with the sharp relation at an open end and with the weak one at a closed end. -/
def endLe (closed : Bool) (m n : Nat) : Bool :=
  if closed then decide (m ≤ n) else decide (m < n)

/-- The best point of the grid of step `10 ^ step` in the interval of `x`. -/
def gridPoint? (x : Double) (step : Int) : Option Nat :=
  let (low, mid, high) := x.interval
  let up := pow2 (x.exponent - 2).toNat * pow10 (-step).toNat
  let unit := pow2 (2 - x.exponent).toNat * pow10 step.toNat
  let inside (p : Nat) : Bool :=
    endLe x.closed (low * up) (p * unit) && endLe x.closed (p * unit) (high * up)
  let floor := mid * up / unit
  let nearUpper := decide ((floor + 1) * unit - mid * up ≤ mid * up - floor * unit)
  match inside floor, inside (floor + 1) with
  | true, true => some (if nearUpper then floor + 1 else floor)
  | true, false => some floor
  | false, true => some (floor + 1)
  | false, false => none

/-- The least `k` such that the interval of a positive double lies below `10 ^ k`. -/
def ceilingPower (x : Double) : Int :=
  let (_, _, high) := x.interval
  let reaches (k : Int) : Bool :=
    endLe x.closed (pow2 (2 - x.exponent).toNat * pow10 k.toNat)
      (high * pow2 (x.exponent - 2).toNat * pow10 (-k).toNat)
  match (List.range 640).find? fun (i : Nat) => !reaches ((i : Int) - 325) with
  | some i => (i : Int) - 325
  | none => 310

/-- Digits and a power of ten: the shortest that round to `x`. -/
def shortest (x : Double) : Nat × Int :=
  if x.mantissa = 0 then (0, 0)
  else
    let candidate (i : Nat) : Option (Nat × Int) :=
      let step := x.ceilingPower - 1 - i
      (x.gridPoint? step).map fun p => (p, step)
    ((List.range 17).findSome? candidate).getD (0, 0)

def shortestChars (x : Double) : List Char :=
  let (digits, power) := x.shortest
  if 0 ≤ power then Nat.toDigits 10 (digits * pow10 power.toNat)
  else
    let places := (-power).toNat
    Nat.toDigits 10 (digits / pow10 places) ++ ['.'] ++ paddedDigits places digits

end Double

end CostBasis
