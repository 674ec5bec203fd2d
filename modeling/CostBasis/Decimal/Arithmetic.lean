import CostBasis.Decimal.Basic

/-!
# Rounding, sums, differences and products

Every rounding goes to the nearest neighbour, and a half to the even one.  `fit?` brings an exact
result into the range of the decimals by dropping as few digits as it can; it fails exactly when the
integer part alone is too long.

Each operation is the exact result brought into range by `fit?`; a result out of range is no decimal.
Zero operands are special only in the scale they leave: a zero summand leaves the other operand as it
is, and a product with zero is plain `0`.  The `saturating` forms answer a result out of range by the
bound on its side.
-/

namespace CostBasis

/-! ## Rounding -/

/-- The quotient `n / d` rounded to the nearest integer, a half to the even neighbour. -/
def divHalfEven (n d : Nat) : Nat :=
  if d < 2 * (n % d) ∨ (2 * (n % d) = d ∧ n / d % 2 = 1) then n / d + 1 else n / d

theorem divHalfEven_le {n d : Nat} (hd : 0 < d) : divHalfEven n d ≤ n := by
  have hle : n / d ≤ n := Nat.div_le_self n d
  unfold divHalfEven
  split
  next h =>
    have hmod : n % d < d := Nat.mod_lt n hd
    have hdm : d * (n / d) + n % d = n := Nat.div_add_mod n d
    have hpos : 0 < n % d := by omega
    have hdiv : n / d ≤ d * (n / d) := Nat.le_mul_of_pos_left _ hd
    omega
  next => exact hle

namespace Decimal

/-- Fewest trailing digits of `mantissa` to drop so that it is in range at a scale in range. -/
def excess? (mantissa scale : Nat) : Option Nat :=
  (List.range (scale + 1)).find? fun k =>
    decide (mantissa / pow10 k ≤ maxMantissa) && decide (scale ≤ maxScale + k)

/-- The decimal nearest to `± mantissa / 10 ^ scale` among those of the finest scale that has room for
it; none if its integer part is too long.  Rounding may reach `2 ^ 96`, which costs one more digit. -/
def fit? (negative : Bool) (mantissa scale : Nat) : Option Decimal := do
  let k ← excess? mantissa scale
  let rounded := divHalfEven mantissa (pow10 k)
  if rounded ≤ maxMantissa then ofParts? negative rounded (scale - k)
  else if scale - k = 0 then none
  else ofParts? negative (divHalfEven rounded 10) (scale - k - 1)

/-- `d` with at most `places` digits after the point. -/
def roundTo (d : Decimal) (places : Nat) : Decimal :=
  if h : d.scale ≤ places then d
  else
    { negative := d.negative
      mantissa := divHalfEven d.mantissa (pow10 (d.scale - places))
      scale := places
      mantissa_le := Nat.le_trans (divHalfEven_le (pow10_pos _)) d.mantissa_le
      scale_le := Nat.le_trans (Nat.le_of_lt (Nat.lt_of_not_le h)) d.scale_le }

/-! ## Operations -/

def sumOf? (a b : Decimal) : Option Decimal :=
  let scale := max a.scale b.scale
  let total := a.coefficient * pow10 (scale - a.scale) + b.coefficient * pow10 (scale - b.scale)
  fit? (decide (total < 0)) total.natAbs scale

def add? (a b : Decimal) : Option Decimal :=
  if a.IsZero then some b
  else if b.IsZero then some a
  else sumOf? a b

def sub? (a b : Decimal) : Option Decimal :=
  if b.IsZero then some (if a.IsZero then b else a)
  else if a.IsZero then some (-b)
  else sumOf? a (-b)

/-- A mantissa that fills one 32-bit word at most. -/
def IsShort (d : Decimal) : Prop := d.mantissa < pow2 32

instance (d : Decimal) : Decidable d.IsShort := inferInstanceAs (Decidable (d.mantissa < pow2 32))

/-- The product, or none out of range.  Two short mantissas never leave a negative zero, and leave
plain `0` when more than 47 decimal places meet. -/
def mul? (a b : Decimal) : Option Decimal :=
  let negative := a.negative != b.negative
  let scale := a.scale + b.scale
  if a.IsZero ∨ b.IsZero then some 0
  else if a.IsShort ∧ b.IsShort then
    if 47 < scale then some 0
    else (fit? negative (a.mantissa * b.mantissa) scale).map fun d => if d.IsZero then d.abs else d
  else fit? negative (a.mantissa * b.mantissa) scale

/-! ## Saturation -/

def saturatingAdd (a b : Decimal) : Decimal :=
  (a.add? b).getD (if a.negative then least else greatest)

def saturatingSub (a b : Decimal) : Decimal :=
  (a.sub? b).getD (if a.negative then least else greatest)

def saturatingMul (a b : Decimal) : Decimal :=
  (a.mul? b).getD (if a.negative = b.negative then greatest else least)

end Decimal

end CostBasis
