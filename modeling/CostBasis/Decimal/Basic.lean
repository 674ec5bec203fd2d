/-!
# Decimal amounts

A `Decimal` is a sign, a mantissa of at most 96 bits and a scale of at most 28 digits; it stands for
`± mantissa / 10 ^ scale`, its `value`.  The scale is part of what a reader sees (`1.5` and `1.50`
are two decimals of one value), so equality `=` tells them apart, while `≈`, `≤` and `<` compare
values.  A zero may carry a sign, which no comparison sees.
-/

namespace CostBasis

/-! ## Powers of ten and of two

The factors that shift decimal digits and bits. -/

def pow10 (n : Nat) : Nat := Nat.pow 10 n

def pow2 (n : Nat) : Nat := Nat.pow 2 n

@[simp] theorem pow10_zero : pow10 0 = 1 := rfl

theorem pow10_succ (n : Nat) : pow10 (n + 1) = pow10 n * 10 := rfl

theorem pow10_pos (n : Nat) : 0 < pow10 n := Nat.pow_pos (by decide)

@[simp] theorem pow2_zero : pow2 0 = 1 := rfl

theorem pow2_pos (n : Nat) : 0 < pow2 n := Nat.pow_pos (by decide)

/-! ## Decimals -/

namespace Decimal

/-- The largest mantissa: 96 one-bits. -/
def maxMantissa : Nat := pow2 96 - 1

def maxScale : Nat := 28

end Decimal

/-- A signed number with at most 28 decimal places and a 96-bit mantissa. -/
@[ext]
structure Decimal where
  negative : Bool
  mantissa : Nat
  scale : Nat
  mantissa_le : mantissa ≤ Decimal.maxMantissa
  scale_le : scale ≤ Decimal.maxScale
deriving DecidableEq

namespace Decimal

def ofParts? (negative : Bool) (mantissa scale : Nat) : Option Decimal :=
  if h : mantissa ≤ maxMantissa ∧ scale ≤ maxScale then
    some ⟨negative, mantissa, scale, h.1, h.2⟩
  else none

def zero : Decimal := ⟨false, 0, 0, by decide, by decide⟩

def one : Decimal := ⟨false, 1, 0, by decide, by decide⟩

def greatest : Decimal := ⟨false, maxMantissa, 0, Nat.le_refl _, by decide⟩

def least : Decimal := ⟨true, maxMantissa, 0, Nat.le_refl _, by decide⟩

instance : OfNat Decimal 0 := ⟨zero⟩

instance : OfNat Decimal 1 := ⟨one⟩

instance : Inhabited Decimal := ⟨zero⟩

def coefficient (d : Decimal) : Int :=
  if d.negative then -(d.mantissa : Int) else d.mantissa

/-- The number that a decimal stands for. -/
def value (d : Decimal) : Rat := mkRat d.coefficient (pow10 d.scale)

/-! ## Comparison by value -/

instance : LE Decimal :=
  ⟨fun a b => a.coefficient * pow10 b.scale ≤ b.coefficient * pow10 a.scale⟩

instance : LT Decimal :=
  ⟨fun a b => a.coefficient * pow10 b.scale < b.coefficient * pow10 a.scale⟩

/-- Two decimals are equivalent when they have one value. -/
instance : HasEquiv Decimal :=
  ⟨fun a b => a.coefficient * pow10 b.scale = b.coefficient * pow10 a.scale⟩

instance (a b : Decimal) : Decidable (a ≤ b) :=
  inferInstanceAs (Decidable (a.coefficient * pow10 b.scale ≤ b.coefficient * pow10 a.scale))

instance (a b : Decimal) : Decidable (a < b) :=
  inferInstanceAs (Decidable (a.coefficient * pow10 b.scale < b.coefficient * pow10 a.scale))

instance (a b : Decimal) : Decidable (a ≈ b) :=
  inferInstanceAs (Decidable (a.coefficient * pow10 b.scale = b.coefficient * pow10 a.scale))

/-- The smaller of two decimals, the left one if they are of one value. -/
instance : Min Decimal := ⟨fun a b => if b < a then b else a⟩

/-- A decimal is zero when its mantissa is, whatever its sign and scale. -/
def IsZero (d : Decimal) : Prop := d.mantissa = 0

instance (d : Decimal) : Decidable d.IsZero := inferInstanceAs (Decidable (d.mantissa = 0))

/-! ## Sign -/

/-- The same magnitude with the other sign. -/
instance : Neg Decimal := ⟨fun d => { d with negative := !d.negative }⟩

def abs (d : Decimal) : Decimal := { d with negative := false }

@[simp] theorem neg_negative (d : Decimal) : (-d).negative = !d.negative := rfl

@[simp] theorem neg_mantissa (d : Decimal) : (-d).mantissa = d.mantissa := rfl

@[simp] theorem neg_scale (d : Decimal) : (-d).scale = d.scale := rfl

end Decimal

end CostBasis
