import CostBasis.Decimal.Arithmetic
import Mathlib.Data.Rat.Floor
import Mathlib.Tactic.FieldSimp
import Mathlib.Tactic.Linarith
import Mathlib.Tactic.Positivity
import Mathlib.Tactic.Ring

/-!
# Decimals as rational numbers

Order, equivalence, sign and zero of decimals read off their values, and the numbers that are the
value of some decimal at all.
-/

namespace CostBasis

theorem cast_pow10 (n : ℕ) : (pow10 n : ℚ) = 10 ^ n := by
  induction n with
  | zero => rfl
  | succ n ih => rw [pow10_succ, Nat.cast_mul, ih, pow_succ]; norm_num

namespace Decimal

theorem maxMantissa_eq : maxMantissa = 79228162514264337593543950335 := rfl

def withSign (negative : Bool) (x : ℚ) : ℚ := if negative then -x else x

theorem withSign_not (negative : Bool) (x : ℚ) : withSign (!negative) x = -withSign negative x := by
  cases negative <;> simp [withSign]

theorem abs_withSign (negative : Bool) (x : ℚ) : |withSign negative x| = |x| := by
  cases negative <;> simp [withSign]

theorem withSign_mul_withSign (s t : Bool) (x y : ℚ) :
    withSign s x * withSign t y = withSign (s != t) (x * y) := by
  cases s <;> cases t <;> simp [withSign]

theorem withSign_div_withSign (s t : Bool) (x y : ℚ) :
    withSign s x / withSign t y = withSign (s != t) (x / y) := by
  cases s <;> cases t <;> simp [withSign, neg_div, div_neg]

theorem withSign_div (negative : Bool) (x y : ℚ) :
    withSign negative x / y = withSign negative (x / y) := by
  cases negative <;> simp [withSign, neg_div]

/-! ## Values -/

theorem cast_coefficient (d : Decimal) : (d.coefficient : ℚ) = withSign d.negative d.mantissa := by
  simp only [coefficient, withSign]
  split <;> simp

theorem value_eq_coefficient (d : Decimal) : d.value = d.coefficient / 10 ^ d.scale := by
  rw [value, Rat.mkRat_eq_div, cast_pow10]

theorem value_eq (d : Decimal) :
    d.value = withSign d.negative ((d.mantissa : ℚ) / 10 ^ d.scale) := by
  rw [value_eq_coefficient, cast_coefficient, withSign_div]

@[simp] theorem value_zero : (0 : Decimal).value = 0 := by
  rw [value_eq]
  change withSign false ((0 : ℕ) / 10 ^ 0) = 0
  simp [withSign]

@[simp] theorem value_one : (1 : Decimal).value = 1 := by
  rw [value_eq]
  change withSign false ((1 : ℕ) / 10 ^ 0) = 1
  simp [withSign]

@[simp] theorem value_neg (d : Decimal) : (-d).value = -d.value := by
  rw [value_eq, value_eq, neg_negative, neg_mantissa, neg_scale, withSign_not]

theorem abs_value (d : Decimal) : |d.value| = (d.mantissa : ℚ) / 10 ^ d.scale := by
  rw [value_eq, abs_withSign, abs_of_nonneg (by positivity)]

@[simp] theorem value_abs (d : Decimal) : d.abs.value = |d.value| := by
  rw [abs_value, value_eq]
  rfl

theorem isZero_iff (d : Decimal) : d.IsZero ↔ d.value = 0 := by
  rw [← abs_eq_zero, abs_value, div_eq_zero_iff]
  simp [IsZero]

theorem isZero_zero : (0 : Decimal).IsZero := (isZero_iff 0).mpr value_zero

/-! ## Comparison -/

/-- Both sides of a comparison over the product of the two denominators. -/
theorem value_mul_scales (a b : Decimal) :
    a.value * (10 ^ a.scale * 10 ^ b.scale) = ((a.coefficient * pow10 b.scale : ℤ) : ℚ) := by
  rw [value_eq_coefficient]
  push_cast
  rw [cast_pow10]
  field_simp

theorem le_iff (a b : Decimal) : a ≤ b ↔ a.value ≤ b.value := by
  have scales : (0 : ℚ) < 10 ^ a.scale * 10 ^ b.scale := by positivity
  change a.coefficient * pow10 b.scale ≤ b.coefficient * pow10 a.scale ↔ _
  rw [← mul_le_mul_iff_left₀ scales, value_mul_scales, mul_comm (10 ^ a.scale), value_mul_scales,
    Int.cast_le]

theorem lt_iff (a b : Decimal) : a < b ↔ a.value < b.value := by
  have scales : (0 : ℚ) < 10 ^ a.scale * 10 ^ b.scale := by positivity
  change a.coefficient * pow10 b.scale < b.coefficient * pow10 a.scale ↔ _
  rw [← mul_lt_mul_iff_left₀ scales, value_mul_scales, mul_comm (10 ^ a.scale), value_mul_scales,
    Int.cast_lt]

theorem equiv_iff (a b : Decimal) : a ≈ b ↔ a.value = b.value := by
  have scales : (10 : ℚ) ^ a.scale * 10 ^ b.scale ≠ 0 := by positivity
  change a.coefficient * pow10 b.scale = b.coefficient * pow10 a.scale ↔ _
  rw [← mul_left_inj' scales, value_mul_scales, mul_comm (10 ^ a.scale), value_mul_scales,
    Int.cast_inj]

theorem min_eq (a b : Decimal) : min a b = if b.value < a.value then b else a := by
  simp only [← lt_iff]
  rfl

theorem value_min (a b : Decimal) : (min a b).value = min a.value b.value := by
  rw [min_eq]
  split
  next smaller => rw [min_eq_right smaller.le]
  next larger => rw [min_eq_left (not_lt.mp larger)]

/-! ## Numbers that are decimals -/

def Representable (x : ℚ) : Prop := ∃ d : Decimal, d.value = x

theorem representable_value (d : Decimal) : Representable d.value := ⟨d, rfl⟩

theorem Representable.neg {x : ℚ} (h : Representable x) : Representable (-x) := by
  obtain ⟨d, rfl⟩ := h
  exact ⟨-d, value_neg d⟩

/-- Sign, mantissa and scale may be given as one integer over a power of ten. -/
theorem representable_of_div {m : ℤ} {s : ℕ} (mantissa : |m| ≤ maxMantissa) (scale : s ≤ maxScale) :
    Representable ((m : ℚ) / 10 ^ s) := by
  have bound : m.natAbs ≤ maxMantissa := by
    rw [Int.abs_eq_natAbs] at mantissa
    exact Int.ofNat_le.mp mantissa
  refine ⟨⟨decide (m < 0), m.natAbs, s, bound, scale⟩, ?_⟩
  rw [value_eq_coefficient]
  congr 2
  simp only [coefficient]
  simp only [decide_eq_true_eq]
  omega

theorem Representable.exists_div {x : ℚ} (h : Representable x) :
    ∃ (m : ℤ) (s : ℕ), |m| ≤ maxMantissa ∧ s ≤ maxScale ∧ x = (m : ℚ) / 10 ^ s := by
  obtain ⟨d, rfl⟩ := h
  refine ⟨d.coefficient, d.scale, ?_, d.scale_le, value_eq_coefficient d⟩
  have bound : (d.mantissa : ℤ) ≤ maxMantissa := Int.ofNat_le.mpr d.mantissa_le
  simp only [coefficient]
  split <;> simpa using bound

theorem abs_value_le (d : Decimal) : |d.value| ≤ maxMantissa := by
  rw [abs_value]
  have mantissa : (d.mantissa : ℚ) ≤ maxMantissa := Nat.cast_le.mpr d.mantissa_le
  exact (div_le_self (by positivity) (one_le_pow₀ (by norm_num))).trans mantissa

end Decimal

end CostBasis
