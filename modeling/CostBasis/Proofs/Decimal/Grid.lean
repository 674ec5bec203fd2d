import CostBasis.Proofs.Decimal.Quotient

/-!
# Decimal grids

The multiples of one decimal place are closed under sums and differences, and products add their
places.  A multiple whose digits fit a mantissa is a decimal, so arithmetic on a grid is exact as
long as its results stay small.
-/

namespace CostBasis

namespace Decimal

def OnGrid (places : ℕ) (x : ℚ) : Prop := ∃ n : ℤ, x * 10 ^ places = n

namespace OnGrid

variable {places : ℕ} {x y : ℚ}

theorem zero : OnGrid places 0 := ⟨0, by simp⟩

theorem neg (hx : OnGrid places x) : OnGrid places (-x) := by
  obtain ⟨m, hm⟩ := hx
  exact ⟨-m, by push_cast; rw [← hm]; ring⟩

theorem add (hx : OnGrid places x) (hy : OnGrid places y) : OnGrid places (x + y) := by
  obtain ⟨m, hm⟩ := hx
  obtain ⟨n, hn⟩ := hy
  exact ⟨m + n, by push_cast; rw [← hm, ← hn]; ring⟩

theorem sub (hx : OnGrid places x) (hy : OnGrid places y) : OnGrid places (x - y) :=
  sub_eq_add_neg x y ▸ hx.add hy.neg

theorem mul {places' : ℕ} (hx : OnGrid places x) (hy : OnGrid places' y) :
    OnGrid (places + places') (x * y) := by
  obtain ⟨m, hm⟩ := hx
  obtain ⟨n, hn⟩ := hy
  exact ⟨m * n, by push_cast; rw [← hm, ← hn, pow_add]; ring⟩

theorem mul_unit {unit : ℚ} (hx : OnGrid places x) (is_unit : unit = 1 ∨ unit = -1) :
    OnGrid places (x * unit) := by
  cases is_unit with
  | inl one => rwa [one, mul_one]
  | inr minus =>
    rw [minus, mul_neg_one]
    exact hx.neg

theorem mono {places' : ℕ} (hx : OnGrid places x) (le : places ≤ places') : OnGrid places' x := by
  obtain ⟨m, hm⟩ := hx
  obtain ⟨extra, rfl⟩ := Nat.exists_eq_add_of_le le
  exact ⟨m * 10 ^ extra, by push_cast; rw [← hm, pow_add]; ring⟩

/-- A positive multiple is at least one unit of the place. -/
theorem one_le (hx : OnGrid places x) (positive : 0 < x) : 1 ≤ x * 10 ^ places := by
  obtain ⟨n, hn⟩ := hx
  have scaled : (0 : ℚ) < x * 10 ^ places := by positivity
  rw [hn] at scaled ⊢
  exact_mod_cast Int.cast_pos.mp scaled

/-- Below `2 ^ 96` the largest whole number is the largest mantissa. -/
theorem le_maxMantissa (hx : OnGrid places x) (small : |x| * 10 ^ places < 2 ^ 96) :
    |x| * 10 ^ places ≤ maxMantissa := by
  obtain ⟨n, hn⟩ := hx
  have digits : |x| * 10 ^ places = |n| := by
    rw [Int.cast_abs, ← hn, abs_mul, abs_of_pos (by positivity : (0 : ℚ) < 10 ^ places)]
  rw [digits] at small ⊢
  have below : |n| < 2 ^ 96 := by exact_mod_cast small
  have most : (maxMantissa : ℤ) = 2 ^ 96 - 1 := rfl
  have within : |n| ≤ maxMantissa := by omega
  exact_mod_cast within

/-- A multiple whose digits fit a mantissa is a decimal. -/
theorem representable (hx : OnGrid places x) (le : places ≤ maxScale)
    (small : |x| * 10 ^ places < 2 ^ 96) : Representable x := by
  have within := hx.le_maxMantissa small
  obtain ⟨n, hn⟩ := hx
  have power : (0 : ℚ) < 10 ^ places := by positivity
  have mantissa : |n| ≤ maxMantissa := by
    rw [← abs_of_pos power, ← abs_mul, hn] at within
    exact_mod_cast within
  have value : x = (n : ℚ) / 10 ^ places := by
    rw [← hn]
    field_simp
  rw [value]
  exact representable_of_div mantissa le

end OnGrid

theorem onGrid_of_scale {d : Decimal} {places : ℕ} (le : d.scale ≤ places) : OnGrid places d.value :=
  ⟨_, (coefficient_mul_pow10 d le).symm⟩

theorem onGrid_value (d : Decimal) : OnGrid maxScale d.value := onGrid_of_scale d.scale_le

/-- Every difference of decimals that is not zero is large enough not to round to zero. -/
theorem nearest?_pos {x y : ℚ} (grid : OnGrid maxScale x) (positive : 0 < x)
    (h : nearest? x = some y) : 0 < y := by
  have unit : Representable (1 / 10 ^ maxScale) :=
    representable_of_div (m := 1) (by decide) le_rfl
  have le : 1 / 10 ^ maxScale ≤ x := by
    rw [div_le_iff₀ (by positivity)]
    exact grid.one_le positive
  exact lt_of_lt_of_le (by positivity) (le_nearest? h le unit)

end Decimal

end CostBasis
