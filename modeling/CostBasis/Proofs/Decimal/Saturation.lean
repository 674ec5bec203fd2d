import CostBasis.Proofs.Decimal.Arithmetic

/-!
# Saturation

A saturating operation gives the decimal nearest to its exact result, and where that is out of range the
bound on its side.  Its value is a function of the exact result, `saturated`, which is monotone and
symmetric in the sign.
-/

namespace CostBasis

namespace Decimal

/-- One of the two decimals furthest from zero that have no places. -/
def IsBound (d : Decimal) : Prop := d = greatest ∨ d = least

/-- `d` is the decimal nearest to `x`, or the bound on the side on which `x` is out of range. -/
inductive Saturates (x : ℚ) (d : Decimal) : Prop where
  | near (nearest : nearest? x = some d.value)
  | above (out : limit ≤ x) (bound : d = greatest)
  | below (out : x ≤ -limit) (bound : d = least)

namespace Saturates

variable {x : ℚ} {d : Decimal}

theorem value_eq (saturates : Saturates x d) {y : ℚ} (nearest : nearest? x = some y) : d.value = y := by
  have within := abs_lt.mp (abs_lt_limit_of_nearest? nearest)
  cases saturates with
  | near nearest' => exact Option.some_inj.mp (nearest'.symm.trans nearest)
  | above out => exact absurd within.2 (not_lt.mpr out)
  | below out => exact absurd within.1 (not_lt.mpr out)

theorem isBound (saturates : Saturates x d) (out : nearest? x = none) : d.IsBound := by
  cases saturates with
  | near nearest =>
    rw [out] at nearest
    cases nearest
  | above _ bound => exact .inl bound
  | below _ bound => exact .inr bound

end Saturates

/-! ## Signs -/

theorem negative_of_pos {d : Decimal} (positive : 0 < d.value) : d.negative = false := by
  rw [value_eq] at positive
  cases negative : d.negative with
  | false => rfl
  | true =>
    rw [negative, withSign, if_pos rfl, neg_pos] at positive
    exact absurd positive (not_lt.mpr (by positivity))

theorem negative_of_neg {d : Decimal} (negative : d.value < 0) : d.negative = true := by
  rw [value_eq] at negative
  cases positive : d.negative with
  | true => rfl
  | false =>
    rw [positive, withSign, if_neg (by decide)] at negative
    exact absurd negative (not_lt.mpr (by positivity))

theorem Rounds.nearest?_eq_none {x : ℚ} {result : Option Decimal} (rounds : Rounds result x)
    (out : result = none) : nearest? x = none := by
  rw [← rounds, out]
  rfl

/-- A result that is not found is out of range on one side. -/
theorem Rounds.out {x : ℚ} {result : Option Decimal} (rounds : Rounds result x) (out : result = none) :
    limit ≤ x ∨ x ≤ -limit := by
  have far := nearest?_eq_none_iff.mp (rounds.nearest?_eq_none out)
  rw [le_abs, le_neg] at far
  exact far

/-! ## Operations -/

/-- A sum is out of range only on the side of either operand. -/
theorem saturates_sum {a : Decimal} {result : Option Decimal} {y : ℚ} (small : |y| ≤ maxMantissa)
    (rounds : Rounds result (a.value + y)) :
    Saturates (a.value + y) (result.getD (if a.negative then least else greatest)) := by
  have bounds := abs_le.mp small
  have far := maxMantissa_lt_limit
  cases found : result with
  | some d => exact .near (rounds.nearest?_eq found)
  | none =>
    obtain above | below := rounds.out found
    · have positive : 0 < a.value := by linarith
      exact .above above (by rw [negative_of_pos positive]; rfl)
    · have negative : a.value < 0 := by linarith
      exact .below below (by rw [negative_of_neg negative]; rfl)

theorem saturates_add (a b : Decimal) : Saturates (a.value + b.value) (a.saturatingAdd b) :=
  saturates_sum (abs_value_le b) (add?_rounds a b)

theorem saturates_sub (a b : Decimal) : Saturates (a.value - b.value) (a.saturatingSub b) := by
  have rounds := sub?_rounds a b
  rw [sub_eq_add_neg] at rounds ⊢
  exact saturates_sum (by rw [abs_neg]; exact abs_value_le b) rounds

theorem saturates_mul (a b : Decimal) : Saturates (a.value * b.value) (a.saturatingMul b) := by
  have rounds := mul?_rounds a b
  have far := limit_pos
  simp only [saturatingMul]
  cases found : a.mul? b with
  | some d => exact .near (rounds.nearest?_eq found)
  | none =>
    -- The sign of a product that is not zero tells whether the signs of its factors agree.
    have signed := value_mul_value a b
    have magnitude : (0 : ℚ) ≤ ((a.mantissa * b.mantissa : ℕ) : ℚ) / 10 ^ (a.scale + b.scale) := by positivity
    obtain above | below := rounds.out found
    · refine .above above (if_pos ?_)
      by_contra differ
      rw [bne_iff_ne.mpr differ, withSign, if_pos rfl] at signed
      linarith
    · refine .below below (if_neg fun same => ?_)
      rw [same, bne_self_eq_false, withSign, if_neg (by decide)] at signed
      linarith

/-! ## Saturated numbers -/

/-- The value of the decimal nearest to `x`, or of the bound on the side on which `x` is out of range. -/
def saturated (x : ℚ) : ℚ := if limit ≤ x then maxMantissa else if x ≤ -limit then -maxMantissa else rounded x

theorem value_greatest : greatest.value = maxMantissa := by
  rw [value_eq]
  change withSign false ((maxMantissa : ℚ) / 10 ^ 0) = maxMantissa
  simp [withSign]

theorem value_least : least.value = -maxMantissa := by
  rw [value_eq]
  change withSign true ((maxMantissa : ℚ) / 10 ^ 0) = -maxMantissa
  simp [withSign]

theorem saturated_of_nearest? {x y : ℚ} (nearest : nearest? x = some y) : saturated x = y := by
  have within := abs_lt.mp (abs_lt_limit_of_nearest? nearest)
  rw [saturated, if_neg (not_le.mpr within.2), if_neg (not_le.mpr within.1), rounded_eq nearest]

theorem saturated_of_representable {x : ℚ} (h : Representable x) : saturated x = x :=
  saturated_of_nearest? (nearest?_of_representable h)

@[simp] theorem saturated_zero : saturated 0 = 0 := saturated_of_representable ⟨0, value_zero⟩

theorem Saturates.value_eq_saturated {x : ℚ} {d : Decimal} (saturates : Saturates x d) :
    d.value = saturated x := by
  have far := limit_pos
  cases saturates with
  | near nearest => exact (saturated_of_nearest? nearest).symm
  | above out bound => rw [saturated, if_pos out, bound, value_greatest]
  | below out bound => rw [saturated, if_neg (by linarith), if_pos out, bound, value_least]

theorem representable_saturated (x : ℚ) : Representable (saturated x) := by
  simp only [saturated]
  split
  next => exact ⟨greatest, value_greatest⟩
  next below =>
    split
    next => exact ⟨least, value_least⟩
    next above =>
      obtain ⟨y, nearest⟩ := exists_nearest? (abs_lt.mpr ⟨not_le.mp above, not_le.mp below⟩)
      rw [rounded_eq nearest]
      exact representable_of_nearest? nearest

theorem abs_saturated_le (x : ℚ) : |saturated x| ≤ maxMantissa := by
  obtain ⟨d, value_eq⟩ := representable_saturated x
  rw [← value_eq]
  exact abs_value_le d

theorem saturated_neg (x : ℚ) : saturated (-x) = -saturated x := by
  have far := limit_pos
  by_cases within : |x| < limit
  · obtain ⟨y, nearest⟩ := exists_nearest? within
    have reflected : nearest? (-x) = some (-y) := by rw [nearest?_neg, nearest, Option.map_some]
    rw [saturated_of_nearest? nearest, saturated_of_nearest? reflected]
  · rw [not_lt, le_abs] at within
    obtain above | below := within
    · rw [saturated, if_neg (by linarith), if_pos (by linarith), saturated, if_pos above]
    · rw [saturated, if_pos below, saturated, if_neg (by linarith), if_pos (by linarith), neg_neg]

theorem saturated_mono {x y : ℚ} (h : x ≤ y) : saturated x ≤ saturated y := by
  have x_bounds := abs_le.mp (abs_saturated_le x)
  have y_bounds := abs_le.mp (abs_saturated_le y)
  by_cases above : limit ≤ y
  · rw [saturated.eq_def y, if_pos above]
    exact x_bounds.2
  · by_cases below : x ≤ -limit
    · have far := limit_pos
      rw [saturated.eq_def x, if_neg (by linarith), if_pos below]
      exact y_bounds.1
    · -- Both numbers are in range, where rounding is monotone.
      rw [not_le] at above below
      obtain ⟨u, nearest⟩ := exists_nearest? (abs_lt.mpr ⟨below, h.trans_lt above⟩)
      obtain ⟨v, nearest'⟩ := exists_nearest? (abs_lt.mpr ⟨below.trans_le h, above⟩)
      rw [saturated_of_nearest? nearest, saturated_of_nearest? nearest']
      exact nearest?_mono h nearest nearest'

theorem saturated_nonneg {x : ℚ} (h : 0 ≤ x) : 0 ≤ saturated x := saturated_zero ▸ saturated_mono h

theorem saturated_nonpos {x : ℚ} (h : x ≤ 0) : saturated x ≤ 0 := saturated_zero ▸ saturated_mono h

theorem abs_saturated (x : ℚ) : |saturated x| = saturated |x| := by
  cases le_total 0 x with
  | inl nonneg => rw [abs_of_nonneg nonneg, abs_of_nonneg (saturated_nonneg nonneg)]
  | inr nonpos => rw [abs_of_nonpos nonpos, abs_of_nonpos (saturated_nonpos nonpos), saturated_neg]

theorem saturatingAdd_congr {a b a' b' : Decimal} (left : a ≈ a') (right : b ≈ b') :
    a.saturatingAdd b ≈ a'.saturatingAdd b' := by
  rw [equiv_iff] at left right ⊢
  rw [(saturates_add _ _).value_eq_saturated, (saturates_add _ _).value_eq_saturated, left, right]

end Decimal

end CostBasis
