import CostBasis.Proofs.Decimal.Value

/-!
# Rounding to the nearest integer

`halfEven` is the rounding of a rational to the nearest integer, a half to the even neighbour.  It is
monotone, symmetric in sign and at most a half away, and `divHalfEven` computes it for quotients.
-/

namespace CostBasis

/-- The integer nearest to `x`, a half to the even neighbour. -/
def halfEven (x : ℚ) : ℤ :=
  if 1 / 2 < Int.fract x ∨ (Int.fract x = 1 / 2 ∧ ⌊x⌋ % 2 = 1) then ⌊x⌋ + 1 else ⌊x⌋

theorem floor_le_halfEven (x : ℚ) : ⌊x⌋ ≤ halfEven x := by
  simp only [halfEven]
  split <;> omega

theorem halfEven_le_floor_add_one (x : ℚ) : halfEven x ≤ ⌊x⌋ + 1 := by
  simp only [halfEven]
  split <;> omega

@[simp] theorem halfEven_intCast (n : ℤ) : halfEven (n : ℚ) = n := by
  simp [halfEven]

theorem abs_halfEven_sub_le (x : ℚ) : |(halfEven x : ℚ) - x| ≤ 1 / 2 := by
  have split_x := Int.floor_add_fract x
  have fract_nonneg := Int.fract_nonneg x
  have fract_lt := Int.fract_lt_one x
  rw [abs_le]
  simp only [halfEven]
  split
  next up =>
    have half : 1 / 2 ≤ Int.fract x := by
      rcases up with above | ⟨tie, _⟩
      · exact above.le
      · exact tie.ge
    push_cast
    constructor <;> linarith
  next down =>
    have half : Int.fract x ≤ 1 / 2 := not_lt.mp fun above => down (.inl above)
    constructor <;> linarith

theorem halfEven_mono {x y : ℚ} (h : x ≤ y) : halfEven x ≤ halfEven y := by
  cases (Int.floor_mono h).lt_or_eq with
  | inl below =>
    have up := halfEven_le_floor_add_one x
    have down := floor_le_halfEven y
    omega
  | inr same =>
    -- On one integer's interval the condition for rounding up only becomes true once.
    have fracts : Int.fract x ≤ Int.fract y := by
      simp only [Int.fract]
      rw [same]
      linarith
    simp only [halfEven]
    rw [same]
    split
    next up =>
      rw [if_pos]
      rcases up with above | ⟨tie, odd⟩
      · exact .inl (above.trans_le fracts)
      · rcases fracts.lt_or_eq with less | equal
        · exact .inl (tie ▸ less)
        · exact .inr ⟨equal ▸ tie, odd⟩
    next down => split <;> omega

theorem halfEven_neg (x : ℚ) : halfEven (-x) = -halfEven x := by
  by_cases whole : Int.fract x = 0
  · have integral : (⌊x⌋ : ℚ) = x := by
      have := Int.floor_add_fract x
      linarith
    rw [← integral, halfEven_intCast, ← Int.cast_neg, halfEven_intCast]
  · have fract_neg : Int.fract (-x) = 1 - Int.fract x := Int.fract_neg whole
    have floor_neg : ⌊-x⌋ = -⌊x⌋ - 1 := by
      have split_x := Int.floor_add_fract x
      have split_neg := Int.floor_add_fract (-x)
      have : (⌊-x⌋ : ℚ) = ((-⌊x⌋ - 1 : ℤ) : ℚ) := by push_cast; linarith
      exact_mod_cast this
    simp only [halfEven]
    rw [fract_neg, floor_neg]
    -- The two fractional parts add up to one, and the two floors differ in parity.
    rcases lt_trichotomy (Int.fract x) (1 / 2) with below | tie | above
    · rw [if_pos (.inl (by linarith)), if_neg]
      · ring
      · rintro (up | ⟨tie, _⟩) <;> linarith
    · have complement : 1 - Int.fract x = 1 / 2 := by linarith
      simp only [complement]
      simp only [tie, lt_irrefl, false_or, true_and]
      split <;> split <;> omega
    · rw [if_neg, if_pos (.inl above)]
      · ring
      · rintro (up | ⟨tie, _⟩) <;> linarith

theorem halfEven_le_of_lt {x : ℚ} {n : ℤ} (h : x < n + 1 / 2) : halfEven x ≤ n := by
  have close := abs_le.mp (abs_halfEven_sub_le x)
  have : (halfEven x : ℚ) < ((n + 1 : ℤ) : ℚ) := by push_cast; linarith
  exact Int.lt_add_one_iff.mp (by exact_mod_cast this)

theorem abs_halfEven (x : ℚ) : |halfEven x| = halfEven |x| := by
  have nonneg : ∀ y : ℚ, 0 ≤ y → 0 ≤ halfEven y := fun y hy =>
    (halfEven_intCast 0).ge.trans (halfEven_mono (by exact_mod_cast hy))
  cases le_total 0 x with
  | inl positive =>
    rw [abs_of_nonneg positive, abs_of_nonneg (nonneg x positive)]
  | inr negative =>
    rw [abs_of_nonpos negative, halfEven_neg, abs_of_nonpos]
    have := nonneg (-x) (by linarith)
    rw [halfEven_neg] at this
    omega

/-! ## Quotients -/

theorem floor_div_cast (n d : ℕ) : ⌊(n : ℚ) / d⌋ = ((n / d : ℕ) : ℤ) := by
  exact_mod_cast Rat.floor_natCast_div_natCast n d

theorem fract_div_cast {n d : ℕ} (hd : 0 < d) :
    Int.fract ((n : ℚ) / d) = ((n % d : ℕ) : ℚ) / d := by
  have divisor : (d : ℚ) ≠ 0 := Nat.cast_ne_zero.mpr hd.ne'
  have division : (n : ℚ) = d * (n / d : ℕ) + (n % d : ℕ) := by exact_mod_cast (Nat.div_add_mod n d).symm
  simp only [Int.fract]
  rw [floor_div_cast, Int.cast_natCast]
  field_simp
  linarith

theorem divHalfEven_cast {n d : ℕ} (hd : 0 < d) :
    (divHalfEven n d : ℤ) = halfEven ((n : ℚ) / d) := by
  have divisor : (0 : ℚ) < d := Nat.cast_pos.mpr hd
  have above : 1 / 2 < ((n % d : ℕ) : ℚ) / d ↔ d < 2 * (n % d) := by
    rw [lt_div_iff₀ divisor, ← Nat.cast_lt (α := ℚ)]
    push_cast
    constructor <;> intro h <;> linarith
  have tie : ((n % d : ℕ) : ℚ) / d = 1 / 2 ↔ 2 * (n % d) = d := by
    rw [div_eq_iff divisor.ne', ← Nat.cast_inj (R := ℚ)]
    push_cast
    constructor <;> intro h <;> linarith
  simp only [halfEven, divHalfEven]
  have parity : ((n / d : ℕ) : ℤ) % 2 = 1 ↔ n / d % 2 = 1 := by omega
  simp only [fract_div_cast hd, floor_div_cast, above, tie, parity]
  split <;> push_cast <;> rfl

end CostBasis
