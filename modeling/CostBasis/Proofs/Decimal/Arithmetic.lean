import CostBasis.Decimal.Arithmetic
import CostBasis.Proofs.Decimal.Nearest

/-!
# Sums, differences and products are correctly rounded

Each operation gives the decimal nearest to its exact result, whatever the scales and zero signs of
its operands.
-/

namespace CostBasis

namespace Decimal

/-- A result is the decimal nearest to `x`, and none where `x` has no nearest decimal. -/
def Rounds (result : Option Decimal) (x : ℚ) : Prop := result.map value = nearest? x

namespace Rounds

variable {result : Option Decimal} {x : ℚ}

theorem nearest?_eq {d : Decimal} (h : Rounds result x) (found : result = some d) :
    nearest? x = some d.value := by
  rw [← h, found, Option.map_some]

theorem exists_of_lt (h : Rounds result x) (close : |x| < limit) :
    ∃ d, result = some d ∧ nearest? x = some d.value := by
  obtain ⟨y, nearest⟩ := exists_nearest? close
  rw [← h, Option.map_eq_some_iff] at nearest
  obtain ⟨d, found, _⟩ := nearest
  exact ⟨d, found, h.nearest?_eq found⟩

theorem exact (h : Rounds result x) (representable : Representable x) :
    ∃ d, result = some d ∧ d.value = x := by
  have nearest := nearest?_of_representable representable
  rw [← h, Option.map_eq_some_iff] at nearest
  exact nearest

end Rounds

/-! ## Bringing a result into range -/

theorem value_mk (negative : Bool) (m s : ℕ) (mantissa : m ≤ maxMantissa) (scale : s ≤ maxScale) :
    (⟨negative, m, s, mantissa, scale⟩ : Decimal).value = withSign negative ((m : ℚ) / 10 ^ s) :=
  value_eq _

theorem ofParts?_rounds {negative : Bool} {m s : ℕ} {x : ℚ} (mantissa : m ≤ maxMantissa)
    (scale : s ≤ maxScale) (nearest : nearest? x = some (withSign negative ((m : ℚ) / 10 ^ s))) :
    Rounds (ofParts? negative m s) x := by
  simp only [Rounds, ofParts?]
  rw [dif_pos ⟨mantissa, scale⟩, Option.map_some, value_mk, nearest]

theorem nearest?_withSign (negative : Bool) (x : ℚ) :
    nearest? (withSign negative x) = (nearest? x).map (withSign negative) := by
  cases negative
  · change nearest? x = (nearest? x).map id
    rw [Option.map_id, id]
  · exact nearest?_neg x

theorem halfEven_eq_of_lt {x : ℚ} {n : ℤ} (h : |x - n| < 1 / 2) : halfEven x = n := by
  have close := abs_le.mp (abs_halfEven_sub_le x)
  have bounds := abs_lt.mp h
  have above : ((n - 1 : ℤ) : ℚ) < halfEven x := by push_cast; linarith
  have below : (halfEven x : ℚ) < ((n + 1 : ℤ) : ℚ) := by push_cast; linarith
  have := Int.cast_lt.mp above
  have := Int.cast_lt.mp below
  omega

/-- A mantissa that rounds up to `2 ^ 96` rounds the same way in two steps as in one. -/
theorem divHalfEven_carry {y : ℚ} {rounded : ℕ} (h : (rounded : ℤ) = halfEven y)
    (carry : rounded = maxMantissa + 1) : (divHalfEven rounded 10 : ℤ) = halfEven (y / 10) := by
  have close := abs_le.mp (abs_halfEven_sub_le y)
  have tenth : divHalfEven (maxMantissa + 1) 10 = 7922816251426433759354395034 := by decide
  have up : halfEven y = 79228162514264337593543950336 := by rw [← h, carry]; rfl
  rw [carry, tenth, halfEven_eq_of_lt]
  rw [up] at close
  rw [abs_lt]
  push_cast at close ⊢
  constructor <;> linarith

theorem excess?_eq_some {m s k : ℕ} (h : excess? m s = some k) :
    k ≤ s ∧ m / pow10 k ≤ maxMantissa ∧ s ≤ maxScale + k ∧
      (k = 0 ∨ s = maxScale + k ∨ maxMantissa < m / pow10 (k - 1)) := by
  unfold excess? at h
  rw [List.find?_range_eq_some] at h
  obtain ⟨enough, range, least⟩ := h
  simp only [Bool.and_eq_true, decide_eq_true_eq, List.mem_range] at enough range
  refine ⟨by omega, enough.1, enough.2, ?_⟩
  cases Nat.eq_zero_or_pos k with
  | inl zero =>
    exact .inl zero
  | inr positive =>
    have := least (k - 1) (by omega)
    simp only [Bool.not_eq_true', Bool.and_eq_false_iff, decide_eq_false_iff_not, not_le] at this
    cases this with
    | inl long =>
      exact .inr (.inr long)
    | inr fine =>
      exact .inr (.inl (by omega))

theorem excess?_eq_none {m s : ℕ} (h : excess? m s = none) : maxMantissa < m / pow10 s := by
  unfold excess? at h
  rw [List.find?_range_eq_none] at h
  have := h s (Nat.lt_succ_self s)
  simp only [Bool.not_eq_true', Bool.and_eq_false_iff, decide_eq_false_iff_not, not_le] at this
  cases this with
  | inl long =>
    exact long
  | inr fine =>
    omega

/-- Dropping `k` of `s` digits leaves the mantissa over the power that was dropped. -/
theorem div_pow_mul_pow {m s k : ℕ} (le : k ≤ s) :
    (m : ℚ) / 10 ^ s * 10 ^ (s - k) = (m : ℚ) / (pow10 k : ℕ) := by
  obtain ⟨rest, rfl⟩ := Nat.exists_eq_add_of_le le
  rw [Nat.add_sub_cancel_left, cast_pow10, pow_add]
  field_simp

theorem divHalfEven_pow10 {m s k : ℕ} (le : k ≤ s) :
    (divHalfEven m (pow10 k) : ℤ) = halfEven ((m : ℚ) / 10 ^ s * 10 ^ (s - k)) := by
  rw [divHalfEven_cast (pow10_pos k), div_pow_mul_pow le]

theorem not_fits_of_long {m s k : ℕ} (le : k ≤ s) (long : maxMantissa < m / pow10 k) :
    ¬ Fits (s - k) ((m : ℚ) / 10 ^ s) := by
  have down := floor_le_halfEven ((m : ℚ) / 10 ^ s * 10 ^ (s - k))
  rw [div_pow_mul_pow le, floor_div_cast] at down
  simp only [Fits]
  rw [div_pow_mul_pow le, not_le]
  have := le_abs_self (halfEven ((m : ℚ) / (pow10 k : ℕ)))
  omega

theorem divHalfEven_le_succ (n d : ℕ) : divHalfEven n d ≤ n / d + 1 := by
  simp only [divHalfEven]
  split <;> omega

theorem fits_natCast_iff {places n : ℕ} {x : ℚ} (h : (n : ℤ) = halfEven (x * 10 ^ places)) :
    Fits places x ↔ n ≤ maxMantissa := by
  simp only [Fits]
  rw [← h, Nat.abs_cast, Nat.cast_le]

theorem roundAt_natCast {places n : ℕ} {x : ℚ} (h : (n : ℤ) = halfEven (x * 10 ^ places)) :
    roundAt places x = (n : ℚ) / 10 ^ places := by
  simp only [roundAt]
  rw [← h]
  rfl

/-- A digit fewer than the scale at which rounding carries into the next power is the finest one
with room. -/
theorem nearest?_of_carry {places n : ℕ} {x : ℚ} (scale : places < maxScale)
    (h : (n : ℤ) = halfEven (x * 10 ^ (places + 1))) (carry : n = maxMantissa + 1) :
    divHalfEven n 10 ≤ maxMantissa ∧
      nearest? x = some ((divHalfEven n 10 : ℚ) / 10 ^ places) := by
  have tenth : (divHalfEven n 10 : ℤ) = halfEven (x * 10 ^ places) := by
    rw [divHalfEven_carry h carry, pow_succ]
    congr 1
    ring
  have small : divHalfEven n 10 ≤ maxMantissa := by
    rw [carry]
    decide
  refine ⟨small, nearest?_eq_some_iff.mpr ⟨places, scale.le, ?_, .inr ?_, ?_⟩⟩
  · exact (fits_natCast_iff tenth).mpr small
  · rw [fits_natCast_iff h]
    omega
  · exact (roundAt_natCast tenth).symm

/-- A mantissa cut by no more digits than needed is at the finest scale with room, unless it carries. -/
theorem nearest?_of_excess {m s k : ℕ} (found : excess? m s = some k)
    (small : divHalfEven m (pow10 k) ≤ maxMantissa) :
    nearest? ((m : ℚ) / 10 ^ s) = some ((divHalfEven m (pow10 k) : ℚ) / 10 ^ (s - k)) := by
  obtain ⟨le, room, scale, least⟩ := excess?_eq_some found
  have rounded := divHalfEven_pow10 (m := m) le
  have fits := (fits_natCast_iff rounded).mpr small
  rw [← roundAt_natCast rounded]
  rcases least with rfl | full | long
  · -- Nothing is cut: the number is a decimal itself.
    have whole : (m : ℚ) / 10 ^ s * 10 ^ s = (m : ℤ) := by
      push_cast
      field_simp
    have unrounded : divHalfEven m (pow10 0) = m := by
      rw [Nat.sub_zero, whole, halfEven_intCast] at rounded
      exact_mod_cast rounded
    rw [unrounded] at small
    rw [Nat.sub_zero, roundAt_of_whole whole]
    exact nearest?_of_representable
      (representable_of_div (m := m) (by rwa [Nat.abs_cast, Nat.cast_le]) (by omega))
  · exact nearest?_eq_some_iff.mpr ⟨s - k, by omega, fits, .inl (by omega), rfl⟩
  · -- With one digit less cut the mantissa would be too long.
    have cut : k ≠ 0 := by
      rintro rfl
      exact absurd (room.trans_lt long) (lt_irrefl _)
    have next : s - (k - 1) = s - k + 1 := by omega
    have finer : ¬ Fits (s - k + 1) ((m : ℚ) / 10 ^ s) := next ▸ not_fits_of_long (by omega) long
    exact nearest?_eq_some_iff.mpr ⟨s - k, by omega, fits, .inr finer, rfl⟩

theorem fit?_rounds (negative : Bool) (m s : ℕ) :
    Rounds (fit? negative m s) (withSign negative ((m : ℚ) / 10 ^ s)) := by
  simp only [fit?]
  cases found : excess? m s with
  | none =>
    have far : ¬ Fits (s - s) ((m : ℚ) / 10 ^ s) := not_fits_of_long le_rfl (excess?_eq_none found)
    rw [Nat.sub_self] at far
    change none = _
    rw [nearest?_withSign, nearest?_of_not_fits far, Option.map_none]
  | some k =>
    obtain ⟨le, room, scale, _⟩ := excess?_eq_some found
    have rounded := divHalfEven_pow10 (m := m) le
    simp only [Option.bind_eq_bind, Option.bind_some]
    split
    next small =>
      refine ofParts?_rounds small (by omega) ?_
      rw [nearest?_withSign, nearest?_of_excess found small, Option.map_some]
    next long =>
      -- Rounding carries into a digit more, which leaves no scale or the next coarser one.
      have carry : divHalfEven m (pow10 k) = maxMantissa + 1 := by
        have up := divHalfEven_le_succ m (pow10 k)
        omega
      split
      next whole =>
        rw [whole] at rounded
        have far : ¬ Fits 0 ((m : ℚ) / 10 ^ s) := by rwa [fits_natCast_iff rounded]
        change none = _
        rw [nearest?_withSign, nearest?_of_not_fits far, Option.map_none]
      next =>
        have scale' : s - k - 1 < maxScale := by omega
        have next : s - k - 1 + 1 = s - k := by omega
        obtain ⟨small, nearest⟩ := nearest?_of_carry scale' (by rw [next]; exact rounded) carry
        refine ofParts?_rounds small scale'.le ?_
        rw [nearest?_withSign, nearest, Option.map_some]

/-! ## Sums and differences -/

theorem withSign_natAbs (n : ℤ) : withSign (decide (n < 0)) (n.natAbs : ℚ) = n := by
  cases lt_or_ge n 0 with
  | inl negative =>
    have : ((n.natAbs : ℤ) : ℚ) = ((-n : ℤ) : ℚ) := by congr 1; omega
    rw [decide_eq_true negative, withSign, if_pos rfl, ← Int.cast_natCast, this]
    push_cast
    ring
  | inr positive =>
    have : ((n.natAbs : ℤ) : ℚ) = (n : ℚ) := by congr 1; omega
    rw [decide_eq_false (not_lt.mpr positive), withSign, if_neg (by decide), ← Int.cast_natCast, this]

/-- The coefficient of a decimal brought to a finer scale. -/
theorem coefficient_mul_pow10 (d : Decimal) {s : ℕ} (le : d.scale ≤ s) :
    ((d.coefficient * pow10 (s - d.scale) : ℤ) : ℚ) = d.value * 10 ^ s := by
  obtain ⟨extra, rfl⟩ := Nat.exists_eq_add_of_le le
  rw [Nat.add_sub_cancel_left, value_eq_coefficient]
  push_cast
  rw [cast_pow10, pow_add]
  field_simp

theorem sumOf?_rounds (a b : Decimal) : Rounds (sumOf? a b) (a.value + b.value) := by
  simp only [sumOf?]
  set s := max a.scale b.scale
  set total := a.coefficient * pow10 (s - a.scale) + b.coefficient * pow10 (s - b.scale) with total_eq
  have scaled : (total : ℚ) = (a.value + b.value) * 10 ^ s := by
    rw [total_eq, Int.cast_add, coefficient_mul_pow10 a (le_max_left _ _),
      coefficient_mul_pow10 b (le_max_right _ _), add_mul]
  have sum : a.value + b.value = withSign (decide (total < 0)) ((total.natAbs : ℚ) / 10 ^ s) := by
    rw [← withSign_div, withSign_natAbs, scaled]
    field_simp
  rw [sum]
  exact fit?_rounds _ _ _

theorem rounds_of_value {d : Decimal} {x : ℚ} (h : d.value = x) : Rounds (some d) x := by
  simp only [Rounds]
  rw [Option.map_some, nearest?_of_representable ⟨d, h⟩, h]

theorem add?_rounds (a b : Decimal) : Rounds (a.add? b) (a.value + b.value) := by
  simp only [add?]
  split
  next zero => exact rounds_of_value (by rw [(isZero_iff a).mp zero, zero_add])
  next =>
    split
    next zero => exact rounds_of_value (by rw [(isZero_iff b).mp zero, add_zero])
    next => exact sumOf?_rounds a b

theorem sub?_rounds (a b : Decimal) : Rounds (a.sub? b) (a.value - b.value) := by
  simp only [sub?]
  split
  next zero =>
    have b_zero := (isZero_iff b).mp zero
    refine rounds_of_value ?_
    split
    next zero' => rw [(isZero_iff a).mp zero', b_zero, sub_zero]
    next => rw [b_zero, sub_zero]
  next =>
    split
    next zero => exact rounds_of_value (by rw [value_neg, (isZero_iff a).mp zero, zero_sub])
    next =>
      rw [sub_eq_add_neg, ← value_neg]
      exact sumOf?_rounds a (-b)

/-! ## Products -/

theorem value_mul_value (a b : Decimal) :
    a.value * b.value = withSign (a.negative != b.negative)
      (((a.mantissa * b.mantissa : ℕ) : ℚ) / 10 ^ (a.scale + b.scale)) := by
  rw [value_eq a, value_eq b, withSign_mul_withSign, pow_add, div_mul_div_comm, Nat.cast_mul]

theorem Rounds.map_of_value {result : Option Decimal} {x : ℚ} {f : Decimal → Decimal}
    (h : Rounds result x) (same : ∀ d, (f d).value = d.value) : Rounds (result.map f) x := by
  simp only [Rounds] at h ⊢
  rw [← h, Option.map_map]
  congr 1
  funext d
  exact same d

/-- Two mantissas of one word over more than 47 places are less than half a unit of the last one. -/
theorem nearest?_of_short {a b : Decimal} (hShort : a.IsShort ∧ b.IsShort)
    (scale : 47 < a.scale + b.scale) : nearest? (a.value * b.value) = some 0 := by
  have product : ((a.mantissa * b.mantissa : ℕ) : ℚ) < 5 * 10 ^ 19 := by
    have words : a.mantissa * b.mantissa < pow2 32 * pow2 32 :=
      Nat.mul_lt_mul'' hShort.1 hShort.2
    have power : pow2 32 * pow2 32 < 5 * 10 ^ 19 := by decide
    exact_mod_cast words.trans power
  have powers : (10 : ℚ) ^ 48 ≤ 10 ^ (a.scale + b.scale) := pow_le_pow_right₀ (by norm_num) scale
  have small : |a.value * b.value| < 1 / 10 ^ 28 * (1 / 2) := by
    rw [value_mul_value, abs_withSign, abs_of_nonneg (by positivity), div_lt_iff₀ (by positivity)]
    calc ((a.mantissa * b.mantissa : ℕ) : ℚ) < 5 * 10 ^ 19 := product
      _ = 1 / 10 ^ 28 * (1 / 2) * 10 ^ 48 := by norm_num
      _ ≤ 1 / 10 ^ 28 * (1 / 2) * 10 ^ (a.scale + b.scale) :=
        mul_le_mul_of_nonneg_left powers (by positivity)
  have vanishes : halfEven (a.value * b.value * 10 ^ maxScale) = 0 := by
    refine halfEven_eq_of_lt ?_
    rw [Int.cast_zero, sub_zero, abs_mul, abs_of_pos (by positivity : (0 : ℚ) < 10 ^ maxScale)]
    have : |a.value * b.value| * 10 ^ maxScale < 1 / 10 ^ 28 * (1 / 2) * 10 ^ maxScale :=
      mul_lt_mul_of_pos_right small (by positivity)
    calc |a.value * b.value| * 10 ^ maxScale < 1 / 10 ^ 28 * (1 / 2) * 10 ^ maxScale := this
      _ = 1 / 2 := by norm_num [maxScale]
  refine nearest?_eq_some_iff.mpr ⟨maxScale, le_rfl, ?_, .inl rfl, ?_⟩
  · simp only [Fits]
    rw [vanishes]
    decide
  · simp only [roundAt]
    rw [vanishes]
    simp

theorem mul?_rounds (a b : Decimal) : Rounds (a.mul? b) (a.value * b.value) := by
  unfold mul?
  simp only []
  split
  next zero =>
    refine rounds_of_value ?_
    cases zero with
    | inl zero =>
      rw [(isZero_iff a).mp zero, zero_mul, value_zero]
    | inr zero =>
      rw [(isZero_iff b).mp zero, mul_zero, value_zero]
  next =>
    split
    next hShort =>
      split
      next scale =>
        simp only [Rounds]
        rw [nearest?_of_short hShort scale, Option.map_some, value_zero]
      next =>
        rw [value_mul_value]
        refine (fit?_rounds _ _ _).map_of_value fun d => ?_
        split
        next zero => rw [value_abs, (isZero_iff d).mp zero, abs_zero]
        next => rfl
    next =>
      rw [value_mul_value]
      exact fit?_rounds _ _ _

/-! ## Fewer places -/

theorem value_roundTo (d : Decimal) (places : ℕ) :
    (d.roundTo places).value = roundAt places d.value := by
  simp only [roundTo]
  split
  next le =>
    have whole := coefficient_mul_pow10 d le
    exact (roundAt_of_whole whole.symm).symm
  next more =>
    have le : d.scale - places ≤ d.scale := Nat.sub_le _ _
    have rounded := divHalfEven_pow10 (m := d.mantissa) le
    rw [Nat.sub_sub_self (by omega)] at rounded
    rw [value_mk, value_eq, ← roundAt_natCast rounded]
    cases d.negative
    · rfl
    · simp [withSign, roundAt_neg]

theorem scale_roundTo_le (d : Decimal) (places : ℕ) : (d.roundTo places).scale ≤ places := by
  simp only [roundTo]
  split
  next le => exact le
  next => exact le_rfl

end Decimal

end CostBasis
