import CostBasis.Json.Reading
import CostBasis.Proofs.Decimal.Text

/-!
# Scalars in JSON

Texts, counts and decimals are read back from their values.  A count of at most 64 bits is in the range
of the doubles as well.
-/

namespace CostBasis

/-! ## Counts as doubles -/

namespace Double

theorem magnitude_le (n d : Nat) : magnitude n d ≤ Nat.log2 n := by
  simp only [magnitude]
  split <;> omega

theorem neg_one_le_magnitude_one (n : Nat) : -1 ≤ magnitude n 1 := by
  have one : Nat.log2 1 = 0 := by decide
  simp only [magnitude, one]
  split <;> omega

/-- No rounding reaches the end of the range from far below. -/
theorem isSome_nearest? {n d : Nat} (small : Nat.log2 n < 1000) : (nearest? n d).isSome = true := by
  have le := magnitude_le n d
  simp only [nearest?]
  split
  next => rfl
  next =>
    have bounded : max (-1074) (magnitude n d - 52) ≤ 970 := by omega
    split <;> rw [if_pos (by simp only []; omega)] <;> rfl

theorem log2_le_of_lt {n k : Nat} (small : n < pow2 (k + 1)) : Nat.log2 n ≤ k := by
  by_cases none : n = 0
  · rw [none, Nat.log2_zero]
    exact Nat.zero_le k
  · exact Nat.le_of_lt_succ ((Nat.log2_lt none).mpr small)

/-- The double nearest to a count of at most 64 bits, with bounds that leave much room. -/
theorem exists_nearest?_of_lt {n : Nat} (small : n < pow2 64) :
    ∃ x, nearest? n 1 = some x ∧ x.mantissa < pow2 117 ∧ x.exponent ≤ 12 := by
  by_cases none : n = 0
  · exact ⟨zero, if_pos none, by decide, by decide⟩
  have le := magnitude_le n 1
  have ge := neg_one_le_magnitude_one n
  have log := log2_le_of_lt (k := 63) small
  generalize same : max (-1074) (magnitude n 1 - 52) = exponent
  have short : (-exponent).toNat ≤ 53 := by omega
  have upper : exponent ≤ 11 := by omega
  have mantissa_lt : divHalfEven (n * pow2 (-exponent).toNat) (1 * pow2 exponent.toNat) < pow2 117 := by
    calc divHalfEven (n * pow2 (-exponent).toNat) (1 * pow2 exponent.toNat)
        ≤ n * pow2 (-exponent).toNat := divHalfEven_le (by rw [Nat.one_mul]; exact pow2_pos _)
      _ ≤ n * pow2 53 := Nat.mul_le_mul_left n (Nat.pow_le_pow_right (by decide) short)
      _ < pow2 64 * pow2 53 := Nat.mul_lt_mul_of_pos_right small (pow2_pos 53)
      _ = pow2 117 := rfl
  simp only [nearest?, if_neg none, same]
  split
  next =>
    exact ⟨_, if_pos (by simp only []; omega), Nat.pow_lt_pow_right (by decide) (by decide),
      by simp only []; omega⟩
  next => exact ⟨_, if_pos (by simp only []; omega), mantissa_lt, by simp only []; omega⟩

theorem tenPower?_zero : tenPower? 0 = some ⟨pow2 52, -52⟩ := by decide +kernel

theorem scaleByTen?_zero {x : Double} (nonzero : x.mantissa ≠ 0) :
    x.scaleByTen? 0 = x.mul? ⟨pow2 52, -52⟩ := by
  have reaches : ¬(maxTenPower : Int) < 0 := by decide
  have product : x.scaleByTen? 0 = (tenPower? (0 : Int).toNat).bind x.mul? := by
    rw [scaleByTen?, if_neg nonzero, if_neg reaches, if_pos (Int.le_refl 0)]
    rfl
  rw [product, Int.toNat_zero, tenPower?_zero, Option.bind_some]

/-- A count comes with no power of ten, so that its product with one stays small. -/
theorem isSome_scaleByTen?_zero {x : Double} (mantissa : x.mantissa < pow2 117) (exponent : x.exponent ≤ 12) :
    (x.scaleByTen? 0).isSome = true := by
  by_cases zero : x.mantissa = 0
  · rw [scaleByTen?, if_pos zero]
    rfl
  have shift : pow2 x.exponent.toNat ≤ pow2 12 := Nat.pow_le_pow_right (by decide) (by omega)
  have num_lt : x.num * num ⟨pow2 52, -52⟩ < pow2 200 := by
    calc x.mantissa * pow2 x.exponent.toNat * num ⟨pow2 52, -52⟩
        ≤ pow2 117 * pow2 12 * num ⟨pow2 52, -52⟩ :=
          Nat.mul_le_mul_right _ (Nat.mul_le_mul (Nat.le_of_lt mantissa) shift)
      _ < pow2 200 := by decide +kernel
  rw [scaleByTen?_zero zero, mul?]
  exact isSome_nearest? (Nat.lt_of_le_of_lt (log2_le_of_lt (k := 199) num_lt) (by decide))

end Double

namespace Number

/-- Digits that stay below the bound are all kept. -/
theorem growDigits_of_lt {digits : List Char} {n : Nat}
    (small : Nat.ofDigitChars 10 digits n < pow2 64) :
    growDigits n (digits.map fun c => c.toNat - '0'.toNat) = (Nat.ofDigitChars 10 digits n, 0) := by
  induction digits generalizing n with
  | nil => rfl
  | cons c digits ih =>
    rw [Nat.ofDigitChars_cons] at small ⊢
    have further := le_ofDigitChars digits (10 * n + (c.toNat - '0'.toNat))
    rw [List.map_cons, growDigits, if_pos (by omega), Nat.mul_comm n 10]
    exact ih small

theorem isSome_double?_of_lt {n : Nat} (small : n < pow2 64) :
    ({ whole := n } : Number).double?.isSome = true := by
  have grown : growDigits 0 ((Nat.toDigits 10 n).map fun c => c.toNat - '0'.toNat) = (n, 0) := by
    rw [growDigits_of_lt (by rwa [Nat.ofDigitChars_ten_toDigits]), Nat.ofDigitChars_ten_toDigits]
  have leading : ({ whole := n } : Number).leading = (n, 0) := by
    simp only [leading, grown, growDigits]
    rfl
  obtain ⟨x, nearest, mantissa, exponent⟩ := Double.exists_nearest?_of_lt small
  simp only [double?, leading, nearest, Option.bind_eq_bind, Option.bind_some]
  exact Double.isSome_scaleByTen?_zero mantissa exponent

end Number

/-! ## Values -/

namespace Json

@[simp] theorem text?_text (s : String) : (text s).text? = some s := rfl

theorem count?_count {n : Nat} (small : n < pow2 64) : (count n).count? = some n := by
  simp [count, count?, Number.count?, Number.isInteger, small]

end Json

@[simp] theorem Decimal.ofJson?_toJson (d : Decimal) : Decimal.ofJson? d.toJson = some d.plain := by
  simp only [toJson, Json.text, ofJson?, parse_text]
  rfl

end CostBasis
