import CostBasis.Decimal.Quotient
import CostBasis.Proofs.Decimal.Arithmetic

/-!
# Quotients are correctly rounded

Long division keeps an `Expansion` of the exact quotient: the digits so far and what is left over.
Where it stops, the digits are the exact quotient, or they are rounded at the finest scale that has
room; where it gives up, the quotient is out of range.
-/

namespace CostBasis

namespace Decimal

/-- The digits of `x` down to a scale, with the rest still to be divided. -/
structure Expansion (x : ℚ) (divisor mantissa rest : ℕ) (scale : ℤ) : Prop where
  eq : x * 10 ^ scale = mantissa + (rest : ℚ) / divisor
  rest_lt : rest < divisor

def Quotient.value (q : Quotient) : ℚ := (q.mantissa : ℚ) / 10 ^ q.scale

def Quotient.InRange (q : Quotient) : Prop := q.mantissa ≤ maxMantissa ∧ q.scale ≤ maxScale

/-- A quotient in range is the number nearest to `x`, and none where `x` has no nearest decimal. -/
def Divides (result : Option Quotient) (x : ℚ) : Prop :=
  result.map Quotient.value = nearest? x ∧ ∀ q ∈ result, q.InRange

/-! ## Expansions -/

namespace Expansion

variable {x : ℚ} {divisor mantissa rest : ℕ} {scale : ℤ}

theorem divisor_pos (e : Expansion x divisor mantissa rest scale) : 0 < divisor :=
  Nat.zero_lt_of_lt e.rest_lt

theorem div_divisor (e : Expansion x divisor mantissa rest scale) :
    (mantissa * divisor + rest) / divisor = mantissa := by
  rw [Nat.add_comm, Nat.add_mul_div_right _ _ e.divisor_pos, Nat.div_eq_of_lt e.rest_lt, Nat.zero_add]

theorem rest_div_le (e : Expansion x divisor mantissa rest scale) (block : ℕ) :
    rest * pow10 block / divisor ≤ pow10 block := by
  refine Nat.div_le_of_le_mul ?_
  exact Nat.mul_le_mul_right (pow10 block) e.rest_lt.le

/-- A block of further digits. -/
theorem shift (e : Expansion x divisor mantissa rest scale) (block : ℕ) :
    Expansion x divisor (mantissa * pow10 block + rest * pow10 block / divisor)
      (rest * pow10 block % divisor) (scale + block) where
  eq := by
    have positive : (divisor : ℚ) ≠ 0 := Nat.cast_ne_zero.mpr e.divisor_pos.ne'
    have division : (rest : ℚ) * 10 ^ block
        = divisor * (rest * pow10 block / divisor : ℕ) + (rest * pow10 block % divisor : ℕ) := by
      rw [← cast_pow10]
      exact_mod_cast (Nat.div_add_mod (rest * pow10 block) divisor).symm
    have power : (10 : ℚ) ^ (scale + block) = 10 ^ scale * 10 ^ block := by
      rw [zpow_add₀ (by norm_num), zpow_natCast]
    rw [power, ← mul_assoc, e.eq]
    push_cast
    rw [cast_pow10]
    field_simp
    linarith
  rest_lt := Nat.mod_lt _ e.divisor_pos

theorem mantissa_le (e : Expansion x divisor mantissa rest scale) : (mantissa : ℚ) ≤ x * 10 ^ scale := by
  have : (0 : ℚ) ≤ (rest : ℚ) / divisor := by positivity
  rw [e.eq]
  linarith

theorem nonneg (e : Expansion x divisor mantissa rest scale) : 0 ≤ x := by
  have power : (0 : ℚ) < 10 ^ scale := zpow_pos (by norm_num) _
  have scaled : 0 ≤ x * 10 ^ scale := (Nat.cast_nonneg mantissa).trans e.mantissa_le
  exact nonneg_of_mul_nonneg_left scaled power

/-- Digits of a number at a scale that is not positive are too long for any other scale too. -/
theorem out_of_range (e : Expansion x divisor mantissa rest scale) (whole : scale ≤ 0)
    (long : maxMantissa < mantissa) : nearest? x = none := by
  have power : (10 : ℚ) ^ scale ≤ 1 := zpow_le_one_of_nonpos₀ (by norm_num) whole
  have shrunk : x * 10 ^ scale ≤ x := mul_le_of_le_one_right e.nonneg power
  have large : ((maxMantissa + 1 : ℕ) : ℚ) ≤ mantissa := Nat.cast_le.mpr long
  have := e.mantissa_le
  rw [nearest?_eq_none_iff, abs_of_nonneg e.nonneg]
  simp only [limit]
  push_cast at large
  linarith

theorem not_fits {places : ℕ} (e : Expansion x divisor mantissa rest places)
    (long : maxMantissa < mantissa) : ¬ Fits places x := by
  have large : ((maxMantissa + 1 : ℕ) : ℚ) ≤ mantissa := Nat.cast_le.mpr long
  have digits := e.mantissa_le
  rw [zpow_natCast] at digits
  rw [fits_iff, not_lt, abs_of_nonneg e.nonneg]
  simp only [limit]
  push_cast at large
  linarith

/-- Without a rest the digits are the number itself. -/
theorem nearest?_of_whole {places : ℕ} (e : Expansion x divisor mantissa 0 places)
    (room : mantissa ≤ maxMantissa) (le : places ≤ maxScale) :
    nearest? x = some ((mantissa : ℚ) / 10 ^ places) := by
  have value : x = ((mantissa : ℤ) : ℚ) / 10 ^ places := by
    have digits := e.eq
    rw [zpow_natCast, Nat.cast_zero, zero_div, add_zero] at digits
    push_cast
    rw [← digits]
    field_simp
  rw [value]
  exact nearest?_of_representable
    (representable_of_div (by rwa [Nat.abs_cast, Nat.cast_le]) le)

/-- The digits and the rest together, rounded to the last digit. -/
theorem divHalfEven_eq {places : ℕ} (e : Expansion x divisor mantissa rest places) :
    (divHalfEven (mantissa * divisor + rest) divisor : ℤ) = halfEven (x * 10 ^ places) := by
  have positive : (divisor : ℚ) ≠ 0 := Nat.cast_ne_zero.mpr e.divisor_pos.ne'
  have digits := e.eq
  rw [zpow_natCast] at digits
  rw [divHalfEven_cast e.divisor_pos, digits]
  congr 1
  push_cast
  field_simp

/-- The digits but the last and the rest together, rounded to the digit before the last. -/
theorem divHalfEven_tenth_eq {places : ℕ} (e : Expansion x divisor mantissa rest (places + 1 : ℕ)) :
    (divHalfEven (mantissa * divisor + rest) (10 * divisor) : ℤ) = halfEven (x * 10 ^ places) := by
  have positive : (divisor : ℚ) ≠ 0 := Nat.cast_ne_zero.mpr e.divisor_pos.ne'
  have digits := e.eq
  rw [zpow_natCast, pow_succ, ← mul_assoc] at digits
  have tenth : x * 10 ^ places = (mantissa + (rest : ℚ) / divisor) / 10 := by
    rw [← digits]
    ring
  rw [divHalfEven_cast (Nat.mul_pos (by decide) e.divisor_pos), tenth]
  congr 1
  push_cast
  field_simp

end Expansion

/-! ## Room for digits -/

theorem mul_room_le {mantissa : ℕ} (le : mantissa ≤ maxMantissa) (most : ℕ) :
    mantissa * pow10 (room mantissa most) ≤ maxMantissa := by
  induction most with
  | zero => simpa [room] using le
  | succ most ih =>
    simp only [room]
    split
    next fits => exact fits
    next => exact ih

/-- One digit more than there is room for is too long. -/
theorem room_full {mantissa most : ℕ} (short : room mantissa most < most) :
    maxMantissa < mantissa * pow10 (room mantissa most + 1) := by
  induction most with
  | zero => omega
  | succ most ih =>
    simp only [room] at short ⊢
    split at short
    next => omega
    next long =>
      rw [if_neg long]
      by_cases last : room mantissa most = most
      · rw [last]
        omega
      · exact ih (lt_of_le_of_ne (room_le mantissa most) last)

/-! ## The three ways to stop -/

section

variable {x : ℚ} {divisor mantissa rest : ℕ}

theorem divides_none (far : nearest? x = none) : Divides none x :=
  ⟨by rw [far, Option.map_none], by simp⟩

theorem divides_some {m places : ℕ} {trimmed : Bool} (room : m ≤ maxMantissa)
    (le : places ≤ maxScale) (nearest : nearest? x = some ((m : ℚ) / 10 ^ places)) :
    Divides (some ⟨m, places, trimmed⟩) x := by
  refine ⟨by rw [nearest]; rfl, fun q found => ?_⟩
  cases found
  exact ⟨room, le⟩

theorem divides_rounded {n places : ℕ} {trimmed : Bool} (room : n ≤ maxMantissa)
    (le : places ≤ maxScale) (rounded : (n : ℤ) = halfEven (x * 10 ^ places))
    (finest : places = maxScale ∨ ¬ Fits (places + 1) x) :
    Divides (some ⟨n, places, trimmed⟩) x := by
  refine divides_some room le (nearest?_eq_some_iff.mpr ⟨places, le, ?_, finest, ?_⟩)
  · exact (fits_natCast_iff rounded).mpr room
  · exact (roundAt_natCast rounded).symm

/-- Rounding where no further digit fits. -/
theorem settle?_divides {places : ℕ} (e : Expansion x divisor mantissa rest places)
    (room : mantissa ≤ maxMantissa) (le : places ≤ maxScale)
    (full : places = maxScale ∨ maxMantissa < mantissa * pow10 1) :
    Divides (settle? divisor mantissa rest places) x := by
  have rounded := e.divHalfEven_eq
  have finest : places = maxScale ∨ ¬ Fits (places + 1) x := by
    cases full with
    | inl last =>
      exact .inl last
    | inr long =>
      refine .inr ((e.shift 1).not_fits ?_)
      exact long.trans_le (Nat.le_add_right _ _)
  unfold settle?
  simp only []
  split
  next small =>
    rw [Int.toNat_natCast]
    exact divides_rounded small le rounded finest
  next carry =>
    have carried : divHalfEven (mantissa * divisor + rest) divisor = maxMantissa + 1 := by
      have up := divHalfEven_le_succ (mantissa * divisor + rest) divisor
      rw [e.div_divisor] at up
      omega
    split
    next one_le =>
      obtain ⟨fewer, rfl⟩ : ∃ fewer, places = fewer + 1 := ⟨places - 1, by omega⟩
      obtain ⟨small, nearest⟩ := nearest?_of_carry (by omega) rounded carried
      have last : ((fewer + 1 : ℕ) - 1 : ℤ).toNat = fewer := by omega
      rw [last]
      exact divides_some small (by omega) nearest
    next whole =>
      obtain rfl : places = 0 := by omega
      have far : ¬ Fits 0 x := by rwa [fits_natCast_iff rounded]
      exact divides_none (nearest?_of_not_fits far)

/-- Rounding where a block of digits was one too long. -/
theorem shorten_divides {places : ℕ} {trimmed : Bool}
    (e : Expansion x divisor mantissa rest (places + 1 : ℕ)) (le : places + 1 ≤ maxScale)
    (long : maxMantissa < mantissa) (nearly : mantissa ≤ maxMantissa + pow10 9) :
    Divides (some ⟨divHalfEven (mantissa * divisor + rest) (10 * divisor), places, trimmed⟩) x := by
  have small : divHalfEven (mantissa * divisor + rest) (10 * divisor) ≤ maxMantissa := by
    have up := divHalfEven_le_succ (mantissa * divisor + rest) (10 * divisor)
    have tenth : (mantissa * divisor + rest) / (10 * divisor) = mantissa / 10 := by
      rw [Nat.mul_comm 10, ← Nat.div_div_eq_div_mul, e.div_divisor]
    have block : pow10 9 = 1000000000 := rfl
    have most := maxMantissa_eq
    omega
  exact divides_rounded small (by omega) e.divHalfEven_tenth_eq (.inr (e.not_fits long))

end

/-! ## Long division -/

theorem pow10_le_pow10 {m n : ℕ} (le : m ≤ n) : pow10 m ≤ pow10 n :=
  Nat.pow_le_pow_right (by decide) le

theorem extend?_divides {x : ℚ} {divisor mantissa rest : ℕ} {scale : ℤ} (trimmed : Bool)
    (e : Expansion x divisor mantissa rest scale) (small : mantissa ≤ maxMantissa)
    (le : scale ≤ maxScale) : Divides (extend? divisor mantissa rest scale trimmed) x := by
  have max_scale : (maxScale : ℤ) = 28 := rfl
  -- On the blocks of digits that the division appends; the expansion carries over each of them.
  fun_induction extend? divisor mantissa rest scale trimmed with
  | case1 mantissa scale trimmed whole =>
    obtain ⟨places, rfl⟩ := Int.eq_ofNat_of_zero_le whole
    rw [Int.toNat_natCast]
    exact divides_some small (by omega) (e.nearest?_of_whole small (by omega))
  | case2 mantissa scale trimmed negative block fits ih =>
    have next := e.shift block
    simp only [Nat.zero_mul, Nat.zero_div, Nat.add_zero, Nat.zero_mod] at next
    exact ih next fits (by omega)
  | case3 mantissa scale trimmed negative block long =>
    have next := e.shift block
    simp only [Nat.zero_mul, Nat.zero_div, Nat.add_zero, Nat.zero_mod] at next
    exact divides_none (next.out_of_range (by omega) (not_le.mp long))
  | case4 mantissa rest scale trimmed unfinished block short =>
    -- Even the digits down to the point are too long.
    have full : maxMantissa < mantissa * pow10 (block + 1) := room_full (by omega)
    have next := e.shift (block + 1)
    exact divides_none (next.out_of_range (by push_cast; omega)
      (full.trans_le (Nat.le_add_right _ _)))
  | case5 mantissa rest scale trimmed unfinished block enough empty =>
    -- No further digit fits, so the division rounds here.
    have whole : 0 ≤ scale := by
      by_contra negative
      exact enough ⟨by omega, by omega⟩
    obtain ⟨places, rfl⟩ := Int.eq_ofNat_of_zero_le whole
    refine settle?_divides e small (by omega) ?_
    by_cases last : places = maxScale
    · exact .inl last
    · have full : maxMantissa < mantissa * pow10 (block + 1) := room_full (by omega)
      rw [empty] at full
      exact .inr full
  | case6 mantissa rest scale trimmed unfinished block enough nonempty longer left fits ih =>
    have bound := room_le mantissa (min 9 (28 - scale).toNat)
    exact ih (e.shift block) fits (by omega)
  | case7 mantissa rest scale trimmed unfinished block enough nonempty longer left long positive =>
    have bound := room_le mantissa (min 9 (28 - scale).toNat)
    have next : Expansion x divisor longer left (scale + block) := e.shift block
    obtain ⟨places, last⟩ : ∃ places : ℕ, scale + block = (places + 1 : ℕ) :=
      ⟨(scale + block - 1).toNat, by omega⟩
    have toNat : (scale + block - 1).toNat = places := by omega
    rw [last] at next
    rw [toNat]
    -- Only the digits of the rest are too much, and those are of one block.
    refine shorten_divides next (by omega) (not_le.mp long) ?_
    have digits : mantissa * pow10 block ≤ maxMantissa := mul_room_le small _
    have rest_le := e.rest_div_le block
    have power : pow10 block ≤ pow10 9 := pow10_le_pow10 (by omega)
    omega
  | case8 mantissa rest scale trimmed unfinished block enough nonempty longer long whole =>
    exact divides_none ((e.shift block).out_of_range (by omega) (not_le.mp long))

/-! ## Shedding zeros -/

theorem value_shed (q : Quotient) (places unit : ℕ) : (shed q places unit).value = q.value := by
  simp only [shed]
  split
  next zeros =>
    obtain ⟨_, le, divisible⟩ := zeros
    have whole : q.mantissa = q.mantissa / pow10 places * pow10 places :=
      (Nat.div_mul_cancel (Nat.dvd_of_mod_eq_zero divisible)).symm
    obtain ⟨fewer, scale⟩ := Nat.exists_eq_add_of_le' le
    unfold Quotient.value
    simp only []
    rw [scale, Nat.add_sub_cancel]
    conv_rhs => rw [whole]
    push_cast
    rw [cast_pow10, pow_add]
    field_simp
  next => rfl

theorem inRange_shed {q : Quotient} (h : q.InRange) (places unit : ℕ) : (shed q places unit).InRange := by
  simp only [shed]
  split
  next => exact ⟨(Nat.div_le_self _ _).trans h.1, (Nat.sub_le _ _).trans h.2⟩
  next => exact h

theorem foldl_shed (groups : List (ℕ × ℕ)) (q : Quotient) (h : q.InRange) :
    (groups.foldl (fun q group => shed q group.1 group.2) q).value = q.value ∧
      (groups.foldl (fun q group => shed q group.1 group.2) q).InRange := by
  induction groups generalizing q with
  | nil => exact ⟨rfl, h⟩
  | cons group groups ih =>
    obtain ⟨value, range⟩ := ih (shed q group.1 group.2) (inRange_shed h _ _)
    exact ⟨value.trans (value_shed q _ _), range⟩

theorem trim_spec {q : Quotient} (h : q.InRange) : q.trim.value = q.value ∧ q.trim.InRange := by
  simp only [Quotient.trim]
  split
  next => exact foldl_shed _ q h
  next => exact ⟨rfl, h⟩

/-! ## Quotients of decimals -/

/-- The whole part of the quotient of the mantissas is where long division starts. -/
theorem expansion_div (a : Decimal) {b : Decimal} (positive : 0 < b.mantissa) :
    Expansion (((a.mantissa : ℚ) / 10 ^ a.scale) / ((b.mantissa : ℚ) / 10 ^ b.scale)) b.mantissa
      (a.mantissa / b.mantissa) (a.mantissa % b.mantissa) ((a.scale : ℤ) - b.scale) where
  eq := by
    have nonzero : (b.mantissa : ℚ) ≠ 0 := Nat.cast_ne_zero.mpr positive.ne'
    have division : (a.mantissa : ℚ)
        = b.mantissa * (a.mantissa / b.mantissa : ℕ) + (a.mantissa % b.mantissa : ℕ) := by
      exact_mod_cast (Nat.div_add_mod a.mantissa b.mantissa).symm
    rw [zpow_sub₀ (by norm_num), zpow_natCast, zpow_natCast]
    field_simp
    linarith
  rest_lt := Nat.mod_lt _ positive

theorem div?_rounds (a b : Decimal) (divisor : ¬ b.IsZero) : Rounds (a.div? b) (a.value / b.value) := by
  rw [div?]
  rw [if_neg divisor]
  split
  next zero => exact rounds_of_value (by rw [(isZero_iff a).mp zero, zero_div, value_zero])
  next =>
    set x := ((a.mantissa : ℚ) / 10 ^ a.scale) / ((b.mantissa : ℚ) / 10 ^ b.scale)
    have quotient : a.value / b.value = withSign (a.negative != b.negative) x := by
      rw [value_eq, value_eq, withSign_div_withSign]
    have positive : 0 < b.mantissa := Nat.pos_of_ne_zero divisor
    have bounds := a.scale_le
    obtain ⟨found, range⟩ := extend?_divides false (expansion_div a positive)
      ((Nat.div_le_self _ _).trans a.mantissa_le) (by omega)
    rw [quotient]
    rcases result : extend? b.mantissa (a.mantissa / b.mantissa) (a.mantissa % b.mantissa)
        ((a.scale : ℤ) - b.scale) false with _ | q
    · rw [result, Option.map_none] at found
      simp only [Rounds]
      simp only [result, Option.bind_eq_bind, Option.bind_none]
      rw [nearest?_withSign, ← found, Option.map_none, Option.map_none]
    · rw [result, Option.map_some] at found
      obtain ⟨value, small, scale⟩ := trim_spec (range q result)
      simp only [result, Option.bind_eq_bind, Option.bind_some]
      refine ofParts?_rounds small scale ?_
      rw [nearest?_withSign, ← found, Option.map_some, ← value]
      rfl

/-- Only a divisor that is not zero gives a quotient. -/
theorem nearest?_of_div? {a b q : Decimal} (h : a.div? b = some q) :
    nearest? (a.value / b.value) = some q.value := by
  refine (div?_rounds a b fun zero => ?_).nearest?_eq h
  rw [div?, if_pos zero] at h
  cases h

end Decimal

end CostBasis
