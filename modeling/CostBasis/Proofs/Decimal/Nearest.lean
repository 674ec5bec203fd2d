import CostBasis.Proofs.Decimal.HalfEven

/-!
# The nearest decimal

`nearest?` is the ideal of every decimal operation: the exact result rounded half to even at the
finest scale whose mantissa still has room, and none when even its integer part is too long.  It
keeps decimals as they are, is monotone and symmetric in sign, and is at most half a unit of any
place that has room away from the number it rounds.
-/

namespace CostBasis

namespace Decimal

def roundAt (places : ℕ) (x : ℚ) : ℚ := halfEven (x * 10 ^ places) / 10 ^ places

/-- `x` rounded to a number of decimal places has a mantissa in range. -/
def Fits (places : ℕ) (x : ℚ) : Prop := |halfEven (x * 10 ^ places)| ≤ maxMantissa

instance (places : ℕ) (x : ℚ) : Decidable (Fits places x) :=
  inferInstanceAs (Decidable (|halfEven (x * 10 ^ places)| ≤ maxMantissa))

/-- `x` rounded at the finest scale, from `places` down, that has room for it. -/
def nearestFrom? (x : ℚ) : ℕ → Option ℚ
  | 0 => if Fits 0 x then some (roundAt 0 x) else none
  | places + 1 =>
    if Fits (places + 1) x then some (roundAt (places + 1) x) else nearestFrom? x places

/-- The value of the decimal nearest to `x`, at the finest scale that has room for it. -/
def nearest? (x : ℚ) : Option ℚ := nearestFrom? x maxScale

def rounded (x : ℚ) : ℚ := (nearest? x).getD 0

/-- The least number that rounds to an integer out of range. -/
def limit : ℚ := maxMantissa + 1 / 2

/-! ## Rounding to given places -/

theorem roundAt_neg (places : ℕ) (x : ℚ) : roundAt places (-x) = -roundAt places x := by
  simp only [roundAt]
  rw [neg_mul, halfEven_neg, Int.cast_neg, neg_div]

theorem roundAt_mono (places : ℕ) {x y : ℚ} (h : x ≤ y) : roundAt places x ≤ roundAt places y := by
  have scaled : x * 10 ^ places ≤ y * 10 ^ places := mul_le_mul_of_nonneg_right h (by positivity)
  exact div_le_div_of_nonneg_right (Int.cast_le.mpr (halfEven_mono scaled)) (by positivity)

theorem abs_roundAt_sub_le (places : ℕ) (x : ℚ) :
    |roundAt places x - x| ≤ 1 / 2 / 10 ^ places := by
  have power : (0 : ℚ) < 10 ^ places := by positivity
  have scaled : roundAt places x - x
      = (halfEven (x * 10 ^ places) - x * 10 ^ places) / 10 ^ places := by
    simp only [roundAt]
    field_simp
  rw [scaled, abs_div, abs_of_pos power]
  exact div_le_div_of_nonneg_right (abs_halfEven_sub_le _) power.le

theorem roundAt_of_whole {places : ℕ} {x : ℚ} {n : ℤ} (whole : x * 10 ^ places = n) :
    roundAt places x = x := by
  simp only [roundAt]
  rw [whole, halfEven_intCast, ← whole]
  field_simp

theorem roundAt_mul_pow (places : ℕ) (x : ℚ) :
    roundAt places x * 10 ^ places = halfEven (x * 10 ^ places) := by
  simp only [roundAt]
  field_simp

/-! ## Room -/

/-- The largest mantissa is odd, so the half above it rounds out of range. -/
theorem lt_halfEven_limit : (maxMantissa : ℤ) < halfEven limit := by
  have floor_limit : ⌊limit⌋ = maxMantissa := by
    rw [Int.floor_eq_iff]
    simp only [limit]
    constructor <;> push_cast <;> linarith
  have fract_limit : Int.fract limit = 1 / 2 := by
    rw [Int.fract, floor_limit]
    simp only [limit]
    push_cast
    ring
  simp only [halfEven]
  rw [fract_limit, floor_limit, if_pos (.inr ⟨rfl, by decide⟩)]
  omega

theorem fits_iff (places : ℕ) (x : ℚ) : Fits places x ↔ |x| * 10 ^ places < limit := by
  have scaled : |x * 10 ^ places| = |x| * 10 ^ places := by
    rw [abs_mul, abs_of_pos (by positivity : (0 : ℚ) < 10 ^ places)]
  simp only [Fits]
  rw [abs_halfEven, scaled]
  constructor
  · intro room
    by_contra far
    have := halfEven_mono (not_lt.mp far)
    have := lt_halfEven_limit
    omega
  · intro close
    exact halfEven_le_of_lt (by exact_mod_cast close)

theorem Fits.of_le {p q : ℕ} {x : ℚ} (fine : Fits q x) (coarser : p ≤ q) : Fits p x := by
  rw [fits_iff] at fine ⊢
  have powers : (10 : ℚ) ^ p ≤ 10 ^ q := pow_le_pow_right₀ (by norm_num) coarser
  exact (mul_le_mul_of_nonneg_left powers (abs_nonneg x)).trans_lt fine

theorem nearestFrom?_eq_some {x y : ℚ} {most : ℕ} (h : nearestFrom? x most = some y) :
    ∃ places ≤ most, Fits places x ∧ (places = most ∨ ¬ Fits (places + 1) x) ∧
      y = roundAt places x := by
  induction most with
  | zero =>
    simp only [nearestFrom?] at h
    split at h
    next room => exact ⟨0, le_rfl, room, .inl rfl, (Option.some.inj h).symm⟩
    next => cases h
  | succ most ih =>
    simp only [nearestFrom?] at h
    split at h
    next room => exact ⟨most + 1, le_rfl, room, .inl rfl, (Option.some.inj h).symm⟩
    next full =>
      obtain ⟨places, le, room, finest, rounded⟩ := ih h
      refine ⟨places, by omega, room, .inr ?_, rounded⟩
      rcases finest with rfl | finer
      · exact full
      · exact finer

theorem nearestFrom?_of_fits {x : ℚ} {places most : ℕ} (le : places ≤ most) (room : Fits places x)
    (finest : places = most ∨ ¬ Fits (places + 1) x) :
    nearestFrom? x most = some (roundAt places x) := by
  induction most with
  | zero =>
    obtain rfl : places = 0 := by omega
    simp only [nearestFrom?, if_pos room]
  | succ most ih =>
    rcases finest with rfl | full
    · simp only [nearestFrom?, if_pos room]
    · simp only [nearestFrom?]
      by_cases last : places = most + 1
      · rw [← last, if_pos room]
      · rw [if_neg fun fine => full (fine.of_le (by omega))]
        exact ih (by omega) (.inr full)

/-- The scale of the nearest decimal is the finest one with room. -/
theorem nearest?_eq_some_iff {x y : ℚ} :
    nearest? x = some y ↔ ∃ places ≤ maxScale, Fits places x ∧
      (places = maxScale ∨ ¬ Fits (places + 1) x) ∧ y = roundAt places x := by
  constructor
  · exact nearestFrom?_eq_some
  · rintro ⟨places, le, room, finest, rfl⟩
    exact nearestFrom?_of_fits le room finest

theorem nearestFrom?_eq_none {x : ℚ} (far : ¬ Fits 0 x) (most : ℕ) : nearestFrom? x most = none := by
  induction most with
  | zero => simp only [nearestFrom?, if_neg far]
  | succ most ih =>
    simp only [nearestFrom?]
    rw [if_neg fun fine => far (fine.of_le (Nat.zero_le _)), ih]

/-- A number whose integer part has no room has no nearest decimal. -/
theorem nearest?_of_not_fits {x : ℚ} (far : ¬ Fits 0 x) : nearest? x = none :=
  nearestFrom?_eq_none far maxScale

theorem exists_nearest? {x : ℚ} (h : |x| < limit) : ∃ y, nearest? x = some y := by
  have room : Fits 0 x := (fits_iff 0 x).mpr (by simpa using h)
  have found : ∀ most, ∃ y, nearestFrom? x most = some y := by
    intro most
    induction most with
    | zero => exact ⟨_, by simp only [nearestFrom?, if_pos room]; rfl⟩
    | succ most ih =>
      simp only [nearestFrom?]
      split
      next => exact ⟨_, rfl⟩
      next => exact ih
  exact found maxScale

theorem abs_lt_limit_of_nearest? {x y : ℚ} (h : nearest? x = some y) : |x| < limit := by
  obtain ⟨places, _, room, _, _⟩ := nearest?_eq_some_iff.mp h
  simpa using (fits_iff 0 x).mp (room.of_le (Nat.zero_le _))

theorem nearest?_eq_none_iff {x : ℚ} : nearest? x = none ↔ limit ≤ |x| := by
  constructor
  · intro none
    by_contra close
    obtain ⟨y, some⟩ := exists_nearest? (not_le.mp close)
    rw [none] at some
    cases some
  · intro far
    refine nearest?_of_not_fits ?_
    rw [fits_iff, pow_zero, mul_one]
    exact not_lt.mpr far

/-! ## Exactness, sign and error -/

theorem maxMantissa_lt_limit : (maxMantissa : ℚ) < limit := by
  simp only [limit]
  linarith

theorem limit_pos : 0 < limit := lt_of_le_of_lt (Nat.cast_nonneg maxMantissa) maxMantissa_lt_limit

/-- A decimal is its own nearest decimal. -/
theorem nearest?_of_representable {x : ℚ} (h : Representable x) : nearest? x = some x := by
  obtain ⟨m, s, mantissa, scale, rfl⟩ := h.exists_div
  have whole : (m : ℚ) / 10 ^ s * 10 ^ s = m := by field_simp
  have room : Fits s ((m : ℚ) / 10 ^ s) := by
    simp only [Fits]
    rw [whole, halfEven_intCast]
    exact mantissa
  obtain ⟨y, found⟩ := exists_nearest? (x := (m : ℚ) / 10 ^ s) (by
    simpa using (fits_iff 0 _).mp (room.of_le (Nat.zero_le _)))
  obtain ⟨places, le, _, finest, rounded⟩ := nearest?_eq_some_iff.mp found
  -- Its own scale has room, so the finest one with room holds all of its digits.
  have finer : s ≤ places := by
    rcases finest with rfl | full
    · exact scale
    · by_contra coarser
      exact full (room.of_le (by omega))
  have whole' : (m : ℚ) / 10 ^ s * 10 ^ places = (m * 10 ^ (places - s) : ℤ) := by
    obtain ⟨extra, rfl⟩ := Nat.exists_eq_add_of_le finer
    push_cast
    rw [Nat.add_sub_cancel_left, pow_add]
    field_simp
  rw [found, rounded, roundAt_of_whole whole']

theorem rounded_eq {x y : ℚ} (h : nearest? x = some y) : rounded x = y := by
  rw [rounded, h, Option.getD_some]

theorem rounded_of_representable {x : ℚ} (h : Representable x) : rounded x = x :=
  rounded_eq (nearest?_of_representable h)

theorem representable_of_nearest? {x y : ℚ} (h : nearest? x = some y) : Representable y := by
  obtain ⟨places, le, room, _, rfl⟩ := nearest?_eq_some_iff.mp h
  exact representable_of_div room le

theorem nearest?_neg (x : ℚ) : nearest? (-x) = (nearest? x).map (-·) := by
  have fits_neg : ∀ places, Fits places (-x) ↔ Fits places x := by
    intro places
    rw [fits_iff, fits_iff, abs_neg]
  rcases found : nearest? x with _ | y
  · rw [nearest?_eq_none_iff] at found
    rw [Option.map_none, nearest?_eq_none_iff, abs_neg]
    exact found
  · obtain ⟨places, le, room, finest, rfl⟩ := nearest?_eq_some_iff.mp found
    rw [Option.map_some, nearest?_eq_some_iff]
    exact ⟨places, le, (fits_neg _).mpr room, by rwa [fits_neg], (roundAt_neg places x).symm⟩

/-- Rounding moves a number by at most half a unit of any place that has room for it. -/
theorem abs_sub_le_of_nearest? {x y : ℚ} {places : ℕ} (h : nearest? x = some y)
    (le : places ≤ maxScale) (room : |x| * 10 ^ places < limit) :
    |y - x| ≤ 1 / 2 / 10 ^ places := by
  obtain ⟨finest, _, _, last, rfl⟩ := nearest?_eq_some_iff.mp h
  have finer : places ≤ finest := by
    rcases last with rfl | full
    · exact le
    · by_contra coarser
      exact full (((fits_iff places x).mpr room).of_le (by omega))
  have powers : (10 : ℚ) ^ places ≤ 10 ^ finest := pow_le_pow_right₀ (by norm_num) finer
  exact (abs_roundAt_sub_le finest x).trans
    (div_le_div_of_nonneg_left (by norm_num) (by positivity) powers)

/-! ## Order -/

theorem nearest?_nonneg {x y : ℚ} (hx : 0 ≤ x) (h : nearest? x = some y) : 0 ≤ y := by
  obtain ⟨places, _, _, _, rfl⟩ := nearest?_eq_some_iff.mp h
  have zero : roundAt places 0 = 0 := roundAt_of_whole (n := 0) (by simp)
  exact zero ▸ roundAt_mono places hx

/-- One digit more than a rounded mantissa that could not have it is out of range. -/
theorem maxMantissa_lt_halfEven_mul_ten {x : ℚ} (full : limit ≤ x * 10) :
    (maxMantissa : ℚ) < halfEven x * 10 := by
  have close := (abs_le.mp (abs_halfEven_sub_le x)).1
  have tenth : maxMantissa / 10 < halfEven x := by
    have below : ((maxMantissa / 10 : ℤ) : ℚ) < halfEven x := by
      have value : ((maxMantissa / 10 : ℤ) : ℚ) = 7922816251426433759354395033 := by
        norm_num [maxMantissa_eq]
      rw [value]
      simp only [limit] at full
      rw [maxMantissa_eq] at full
      push_cast at full
      linarith
    exact_mod_cast below
  have digits : (maxMantissa : ℤ) < halfEven x * 10 := by
    have := maxMantissa_eq
    omega
  exact_mod_cast digits

theorem nearest?_mono_of_nonneg {x y u v : ℚ} (nonneg : 0 ≤ x) (h : x ≤ y)
    (hu : nearest? x = some u) (hv : nearest? y = some v) : u ≤ v := by
  obtain ⟨p, p_le, p_room, p_last, rfl⟩ := nearest?_eq_some_iff.mp hu
  obtain ⟨q, q_le, q_room, q_last, rfl⟩ := nearest?_eq_some_iff.mp hv
  rcases lt_trichotomy p q with finer | rfl | coarser
  · -- The smaller number has room wherever the larger one has.
    exfalso
    have x_room : Fits q x := by
      rw [fits_iff] at q_room ⊢
      rw [abs_of_nonneg nonneg]
      rw [abs_of_nonneg (nonneg.trans h)] at q_room
      exact (mul_le_mul_of_nonneg_right h (by positivity)).trans_lt q_room
    rcases p_last with rfl | full
    · omega
    · exact full (x_room.of_le finer)
  · exact roundAt_mono p h
  · -- A digit more than `q` places is in range for the smaller number and not for the larger.
    have full : limit ≤ y * 10 ^ (q + 1) := by
      rcases q_last with rfl | full
      · omega
      · rw [fits_iff, not_lt, abs_of_nonneg (nonneg.trans h)] at full
        exact full
    have left : roundAt p x * 10 ^ (q + 1) ≤ maxMantissa := by
      have powers : (10 : ℚ) ^ (q + 1) ≤ 10 ^ p := pow_le_pow_right₀ (by norm_num) coarser
      have room : (halfEven (x * 10 ^ p) : ℚ) ≤ maxMantissa := by
        exact_mod_cast (le_abs_self _).trans p_room
      calc roundAt p x * 10 ^ (q + 1)
          ≤ roundAt p x * 10 ^ p :=
            mul_le_mul_of_nonneg_left powers (nearest?_nonneg nonneg hu)
        _ = halfEven (x * 10 ^ p) := roundAt_mul_pow p x
        _ ≤ maxMantissa := room
    have right : (maxMantissa : ℚ) < roundAt q y * 10 ^ (q + 1) := by
      rw [pow_succ, ← mul_assoc] at full ⊢
      rw [roundAt_mul_pow]
      exact maxMantissa_lt_halfEven_mul_ten full
    have power : (0 : ℚ) < 10 ^ (q + 1) := by positivity
    exact le_of_mul_le_mul_right (left.trans right.le) power

theorem nearest?_mono {x y u v : ℚ} (h : x ≤ y) (hu : nearest? x = some u)
    (hv : nearest? y = some v) : u ≤ v := by
  have neg : ∀ {z w : ℚ}, nearest? z = some w → nearest? (-z) = some (-w) := by
    intro z w hz
    rw [nearest?_neg, hz, Option.map_some]
  cases le_total 0 x with
  | inl nonneg =>
    exact nearest?_mono_of_nonneg nonneg h hu hv
  | inr nonpos =>
    cases le_total 0 y with
    | inl nonneg =>
      have := nearest?_nonneg (by linarith) (neg hu)
      have := nearest?_nonneg nonneg hv
      linarith
    | inr nonpos' =>
      have := nearest?_mono_of_nonneg (by linarith) (neg_le_neg h) (neg hv) (neg hu)
      linarith

theorem nearest?_le {x y bound : ℚ} (h : nearest? x = some y) (le : x ≤ bound)
    (representable : Representable bound) : y ≤ bound :=
  nearest?_mono le h (nearest?_of_representable representable)

theorem le_nearest? {x y bound : ℚ} (h : nearest? x = some y) (le : bound ≤ x)
    (representable : Representable bound) : bound ≤ y :=
  nearest?_mono le (nearest?_of_representable representable) h

end Decimal

end CostBasis
