import CostBasis.Decimal.Text

/-!
# Reading a written decimal

The text of a decimal is read as that decimal, with its scale.  Only the sign of a zero is lost.
-/

namespace CostBasis

/-! ## Digits -/

theorem exists_toDigits (n : Nat) : ∃ c cs, Nat.toDigits 10 n = c :: cs ∧ c.isDigit = true := by
  obtain ⟨c, cs, digits⟩ := List.exists_cons_of_ne_nil (Nat.toDigits_ne_nil (n := n) (b := 10))
  exact ⟨c, cs, digits,
    Nat.isDigit_of_mem_toDigits (by decide) (by decide) (digits ▸ List.mem_cons_self)⟩

/-- Only zero is written with a leading zero. -/
theorem head?_toDigits {n : Nat} (leading : (Nat.toDigits 10 n).head? = some '0') : n = 0 := by
  rw [Nat.toDigits_eq_if (by decide)] at leading
  split at leading
  next => simpa using leading
  next large =>
    obtain ⟨c, cs, digits, _⟩ := exists_toDigits (n / 10)
    rw [digits, List.cons_append, List.head?_cons, ← List.head?_cons (l := cs), ← digits] at leading
    have tenth := head?_toDigits leading
    omega
termination_by n

theorem le_ofDigitChars (digits : List Char) (n : Nat) : n ≤ Nat.ofDigitChars 10 digits n := by
  induction digits generalizing n with
  | nil => exact Nat.le_refl n
  | cons c rest ih =>
    rw [Nat.ofDigitChars_cons]
    have further := ih (10 * n + (c.toNat - '0'.toNat))
    omega

theorem isDigit_of_mem_paddedDigits {c : Char} {width n : Nat} (mem : c ∈ paddedDigits width n) :
    c.isDigit = true := by
  induction width generalizing n with
  | zero => cases mem
  | succ width ih =>
    rw [paddedDigits, List.mem_append, List.mem_singleton] at mem
    rcases mem with mem | rfl
    · exact ih mem
    · rw [Nat.isDigit_digitChar, decide_eq_true_eq]
      exact Nat.mod_lt n (by decide)

theorem ofDigitChars_paddedDigits (width n start : Nat) :
    Nat.ofDigitChars 10 (paddedDigits width n) start = start * pow10 width + n % pow10 width := by
  induction width generalizing n with
  | zero => simp [paddedDigits, Nat.mod_one]
  | succ width ih =>
    have last : n % 10 < 10 := Nat.mod_lt n (by decide)
    have split : n % pow10 (width + 1) = n % 10 + 10 * (n / 10 % pow10 width) := by
      rw [pow10_succ, Nat.mul_comm, Nat.mod_mul]
    have shifted : 10 * (start * pow10 width) = start * (pow10 width * 10) := by
      rw [Nat.mul_left_comm, Nat.mul_comm 10]
    rw [paddedDigits, Nat.ofDigitChars_append, ih, Nat.ofDigitChars_cons_digitChar_of_lt_ten last,
      Nat.ofDigitChars_nil, split, pow10_succ, Nat.mul_add, shifted]
    omega

namespace Decimal

/-! ## Written and read -/

/-- The same decimal, but without the sign of a zero. -/
def plain (d : Decimal) : Decimal := { d with negative := d.negative && decide (d.mantissa ≠ 0) }

theorem coefficient_plain (d : Decimal) : d.plain.coefficient = d.coefficient := by
  by_cases none : d.mantissa = 0 <;> simp [plain, coefficient, none]

/-- Two decimals of one value and one scale. -/
def Same (a b : Decimal) : Prop := a ≈ b ∧ a.scale = b.scale

theorem same_plain (d : Decimal) : d.plain.Same d := by
  refine ⟨?_, rfl⟩
  change d.plain.coefficient * _ = _
  rw [coefficient_plain]
  rfl

/-- A sign is lost only where no comparison sees it. -/
theorem plain_eq_self_iff (d : Decimal) : d.plain = d ↔ ¬(d.negative = true ∧ d.mantissa = 0) := by
  rw [Decimal.ext_iff]
  cases negative : d.negative <;> simp [plain, negative]

theorem plain_of_pos {d : Decimal} (pos : 0 < d) : d.plain = d := by
  rw [plain_eq_self_iff]
  rintro ⟨_, none⟩
  have zero : d.coefficient = 0 := by simp [coefficient, none]
  change (0 : Int) * pow10 d.scale < d.coefficient * 1 at pos
  rw [zero, Int.zero_mul, Int.zero_mul] at pos
  exact Int.lt_irrefl 0 pos

/-- What has been read after more digits. -/
def Reading.further (r : Reading) (digits : List Char) : Reading :=
  { r with
    mantissa := Nat.ofDigitChars 10 digits r.mantissa
    scale := if r.pointed then r.scale + digits.length else 0
    started := r.started || !digits.isEmpty }

theorem Reading.further_further (r : Reading) (first second : List Char) :
    (r.further first).further second = r.further (first ++ second) := by
  have begun : (!first.isEmpty || !second.isEmpty) = !(first ++ second).isEmpty := by
    cases first <;> rfl
  cases pointed : r.pointed <;>
    simp [further, pointed, Nat.ofDigitChars_append, Nat.add_assoc, Bool.or_assoc, begun]

/-- Digits that fit are read one after the other. -/
theorem readDigits_append (digits rest : List Char) {r : Reading}
    (all : ∀ c ∈ digits, c.isDigit = true) (unscaled : r.pointed = false → r.scale = 0)
    (room : r.pointed = true → r.scale + digits.length ≤ maxScale)
    (fits : Nat.ofDigitChars 10 digits r.mantissa ≤ maxMantissa) :
    readDigits r (digits ++ rest) = readDigits (r.further digits) rest := by
  induction digits generalizing r with
  | nil =>
    obtain ⟨mantissa, scale, pointed, started⟩ := r
    cases pointed with
    | true => simp [Reading.further]
    | false => simp [Reading.further, show scale = 0 from unscaled rfl]
  | cons c digits ih =>
    rw [List.forall_mem_cons] at all
    rw [Nat.ofDigitChars_cons] at fits
    have digit : digit? c = some (c.toNat - '0'.toNat) := if_pos all.1
    have one : Nat.ofDigitChars 10 [c] r.mantissa = r.mantissa * 10 + (c.toNat - '0'.toNat) := by
      rw [Nat.ofDigitChars_cons, Nat.ofDigitChars_nil, Nat.mul_comm]
    -- The digits that follow only make the number larger, so it fits already with this one.
    have longer : r.mantissa * 10 + (c.toNat - '0'.toNat) ≤ maxMantissa := by
      have further := le_ofDigitChars digits (10 * r.mantissa + (c.toNat - '0'.toNat))
      omega
    have unfilled : ¬(r.pointed = true ∧ r.scale = maxScale) := by
      rintro ⟨pointed, full⟩
      have left := room pointed
      rw [List.length_cons] at left
      omega
    have stepped : readDigits r (c :: (digits ++ rest)) = readDigits (r.further [c]) (digits ++ rest) := by
      rw [readDigits, if_neg unfilled, digit]
      simp only [if_pos longer, Reading.further, one]
      simp
    rw [List.cons_append, stepped, ih all.2, Reading.further_further, List.singleton_append]
    · intro unpointed
      exact if_neg (by simpa [Reading.further] using unpointed)
    · intro pointed
      have left := room pointed
      simp only [Reading.further, show r.pointed = true from pointed, if_true]
      rw [List.length_cons] at left
      rw [List.length_singleton]
      omega
    · rwa [Reading.further, Nat.ofDigitChars_cons, Nat.ofDigitChars_nil]

theorem readDigits_point {r : Reading} (unpointed : r.pointed = false) (rest : List Char) :
    readDigits r ('.' :: rest) = readDigits { r with pointed := true } rest := by
  have undigit : digit? '.' = none := rfl
  rw [readDigits, if_neg (by simp [unpointed]), undigit]
  simp only [if_true, unpointed, Bool.false_eq_true, if_false]

theorem readDigits_paddedDigits {r : Reading} (started : r.started = true) (pointed : r.pointed = true)
    (unscaled : r.scale = 0) {mantissa scale : Nat} (whole : r.mantissa = mantissa / pow10 scale)
    (scale_le : scale ≤ maxScale) (mantissa_le : mantissa ≤ maxMantissa) :
    readDigits r (paddedDigits scale mantissa) = .ok (mantissa, scale) := by
  have value : Nat.ofDigitChars 10 (paddedDigits scale mantissa) r.mantissa = mantissa := by
    rw [ofDigitChars_paddedDigits, whole, Nat.mul_comm]
    exact Nat.div_add_mod mantissa (pow10 scale)
  rw [← List.append_nil (paddedDigits scale mantissa),
    readDigits_append _ _ (fun _ => isDigit_of_mem_paddedDigits) (fun _ => unscaled)
      (fun _ => by rwa [unscaled, length_paddedDigits, Nat.zero_add]) (by rwa [value])]
  simp [readDigits, Reading.further, started, pointed, unscaled, value]

/-- The digits of a decimal, with its point, are read as its mantissa and its scale. -/
theorem readDigits_unsigned (d : Decimal) :
    readDigits {} (Nat.toDigits 10 (d.mantissa / pow10 d.scale)
        ++ if d.scale = 0 then [] else '.' :: paddedDigits d.scale d.mantissa)
      = .ok (d.mantissa, d.scale) := by
  have whole_le : d.mantissa / pow10 d.scale ≤ maxMantissa :=
    Nat.le_trans (Nat.div_le_self _ _) d.mantissa_le
  have started : (Nat.toDigits 10 (d.mantissa / pow10 d.scale)).isEmpty = false := by simp
  rw [readDigits_append _ _ (fun _ => Nat.isDigit_of_mem_toDigits (by decide) (by decide)) (fun _ => rfl)
    (fun pointed => by cases pointed) (by rwa [Nat.ofDigitChars_ten_toDigits])]
  simp only [Reading.further, Nat.ofDigitChars_ten_toDigits, started]
  by_cases unscaled : d.scale = 0
  · rw [if_pos unscaled, readDigits]
    simp [unscaled]
  · rw [if_neg unscaled, readDigits_point rfl]
    exact readDigits_paddedDigits rfl rfl rfl rfl d.scale_le d.mantissa_le

theorem signed_parts (d : Decimal) : signed d.negative (d.mantissa, d.scale) = .ok d.plain := by
  rw [signed, build, ofParts?, dif_pos ⟨d.mantissa_le, d.scale_le⟩]
  rfl

/-- A decimal is read back from its text. -/
theorem parse_text (d : Decimal) : parse d.text = .ok d.plain := by
  have unsigned := d.readDigits_unsigned
  have signed := d.signed_parts
  have plain : parsePlain d.chars = .ok d.plain := by
    simp only [chars, List.append_assoc]
    cases negative : d.negative with
    | true =>
      rw [negative] at signed
      simp only [if_true, List.singleton_append, parsePlain, unsigned]
      exact signed
    | false =>
      rw [negative] at signed
      -- A text without a sign begins with a digit, and so is not taken for one with a sign.
      obtain ⟨c, cs, digits, digit⟩ := exists_toDigits (d.mantissa / pow10 d.scale)
      rw [digits, List.cons_append] at unsigned ⊢
      simp only [Bool.false_eq_true, if_false, List.nil_append]
      rw [parsePlain, unsigned]
      · exact signed
      · exact List.cons_ne_nil c _
      all_goals
        rintro _ ⟨⟩
        cases digit
  rw [parse, text, String.toList_ofList, parseChars, plain]

end Decimal

end CostBasis
