import Mathlib.Data.Option.Basic
import CostBasis.Decimal.Arithmetic
import CostBasis.Proofs.Decimal.Value

/-!
# Mirror images of decimals

An operation on mirror images gives the mirror image of its result, digit for digit, also where the result
is rounded or where it is out of range.
-/

namespace CostBasis

section

variable {α β : Type} {R : α → β → Prop} {x : Option α} {y : Option β}

theorem rel_map {α' β' : Type} {S : α' → β' → Prop} {f : α → α'} {g : β → β'} (h : Option.Rel R x y)
    (related : ∀ a b, R a b → S (f a) (g b)) : Option.Rel S (x.map f) (y.map g) := by
  cases h with
  | some same => exact .some (related _ _ same)
  | none => exact .none

theorem rel_getD {a : α} {b : β} (h : Option.Rel R x y) (otherwise : x = none → R a b) :
    R (x.getD a) (y.getD b) := by
  cases h with
  | some same => exact same
  | none => exact otherwise rfl

end

namespace Decimal

/-- Two decimals of one mantissa and one scale with opposite signs.  The sign of a zero is open. -/
structure Mirrors (a b : Decimal) : Prop where
  mantissa : b.mantissa = a.mantissa
  scale : b.scale = a.scale
  negative : ¬a.IsZero → b.negative = !a.negative

namespace Mirrors

variable {a a' b b' : Decimal}

theorem of_neg (a : Decimal) : Mirrors a (-a) := ⟨rfl, rfl, fun _ => rfl⟩

theorem of_isZero (zero : a.IsZero) : Mirrors a a := ⟨rfl, rfl, fun nonzero => absurd zero nonzero⟩

theorem isZero_iff (h : Mirrors a a') : a'.IsZero ↔ a.IsZero := by
  rw [IsZero, IsZero, h.mantissa]

theorem symm (h : Mirrors a a') : Mirrors a' a where
  mantissa := h.mantissa.symm
  scale := h.scale.symm
  negative nonzero := by rw [h.negative (mt h.isZero_iff.mpr nonzero), Bool.not_not]

theorem neg (h : Mirrors a a') : Mirrors (-a) (-a') where
  mantissa := h.mantissa
  scale := h.scale
  negative nonzero := congrArg not (h.negative nonzero)

theorem coefficient (h : Mirrors a a') : a'.coefficient = -a.coefficient := by
  simp only [Decimal.coefficient, h.mantissa]
  by_cases zero : a.mantissa = 0
  · simp [zero]
  · rw [h.negative zero]
    cases a.negative <;> simp

theorem value (h : Mirrors a a') : a'.value = -a.value := by
  rw [value_eq_coefficient, value_eq_coefficient, h.coefficient, h.scale]
  push_cast
  exact neg_div _ _

theorem abs (h : Mirrors a a') : a'.abs = a.abs := Decimal.ext rfl h.mantissa h.scale

theorem pos_iff (h : Mirrors a a') : 0 < a' ↔ a < 0 := by
  rw [lt_iff, lt_iff, value_zero, h.value, neg_pos]

end Mirrors

/-! ## Bringing a result into range -/

theorem mirrors_ofParts? {negative negative' : Bool} {m s : ℕ} (opposite : m ≠ 0 → negative' = !negative) :
    Option.Rel Mirrors (ofParts? negative m s) (ofParts? negative' m s) := by
  simp only [ofParts?]
  split
  next => exact .some ⟨rfl, rfl, opposite⟩
  next => exact .none

theorem mirrors_fit? {negative negative' : Bool} {m s : ℕ} (opposite : m ≠ 0 → negative' = !negative) :
    Option.Rel Mirrors (fit? negative m s) (fit? negative' m s) := by
  simp only [fit?]
  cases excess? m s with
  | none => exact .none
  | some k =>
    -- A mantissa that rounding leaves is not zero only if it was not zero before.
    have rounded := divHalfEven_le (n := m) (pow10_pos k)
    have carried := divHalfEven_le (n := divHalfEven m (pow10 k)) (d := 10) (by decide)
    simp only [Option.bind_eq_bind, Option.bind_some]
    split
    next => exact mirrors_ofParts? fun nonzero => opposite (by omega)
    next =>
      split
      next => exact .none
      next => exact mirrors_ofParts? fun nonzero => opposite (by omega)

/-! ## Operations -/

section

variable {a a' b b' : Decimal}

theorem mirrors_sumOf? (ha : Mirrors a a') (hb : Mirrors b b') :
    Option.Rel Mirrors (sumOf? a b) (sumOf? a' b') := by
  simp only [sumOf?, ha.scale, hb.scale, ha.coefficient, hb.coefficient, Int.neg_mul, ← Int.neg_add, Int.natAbs_neg]
  -- A total that is not zero changes its sign.
  refine mirrors_fit? fun nonzero => ?_
  rw [← decide_not, decide_eq_decide]
  omega

theorem mirrors_add? (ha : Mirrors a a') (hb : Mirrors b b') :
    Option.Rel Mirrors (a.add? b) (a'.add? b') := by
  simp only [add?, ha.isZero_iff, hb.isZero_iff]
  split
  next => exact .some hb
  next =>
    split
    next => exact .some ha
    next => exact mirrors_sumOf? ha hb

theorem mirrors_sub? (ha : Mirrors a a') (hb : Mirrors b b') :
    Option.Rel Mirrors (a.sub? b) (a'.sub? b') := by
  simp only [sub?, ha.isZero_iff, hb.isZero_iff]
  split
  next =>
    split
    next => exact .some hb
    next => exact .some ha
  next =>
    split
    next => exact .some hb.neg
    next => exact mirrors_sumOf? ha hb.neg

/-- To take away what is not zero is to add its opposite, down to the scale. -/
theorem sub?_eq_add?_neg (nonzero : ¬b.IsZero) (a : Decimal) : a.sub? b = a.add? (-b) := by
  have nonzero' : ¬(-b).IsZero := nonzero
  rw [sub?, add?, if_neg nonzero, if_neg nonzero']

theorem mul?_comm (a b : Decimal) : a.mul? b = b.mul? a := by
  simp only [mul?, Nat.mul_comm a.mantissa, Nat.add_comm a.scale, or_comm (a := a.IsZero), and_comm (a := a.IsShort),
    bne_comm (a := a.negative)]

theorem mirrors_mul? (h : Mirrors a a') (b : Decimal) : Option.Rel Mirrors (a.mul? b) (a'.mul? b) := by
  have short : a'.IsShort ↔ a.IsShort := by rw [IsShort, IsShort, h.mantissa]
  simp only [mul?, h.isZero_iff, short, h.mantissa, h.scale]
  split
  next => exact .some (.of_isZero isZero_zero)
  next nonzero =>
    rw [not_or] at nonzero
    have opposite : (a'.negative != b.negative) = !(a.negative != b.negative) := by
      rw [h.negative nonzero.1, Bool.not_bne]
    have product := mirrors_fit? (m := a.mantissa * b.mantissa) (s := a.scale + b.scale) fun _ => opposite
    split
    next =>
      split
      next => exact .some (.of_isZero isZero_zero)
      next =>
        -- A product of short mantissas that vanishes is left without a sign.
        refine rel_map product fun d d' same => ?_
        simp only [same.isZero_iff]
        split
        next zero =>
          rw [same.abs]
          exact .of_isZero zero
        next => exact same
    next => exact product

theorem mirrors_mul?_right (h : Mirrors b b') (a : Decimal) : Option.Rel Mirrors (a.mul? b) (a.mul? b') := by
  rw [mul?_comm, mul?_comm a]
  exact mirrors_mul? h a

/-! ## Saturation -/

theorem not_isZero_of_add? (out : a.add? b = none) : ¬a.IsZero := by
  intro zero
  rw [add?, if_pos zero] at out
  cases out

theorem not_isZero_of_mul? (out : a.mul? b = none) : ¬a.IsZero := by
  intro zero
  simp only [mul?, zero, true_or, if_true] at out
  cases out

theorem mirrors_least : Mirrors least greatest := ⟨rfl, rfl, fun _ => rfl⟩

theorem mirrors_saturatingAdd (ha : Mirrors a a') (hb : Mirrors b b') :
    Mirrors (a.saturatingAdd b) (a'.saturatingAdd b') := by
  refine rel_getD (mirrors_add? ha hb) fun out => ?_
  rw [ha.negative (not_isZero_of_add? out)]
  cases a.negative
  · exact mirrors_least.symm
  · exact mirrors_least

theorem mirrors_saturatingMul (h : Mirrors a a') (b : Decimal) :
    Mirrors (a.saturatingMul b) (a'.saturatingMul b) := by
  refine rel_getD (mirrors_mul? h b) fun out => ?_
  rw [h.negative (not_isZero_of_mul? out)]
  cases a.negative <;> cases b.negative
  case false.false | true.true => exact mirrors_least.symm
  case false.true | true.false => exact mirrors_least

end

end Decimal

end CostBasis
