import CostBasis.Position.Mark
import CostBasis.Proofs.Decimal.Saturation

/-!
# Marks move profits

A mark takes three saturating operations one after the other: the distance to the average price, its product
with the signed size, and the sum with the realized profit.  Each is a monotone function of its exact result,
so profits rise with the mark of a long position and fall with that of a short one, over the whole range of
the decimals and whatever the position.
-/

namespace CostBasis

open Decimal

/-- What a function gives for a larger decimal is no smaller. -/
def Rises (f : Decimal → Decimal) : Prop := ∀ m₁ m₂, m₁ ≤ m₂ → f m₁ ≤ f m₂

def Falls (f : Decimal → Decimal) : Prop := ∀ m₁ m₂, m₁ ≤ m₂ → f m₂ ≤ f m₁

namespace Position

/-! ## Marks by value -/

/-- The distance to the average price saturates first, and then its product with the size. -/
theorem saturates_unrealizedPnl (p : Position) (mark : Decimal) :
    Saturates (p.size.value * (mark.saturatingSub p.averagePrice).value) (p.unrealizedPnl mark) := by
  by_cases flat : p.IsFlat
  · rw [unrealizedPnl, if_pos flat, (isZero_iff _).mp flat, zero_mul]
    exact .near (by rw [value_zero]; exact nearest?_of_representable ⟨0, value_zero⟩)
  · rw [unrealizedPnl, if_neg flat]
    exact saturates_mul _ _

theorem saturates_totalPnl (p : Position) (mark : Decimal) :
    Saturates (p.realizedPnl.value + (p.unrealizedPnl mark).value) (p.totalPnl mark) :=
  saturates_add _ _

theorem saturates_notionalValue (p : Position) (mark : Decimal) :
    Saturates (|p.size.value| * mark.value) (p.notionalValue mark) := by
  rw [← value_abs]
  exact saturates_mul _ _

theorem value_unrealizedPnl (p : Position) (mark : Decimal) :
    (p.unrealizedPnl mark).value
      = saturated (p.size.value * saturated (mark.value - p.averagePrice.value)) := by
  rw [(p.saturates_unrealizedPnl mark).value_eq_saturated, (saturates_sub _ _).value_eq_saturated]

/-! ## Order -/

section

variable {p : Position}

theorem rises_unrealizedPnl (long : 0 ≤ p.size.value) : Rises p.unrealizedPnl := by
  intro m₁ m₂ le
  rw [le_iff] at le
  rw [le_iff, value_unrealizedPnl, value_unrealizedPnl]
  have distance : saturated (m₁.value - p.averagePrice.value) ≤ saturated (m₂.value - p.averagePrice.value) :=
    saturated_mono (sub_le_sub_right le _)
  exact saturated_mono (mul_le_mul_of_nonneg_left distance long)

theorem falls_unrealizedPnl (short : p.size.value ≤ 0) : Falls p.unrealizedPnl := by
  intro m₁ m₂ le
  rw [le_iff] at le
  rw [le_iff, value_unrealizedPnl, value_unrealizedPnl]
  have distance : saturated (m₁.value - p.averagePrice.value) ≤ saturated (m₂.value - p.averagePrice.value) :=
    saturated_mono (sub_le_sub_right le _)
  exact saturated_mono (mul_le_mul_of_nonpos_left distance short)

/-- The total follows the unrealized profit. -/
theorem totalPnl_le {m₁ m₂ : Decimal} (le : p.unrealizedPnl m₁ ≤ p.unrealizedPnl m₂) :
    p.totalPnl m₁ ≤ p.totalPnl m₂ := by
  rw [le_iff] at le
  rw [le_iff, (p.saturates_totalPnl m₁).value_eq_saturated, (p.saturates_totalPnl m₂).value_eq_saturated]
  exact saturated_mono (add_le_add_right le _)

theorem rises_notionalValue (p : Position) : Rises p.notionalValue := by
  intro m₁ m₂ le
  rw [le_iff] at le
  rw [le_iff, (p.saturates_notionalValue m₁).value_eq_saturated,
    (p.saturates_notionalValue m₂).value_eq_saturated]
  exact saturated_mono (mul_le_mul_of_nonneg_left le (abs_nonneg _))

/-! ## Sign -/

/-- Neither the distance nor its product with the size saturates to the other side of zero. -/
theorem unrealizedPnl_nonneg {mark : Decimal}
    (gains : 0 ≤ p.size.value ∧ p.averagePrice.value ≤ mark.value ∨
      p.size.value ≤ 0 ∧ mark.value ≤ p.averagePrice.value) : 0 ≤ p.unrealizedPnl mark := by
  rw [le_iff, value_zero, value_unrealizedPnl]
  obtain ⟨long, above⟩ | ⟨short, below⟩ := gains
  · exact saturated_nonneg (mul_nonneg long (saturated_nonneg (sub_nonneg.mpr above)))
  · exact saturated_nonneg (mul_nonneg_of_nonpos_of_nonpos short (saturated_nonpos (sub_nonpos.mpr below)))

theorem unrealizedPnl_nonpos {mark : Decimal}
    (loses : 0 ≤ p.size.value ∧ mark.value ≤ p.averagePrice.value ∨
      p.size.value ≤ 0 ∧ p.averagePrice.value ≤ mark.value) : p.unrealizedPnl mark ≤ 0 := by
  rw [le_iff, value_zero, value_unrealizedPnl]
  obtain ⟨long, below⟩ | ⟨short, above⟩ := loses
  · exact saturated_nonpos (mul_nonpos_of_nonneg_of_nonpos long (saturated_nonpos (sub_nonpos.mpr below)))
  · exact saturated_nonpos (mul_nonpos_of_nonpos_of_nonneg short (saturated_nonneg (sub_nonneg.mpr above)))

end

/-- Profits rise with the mark of a long position, fall with that of a short one and stay with that of a flat
one, and exposure rises.  What is held is worth no less than it cost on the right side of its average price,
and no more on the wrong one.  Every operation on the way gives the decimal nearest to its exact result or,
where that is out of range, the bound on its side. -/
theorem marks_move_profits (p : Position) :
    (0 < p.size → Rises p.unrealizedPnl ∧ Rises p.totalPnl) ∧
    (p.size < 0 → Falls p.unrealizedPnl ∧ Falls p.totalPnl) ∧
    (p.IsFlat → ∀ mark, p.unrealizedPnl mark = 0 ∧ ∀ other, p.totalPnl mark = p.totalPnl other) ∧
    Rises p.notionalValue ∧
    ∀ mark,
      (0 < p.size ∧ p.averagePrice ≤ mark ∨ p.size < 0 ∧ mark ≤ p.averagePrice →
        0 ≤ p.unrealizedPnl mark) ∧
      (0 < p.size ∧ mark ≤ p.averagePrice ∨ p.size < 0 ∧ p.averagePrice ≤ mark →
        p.unrealizedPnl mark ≤ 0) ∧
      (p.snapshot mark).totalPnl = p.totalPnl mark ∧
      Saturates (mark.value - p.averagePrice.value) (mark.saturatingSub p.averagePrice) ∧
      Saturates (p.size.value * (mark.saturatingSub p.averagePrice).value) (p.unrealizedPnl mark) ∧
      Saturates (p.realizedPnl.value + (p.unrealizedPnl mark).value) (p.totalPnl mark) ∧
      Saturates (|p.size.value| * mark.value) (p.notionalValue mark) := by
  simp only [lt_iff, value_zero]
  refine ⟨fun long => ?_, fun short => ?_, fun flat mark => ?_, p.rises_notionalValue, fun mark => ?_⟩
  · have rises := rises_unrealizedPnl long.le
    exact ⟨rises, fun m₁ m₂ le => totalPnl_le (rises m₁ m₂ le)⟩
  · have falls := falls_unrealizedPnl short.le
    exact ⟨falls, fun m₁ m₂ le => totalPnl_le (falls m₁ m₂ le)⟩
  · have zero : ∀ mark, p.unrealizedPnl mark = 0 := fun _ => if_pos flat
    exact ⟨zero mark, fun other => by rw [totalPnl, totalPnl, zero, zero]⟩
  · refine ⟨fun gains => ?_, fun loses => ?_, rfl, saturates_sub _ _, p.saturates_unrealizedPnl mark,
      p.saturates_totalPnl mark, p.saturates_notionalValue mark⟩
    · rw [le_iff, le_iff] at gains
      exact unrealizedPnl_nonneg (gains.imp (And.imp_left le_of_lt) (And.imp_left le_of_lt))
    · rw [le_iff, le_iff] at loses
      exact unrealizedPnl_nonpos (loses.imp (And.imp_left le_of_lt) (And.imp_left le_of_lt))

end Position

end CostBasis
