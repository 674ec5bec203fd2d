import CostBasis.Proofs.Ledger.Session

/-!
# The exact range

When all quantities of a run are multiples of one decimal place, all prices multiples of another, and
the product of the whole volume and the largest price fits a mantissa with the places of both, then
every quantity, price and cost that comes up is a decimal.  Only mean prices are rounded.
-/

namespace CostBasis

open Decimal

instance (fill : Fill) : Decidable fill.IsPositive := by
  simp only [Fill.IsPositive]
  infer_instance

def turnover (fills : List Fill) : ℚ :=
  ((fills.filter (·.IsPositive)).map (·.quantity.value)).sum

def largestPrice (fills : List Fill) : ℚ :=
  ((fills.filter (·.IsPositive)).map (·.price.value)).foldr max 0

/-- Fills whose quantities have at most `a` decimal places and whose prices have at most `b`, of a
volume that keeps every cost in range. -/
structure ExactRange (a b : ℕ) (fills : List Fill) : Prop where
  places : 12 ≤ b
  scale_le : a + b ≤ 28
  scales : ∀ fill ∈ fills, fill.IsPositive → fill.quantity.scale ≤ a ∧ fill.price.scale ≤ b
  product_lt : turnover fills * largestPrice fills * 10 ^ (a + b) < 2 ^ 96

/-! ## Volume and prices of a run -/

theorem turnover_append (first second : List Fill) :
    turnover (first ++ second) = turnover first + turnover second := by
  simp [turnover]

theorem turnover_singleton {fill : Fill} (positive : fill.IsPositive) :
    turnover [fill] = fill.quantity.value := by
  simp [turnover, positive]

theorem turnover_nonneg (fills : List Fill) : 0 ≤ turnover fills := by
  refine List.sum_nonneg fun x member => ?_
  obtain ⟨fill, found, rfl⟩ := List.mem_map.mp member
  have positive : fill.IsPositive := by simpa using (List.mem_filter.mp found).2
  exact positive.1.le

/-- The volume of a beginning is part of the volume. -/
theorem turnover_mono {done fills : List Fill} (before : done <+: fills) :
    turnover done ≤ turnover fills := by
  obtain ⟨rest, rfl⟩ := before
  rw [turnover_append]
  exact le_add_of_nonneg_right (turnover_nonneg rest)

theorem le_turnover {fills : List Fill} {fill : Fill} (member : fill ∈ fills)
    (positive : fill.IsPositive) : fill.quantity.value ≤ turnover fills := by
  obtain ⟨before, after, rfl⟩ := List.append_of_mem member
  rw [← List.singleton_append, turnover_append, turnover_append, turnover_singleton positive]
  have := turnover_nonneg before
  have := turnover_nonneg after
  linarith

theorem largestPrice_nonneg (fills : List Fill) : 0 ≤ largestPrice fills := by
  simp only [largestPrice]
  induction (fills.filter (·.IsPositive)).map (·.price.value) with
  | nil => exact le_rfl
  | cons price rest ih => exact ih.trans (le_max_right _ _)

theorem le_largestPrice {fills : List Fill} {fill : Fill} (member : fill ∈ fills)
    (positive : fill.IsPositive) : fill.price.value ≤ largestPrice fills := by
  have found : fill.price.value ∈ (fills.filter (·.IsPositive)).map (·.price.value) :=
    List.mem_map_of_mem (List.mem_filter.mpr ⟨member, by simpa using positive⟩)
  simp only [largestPrice]
  generalize (fills.filter (·.IsPositive)).map (·.price.value) = prices at found ⊢
  induction prices with
  | nil => cases found
  | cons price rest ih =>
    cases List.mem_cons.mp found with
    | inl eq =>
      exact eq ▸ le_max_left _ _
    | inr found =>
      exact (ih found).trans (le_max_right _ _)

/-! ## Bounds -/

/-- Quantities up to `volume` of `a` places and prices up to `top` of `b` places stay in range,
multiplied with each other too. -/
structure Bounds (a b : ℕ) (volume top : ℚ) : Prop where
  places : averagePlaces ≤ b
  scale_le : a + b ≤ maxScale
  volume_nonneg : 0 ≤ volume
  top_nonneg : 0 ≤ top
  quantity_lt : volume * 10 ^ a < 2 ^ 96
  price_lt : top * 10 ^ b < 2 ^ 96
  product_lt : volume * top * 10 ^ (a + b) < 2 ^ 96

theorem ExactRange.bounds {a b : ℕ} {fills : List Fill} (range : ExactRange a b fills) :
    Bounds a b (turnover fills) (largestPrice fills) := by
  have volume_nonneg := turnover_nonneg fills
  have top_nonneg := largestPrice_nonneg fills
  have product_eq : turnover fills * largestPrice fills * 10 ^ (a + b)
      = turnover fills * 10 ^ a * (largestPrice fills * 10 ^ b) := by
    rw [pow_add]
    ring
  have product_lt := range.product_lt
  -- One unit of either place bounds the other factor, if there is a positive fill at all.
  have both : turnover fills * 10 ^ a < 2 ^ 96 ∧ largestPrice fills * 10 ^ b < 2 ^ 96 := by
    by_cases some_positive : ∃ fill ∈ fills, fill.IsPositive
    · obtain ⟨fill, member, positive⟩ := some_positive
      obtain ⟨quantity_scale, price_scale⟩ := range.scales fill member positive
      have quantity_unit : 1 ≤ turnover fills * 10 ^ a :=
        ((onGrid_of_scale quantity_scale).one_le positive.1).trans
          (mul_le_mul_of_nonneg_right (le_turnover member positive) (by positivity))
      have price_unit : 1 ≤ largestPrice fills * 10 ^ b :=
        ((onGrid_of_scale price_scale).one_le positive.2).trans
          (mul_le_mul_of_nonneg_right (le_largestPrice member positive) (by positivity))
      rw [product_eq] at product_lt
      constructor
      · exact (le_mul_of_one_le_right (by positivity) price_unit).trans_lt product_lt
      · exact (le_mul_of_one_le_left (by positivity) quantity_unit).trans_lt product_lt
    · have none : fills.filter (·.IsPositive) = [] := by
        rw [List.filter_eq_nil_iff]
        intro fill member
        simpa using fun positive => some_positive ⟨fill, member, positive⟩
      simp [turnover, largestPrice, none]
  exact ⟨range.places, range.scale_le, volume_nonneg, top_nonneg, both.1, both.2, product_lt⟩

namespace Bounds

variable {a b : ℕ} {volume top x : ℚ} (bounds : Bounds a b volume top)

include bounds

theorem representable_quantity (grid : OnGrid a x) (le : |x| ≤ volume) : Representable x := by
  refine grid.representable ((Nat.le_add_right a b).trans bounds.scale_le) ?_
  exact (mul_le_mul_of_nonneg_right le (by positivity)).trans_lt bounds.quantity_lt

theorem representable_price (grid : OnGrid b x) (le : |x| ≤ top) : Representable x := by
  refine grid.representable ((Nat.le_add_left b a).trans bounds.scale_le) ?_
  exact (mul_le_mul_of_nonneg_right le (by positivity)).trans_lt bounds.price_lt

theorem representable_amount (grid : OnGrid (a + b) x) (le : |x| ≤ volume * top) :
    Representable x := by
  refine grid.representable bounds.scale_le ?_
  exact (mul_le_mul_of_nonneg_right le (by positivity)).trans_lt bounds.product_lt

end Bounds

end CostBasis
