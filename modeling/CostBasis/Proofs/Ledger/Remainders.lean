import CostBasis.Proofs.Ledger.ExactLots

/-!
# Cumulative intervals

Lay opened lots end to end: the lot opened after a quantity `before` takes up the interval from
`before` to `before` plus its own quantity.  Closing from the oldest on moves one mark along that line.
What is left of a lot is the part of its interval beyond the mark, and a close books profit on the part
of each interval that the mark moves over.
-/

namespace CostBasis

open Decimal

/-- What is left of lots opened one after the other when `closed` is closed of them, oldest first;
`before` was opened before the first of them. -/
def remainders (closed before : ℚ) : List (ℚ × ℚ) → List (ℚ × ℚ)
  | [] => []
  | (quantity, price) :: rest =>
    if closed < before + quantity then
      (before + quantity - max before closed, price) :: remainders closed (before + quantity) rest
    else remainders closed (before + quantity) rest

/-- The profit per unit of direction on moving the mark from `start` to `stop` at a price. -/
def overlapGain (price start stop before : ℚ) : List (ℚ × ℚ) → ℚ
  | [] => 0
  | (quantity, entry) :: rest =>
    max 0 (min (before + quantity) stop - max before start) * (price - entry)
      + overlapGain price start stop (before + quantity) rest

theorem remainders_append (closed before : ℚ) (first second : List (ℚ × ℚ)) :
    remainders closed before (first ++ second)
      = remainders closed before first ++ remainders closed (before + held first) second := by
  induction first generalizing before with
  | nil => simp [remainders]
  | cons lot rest ih =>
    simp only [List.cons_append, remainders, held_cons, ← add_assoc, ih]
    split <;> simp

section

variable {lots : List (ℚ × ℚ)} (positive : ∀ lot ∈ lots, 0 < lot.1)

include positive

/-- Lots opened beyond the mark are left whole. -/
theorem remainders_of_le {closed before : ℚ} (le : closed ≤ before) :
    remainders closed before lots = lots := by
  induction lots generalizing before with
  | nil => rfl
  | cons lot rest ih =>
    have first := positive lot List.mem_cons_self
    have whole : before + lot.1 - max before closed = lot.1 := by
      rw [max_eq_left le]
      ring
    rw [remainders, if_pos (by linarith), whole,
      ih (fun lot' found => positive lot' (List.mem_cons_of_mem lot found)) (by linarith)]

/-- What is left is positive. -/
theorem remainders_pos (closed before : ℚ) : ∀ lot ∈ remainders closed before lots, 0 < lot.1 := by
  induction lots generalizing before with
  | nil => simp [remainders]
  | cons lot rest ih =>
    have first := positive lot List.mem_cons_self
    have rest_pos := ih (fun lot' found => positive lot' (List.mem_cons_of_mem lot found))
      (before + lot.1)
    rw [remainders]
    split
    next open_ =>
      rintro left member
      rcases List.mem_cons.mp member with rfl | found
      · exact sub_pos.mpr (max_lt (by linarith) open_)
      · exact rest_pos left found
    next => exact rest_pos

theorem held_remainders {closed before : ℚ} (le : max before closed ≤ before + held lots) :
    held (remainders closed before lots) = before + held lots - max before closed := by
  induction lots generalizing before with
  | nil =>
    rw [held_nil, add_zero] at le ⊢
    rw [remainders, held_nil, le_antisymm le (le_max_left _ _), sub_self]
  | cons lot rest ih =>
    have first := positive lot List.mem_cons_self
    have rest_positive : ∀ lot ∈ rest, 0 < lot.1 := fun lot' found =>
      positive lot' (List.mem_cons_of_mem lot found)
    have others := held_nonneg rest_positive
    rw [held_cons, ← add_assoc] at le ⊢
    rw [remainders]
    split
    next open_ =>
      rw [held_cons, ih rest_positive (by rw [max_eq_left open_.le]; linarith), max_eq_left open_.le]
      ring
    next gone =>
      have gone := not_lt.mp gone
      have mark : max (before + lot.1) closed = max before closed := by
        rw [max_eq_right gone, max_eq_right (by linarith)]
      rw [ih rest_positive (mark ▸ le), mark]

/-- Draining what is left moves the mark. -/
theorem drain_remainders {closed before amount : ℚ} (nonneg : 0 ≤ amount) :
    drain id amount (remainders closed before lots)
      = remainders (max before closed + amount) before lots := by
  induction lots generalizing before amount with
  | nil => rfl
  | cons lot rest ih =>
    have first := positive lot List.mem_cons_self
    have rest_positive : ∀ lot ∈ rest, 0 < lot.1 := fun lot' found =>
      positive lot' (List.mem_cons_of_mem lot found)
    have before_le : before ≤ max before closed := le_max_left _ _
    rw [remainders, remainders]
    by_cases open_ : closed < before + lot.1
    · have mark : max (before + lot.1) closed = before + lot.1 := max_eq_left open_.le
      rw [if_pos open_, drain]
      by_cases outright : before + lot.1 - max before closed ≤ amount
      · -- The mark passes this lot and moves on in the others.
        rw [if_pos outright, if_neg (by linarith), id, ih rest_positive (by linarith), mark]
        congr 1
        ring
      · -- The mark stops inside this lot and leaves the others whole.
        have inside : max before closed + amount < before + lot.1 := by linarith
        rw [if_neg outright, if_pos inside, id,
          max_eq_right (show before ≤ max before closed + amount by linarith),
          remainders_of_le rest_positive open_.le, remainders_of_le rest_positive inside.le]
        congr 2
        ring
    · -- This lot was closed before.
      have gone := not_lt.mp open_
      have mark : max (before + lot.1) closed = max before closed := by
        rw [max_eq_right gone, max_eq_right (by linarith)]
      rw [if_neg open_, if_neg (by linarith [le_max_right before closed]), ih rest_positive nonneg, mark]

/-- The mark does not reach lots opened beyond its end. -/
theorem overlapGain_of_le (price : ℚ) {start stop before : ℚ} (le : stop ≤ before) :
    overlapGain price start stop before lots = 0 := by
  induction lots generalizing before with
  | nil => rfl
  | cons lot rest ih =>
    have first := positive lot List.mem_cons_self
    have apart : min (before + lot.1) stop - max before start ≤ 0 := by
      have := min_le_right (before + lot.1) stop
      have := le_max_left before start
      linarith
    rw [overlapGain, max_eq_left apart, zero_mul, zero_add,
      ih (fun lot' found => positive lot' (List.mem_cons_of_mem lot found)) (by linarith)]

/-- Where the mark started does not matter to lots opened beyond its start. -/
theorem overlapGain_of_start_le (price stop : ℚ) {start start' before : ℚ} (le : start ≤ before)
    (le' : start' ≤ before) :
    overlapGain price start stop before lots = overlapGain price start' stop before lots := by
  induction lots generalizing before with
  | nil => rfl
  | cons lot rest ih =>
    have first := positive lot List.mem_cons_self
    rw [overlapGain, overlapGain, max_eq_left le, max_eq_left le',
      ih (fun lot' found => positive lot' (List.mem_cons_of_mem lot found)) (by linarith) (by linarith)]

/-- The profit on draining what is left is the profit on moving the mark. -/
theorem gain_remainders (price : ℚ) {closed before amount : ℚ} (nonneg : 0 ≤ amount) :
    gain price amount (remainders closed before lots)
      = overlapGain price (max before closed) (max before closed + amount) before lots := by
  induction lots generalizing before amount with
  | nil => rfl
  | cons lot rest ih =>
    have first := positive lot List.mem_cons_self
    have rest_positive : ∀ lot ∈ rest, 0 < lot.1 := fun lot' found =>
      positive lot' (List.mem_cons_of_mem lot found)
    have before_le : before ≤ max before closed := le_max_left _ _
    rw [remainders, overlapGain, max_eq_right before_le]
    by_cases open_ : closed < before + lot.1
    · have mark : max (before + lot.1) closed = before + lot.1 := max_eq_left open_.le
      have mark_lt : max before closed < before + lot.1 := max_lt (by linarith) open_
      rw [if_pos open_, gain]
      by_cases outright : before + lot.1 - max before closed ≤ amount
      · -- The mark passes this lot and moves on in the others.
        have stop_eq : before + lot.1 + (amount - (before + lot.1 - max before closed))
            = max before closed + amount := by ring
        have all : min (before + lot.1) (max before closed + amount) = before + lot.1 :=
          min_eq_left (by linarith)
        have some_left : max 0 (before + lot.1 - max before closed)
            = before + lot.1 - max before closed := max_eq_right (by linarith)
        rw [min_eq_right outright, all, some_left, ih rest_positive (by linarith), mark, stop_eq,
          overlapGain_of_start_le rest_positive price _ le_rfl mark_lt.le]
      · -- The mark stops inside this lot and does not reach the others.
        have inside : max before closed + amount ≤ before + lot.1 := by linarith
        rw [min_eq_left (not_le.mp outright).le, min_eq_right inside, add_sub_cancel_left,
          max_eq_right nonneg, sub_self, gain_zero (remainders_pos rest_positive _ _),
          overlapGain_of_le rest_positive price inside]
    · -- This lot was closed before.
      have gone := not_lt.mp open_
      have mark : max (before + lot.1) closed = max before closed := by
        rw [max_eq_right gone, max_eq_right (by linarith)]
      have passed : min (before + lot.1) (max before closed + amount) - max before closed ≤ 0 := by
        have := min_le_left (before + lot.1) (max before closed + amount)
        have := le_max_right before closed
        linarith
      rw [if_neg open_, max_eq_left passed, zero_mul, zero_add, ih rest_positive nonneg, mark]

end

end CostBasis
