import CostBasis.Position.Fill
import CostBasis.Proofs.Ledger.Lots

/-!
# Walking through the lots

A close walks through the lots from the oldest on.  No trusted operation stops the walk, and what it
leaves of the lots is a recursion on their quantities alone, with every difference rounded.
-/

namespace CostBasis

open Decimal

def Lot.values (lot : Lot) : ℚ × ℚ := (lot.quantity.value, lot.price.value)

/-- What is left of lots, given by quantity and price, when `amount` is taken from the oldest on. -/
def drain (round : ℚ → ℚ) (amount : ℚ) : List (ℚ × ℚ) → List (ℚ × ℚ)
  | [] => []
  | (quantity, price) :: rest =>
    if quantity ≤ amount then drain round (round (amount - quantity)) rest
    else (round (quantity - amount), price) :: rest

/-- What is left of `amount` when it is taken from lots from the oldest on. -/
def unfilled (round : ℚ → ℚ) (amount : ℚ) : List (ℚ × ℚ) → ℚ
  | [] => amount
  | (quantity, _) :: rest =>
    if quantity ≤ amount then unfilled round (round (amount - quantity)) rest else 0

def held (lots : List (ℚ × ℚ)) : ℚ := (lots.map Prod.fst).sum

@[simp] theorem held_nil : held [] = 0 := rfl

@[simp] theorem held_cons (lot : ℚ × ℚ) (rest : List (ℚ × ℚ)) : held (lot :: rest) = lot.1 + held rest := by
  simp [held]

@[simp] theorem held_append (first second : List (ℚ × ℚ)) :
    held (first ++ second) = held first + held second := by
  simp [held]

/-- Sound lots are of positive quantities. -/
theorem Lot.values_pos {lots : List Lot} (sound : ∀ lot ∈ lots, lot.Sound) :
    ∀ pair ∈ lots.map Lot.values, 0 < pair.1 := by
  intro pair member
  obtain ⟨lot, found, rfl⟩ := List.mem_map.mp member
  exact (sound lot found).quantity_pos

/-- Two prices that are not negative are no further apart than the larger of them. -/
theorem Lot.Sound.price_apart {lot : Lot} (sound : lot.Sound) {price : Decimal}
    (nonneg : 0 ≤ price.value) : |price.value - lot.price.value| < limit := by
  have price_le := (le_abs_self _).trans (abs_value_le price)
  have lot_le := (le_abs_self _).trans (abs_value_le lot.price)
  have lot_nonneg := sound.price_nonneg
  refine lt_of_le_of_lt ?_ maxMantissa_lt_limit
  rw [abs_le]
  constructor <;> linarith

namespace Position

/-- The walk after a lot: the lot is closed outright, or something is taken from it. -/
def Walk.pass (w : Walk) (lot : Lot) (remaining realized : Decimal) : Walk :=
  if lot.quantity.value ≤ w.remaining.value then
    { w with remaining, realized, exhausted := w.exhausted + 1 }
  else { w with remaining, realized, taken := min w.remaining lot.quantity }

@[simp] theorem Walk.pass_remaining (w : Walk) (lot : Lot) (remaining realized : Decimal) :
    (w.pass lot remaining realized).remaining = remaining := by
  simp only [pass]
  split <;> rfl

@[simp] theorem Walk.pass_realized (w : Walk) (lot : Lot) (remaining realized : Decimal) :
    (w.pass lot remaining realized).realized = realized := by
  simp only [pass]
  split <;> rfl

theorem Walk.through_of_isZero {w : Walk} (zero : w.remaining.IsZero) (price direction : Decimal)
    (lots : List Lot) : Walk.through price direction w lots = .ok w := by
  cases lots with
  | nil => rfl
  | cons lot rest =>
    simp only [Walk.through]
    rw [if_pos zero]

theorem survivors_cons (lot : Lot) (rest : List Lot) (w : Walk) (n : ℕ) :
    survivors (lot :: rest) { w with exhausted := n + 1 }
      = survivors rest { w with exhausted := n } := rfl

/-- What survives of a lot keeps its price, down to the scale. -/
theorem prices_of_survivors {lots left : List Lot} {w : Walk} (h : survivors lots w = .ok left) :
    left.map Lot.price = (lots.map Lot.price).drop w.exhausted := by
  unfold survivors at h
  rw [← List.map_drop]
  split at h
  next gone =>
    cases h
    rw [gone]
  next lot rest found =>
    unfold Lot.consume at h
    simp only [bind_eq_ok] at h
    obtain ⟨lot', ⟨quantity, _, consumed⟩, h⟩ := h
    cases consumed
    cases h
    rw [found]
    rfl

/-- A walk that closed no lot leaves the first with what was not taken from it. -/
theorem exists_survivors {lot : Lot} {rest : List Lot} {w : Walk}
    (sound : ∀ lot' ∈ lot :: rest, lot'.Sound) (nonneg : 0 ≤ w.taken.value)
    (partly : w.taken.value < lot.quantity.value) (none : w.exhausted = 0) :
    ∃ left, survivors (lot :: rest) w = .ok left ∧ (∀ lot ∈ left, lot.Sound) ∧
      left.map Lot.values = drain rounded w.taken.value ((lot :: rest).map Lot.values) := by
  rw [List.forall_mem_cons] at sound
  obtain ⟨first, consumed, first_sound, price_eq, quantity_eq⟩ := sound.1.exists_consume nonneg partly
  refine ⟨first :: rest, ?_, List.forall_mem_cons.mpr ⟨first_sound, sound.2⟩, ?_⟩
  · simp only [survivors]
    simp only [none, List.drop_zero, consumed]
    rfl
  · simp only [List.map_cons, Lot.values, drain, if_neg (not_le.mpr partly), price_eq,
      rounded_eq quantity_eq]

section

variable {price direction : Decimal} (price_nonneg : 0 ≤ price.value)
  (unit : direction.value = 1 ∨ direction.value = -1)

include price_nonneg unit

/-- One lot of a walk: only the two checked operations on the profit can stop it. -/
theorem Walk.through_cons {w : Walk} {lot : Lot} (rest : List Lot) (sound : lot.Sound)
    (nonneg : 0 ≤ w.remaining.value) (open_ : ¬ w.remaining.IsZero) :
    ∃ gain signed remaining : Decimal,
      nearest? (price.value - lot.price.value) = some gain.value ∧
      signed.value = min w.remaining.value lot.quantity.value * direction.value ∧
      nearest? (w.remaining.value - min w.remaining.value lot.quantity.value)
        = some remaining.value ∧
      Walk.through price direction w (lot :: rest) = (do
        let pnl ← Obstacle.checked .realizedPnl (gain.mul? signed)
        let realized ← Obstacle.checked .realizedPnl (w.realized.add? pnl)
        Walk.through price direction (w.pass lot remaining realized) rest) := by
  have consumed : (min w.remaining lot.quantity).value
      = min w.remaining.value lot.quantity.value := value_min _ _
  have consumed_nonneg : 0 ≤ (min w.remaining lot.quantity).value := by
    rw [consumed]
    exact le_min nonneg sound.quantity_pos.le
  obtain ⟨gain, gained, gain_eq⟩ := Obstacle.exists_subtract (sound.price_apart price_nonneg)
  obtain ⟨signed, multiplied, signed_eq⟩ :=
    Obstacle.exists_multiply_sign (a := min w.remaining lot.quantity) unit
  obtain ⟨remaining, left, remaining_eq⟩ :=
    Obstacle.exists_subtract_of_le (a := w.remaining) consumed_nonneg
      (by rw [consumed]; exact min_le_left _ _)
  rw [consumed] at signed_eq remaining_eq
  -- A lot is popped by comparing numbers, not decimals: the two may differ in scale.
  have outright : min w.remaining lot.quantity ≈ lot.quantity
      ↔ lot.quantity.value ≤ w.remaining.value := by
    rw [equiv_iff, consumed, min_eq_right_iff]
  refine ⟨gain, signed, remaining, gain_eq, signed_eq, remaining_eq, ?_⟩
  conv_lhs => unfold Walk.through
  rw [if_neg open_]
  simp only [gained, multiplied, left, ok_bind, outright]
  rfl

/-- What a walk leaves of sound lots, and what it could not take from them. -/
theorem Walk.through_eq_ok {lots : List Lot} (sound : ∀ lot ∈ lots, lot.Sound) (w : Walk)
    {w' : Walk} (nonneg : 0 ≤ w.remaining.value) (untaken : w.taken.value = 0)
    (h : Walk.through price direction w lots = .ok w') :
    w'.remaining.value = unfilled rounded w.remaining.value (lots.map Lot.values) ∧
    ∃ n left, w'.exhausted = w.exhausted + n ∧
      survivors lots { w' with exhausted := n } = .ok left ∧ (∀ lot ∈ left, lot.Sound) ∧
      left.map Lot.values = drain rounded w.remaining.value (lots.map Lot.values) := by
  -- Along the lots; as long as the walk goes on, nothing has been taken from a lot it did not close.
  induction lots generalizing w with
  | nil =>
    cases h
    exact ⟨rfl, 0, [], rfl, rfl, by simp, rfl⟩
  | cons lot rest ih =>
    have lot_sound := sound lot List.mem_cons_self
    have rest_sound : ∀ lot ∈ rest, lot.Sound := fun lot member =>
      sound lot (List.mem_cons_of_mem _ member)
    -- Whether the walk ends before this lot or inside it, the lot shrinks by what is taken from it.
    have ends : ∀ {w' : Walk}, w'.taken.value = w.remaining.value → w'.exhausted = w.exhausted →
        w.remaining.value < lot.quantity.value →
        ∃ n left, w'.exhausted = w.exhausted + n ∧
          survivors (lot :: rest) { w' with exhausted := n } = .ok left ∧
          (∀ lot ∈ left, lot.Sound) ∧
          left.map Lot.values
            = drain rounded w.remaining.value ((lot :: rest).map Lot.values) := by
      intro w' taken_eq exhausted partly
      rw [← taken_eq] at nonneg partly ⊢
      obtain ⟨left, found, left_sound, left_eq⟩ :=
        exists_survivors (w := { w' with exhausted := 0 }) sound nonneg partly rfl
      exact ⟨0, left, exhausted, found, left_sound, left_eq⟩
    by_cases zero : w.remaining.IsZero
    · rw [Walk.through_of_isZero zero, Except.ok.injEq] at h
      subst h
      rw [isZero_iff] at zero
      have partly : w.remaining.value < lot.quantity.value := zero ▸ lot_sound.quantity_pos
      refine ⟨?_, ends (untaken.trans zero.symm) rfl partly⟩
      simp only [List.map_cons, Lot.values, unfilled, if_neg (not_le.mpr partly)]
      exact zero
    · obtain ⟨gain, signed, remaining, _, _, left, through⟩ :=
        Walk.through_cons price_nonneg unit rest lot_sound nonneg zero
      rw [through] at h
      simp only [bind_eq_ok] at h
      obtain ⟨pnl, _, realized, _, h⟩ := h
      have remaining_nonneg : 0 ≤ remaining.value :=
        nearest?_nonneg (sub_nonneg.mpr (min_le_left _ _)) left
      by_cases outright : lot.quantity.value ≤ w.remaining.value
      · rw [min_eq_right outright] at left
        rw [Walk.pass, if_pos outright] at h
        obtain ⟨unfilled_eq, n, lots', exhausted, found, lots_sound, lots_eq⟩ :=
          ih rest_sound { w with remaining, realized, exhausted := w.exhausted + 1 }
            remaining_nonneg untaken h
        refine ⟨?_, n + 1, lots', ?_, (survivors_cons ..).trans found, lots_sound, ?_⟩
        · simp only [List.map_cons, Lot.values, unfilled, if_pos outright, rounded_eq left]
          exact unfilled_eq
        · rw [exhausted, Nat.add_assoc, Nat.add_comm 1]
        · rw [lots_eq]
          simp only [List.map_cons, Lot.values, drain, if_pos outright, rounded_eq left]
      · have partly := not_le.mp outright
        rw [min_eq_left partly.le, sub_self,
          nearest?_of_representable ⟨0, value_zero⟩, Option.some_inj] at left
        rw [Walk.pass, if_neg outright,
          Walk.through_of_isZero ((isZero_iff _).mpr left.symm), Except.ok.injEq] at h
        subst h
        refine ⟨?_, ends ?_ rfl partly⟩
        · simp only [List.map_cons, Lot.values, unfilled, if_neg outright]
          exact left.symm
        · rw [value_min, min_eq_left partly.le]

end

end Position

end CostBasis
