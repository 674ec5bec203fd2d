import CostBasis.Proofs.Ledger.Session

/-!
# Size and lots

A position is balanced when its size is the quantity of its lots, exactly.  Under FIFO the size and
the lots are updated by separate operations.  They stay balanced exactly as long as rounding the new
size gives the quantity of the new lots, which fails once quantities of far apart magnitudes meet.
-/

namespace CostBasis

open Decimal

namespace Position

/-- The magnitude of the size is the quantity of the lots. -/
structure Balanced (p : Position) : Prop where
  empty_iff : p.lots = [] ↔ p.size.IsZero
  size_eq : |p.size.value| = held (p.lots.map Lot.values)

theorem Sound.balanced_iff {p : Position} (sound : p.Sound) :
    p.Balanced ↔ |p.size.value| = held (p.lots.map Lot.values) := by
  constructor
  · exact Balanced.size_eq
  · intro size_eq
    refine ⟨⟨fun none => ?_, sound.flat⟩, size_eq⟩
    rw [none] at size_eq
    rw [isZero_iff]
    exact abs_eq_zero.mp size_eq

theorem balanced_of_flat {p : Position} (zero : p.size.IsZero) (none : p.lots = []) : p.Balanced where
  empty_iff := ⟨fun _ => zero, fun _ => none⟩
  size_eq := by
    rw [none, (isZero_iff _).mp zero]
    exact abs_zero

end Position

/-- Rounding the new size gives the quantity of the new lots. -/
def Entry.Agrees (e : Entry) : Prop :=
  let lots := e.before.lots.map Lot.values
  let quantity := e.fill.quantity.value
  if e.outcome.IsClosing then
    quantity < held lots → rounded (held lots - quantity) = held (drain rounded quantity lots)
  else rounded (held lots + quantity) = held lots + quantity

namespace Position

section

variable {p next : Position} {side : Side} {quantity price : Decimal} {outcome : FillOutcome}

theorem Balanced.add_iff (balanced : p.Balanced) (fifo : p.method = .fifo)
    (next_sound : next.Sound) (joins : ¬ p.Opposes side) (quantity_pos : 0 < quantity.value)
    (h : p.add side quantity price = .ok (next, outcome)) :
    next.Balanced ↔
      rounded (held (p.lots.map Lot.values) + quantity.value)
        = held (p.lots.map Lot.values) + quantity.value := by
  rw [next_sound.balanced_iff]
  obtain ⟨size, lots, average, _, sized, opened, rfl, _⟩ := add_eq_ok h
  have magnitude := (nearest?_abs_add joins quantity_pos sized).1
  rcases lotsAfterOpen_eq_ok opened with ⟨_, _, _, weighted, _⟩ | ⟨_, rfl, _⟩
  · rw [fifo] at weighted
    cases weighted
  · rw [← rounded_eq magnitude, balanced.size_eq]
    simp [Lot.values]

theorem Balanced.reduce_iff (balanced : p.Balanced) (sound : p.Sound) (next_sound : next.Sound)
    (opposes : p.Opposes side) (quantity_pos : 0 < quantity.value) (price_pos : 0 < price.value)
    (enough : quantity.value ≤ |p.size.value|)
    (h : p.reduce quantity price = .ok (next, outcome)) :
    next.Balanced ↔
      (quantity.value < held (p.lots.map Lot.values) →
        rounded (held (p.lots.map Lot.values) - quantity.value)
          = held (drain rounded quantity.value (p.lots.map Lot.values))) := by
  obtain ⟨walk, realizedPnl, lots, average, size, walked, _, left, _, sized, _, closed⟩ := reduce_eq_ok h
  have magnitude := (nearest?_abs_sub opposes enough sized).1
  obtain ⟨lots', found, _, lots_eq⟩ := sound.survivors quantity_pos price_pos walked
  obtain rfl : lots' = lots := Except.ok.inj (found.symm.trans left)
  -- The size is zero exactly when all that is held is closed: a difference never rounds to zero.
  have zero_iff : size.IsZero ↔ |p.size.value| = quantity.value := by
    rw [isZero_iff, ← abs_eq_zero]
    constructor
    · intro zero
      by_contra apart
      have positive : 0 < |size.value| := by
        rw [← value_abs] at magnitude enough apart
        exact nearest?_pos ((onGrid_value _).sub (onGrid_value _))
          (sub_pos.mpr (lt_of_le_of_ne enough (Ne.symm apart))) magnitude
      exact positive.ne' zero
    · intro all
      rw [all, sub_self, nearest?_of_representable ⟨0, value_zero⟩, Option.some_inj] at magnitude
      exact magnitude.symm
  rw [← balanced.size_eq]
  rcases closed with ⟨zero, rfl⟩ | ⟨open_, rfl⟩
  · -- A position that ends flat is cleared, whatever is left of its lots.
    refine iff_of_true (balanced_of_flat isZero_zero rfl) fun partly => ?_
    exact absurd (zero_iff.mp zero) partly.ne'
  · have partly : quantity.value < |p.size.value| :=
      lt_of_le_of_ne enough fun all => open_ (zero_iff.mpr all.symm)
    rw [next_sound.balanced_iff, rounded_eq magnitude, ← lots_eq]
    exact ⟨fun agrees _ => agrees, fun agrees => agrees partly⟩

/-- An accepted fill keeps a balanced position balanced exactly when its entry agrees. -/
theorem Balanced.fill_iff (balanced : p.Balanced) (sound : p.Sound) (fifo : p.method = .fifo)
    (h : p.fill side quantity price = .ok (next, outcome)) :
    next.Balanced ↔ Entry.Agrees ⟨⟨side, quantity, price⟩, p, next, outcome⟩ := by
  simp only [Entry.Agrees]
  simp only [isClosing_iff_opposes h]
  obtain ⟨quantity_pos, price_pos, p', rfl, ⟨opposes, enough, reduced⟩ | ⟨joins, added⟩⟩ := fill_eq_ok h
  · have p'_sound := sound.reduce quantity_pos price_pos reduced
    rw [if_pos opposes, ← balanced.reduce_iff sound p'_sound opposes quantity_pos price_pos enough reduced]
    exact ⟨fun b => ⟨b.empty_iff, b.size_eq⟩, fun b => ⟨b.empty_iff, b.size_eq⟩⟩
  · have p'_sound := sound.add joins quantity_pos price_pos added
    rw [if_neg joins, ← balanced.add_iff fifo p'_sound joins quantity_pos added]
    exact ⟨fun b => ⟨b.empty_iff, b.size_eq⟩, fun b => ⟨b.empty_iff, b.size_eq⟩⟩

end

end Position

namespace Session

def StaysBalanced (start : Session) (fills : List Fill) : Prop :=
  ∀ done, done <+: fills → ∀ s, start.runFills done = .ok s → s.position.Balanced

theorem staysBalanced_concat (start : Session) (fills : List Fill) (fill : Fill) :
    start.StaysBalanced (fills ++ [fill]) ↔
      start.StaysBalanced fills ∧
        ∀ s, start.runFills (fills ++ [fill]) = .ok s → s.position.Balanced :=
  forall_prefix_concat

/-- A FIFO position stays balanced through a run exactly when every accepted fill agrees. -/
theorem staysBalanced_iff (symbol : String) (fills : List Fill) :
    ∃ s, (start symbol .fifo).runFills fills = .ok s ∧
      ((start symbol .fifo).StaysBalanced fills ↔ ∀ e ∈ s.entries, e.Agrees) := by
  have start_balanced : (start symbol .fifo).position.Balanced :=
    Position.balanced_of_flat isZero_zero rfl
  obtain ⟨s, ran, _, _, holds⟩ := runFills_induction (start symbol .fifo)
    (motive := fun fills s => s.position.method = .fifo ∧
      ((start symbol .fifo).StaysBalanced fills ↔ ∀ e ∈ s.entries, e.Agrees))
    (start_sound symbol .fifo)
    ⟨rfl, iff_of_true
      (fun done before s ran => by
        obtain rfl := List.prefix_nil.mp before
        cases ran
        exact start_balanced)
      (fun e member => by cases member)⟩
    (fun fills s fill s' ran sound ⟨fifo, iff⟩ ran' turned => by
      have last : (∀ s, (start symbol .fifo).runFills (fills ++ [fill]) = .ok s → s.position.Balanced)
          ↔ s'.position.Balanced := by
        rw [ran']
        exact ⟨fun all => all s' rfl, fun balanced s eq => by
          cases eq
          exact balanced⟩
      rw [staysBalanced_concat, last]
      -- The last entry only matters while the run before it was balanced, which gives its start.
      have before : (start symbol .fifo).StaysBalanced fills → s.position.Balanced :=
        fun stays => stays fills (List.prefix_refl _) s ran
      cases turned with
      | refused => exact ⟨fifo, by rw [and_iff_left_of_imp before, iff]⟩
      | accepted filled =>
        refine ⟨(Position.method_of_fill filled).trans fifo, ?_⟩
        simp only [accept, List.forall_mem_append, List.forall_mem_singleton, ← iff]
        exact and_congr_right fun stays => (before stays).fill_iff sound fifo filled)
    fills
  exact ⟨s, ran, holds⟩

/-- Fills whose quantities are too far apart for a decimal to hold their sum. -/
def farApart : List Fill :=
  let large := Decimal.written 70000000000000000000000000000 0
  let small := Decimal.written 6 1
  let price := Decimal.written 1 1
  [⟨.buy, large, price⟩, ⟨.buy, small, price⟩, ⟨.sell, large, price⟩]

/-- The size rounds up where the lots do not, and what is left of it is one instead of six tenths. -/
theorem not_staysBalanced_farApart : ¬ (start "X" .fifo).StaysBalanced farApart := by
  intro stays
  have observed : ((start "X" .fifo).runFills farApart).toOption.map
      (fun s => (s.position.size, s.position.lots))
        = some (⟨false, 1, 0, by decide, by decide⟩,
            [⟨⟨false, 6, 1, by decide, by decide⟩, ⟨false, 1, 1, by decide, by decide⟩⟩]) := by
    decide +kernel
  obtain ⟨s, ran, facts⟩ := exists_of_observed observed
  obtain ⟨size, lots⟩ := Prod.mk.inj facts
  have held_eq := (stays farApart (List.prefix_refl _) s ran).size_eq
  rw [size, lots] at held_eq
  norm_num [Lot.values, held, value_eq, withSign] at held_eq

end Session

end CostBasis
