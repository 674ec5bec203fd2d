import CostBasis.Proofs.Ledger.ExactRun
import CostBasis.Proofs.Ledger.Remainders

/-!
# The closed form of a FIFO ledger

In the exact range a FIFO ledger is a function of the fills accepted since the position was last flat:
of the lots they opened, laid end to end, it holds what lies beyond the quantity they closed.
-/

namespace CostBasis

open Decimal

/-- The entries since the position was last flat. -/
def sinceFlat (entries : List Entry) : List Entry :=
  entries.foldl (fun cycle e => if e.after.IsFlat then [] else cycle ++ [e]) []

/-- The quantities and prices that entries opened or added, oldest first. -/
def openedLots (entries : List Entry) : List (ℚ × ℚ) :=
  (entries.filter (¬ ·.outcome.IsClosing)).map fun e => (e.fill.quantity.value, e.fill.price.value)

def closedTotal (entries : List Entry) : ℚ :=
  ((entries.filter (·.outcome.IsClosing)).map (·.fill.quantity.value)).sum

theorem sinceFlat_concat (entries : List Entry) (e : Entry) :
    sinceFlat (entries ++ [e]) = if e.after.IsFlat then [] else sinceFlat entries ++ [e] := by
  simp only [sinceFlat]
  rw [List.foldl_append]
  rfl

theorem openedLots_concat_closing {e : Entry} (closing : e.outcome.IsClosing) (entries : List Entry) :
    openedLots (entries ++ [e]) = openedLots entries := by
  simp [openedLots, closing]

theorem openedLots_concat_adding {e : Entry} (adding : ¬ e.outcome.IsClosing) (entries : List Entry) :
    openedLots (entries ++ [e])
      = openedLots entries ++ [(e.fill.quantity.value, e.fill.price.value)] := by
  simp [openedLots, adding]

theorem closedTotal_concat_closing {e : Entry} (closing : e.outcome.IsClosing) (entries : List Entry) :
    closedTotal (entries ++ [e]) = closedTotal entries + e.fill.quantity.value := by
  simp [closedTotal, closing]

theorem closedTotal_concat_adding {e : Entry} (adding : ¬ e.outcome.IsClosing) (entries : List Entry) :
    closedTotal (entries ++ [e]) = closedTotal entries := by
  simp [closedTotal, adding]

namespace Session

/-- The entries of the holding that is open now. -/
def cycle (s : Session) : List Entry := sinceFlat s.entries

theorem cycle_accept (s : Session) (fill : Fill) (outcome : FillOutcome) {next : Position}
    (open_ : ¬ next.IsFlat) :
    (s.accept fill next outcome).cycle = s.cycle ++ [⟨fill, s.position, next, outcome⟩] := by
  rw [cycle, accept, sinceFlat_concat, if_neg open_]
  rfl

/-- The ledger is what lies beyond the closed quantity, and so is the size, on the opening side. -/
structure ClosedForm (s : Session) : Prop where
  lots_eq : s.position.lots.map Lot.values
    = remainders (closedTotal s.cycle) 0 (openedLots s.cycle)
  size_eq : |s.position.size.value| = held (openedLots s.cycle) - closedTotal s.cycle
  held_eq : |s.position.size.value| = held (s.position.lots.map Lot.values)
  sign_eq : ∀ e ∈ s.cycle, ¬ e.outcome.IsClosing →
    s.position.size.value = e.fill.side.factor * |s.position.size.value|

/-- What a session says to a positive fill: it refuses a close of more than is held, and books on any
other close the profit on the intervals that are closed. -/
structure Answers (s : Session) (fill : Fill) : Prop where
  refused_iff : (∃ failure, s.position.apply fill = .error failure) ↔
    s.position.Opposes fill.side ∧ |s.position.size.value| < fill.quantity.value
  refused_eq : ∀ failure, s.position.apply fill = .error failure →
    failure = .refused
      (.insufficientPosition s.position.symbol fill.quantity s.position.size.abs)
  closed : ∀ next outcome, s.position.apply fill = .ok (next, outcome) →
    s.position.Opposes fill.side →
    outcome.opened = 0 ∧ outcome.closed = fill.quantity ∧
      outcome.realizedPnl.value = fill.side.opposite.factor *
        overlapGain fill.price.value (closedTotal s.cycle)
          (closedTotal s.cycle + fill.quantity.value) 0 (openedLots s.cycle)

/-- What carries the closed form from fill to fill. -/
structure InCycle (s : Session) : Prop where
  fifo : s.position.method = .fifo
  flat : s.position.IsFlat → s.cycle = []
  opened_pos : ∀ lot ∈ openedLots s.cycle, 0 < lot.1
  closed_nonneg : 0 ≤ closedTotal s.cycle
  lots_eq : s.position.lots.map Lot.values
    = remainders (closedTotal s.cycle) 0 (openedLots s.cycle)
  size_eq : |s.position.size.value| = held (openedLots s.cycle) - closedTotal s.cycle
  sign_eq : ∀ e ∈ s.cycle, ¬ e.outcome.IsClosing →
    s.position.size.value = e.fill.side.factor * |s.position.size.value|

namespace InCycle

variable {s : Session}

theorem of_flat (fifo : s.position.method = .fifo) (zero : s.position.size.value = 0)
    (none : s.position.lots = []) (restart : s.cycle = []) : s.InCycle where
  fifo := fifo
  flat _ := restart
  opened_pos := by simp [restart, openedLots]
  closed_nonneg := by simp [restart, closedTotal]
  lots_eq := by
    rw [none, restart]
    rfl
  size_eq := by
    rw [zero, restart]
    simp [openedLots, closedTotal]
  sign_eq := by simp [restart]

theorem closed_le (inCycle : s.InCycle) : closedTotal s.cycle ≤ held (openedLots s.cycle) := by
  have size_nonneg := abs_nonneg s.position.size.value
  rw [inCycle.size_eq] at size_nonneg
  linarith

theorem closedForm (inCycle : s.InCycle) : s.ClosedForm where
  lots_eq := inCycle.lots_eq
  size_eq := inCycle.size_eq
  held_eq := by
    have mark : max 0 (closedTotal s.cycle) = closedTotal s.cycle := max_eq_right inCycle.closed_nonneg
    have within : max 0 (closedTotal s.cycle) ≤ 0 + held (openedLots s.cycle) := by
      rw [mark, zero_add]
      exact inCycle.closed_le
    rw [inCycle.lots_eq, held_remainders inCycle.opened_pos within, mark, inCycle.size_eq, zero_add]
  sign_eq := inCycle.sign_eq

/-- A size that stays on the side of the holding stays on the side that opened it. -/
theorem sign_of_along (inCycle : s.InCycle) {side : Side} {size : ℚ}
    (before : 0 ≤ side.factor * s.position.size.value) (after : side.factor * size = |size|) {e : Entry}
    (member : e ∈ s.cycle) (adding : ¬ e.outcome.IsClosing) : size = e.fill.side.factor * |size| := by
  have magnitude : 0 < |s.position.size.value| := by
    refine abs_pos.mpr fun zero => ?_
    rw [inCycle.flat ((isZero_iff _).mpr zero)] at member
    cases member
  have same : e.fill.side.factor = side.factor := by
    rw [inCycle.sign_eq e member adding] at before
    -- Opposite factors would give a holding of both signs.
    rcases e.fill.side.factor_cases with opened | opened <;>
      rcases side.factor_cases with along | along <;>
      rw [opened, along] at before ⊢ <;> linarith
  rw [same]
  exact Side.eq_factor_mul_abs after

section

variable {fill : Fill} {next : Position} {outcome : FillOutcome}
  (filled : s.position.apply fill = .ok (next, outcome))

include filled

/-- An adding fill lays its lot at the end of the line. -/
theorem grown (inCycle : s.InCycle) (joins : ¬ s.position.Opposes fill.side)
    (grown : s.position.Grown fill next outcome) : (s.accept fill next outcome).InCycle := by
  have positive := (Position.fill_eq_ok filled).1
  have adding : ¬ outcome.IsClosing := mt (Position.isClosing_iff_opposes filled).mp joins
  have abs_size := grown.abs_size_eq joins positive
  have open_ : ¬ next.IsFlat := grown.not_isFlat joins positive
  have cycle_eq := cycle_accept s fill outcome open_
  have opened_eq : openedLots (s.accept fill next outcome).cycle
      = openedLots s.cycle ++ [(fill.quantity.value, fill.price.value)] := by
    rw [cycle_eq, openedLots_concat_adding adding]
  have closed_eq : closedTotal (s.accept fill next outcome).cycle = closedTotal s.cycle := by
    rw [cycle_eq, closedTotal_concat_adding adding]
  refine ⟨(Position.method_of_fill filled).trans inCycle.fifo, fun flat => absurd flat open_, ?_,
    closed_eq ▸ inCycle.closed_nonneg, ?_, ?_, ?_⟩
  · rw [opened_eq, List.forall_mem_append, List.forall_mem_singleton]
    exact ⟨inCycle.opened_pos, positive⟩
  · -- The new lot is beyond the mark, so all of it is there.
    have last : remainders (closedTotal s.cycle) (0 + held (openedLots s.cycle))
        [(fill.quantity.value, fill.price.value)] = [(fill.quantity.value, fill.price.value)] :=
      remainders_of_le (by simpa using positive) (by rw [zero_add]; exact inCycle.closed_le)
    change next.lots.map Lot.values = _
    rw [opened_eq, closed_eq, remainders_append, last, ← inCycle.lots_eq,
      grown.lots_eq (.inl inCycle.fifo), List.map_append]
    rfl
  · change |next.size.value| = _
    rw [opened_eq, closed_eq, held_append, held_cons, held_nil, abs_size, inCycle.size_eq]
    ring
  · intro e member e_adding
    change next.size.value = _ * |next.size.value|
    have after : fill.side.factor * next.size.value = |next.size.value| :=
      (grown.size_along joins).trans abs_size.symm
    have before : 0 ≤ fill.side.factor * s.position.size.value := by
      rw [← Position.abs_size_of_not_opposes joins]
      exact abs_nonneg _
    rw [cycle_eq] at member
    cases List.mem_append.mp member with
    | inl old => exact inCycle.sign_of_along before after old e_adding
    | inr new =>
      rw [List.mem_singleton] at new
      rw [new]
      exact Side.eq_factor_mul_abs after

/-- A closing fill moves the mark, unless it ends the holding. -/
theorem shrunk (inCycle : s.InCycle) (next_sound : next.Sound) (opposes : s.position.Opposes fill.side)
    (enough : fill.quantity.value ≤ |s.position.size.value|)
    (shrunk : s.position.Shrunk fill next outcome) : (s.accept fill next outcome).InCycle := by
  have positive := (Position.fill_eq_ok filled).1
  have closing : outcome.IsClosing := (Position.isClosing_iff_opposes filled).mpr opposes
  have fifo := (Position.method_of_fill filled).trans inCycle.fifo
  by_cases flat : next.IsFlat
  · -- Flat again, the line of lots starts anew.
    refine of_flat fifo ((isZero_iff _).mp flat) (next_sound.flat flat) ?_
    rw [cycle, accept, sinceFlat_concat, if_pos flat]
  · have abs_size := shrunk.abs_size_eq opposes enough
    have cycle_eq := cycle_accept s fill outcome flat
    have opened_eq : openedLots (s.accept fill next outcome).cycle = openedLots s.cycle := by
      rw [cycle_eq, openedLots_concat_closing closing]
    have closed_eq : closedTotal (s.accept fill next outcome).cycle
        = closedTotal s.cycle + fill.quantity.value := by
      rw [cycle_eq, closedTotal_concat_closing closing]
    have closed_nonneg := inCycle.closed_nonneg
    refine ⟨fifo, fun zero => absurd zero flat, opened_eq ▸ inCycle.opened_pos, ?_, ?_, ?_, ?_⟩
    · rw [closed_eq]
      exact add_nonneg closed_nonneg positive.le
    · change next.lots.map Lot.values = _
      rw [opened_eq, closed_eq, shrunk.lots_eq, inCycle.lots_eq,
        drain_remainders inCycle.opened_pos positive.le, max_eq_right closed_nonneg]
    · change |next.size.value| = _
      rw [opened_eq, closed_eq, abs_size, inCycle.size_eq]
      ring
    · intro e member e_adding
      change next.size.value = _ * |next.size.value|
      have after : fill.side.opposite.factor * next.size.value = |next.size.value| :=
        (shrunk.size_along opposes).trans abs_size.symm
      have before : 0 ≤ fill.side.opposite.factor * s.position.size.value := by
        rw [Side.factor_opposite, neg_mul, ← Position.abs_size_of_opposes opposes]
        exact abs_nonneg _
      rw [cycle_eq] at member
      cases List.mem_append.mp member with
      | inl old => exact inCycle.sign_of_along before after old e_adding
      | inr new =>
        -- The new entry is a close, so it does not count.
        rw [List.mem_singleton] at new
        rw [new] at e_adding
        exact absurd closing e_adding

end

theorem answers {a b : ℕ} {volume top used : ℚ} (inCycle : s.InCycle)
    (bounds : Bounds a b volume top) (exact : s.position.Exact a b top used) {fill : Fill}
    (fill_exact : fill.Exact a b top) (room : used + fill.quantity.value ≤ volume) : s.Answers fill := by
  have positive := fill_exact.positive.1
  rcases exact.apply_cases bounds fill_exact room with
    ⟨opposes, less, refused⟩ | ⟨next, outcome, filled, _, did⟩
  · refine ⟨iff_of_true ⟨_, refused⟩ ⟨opposes, less⟩, ?_, ?_⟩
    · intro failure failed
      exact Except.error.inj (failed.symm.trans refused)
    · intro next outcome filled
      rw [refused] at filled
      cases filled
  · refine ⟨iff_of_false ?_ ?_, ?_, ?_⟩
    · rintro ⟨failure, failed⟩
      rw [filled] at failed
      cases failed
    · rintro ⟨opposes, less⟩
      rcases did with ⟨_, enough, _⟩ | ⟨joins, _⟩
      · exact absurd enough (not_le.mpr less)
      · exact joins opposes
    · intro failure failed
      rw [filled] at failed
      cases failed
    · intro next' outcome' filled' opposes
      rw [filled] at filled'
      cases filled'
      rcases did with ⟨_, _, shrunk⟩ | ⟨joins, _⟩
      · refine ⟨shrunk.opened_eq, shrunk.closed_eq, ?_⟩
        have mark : max 0 (closedTotal s.cycle) = closedTotal s.cycle := max_eq_right inCycle.closed_nonneg
        rw [shrunk.booked_eq, inCycle.lots_eq, gain_remainders inCycle.opened_pos _ positive.le, mark,
          Side.factor_opposite]
      · exact absurd opposes joins

end InCycle

/-- After every step of a FIFO run in the exact range the ledger has its closed form, and the next
positive fill is answered from it. -/
theorem fifo_closedForm (symbol : String) {a b : ℕ} {done rest : List Fill}
    (range : ExactRange a b (done ++ rest)) :
    ∃ s, (start symbol .fifo).runFills done = .ok s ∧ s.ClosedForm ∧
      ∀ fill ∈ rest.head?, fill.IsPositive → s.Answers fill := by
  have range' : ExactRange a b (fillsOf ((done ++ rest).map .fill)) := by rwa [fillsOf_map_fill]
  have before : done.map Request.fill <+: (done ++ rest).map .fill :=
    (List.prefix_append done rest).map Request.fill
  obtain ⟨s, ran, exact, inCycle⟩ := exact_induction range' symbol .fifo (motive := InCycle)
    (InCycle.of_flat rfl value_zero rfl rfl)
    (fun s method member _ _ => by
      obtain ⟨fill, _, wrong⟩ := List.mem_map.mp member
      cases wrong)
    (fun s fill next outcome used filled exact opposes enough shrunk kept =>
      kept.shrunk filled (exact.sound.fill filled) opposes enough shrunk)
    (fun s fill next outcome used filled exact joins grown kept => kept.grown filled joins grown)
    before
  refine ⟨s, ran, inCycle.closedForm, fun fill first positive => ?_⟩
  obtain ⟨later, rfl⟩ : ∃ later, rest = fill :: later := by
    cases rest with
    | nil => cases first
    | cons fill' later =>
      cases first
      exact ⟨later, rfl⟩
  rw [fillsOf_map_fill, fillsOf_map_fill] at exact
  have next : done ++ [fill] <+: done ++ fill :: later := by simp
  obtain ⟨fill_exact, room⟩ := range.next next positive
  exact inCycle.answers range.bounds exact fill_exact room

/-- Two purchases, and a sale that ends inside the second lot. -/
def soldAcrossLots : List Fill :=
  let two := Decimal.written 2 0
  let three := Decimal.written 3 0
  [⟨.buy, two, 1⟩, ⟨.buy, two, three⟩, ⟨.sell, three, two⟩]

/-- One of the second lot is left, beyond the three that are closed, and a sale of two is refused. -/
theorem fifo_closedForm_soldAcrossLots :
    let more : Fill := ⟨.sell, .written 2 0, 1⟩
    ExactRange 0 12 (soldAcrossLots ++ [more]) ∧
      ∃ s, (start "X" .fifo).runFills soldAcrossLots = .ok s ∧ s.ClosedForm ∧
        s.position.lots = [⟨1, .written 3 0⟩] ∧ closedTotal s.cycle = 3 ∧
        more ∈ [more].head? ∧ more.IsPositive ∧ s.Answers more ∧
        s.position.apply more = .error (.refused (.insufficientPosition "X" (.written 2 0) 1)) := by
  intro more
  have range : ExactRange 0 12 (soldAcrossLots ++ [more]) :=
    ⟨by decide, by decide, by decide +kernel, by decide +kernel⟩
  obtain ⟨s, ran, closedForm, answers⟩ := fifo_closedForm "X" range
  have observed : ((start "X" .fifo).runFills soldAcrossLots).toOption.map
      (fun s => (s.position.lots, s.position.size, s.position.symbol, closedTotal s.cycle))
      = some ([⟨1, .written 3 0⟩], 1, "X", 3) := by decide +kernel
  have sold := eq_of_observed observed ran
  simp only [Prod.mk.injEq] at sold
  obtain ⟨lots, size, symbol, closed⟩ := sold
  have positive : more.IsPositive := by decide +kernel
  have answered := answers more rfl positive
  have opposes : s.position.Opposes more.side := by
    rw [Position.Opposes, Position.direction, size]
    decide +kernel
  have less : |s.position.size.value| < more.quantity.value := by
    rw [size]
    decide +kernel
  obtain ⟨failure, refused⟩ := answered.refused_iff.mpr ⟨opposes, less⟩
  rw [answered.refused_eq failure refused, symbol, size] at refused
  exact ⟨range, s, ran, closedForm, lots, closed, rfl, positive, answered, refused⟩

end Session

end CostBasis
