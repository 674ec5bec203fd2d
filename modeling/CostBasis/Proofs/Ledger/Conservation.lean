import CostBasis.Proofs.Ledger.ExactRun

/-!
# Conservation of cash

Realized profit is what came in for sales less what went out for purchases, plus what the open lots
cost.  Opening and closing keep this exactly.  A merge keeps it up to the rounding of one mean price,
and the error is not amplified by the closes that follow.
-/

namespace CostBasis

open Decimal

def traded (side : Side) (entries : List Entry) : ℚ :=
  ((entries.filter (·.fill.side = side)).map fun e => e.fill.quantity.value * e.fill.price.value).sum

/-- What came in for sales less what went out for purchases. -/
def cash (entries : List Entry) : ℚ := traded .sell entries - traded .buy entries

namespace Position

/-- What the open lots cost, negative for a short holding. -/
def basis (p : Position) : ℚ :=
  match p.direction with
  | .long => worth (p.lots.map Lot.values)
  | .short => -worth (p.lots.map Lot.values)
  | .flat => 0

end Position

namespace Entry

/-- The fill was averaged into an existing lot. -/
def IsMerge (e : Entry) : Prop :=
  e.before.method = .weightedAverage ∧ e.before.lots ≠ [] ∧ ¬ e.outcome.IsClosing

instance (e : Entry) : Decidable e.IsMerge := by
  simp only [IsMerge]
  infer_instance

end Entry

/-- The most that the mean prices of merges are off together: a unit of the twelfth place of the size
after each of them. -/
def drift (entries : List Entry) : ℚ :=
  1 / 10 ^ 12 * ((entries.filter (·.IsMerge)).map (|·.after.size.value|)).sum

/-! ## Entry by entry -/

theorem cash_concat (entries : List Entry) (e : Entry) :
    cash (entries ++ [e])
      = cash entries - e.fill.side.factor * (e.fill.quantity.value * e.fill.price.value) := by
  simp only [cash, traded]
  cases side : e.fill.side <;> simp [side, Side.factor, Side.sign] <;> ring

theorem drift_concat_of_merge {e : Entry} (merge : e.IsMerge) (entries : List Entry) :
    drift (entries ++ [e]) = drift entries + |e.after.size.value| / 10 ^ averagePlaces := by
  simp [drift, merge, averagePlaces]
  ring

theorem drift_concat_of_not_merge {e : Entry} (not_merge : ¬ e.IsMerge) (entries : List Entry) :
    drift (entries ++ [e]) = drift entries := by
  simp [drift, not_merge]

theorem drift_of_fifo {entries : List Entry} (fifo : ∀ e ∈ entries, e.before.method = .fifo) :
    drift entries = 0 := by
  have none : entries.filter (·.IsMerge) = [] := by
    rw [List.filter_eq_nil_iff]
    intro e member merge
    have weighted := (of_decide_eq_true merge).1
    rw [fifo e member] at weighted
    cases weighted
  rw [drift, none]
  simp

namespace Position

/-- The basis has the sign of the holding; nothing held costs nothing. -/
theorem Sound.basis_eq {p : Position} (sound : p.Sound) (side : Side)
    (along : 0 ≤ side.factor * p.size.value) :
    p.basis = side.factor * worth (p.lots.map Lot.values) := by
  simp only [basis]
  rcases lt_trichotomy p.size.value 0 with negative | zero | positive
  · rw [direction_of_neg negative]
    cases side.factor_cases with
    | inl one =>
      rw [one] at along
      linarith
    | inr minus =>
      rw [minus, neg_one_mul]
  · rw [direction_of_zero zero, sound.flat ((isZero_iff _).mpr zero)]
    simp
  · rw [direction_of_pos positive]
    cases side.factor_cases with
    | inl one =>
      rw [one, one_mul]
    | inr minus =>
      rw [minus] at along
      linarith

theorem basis_of_isFlat {p : Position} (flat : p.IsFlat) : p.basis = 0 := by
  rw [basis, direction_of_zero ((isZero_iff _).mp flat)]

def imbalance (p : Position) (entries : List Entry) : ℚ :=
  p.realizedPnl.value - (cash entries + p.basis)

theorem imbalance_new (symbol : String) (method : Method) :
    (Position.new symbol method).imbalance [] = 0 := by
  have basis_eq : (Position.new symbol method).basis = 0 := rfl
  rw [imbalance, basis_eq]
  simp [cash, traded, Position.new]

section

variable {p next : Position} {fill : Fill} {outcome : FillOutcome} {a b : ℕ} {top used : ℚ}

/-- A close moves cost from the basis into profit: nothing is gained or lost. -/
theorem Shrunk.imbalance_eq (shrunk : p.Shrunk fill next outcome) (exact : p.Exact a b top used)
    (next_sound : next.Sound) (opposes : p.Opposes fill.side)
    (enough : fill.quantity.value ≤ |p.size.value|) (positive : 0 < fill.quantity.value)
    (entries : List Entry) :
    next.imbalance (entries ++ [⟨fill, p, next, outcome⟩]) = p.imbalance entries := by
  have opposite : fill.side.opposite.factor = -fill.side.factor := fill.side.factor_opposite
  have basis_before : p.basis = -fill.side.factor * worth (p.lots.map Lot.values) := by
    rw [exact.sound.basis_eq fill.side.opposite, opposite]
    rw [opposite, neg_mul, ← abs_size_of_opposes opposes]
    exact abs_nonneg _
  have basis_after : next.basis = -fill.side.factor * worth (next.lots.map Lot.values) := by
    rw [next_sound.basis_eq fill.side.opposite, opposite]
    rw [shrunk.size_along opposes]
    linarith
  have booked := gain_eq exact.values_pos fill.price.value positive.le (exact.size_eq ▸ enough)
  simp only [imbalance]
  rw [cash_concat, basis_before, basis_after, shrunk.realized_eq, shrunk.booked_eq, shrunk.lots_eq, booked]
  ring

/-- An adding fill pays for its lot: only the rounding of a merge is gained or lost. -/
theorem Grown.imbalance_eq (grown : p.Grown fill next outcome) (sound : p.Sound)
    (next_sound : next.Sound) (joins : ¬ p.Opposes fill.side) (positive : 0 < fill.quantity.value)
    (entries : List Entry) :
    next.imbalance (entries ++ [⟨fill, p, next, outcome⟩])
      = p.imbalance entries - fill.side.factor * (worth (next.lots.map Lot.values)
        - (worth (p.lots.map Lot.values) + fill.quantity.value * fill.price.value)) := by
  have basis_before : p.basis = fill.side.factor * worth (p.lots.map Lot.values) := by
    refine sound.basis_eq _ ?_
    rw [← abs_size_of_not_opposes joins]
    exact abs_nonneg _
  have basis_after : next.basis = fill.side.factor * worth (next.lots.map Lot.values) := by
    refine next_sound.basis_eq _ ?_
    rw [grown.size_along joins]
    exact add_nonneg (abs_nonneg _) positive.le
  simp only [imbalance]
  rw [cash_concat, basis_before, basis_after, grown.realized_eq]
  ring

/-- So it is off by no more than a merge is allowed to be. -/
theorem Grown.abs_imbalance_le (grown : p.Grown fill next outcome) (sound : p.Sound)
    (next_sound : next.Sound) (joins : ¬ p.Opposes fill.side) (positive : 0 < fill.quantity.value)
    (adding : ¬ outcome.IsClosing) {entries : List Entry} (le : |p.imbalance entries| ≤ drift entries) :
    |next.imbalance (entries ++ [⟨fill, p, next, outcome⟩])|
      ≤ drift (entries ++ [⟨fill, p, next, outcome⟩]) := by
  rw [grown.imbalance_eq sound next_sound joins positive]
  by_cases merge : Entry.IsMerge ⟨fill, p, next, outcome⟩
  · rw [drift_concat_of_merge merge]
    refine (abs_sub _ _).trans (add_le_add le ?_)
    rw [Side.abs_factor_mul]
    exact grown.worth_le
  · -- Without a merge the lot is appended at its own cost, and nothing is rounded.
    have appended := grown.lots_eq (by
      by_contra neither
      rw [not_or] at neither
      refine merge ⟨?_, neither.2, adding⟩
      cases method : p.method with
      | fifo => exact absurd method neither.1
      | weightedAverage => rfl)
    rw [drift_concat_of_not_merge merge, appended, List.map_append, worth_append]
    simp only [List.map_singleton, worth_cons, worth_nil, Lot.values, add_zero, sub_self, mul_zero,
      sub_zero]
    exact le

end

end Position

namespace Session

/-- Throughout a run in the exact range, the imbalance is at most the drift of merges. -/
theorem abs_imbalance_of_run (symbol : String) (method : Method) {a b : ℕ} {requests done : List Request}
    (range : ExactRange a b (fillsOf requests)) (before : done <+: requests) :
    ∃ s, (start symbol method).run done = .ok s ∧
      |s.position.imbalance s.entries| ≤ drift s.entries := by
  obtain ⟨s, ran, _, balanced⟩ := exact_induction range symbol method
    (motive := fun s => |s.position.imbalance s.entries| ≤ drift s.entries)
    (by
      change |(Position.new symbol method).imbalance []| ≤ drift []
      rw [Position.imbalance_new]
      simp [drift])
    (fun s method _ _ kept => kept)
    (fun s fill next outcome used filled exact opposes enough shrunk kept => by
      have positive := (Position.fill_eq_ok filled).1
      have closing : outcome.IsClosing := (Position.isClosing_iff_opposes filled).mpr opposes
      have next_sound := exact.sound.fill filled
      simp only [accept]
      rw [shrunk.imbalance_eq exact next_sound opposes enough positive,
        drift_concat_of_not_merge fun merge => merge.2.2 closing]
      exact kept)
    (fun s fill next outcome used filled exact joins grown kept => by
      have positive := (Position.fill_eq_ok filled).1
      have adding : ¬ outcome.IsClosing := mt (Position.isClosing_iff_opposes filled).mp joins
      exact grown.abs_imbalance_le exact.sound (exact.sound.fill filled) joins positive adding kept)
    before
  exact ⟨s, ran, balanced⟩

/-- Throughout a run in the exact range, realized profit is cash and basis up to the drift of merges.
A position that was only ever under FIFO has none, so when it is flat its profit is its cash flow. -/
theorem cash_conservation (symbol : String) (method : Method) {a b : ℕ} {requests done : List Request}
    (range : ExactRange a b (fillsOf requests)) (before : done <+: requests) :
    ∃ s, (start symbol method).run done = .ok s ∧
      |s.position.realizedPnl.value - (cash s.entries + s.position.basis)| ≤ drift s.entries ∧
      ((∀ e ∈ s.entries, e.before.method = .fifo) →
        s.position.realizedPnl.value = cash s.entries + s.position.basis ∧
        (s.position.IsFlat → s.position.realizedPnl.value = cash s.entries)) := by
  obtain ⟨s, ran, balanced⟩ := abs_imbalance_of_run symbol method range before
  refine ⟨s, ran, balanced, fun fifo => ?_⟩
  rw [drift_of_fifo fifo] at balanced
  have equal := sub_eq_zero.mp (abs_nonpos_iff.mp balanced)
  refine ⟨equal, fun flat => ?_⟩
  rw [equal, Position.basis_of_isFlat flat, add_zero]

/-- Two purchases that average to `5 / 3`, a sale of part of them, and a switch of the method. -/
def averagedThenSold : List Request :=
  let two := Decimal.written 2 0
  [.fill ⟨.buy, 1, 1⟩, .fill ⟨.buy, two, two⟩, .fill ⟨.sell, 1, two⟩, .setMethod .fifo]

/-- Under weighted average three fills are accepted, one of them a merge, and the profit is one unit of the
twelfth place off; the switch is refused.  Under FIFO the same fills and a sale of the rest leave a flat
position, whose profit is what came in. -/
theorem cash_conservation_averagedThenSold :
    let rest : Request := .fill ⟨.sell, .written 2 0, .written 4 0⟩
    ExactRange 0 12 (fillsOf averagedThenSold) ∧ ExactRange 0 12 (fillsOf (averagedThenSold ++ [rest])) ∧
      (∃ s, (start "X" .weightedAverage).run averagedThenSold = .ok s ∧
        s.entries.length = 3 ∧ s.position.method = .weightedAverage ∧
        s.position.realizedPnl = .written 333333333333 12 ∧
        cash s.entries + s.position.basis = 333333333334 / 10 ^ 12 ∧ drift s.entries = 3 / 10 ^ 12 ∧
        |s.position.realizedPnl.value - (cash s.entries + s.position.basis)| ≤ drift s.entries) ∧
      ∃ t, (start "X" .fifo).run (averagedThenSold ++ [rest]) = .ok t ∧
        t.entries.length = 4 ∧ (∀ e ∈ t.entries, e.before.method = .fifo) ∧ t.position.IsFlat ∧
        t.position.realizedPnl = .written 5 0 ∧ t.position.realizedPnl.value = cash t.entries := by
  intro rest
  have range : ExactRange 0 12 (fillsOf averagedThenSold) :=
    ⟨by decide, by decide, by decide +kernel, by decide +kernel⟩
  have range_rest : ExactRange 0 12 (fillsOf (averagedThenSold ++ [rest])) :=
    ⟨by decide, by decide, by decide +kernel, by decide +kernel⟩
  refine ⟨range, range_rest, ?_, ?_⟩
  · obtain ⟨s, ran, balanced, _⟩ := cash_conservation "X" .weightedAverage range (List.prefix_refl _)
    have observed : ((start "X" .weightedAverage).run averagedThenSold).toOption.map
        (fun s => (s.entries.length, s.position.method, s.position.realizedPnl,
          cash s.entries + s.position.basis, drift s.entries))
        = some (3, .weightedAverage, .written 333333333333 12, 333333333334 / 10 ^ 12, 3 / 10 ^ 12) := by
      decide +kernel
    have sold := eq_of_observed observed ran
    simp only [Prod.mk.injEq] at sold
    obtain ⟨fills, method, realized, worth_eq, drift_eq⟩ := sold
    exact ⟨s, ran, fills, method, realized, worth_eq, drift_eq, balanced⟩
  · obtain ⟨t, ran, _, balanced⟩ := cash_conservation "X" .fifo range_rest (List.prefix_refl _)
    have observed : ((start "X" .fifo).run (averagedThenSold ++ [rest])).toOption.map
        (fun t => (t.entries.length, decide (∀ e ∈ t.entries, e.before.method = .fifo),
          decide t.position.IsFlat, t.position.realizedPnl))
        = some (4, true, true, .written 5 0) := by decide +kernel
    have sold := eq_of_observed observed ran
    simp only [Prod.mk.injEq, decide_eq_true_eq] at sold
    obtain ⟨fills, fifo, flat, realized⟩ := sold
    exact ⟨t, ran, fills, fifo, flat, realized, (balanced fifo).2 flat⟩

end Session

end CostBasis
