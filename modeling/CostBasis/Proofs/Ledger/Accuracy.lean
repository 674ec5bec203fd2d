import CostBasis.Proofs.Ledger.ClosedForm
import CostBasis.Proofs.Ledger.Conservation
import CostBasis.Proofs.Ledger.Flattening

/-!
# The accuracy of the average price

In the exact range the average price of a position is the mean of its lots, right to twelve places, and so is
the price of a merged lot of the two that were merged.  However often means are taken of means, they stay
between the prices that the holding was opened at, and need no more places than those.
-/

namespace CostBasis

open Decimal

/-! ## Between the prices of fills -/

/-- A price between those of fills, of no more places than the finest of them or than twelve. -/
structure PricedBy (fills : List Fill) (price : Decimal) : Prop where
  low : ∃ fill ∈ fills, fill.price.value ≤ price.value
  high : ∃ fill ∈ fills, price.value ≤ fill.price.value
  places : price.scale ≤ averagePlaces ∨ ∃ fill ∈ fills, price.scale ≤ fill.price.scale

namespace PricedBy

variable {fills : List Fill} {price : Decimal}

theorem of_mem {fill : Fill} (member : fill ∈ fills) : PricedBy fills fill.price where
  low := ⟨fill, member, le_rfl⟩
  high := ⟨fill, member, le_rfl⟩
  places := .inr ⟨fill, member, le_rfl⟩

theorem mono {more : List Fill} (priced : PricedBy fills price) (subset : fills ⊆ more) :
    PricedBy more price := by
  obtain ⟨⟨low, low_mem, low_le⟩, ⟨high, high_mem, le_high⟩, places⟩ := priced
  refine ⟨⟨low, subset low_mem, low_le⟩, ⟨high, subset high_mem, le_high⟩, places.imp_right ?_⟩
  rintro ⟨fill, member, le⟩
  exact ⟨fill, subset member, le⟩

/-- An average is between the prices that those it averages are between. -/
theorem of_isAverage {lots : List Lot} {average : Decimal} (isAverage : Lot.IsAverage lots average)
    (each : ∀ lot ∈ lots, PricedBy fills lot.price) : PricedBy fills average := by
  obtain ⟨⟨cheap, cheap_mem, cheap_le⟩, ⟨dear, dear_mem, le_dear⟩, places, _⟩ := isAverage
  obtain ⟨low, low_mem, low_le⟩ := (each cheap cheap_mem).low
  obtain ⟨high, high_mem, le_high⟩ := (each dear dear_mem).high
  refine ⟨⟨low, low_mem, low_le.trans cheap_le⟩, ⟨high, high_mem, le_dear.trans le_high⟩, ?_⟩
  obtain few | ⟨lot, lot_mem, le⟩ := places
  · exact .inl few
  · obtain few | ⟨fill, member, finer⟩ := (each lot lot_mem).places
    · exact .inl (le.trans few)
    · exact .inr ⟨fill, member, le.trans finer⟩

theorem pos (priced : PricedBy fills price) (positive : ∀ fill ∈ fills, 0 < fill.price.value) :
    0 < price.value := by
  obtain ⟨low, member, le⟩ := priced.low
  exact (positive low member).trans_le le

end PricedBy

/-! ## What fills do to the prices of lots -/

namespace Lot

theorem scale_price_of_merge {first second merged : Lot} (folded : first.merge second = .ok merged) :
    merged.price.scale ≤ meanPlaces first second := by
  obtain ⟨_, _, _, mean, _, _, _, _, _, made⟩ := merge_eq_ok folded
  obtain ⟨merged_eq, _⟩ := make?_eq_some made
  rw [merged_eq]
  exact scale_roundTo_le mean _

/-- A merged lot has the quantity of both lots, at their average price. -/
theorem Exact.isAverage_of_merge {a b : ℕ} {volume top : ℚ} (bounds : Bounds a b volume top)
    {first second merged : Lot} (exact₁ : first.Exact a b top) (exact₂ : second.Exact a b top)
    (le : first.quantity.value + second.quantity.value ≤ volume)
    (folded : first.merge second = .ok merged) :
    merged.quantity.value = first.quantity.value + second.quantity.value ∧
      IsAverage [first, second] merged.price := by
  obtain ⟨merged', folded', _, quantity_eq, low, high, error⟩ := exact₁.merge bounds exact₂ le
  obtain rfl : merged' = merged := Except.ok.inj (folded'.symm.trans folded)
  have scale := scale_price_of_merge folded
  rw [meanPlaces, le_max_iff, le_max_iff] at scale
  refine ⟨quantity_eq, ?_, ?_, ?_, ?_⟩
  · simpa [min_le_iff] using low
  · simpa [le_max_iff] using high
  · simpa using scale
  · rw [quantity_eq] at error
    simpa [values] using error

end Lot

namespace Position

variable {p next : Position} {fill : Fill} {outcome : FillOutcome}

/-- An adding fill is folded into the newest lot at their average price, or is a new lot. -/
theorem Exact.merged_or_appended {a b : ℕ} {volume top used : ℚ} (exact : p.Exact a b top used)
    (bounds : Bounds a b volume top) (fill_exact : fill.Exact a b top)
    (room : used + fill.quantity.value ≤ volume) (joins : ¬ p.Opposes fill.side)
    (filled : p.apply fill = .ok (next, outcome)) :
    (∃ front last merged, p.method = .weightedAverage ∧ p.lots = front ++ [last] ∧
        next.lots = front ++ [merged] ∧ next.averagePrice = merged.price ∧
        merged.quantity.value = last.quantity.value + fill.quantity.value ∧
        Lot.IsAverage [last, ⟨fill.quantity, fill.price⟩] merged.price) ∨
      (p.method = .fifo ∨ p.lots = []) ∧ next.lots = p.lots ++ [⟨fill.quantity, fill.price⟩] := by
  obtain ⟨_, _, p', rfl, ⟨opposes, _⟩ | ⟨_, added⟩⟩ := fill_eq_ok filled
  · exact absurd opposes joins
  have used_nonneg := exact.used_nonneg
  obtain ⟨_, lot_exact⟩ := fill_exact.lot bounds (by linarith)
  obtain ⟨_, lots, average, _, _, opened, rfl, _⟩ := add_eq_ok added
  obtain ⟨front, last, merged, weighted, split, folded, rfl, rfl⟩ | ⟨unmerged, rfl, _⟩ :=
    lotsAfterOpen_eq_ok opened
  · have last_mem : last ∈ p.lots := by simp [split]
    have last_le : last.quantity.value ≤ |p.size.value| := by
      rw [exact.size_eq]
      exact le_held exact.values_pos (List.mem_map_of_mem last_mem)
    have size_le := exact.size_le
    obtain ⟨quantity_eq, isAverage⟩ :=
      (exact.lots last last_mem).isAverage_of_merge bounds lot_exact (by linarith) folded
    exact .inl ⟨front, last, merged, weighted, split, rfl, rfl, quantity_eq, isAverage⟩
  · exact .inr ⟨unmerged, rfl⟩

end Position

/-! ## Runs -/

/-- The entry folded its fill into the only lot, at the average price of the two. -/
def Entry.Averages (e : Entry) : Prop :=
  ∃ average merged : Lot, e.before.lots = [average] ∧ e.after.lots = [merged] ∧
    e.after.averagePrice = merged.price ∧
    merged.quantity.value = average.quantity.value + e.fill.quantity.value ∧
    Lot.IsAverage [average, ⟨e.fill.quantity, e.fill.price⟩] merged.price

namespace Session

/-- The fills that opened the holding that is open now or added to it, oldest first. -/
def openings (s : Session) : List Fill := (s.cycle.filter (¬ ·.outcome.IsClosing)).map (·.fill)

/-- The lots are priced by the openings, all of them at positive prices, and merges were averages. -/
structure Priced (s : Session) : Prop where
  lots : ∀ lot ∈ s.position.lots, PricedBy s.openings lot.price
  openings_pos : ∀ fill ∈ s.openings, 0 < fill.price.value
  merges : ∀ e ∈ s.entries, e.IsMerge → e.Averages

theorem priced_start (symbol : String) (method : Method) : (start symbol method).Priced where
  lots := List.forall_mem_nil _
  openings_pos := List.forall_mem_nil _
  merges := List.forall_mem_nil _

section

variable {s : Session} {fill : Fill} {next : Position} {outcome : FillOutcome}
  (filled : s.position.apply fill = .ok (next, outcome))

include filled

theorem openings_of_adding (joins : ¬ s.position.Opposes fill.side) (open_ : ¬ next.IsFlat) :
    (s.accept fill next outcome).openings = s.openings ++ [fill] := by
  have adding : ¬ outcome.IsClosing := mt (Position.isClosing_iff_opposes filled).mp joins
  rw [openings, cycle_accept s fill outcome open_, openings]
  simp [adding]

theorem openings_of_closing (opposes : s.position.Opposes fill.side) (open_ : ¬ next.IsFlat) :
    (s.accept fill next outcome).openings = s.openings := by
  have closing : outcome.IsClosing := (Position.isClosing_iff_opposes filled).mpr opposes
  rw [openings, cycle_accept s fill outcome open_, openings]
  simp [closing]

/-- A close leaves prices of before. -/
theorem Priced.shrunk (priced : s.Priced) (sound : s.position.Sound)
    (opposes : s.position.Opposes fill.side) : (s.accept fill next outcome).Priced := by
  have closing : outcome.IsClosing := (Position.isClosing_iff_opposes filled).mpr opposes
  have merges : ∀ e ∈ (s.accept fill next outcome).entries, e.IsMerge → e.Averages := by
    rw [accept, List.forall_mem_append, List.forall_mem_singleton]
    exact ⟨priced.merges, fun merge => absurd closing merge.2.2⟩
  by_cases flat : next.IsFlat
  · have none : next.lots = [] := (sound.fill filled).flat flat
    have restart : (s.accept fill next outcome).openings = [] := by
      rw [openings, cycle, accept, sinceFlat_concat, if_pos flat]
      rfl
    refine ⟨?_, ?_, merges⟩
    · simp [accept, none]
    · simp [restart]
  · have same := openings_of_closing filled opposes flat
    refine ⟨fun lot member => ?_, same ▸ priced.openings_pos, merges⟩
    have old := (Position.prices_suffix_of_fill opposes filled).subset (List.mem_map_of_mem member)
    obtain ⟨before, before_mem, price_eq⟩ := List.mem_map.mp old
    rw [same, ← price_eq]
    exact priced.lots before before_mem

/-- A new price is that of the fill, or an average of it and one of before. -/
theorem Priced.grown {a b : ℕ} {volume top used : ℚ} (priced : s.Priced)
    (exact : s.position.Exact a b top used) (bounds : Bounds a b volume top)
    (fill_exact : fill.Exact a b top) (room : used + fill.quantity.value ≤ volume)
    (averaged : s.position.method = .weightedAverage → s.position.Averaged)
    (joins : ¬ s.position.Opposes fill.side) (open_ : ¬ next.IsFlat) :
    (s.accept fill next outcome).Priced := by
  have more := openings_of_adding filled joins open_
  have new_priced : PricedBy (s.openings ++ [fill]) fill.price := .of_mem (by simp)
  have old_priced : ∀ lot ∈ s.position.lots, PricedBy (s.openings ++ [fill]) lot.price := fun lot member =>
    (priced.lots lot member).mono (List.subset_append_left _ _)
  have openings_pos : ∀ fill' ∈ (s.accept fill next outcome).openings, 0 < fill'.price.value := by
    rw [more, List.forall_mem_append, List.forall_mem_singleton]
    exact ⟨priced.openings_pos, fill_exact.positive.2⟩
  obtain ⟨front, last, merged, weighted, split, lots_eq, average_eq, quantity_eq, isAverage⟩ |
    ⟨unmerged, lots_eq⟩ := exact.merged_or_appended bounds fill_exact room joins filled
  · -- Under weighted average the newest lot is the only one.
    have single := (averaged weighted).single
    rw [split, List.length_append, List.length_singleton] at single
    obtain rfl : front = [] := List.eq_nil_of_length_eq_zero (by omega)
    have averages : Entry.Averages ⟨fill, s.position, next, outcome⟩ :=
      ⟨last, merged, split, lots_eq, average_eq, quantity_eq, isAverage⟩
    refine ⟨?_, openings_pos, ?_⟩
    · rw [more, accept, lots_eq, List.nil_append, List.forall_mem_singleton]
      refine .of_isAverage isAverage ?_
      rw [List.forall_mem_cons, List.forall_mem_singleton]
      exact ⟨old_priced last (by simp [split]), new_priced⟩
    · rw [accept, List.forall_mem_append, List.forall_mem_singleton]
      exact ⟨priced.merges, fun _ => averages⟩
  · refine ⟨?_, openings_pos, ?_⟩
    · rw [more, accept, lots_eq, List.forall_mem_append, List.forall_mem_singleton]
      exact ⟨old_priced, new_priced⟩
    · rw [accept, List.forall_mem_append, List.forall_mem_singleton]
      refine ⟨priced.merges, fun merge => ?_⟩
      obtain ⟨weighted, some_lot, _⟩ := merge
      rcases unmerged with fifo | none
      · rw [fifo] at weighted
        cases weighted
      · exact absurd none some_lot

end

theorem priced_run (symbol : String) (method : Method) {a b : ℕ} {requests done : List Request}
    (range : ExactRange a b (fillsOf requests)) (before : done <+: requests) :
    ∃ s, (start symbol method).run done = .ok s ∧ s.Priced := by
  obtain ⟨s, ran, _, priced⟩ := run_induction (start symbol method)
    (motive := fun done s => done <+: requests → s.Priced) (start_sound symbol method)
    (fun _ => priced_start symbol method)
    (fun done s request s' ran sound priced _ turn before => by
      have kept := priced ((List.prefix_append _ _).trans before)
      have exact := of_exists_ok (exact_run range symbol method ((List.prefix_append _ _).trans before)) ran
      obtain ⟨_, averaged, _⟩ := of_exists_ok (averagePrice_of_run symbol method done) ran
      cases turn with
      | switched | unswitched | refused => exact ⟨kept.lots, kept.openings_pos, kept.merges⟩
      | @accepted fill next outcome filled =>
        obtain ⟨quantity_pos, price_pos, _⟩ := Position.fill_eq_ok filled
        obtain ⟨fill_exact, room⟩ := range.next (fillsOf_next before) ⟨quantity_pos, price_pos⟩
        obtain ⟨opposes, _⟩ | ⟨joins, grown⟩ := (exact_accepted range before exact filled).2
        · exact kept.shrunk filled sound opposes
        · exact kept.grown filled exact range.bounds fill_exact room averaged joins
            (grown.not_isFlat joins quantity_pos))
    done
  exact ⟨s, ran, priced before⟩

/-- Throughout a run in the exact range, each merge gives the average of the two lots, and the average price
of an open position is that of its lots, and positive.  It stays between the prices of the fills that opened
the holding, and has no more places than the finest of them or than twelve. -/
theorem averagePrice_accurate (symbol : String) (method : Method) {a b : ℕ} {requests done : List Request}
    (range : ExactRange a b (fillsOf requests)) (before : done <+: requests) :
    ∃ s, (start symbol method).run done = .ok s ∧ (∀ e ∈ s.entries, e.IsMerge → e.Averages) ∧
      (¬ s.position.IsFlat →
        Lot.IsAverage s.position.lots s.position.averagePrice ∧
        PricedBy s.openings s.position.averagePrice ∧ 0 < s.position.averagePrice.value) := by
  obtain ⟨s, ran, priced⟩ := priced_run symbol method range before
  have exact := of_exists_ok (exact_run range symbol method before) ran
  obtain ⟨_, _, averages⟩ := of_exists_ok (averagePrice_of_run symbol method done) ran
  refine ⟨s, ran, priced.merges, ?_⟩
  intro open_
  have isAverage := exact.isAverage range.bounds averages open_
    (exact.size_le.trans (turnover_mono (fillsOf_mono before)))
  have between := PricedBy.of_isAverage isAverage priced.lots
  exact ⟨isAverage, between, between.pos priced.openings_pos⟩

/-- After a merge at `5 / 3` and a sale of part of the lot, the position is still open at that price, rounded
to twelve places. -/
theorem averagePrice_accurate_averagedThenSold :
    ExactRange 0 12 (fillsOf averagedThenSold) ∧ averagedThenSold <+: averagedThenSold ∧
      ∃ s, (start "X" .weightedAverage).run averagedThenSold = .ok s ∧ ¬ s.position.IsFlat ∧
        s.position.averagePrice = .written 1666666666667 12 ∧ s.entries.countP (·.IsMerge) = 1 ∧
        (∀ e ∈ s.entries, e.IsMerge → e.Averages) ∧
        Lot.IsAverage s.position.lots s.position.averagePrice ∧
        PricedBy s.openings s.position.averagePrice ∧ 0 < s.position.averagePrice.value := by
  have range : ExactRange 0 12 (fillsOf averagedThenSold) :=
    ⟨by decide, by decide, by decide +kernel, by decide +kernel⟩
  have whole : averagedThenSold <+: averagedThenSold := List.prefix_refl _
  obtain ⟨s, ran, merges, accurate⟩ := averagePrice_accurate "X" .weightedAverage range whole
  have observed : ((start "X" .weightedAverage).run averagedThenSold).toOption.map
      (fun s => (decide s.position.IsFlat, s.position.averagePrice, s.entries.countP (·.IsMerge)))
      = some (false, .written 1666666666667 12, 1) := by decide +kernel
  have sold := eq_of_observed observed ran
  simp only [Prod.mk.injEq, decide_eq_false_iff_not] at sold
  obtain ⟨open_, average, merged⟩ := sold
  exact ⟨range, whole, s, ran, open_, average, merged, merges, accurate open_⟩

end Session

end CostBasis
