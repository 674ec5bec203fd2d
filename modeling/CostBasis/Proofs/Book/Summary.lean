import CostBasis.Book.Summary
import CostBasis.Proofs.Decimal.Sums
import CostBasis.Proofs.Ledger.Fill

/-!
# A summary counts snapshots

A position with a price has a snapshot, and what a position adds to the amounts of a summary can be read
off its snapshot.  So a summary is the sum of the snapshots, provided that a position without a price has
nothing to add.  Amounts are added one after the other: their sum is exact when no sum on the way has to be
rounded or is out of range.
-/

namespace CostBasis

open Decimal

/-! ## Snapshots of positions -/

namespace Position

def snapshot? (prices : Prices) (p : Position) : Option Snapshot := (prices.get? p.symbol).map p.snapshot

/-- A position that has nothing to count. -/
structure Idle (p : Position) : Prop where
  flat : p.IsFlat
  realizedPnl : p.realizedPnl.IsZero

theorem idle_new (symbol : String) (method : Method) : (new symbol method).Idle := ⟨isZero_zero, isZero_zero⟩

theorem direction_eq_flat_iff {p : Position} : p.direction = .flat ↔ p.IsFlat := by
  rw [IsFlat, isZero_iff]
  refine ⟨fun flat => ?_, direction_of_zero⟩
  rcases lt_trichotomy p.size.value 0 with negative | zero | positive
  · cases (direction_of_neg negative).symm.trans flat
  · exact zero
  · cases (direction_of_pos positive).symm.trans flat

theorem isFlat_snapshot (p : Position) (price : Decimal) : (p.snapshot price).IsFlat ↔ p.IsFlat :=
  direction_eq_flat_iff

section

variable {p : Position} (flat : p.IsFlat) (price : Decimal)

include flat

theorem unrealizedPnl_of_flat : p.unrealizedPnl price = 0 := if_pos flat

theorem value_notionalValue_of_flat : (p.notionalValue price).value = 0 := by
  have zero : p.size.abs.IsZero := by rw [isZero_iff, value_abs, (isZero_iff _).mp flat, abs_zero]
  exact value_saturatingMul_of_isZero zero price

end

end Position

/-- The signed exposure of a snapshot. -/
def Snapshot.exposure (t : Snapshot) : Decimal := t.size.saturatingMul t.markPrice

/-- Positions without a price have nothing to count. -/
def Prices.Covers (prices : Prices) (ps : List Position) : Prop :=
  ∀ p ∈ ps, p.snapshot? prices = none → p.Idle

namespace Book

/-! ## One position -/

section

variable {prices : Prices} {s : Summary} {p : Position}

theorem tally_of_flat (flat : p.IsFlat) :
    tally prices s p = { s with realizedPnl := s.realizedPnl.saturatingAdd p.realizedPnl } :=
  if_pos flat

theorem tally_of_open (held : ¬p.IsFlat) {price : Decimal} (priced : prices.get? p.symbol = some price) :
    tally prices s p = { s with
      realizedPnl := s.realizedPnl.saturatingAdd p.realizedPnl
      openPositions := s.openPositions + 1
      unrealizedPnl := s.unrealizedPnl.saturatingAdd (p.unrealizedPnl price)
      grossExposure := s.grossExposure.saturatingAdd (p.notionalValue price)
      netExposure := s.netExposure.saturatingAdd (p.size.saturatingMul price) } := by
  simp only [tally, if_neg held, priced]

theorem tally_of_unpriced (held : ¬p.IsFlat) (unpriced : prices.get? p.symbol = none) :
    tally prices s p = { s with
      realizedPnl := s.realizedPnl.saturatingAdd p.realizedPnl
      openPositions := s.openPositions + 1
      unpricedSymbols := s.unpricedSymbols ++ [p.symbol] } := by
  simp only [tally, if_neg held, unpriced]

end

/-! ## All positions -/

def marks (prices : Prices) (ps : List Position) : List Snapshot :=
  (ps.filterMap (Position.snapshot? prices)).filter fun t => ¬t.IsFlat

def unpriced (prices : Prices) (ps : List Position) : List String :=
  (ps.filter fun p => ¬p.IsFlat ∧ prices.get? p.symbol = none).map Position.symbol

@[simp] theorem sum_concat (ds : List Decimal) (d : Decimal) : sum (ds ++ [d]) = (sum ds).saturatingAdd d :=
  List.foldl_concat ..

theorem value_sum (ds : List Decimal) : (sum ds).value = saturatedSum (ds.map value) :=
  value_foldl_saturatingAdd ds

/-- The tally of positions, amount by amount. -/
theorem foldl_tally (prices : Prices) (ps : List Position) :
    ps.foldl (tally prices) {} =
      { realizedPnl := sum (ps.map Position.realizedPnl)
        unrealizedPnl := sum ((marks prices ps).map Snapshot.unrealizedPnl)
        grossExposure := sum ((marks prices ps).map Snapshot.notionalValue)
        netExposure := sum ((marks prices ps).map Snapshot.exposure)
        openPositions := ps.countP fun p => ¬p.IsFlat
        unpricedSymbols := unpriced prices ps } := by
  -- From the end of the list, where a position is added to the tally of those before it.
  induction ps using List.reverseRecOn with
  | nil => rfl
  | append_singleton ps p ih =>
    rw [List.foldl_concat, ih]
    by_cases flat : p.IsFlat
    · have none : marks prices (ps ++ [p]) = marks prices ps := by
        cases priced : prices.get? p.symbol <;>
          simp [marks, Position.snapshot?, priced, p.isFlat_snapshot, flat]
      rw [tally_of_flat flat, none]
      simp [unpriced, flat]
    · cases priced : prices.get? p.symbol with
      | none =>
        have none : marks prices (ps ++ [p]) = marks prices ps := by
          simp [marks, Position.snapshot?, priced]
        rw [tally_of_unpriced flat priced, none]
        simp [unpriced, flat, priced]
      | some price =>
        have one : marks prices (ps ++ [p]) = marks prices ps ++ [p.snapshot price] := by
          simp [marks, Position.snapshot?, priced, p.isFlat_snapshot, flat]
        rw [tally_of_open flat priced, one]
        simp only [List.map_append, List.map_singleton, sum_concat]
        simp [unpriced, flat, priced, Position.snapshot, Snapshot.exposure]

/-- A summary, amount by amount. -/
theorem summary_eq (b : Book) (prices : Prices) :
    b.summary prices =
      { realizedPnl := b.totalRealizedPnl
        unrealizedPnl := sum ((marks prices b.positions).map Snapshot.unrealizedPnl)
        totalPnl :=
          b.totalRealizedPnl.saturatingAdd (sum ((marks prices b.positions).map Snapshot.unrealizedPnl))
        grossExposure := sum ((marks prices b.positions).map Snapshot.notionalValue)
        netExposure := sum ((marks prices b.positions).map Snapshot.exposure)
        openPositions := b.positions.countP fun p => ¬p.IsFlat
        unpricedSymbols := sortSymbols (unpriced prices b.positions) } := by
  rw [summary, foldl_tally]
  rfl

/-- A summary leaves out the snapshots of flat positions, whose share of an amount is zero. -/
theorem value_sum_marks {share : Snapshot → Decimal} {prices : Prices} {ps : List Position}
    (zero : ∀ {p : Position} {price}, p.IsFlat → (share (p.snapshot price)).value = 0) :
    (sum ((marks prices ps).map share)).value
      = (sum ((ps.filterMap (Position.snapshot? prices)).map share)).value := by
  rw [value_sum, value_sum, List.map_map, List.map_map, marks]
  refine saturatedSum_filter fun t mem left_out => ?_
  obtain ⟨p, _, snapped⟩ := List.mem_filterMap.mp mem
  obtain ⟨price, _, rfl⟩ := Option.map_eq_some_iff.mp snapped
  exact zero ((p.isFlat_snapshot price).mp (by simpa using left_out))

theorem value_sum_unrealizedPnl (prices : Prices) (ps : List Position) :
    (sum ((marks prices ps).map Snapshot.unrealizedPnl)).value
      = (sum ((ps.filterMap (Position.snapshot? prices)).map Snapshot.unrealizedPnl)).value :=
  value_sum_marks fun {p price} flat => by
    change (p.unrealizedPnl price).value = 0
    rw [Position.unrealizedPnl_of_flat flat, value_zero]

/-- Positions without a price can be left out of the realized profit when they have nothing to count. -/
theorem value_sum_realizedPnl {prices : Prices} {ps : List Position} (covers : prices.Covers ps) :
    (sum (ps.map Position.realizedPnl)).value
      = (sum ((ps.filterMap (Position.snapshot? prices)).map Snapshot.realizedPnl)).value := by
  have shown : (ps.filterMap (Position.snapshot? prices)).map Snapshot.realizedPnl
      = (ps.filter fun p => (p.snapshot? prices).isSome).map Position.realizedPnl := by
    clear covers
    induction ps with
    | nil => rfl
    | cons p ps ih =>
      cases priced : prices.get? p.symbol <;> simp_all [Position.snapshot?, Position.snapshot]
  rw [shown, value_sum, value_sum, List.map_map, List.map_map]
  refine (saturatedSum_filter fun p mem left_out => ?_).symm
  have idle := covers p mem (Option.not_isSome_iff_eq_none.mp (by simp [left_out]))
  exact (isZero_iff _).mp idle.realizedPnl

end Book

/-- A summary counts snapshots.  Its amounts are the sums of theirs, where sums taken in the order of the
positions are exact. -/
structure Summary.AddsUp (s : Summary) (snapshots inOrder : List Snapshot) : Prop where
  unpricedSymbols : s.unpricedSymbols = []
  openPositions : s.openPositions = snapshots.countP fun t => ¬t.IsFlat
  realizedPnl : AddsExactly (inOrder.map Snapshot.realizedPnl) →
    s.realizedPnl.value = total (snapshots.map Snapshot.realizedPnl)
  unrealizedPnl : AddsExactly (inOrder.map Snapshot.unrealizedPnl) →
    s.unrealizedPnl.value = total (snapshots.map Snapshot.unrealizedPnl)
  grossExposure : AddsExactly (inOrder.map Snapshot.notionalValue) →
    s.grossExposure.value = total (snapshots.map Snapshot.notionalValue)
  netExposure : AddsExactly (inOrder.map Snapshot.exposure) →
    s.netExposure.value = total (snapshots.map Snapshot.exposure)
  totalPnl : AddsExactly (inOrder.map Snapshot.realizedPnl) →
    AddsExactly (inOrder.map Snapshot.unrealizedPnl) →
      Representable (total (snapshots.map Snapshot.realizedPnl) + total (snapshots.map Snapshot.unrealizedPnl)) →
        (∀ t ∈ snapshots, Representable (t.realizedPnl.value + t.unrealizedPnl.value)) →
          s.totalPnl.value = total (snapshots.map Snapshot.totalPnl)

namespace Book

theorem sortedPositions_perm (b : Book) : b.sortedPositions.Perm b.positions := List.mergeSort_perm ..

theorem snapshots_perm (b : Book) (prices : Prices) :
    (b.snapshots prices).Perm (b.positions.filterMap (Position.snapshot? prices)) :=
  b.sortedPositions_perm.filterMap _

theorem mem_snapshots {b : Book} {prices : Prices} {t : Snapshot} :
    t ∈ b.snapshots prices ↔ ∃ p ∈ b.positions, p.snapshot? prices = some t := by
  rw [(b.snapshots_perm prices).mem_iff, List.mem_filterMap]

theorem mem_symbols_snapshots {b : Book} {prices : Prices} {symbol : String} :
    symbol ∈ (b.snapshots prices).map Snapshot.symbol
      ↔ symbol ∈ b.positions.map Position.symbol ∧ (prices.get? symbol).isSome = true := by
  simp only [List.mem_map, mem_snapshots]
  constructor
  · rintro ⟨t, ⟨p, mem, snapped⟩, rfl⟩
    obtain ⟨price, priced, rfl⟩ := Option.map_eq_some_iff.mp snapped
    exact ⟨⟨p, mem, rfl⟩, Option.isSome_iff_exists.mpr ⟨price, priced⟩⟩
  · rintro ⟨⟨p, mem, rfl⟩, priced⟩
    obtain ⟨price, priced⟩ := Option.isSome_iff_exists.mp priced
    exact ⟨p.snapshot price, ⟨p, mem, by rw [Position.snapshot?, priced, Option.map_some]⟩, rfl⟩

/-- Sorting by keys that are distinct. -/
theorem pairwise_lt_mergeSort {α : Type} (key : α → String) {xs : List α} (distinct : (xs.map key).Nodup) :
    (xs.mergeSort fun x y => decide (key x ≤ key y)).Pairwise fun x y => key x < key y := by
  have sorted : (xs.mergeSort fun x y => decide (key x ≤ key y)).Pairwise fun x y => key x ≤ key y := by
    have trans (x y z : α) (xy : decide (key x ≤ key y) = true) (yz : decide (key y ≤ key z) = true) :
        decide (key x ≤ key z) = true :=
      decide_eq_true (String.le_trans (of_decide_eq_true xy) (of_decide_eq_true yz))
    have total (x y : α) : (decide (key x ≤ key y) || decide (key y ≤ key x)) = true := by
      simpa using String.le_total (key x) (key y)
    exact (List.pairwise_mergeSort trans total xs).imp of_decide_eq_true
  have apart : (xs.mergeSort fun x y => decide (key x ≤ key y)).Pairwise fun x y => key x ≠ key y :=
    List.pairwise_map.mp (((List.mergeSort_perm xs _).map key).nodup_iff.mpr distinct)
  exact sorted.imp₂ (fun _ _ le ne => String.not_le.mp fun ge => ne (String.le_antisymm le ge)) apart

theorem snapshots_increasing {b : Book} (distinct : (b.positions.map Position.symbol).Nodup)
    (prices : Prices) : ((b.snapshots prices).map Snapshot.symbol).Pairwise (· < ·) := by
  have increasing : b.sortedPositions.Pairwise fun p q => p.symbol < q.symbol :=
    pairwise_lt_mergeSort Position.symbol distinct
  refine List.pairwise_map.mpr (increasing.filterMap _ fun p q less t snapped u snapped' => ?_)
  obtain ⟨_, _, rfl⟩ := Option.map_eq_some_iff.mp snapped
  obtain ⟨_, _, rfl⟩ := Option.map_eq_some_iff.mp snapped'
  exact less

/-- A summary counts the snapshots when every position that has something to count has a price. -/
theorem summary_addsUp {b : Book} {prices : Prices} (covers : prices.Covers b.positions) :
    (b.summary prices).AddsUp (b.snapshots prices)
      (b.positions.filterMap (Position.snapshot? prices)) := by
  have perm := b.snapshots_perm prices
  -- What is exact in the order of the positions has the same sum in the order of the snapshots.
  have sums {share : Snapshot → Decimal}
      (exact : AddsExactly ((b.positions.filterMap (Position.snapshot? prices)).map share)) :
      (sum ((b.positions.filterMap (Position.snapshot? prices)).map share)).value
        = total ((b.snapshots prices).map share) := by
    rw [value_sum, exact.saturatedSum_eq, total_of_perm (perm.map share)]
  have realized (exact : AddsExactly _) := (value_sum_realizedPnl covers).trans (sums exact)
  have unrealized (exact : AddsExactly _) := (value_sum_unrealizedPnl prices b.positions).trans (sums exact)
  rw [summary_eq]
  constructor
  case unpricedSymbols =>
    have none : unpriced prices b.positions = [] := by
      rw [unpriced, List.map_eq_nil_iff, List.filter_eq_nil_iff]
      intro p mem open_
      obtain ⟨held, absent⟩ := of_decide_eq_true open_
      exact held (covers p mem (by rw [Position.snapshot?, absent, Option.map_none])).flat
    rw [none]
    exact List.mergeSort_nil
  case openPositions =>
    rw [perm.countP_eq, List.countP_filterMap]
    refine List.countP_congr fun p mem => ?_
    cases priced : prices.get? p.symbol with
    | none =>
      have idle := covers p mem (by rw [Position.snapshot?, priced, Option.map_none])
      simp [Position.snapshot?, priced, idle.flat]
    | some price => simp [Position.snapshot?, priced, p.isFlat_snapshot]
  case realizedPnl => exact realized
  case unrealizedPnl => exact unrealized
  case grossExposure =>
    exact fun exact => (value_sum_marks fun flat => Position.value_notionalValue_of_flat flat _).trans (sums exact)
  case netExposure =>
    exact fun exact => (value_sum_marks fun flat => value_saturatingMul_of_isZero flat _).trans (sums exact)
  case totalPnl =>
    intro exact exact' sum_exact each
    have shares : total ((b.snapshots prices).map Snapshot.totalPnl)
        = total ((b.snapshots prices).map Snapshot.realizedPnl)
          + total ((b.snapshots prices).map Snapshot.unrealizedPnl) :=
      total_map_add fun t mem => value_saturatingAdd (each t mem)
    rw [shares]
    rw [← realized exact, ← unrealized exact'] at sum_exact ⊢
    exact value_saturatingAdd sum_exact

end Book

end CostBasis
