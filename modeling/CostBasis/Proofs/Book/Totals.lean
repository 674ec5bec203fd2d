import CostBasis.Proofs.Book.Isolation
import CostBasis.Proofs.Book.Summary
import CostBasis.Proofs.Ledger.Marks

/-!
# A summary and the totals

The totals of a book go over all its positions; its summary skips flat ones and those without a price.  What
the summary skips would add zero, so the two agree, also where sums are rounded or saturate.  The order of the
positions matters to neither as long as sums are exact.
-/

namespace CostBasis

open Decimal

namespace Position

theorem size_nonneg_of_direction {p : Position} (h : p.direction ≠ .short) : 0 ≤ p.size.value :=
  not_lt.mp fun negative => h (direction_of_neg negative)

theorem size_nonpos_of_direction {p : Position} (h : p.direction ≠ .long) : p.size.value ≤ 0 :=
  not_lt.mp fun positive => h (direction_of_pos positive)

theorem value_exposure (p : Position) (price : Decimal) :
    (p.snapshot price).exposure.value = saturated (p.size.value * price.value) :=
  (saturates_mul _ _).value_eq_saturated

/-- At a price that is not negative the two exposures differ in the sign alone, and saturate together. -/
theorem value_notionalValue (p : Position) {price : Decimal} (nonneg : 0 ≤ price.value) :
    (p.snapshot price).notionalValue.value = |(p.snapshot price).exposure.value| := by
  rw [value_exposure, abs_saturated, abs_mul, abs_of_nonneg nonneg]
  exact (p.saturates_notionalValue price).value_eq_saturated

end Position

/-- Two summaries that agree amount by amount. -/
structure Summary.SameValues (s s' : Summary) : Prop where
  realizedPnl : s.realizedPnl ≈ s'.realizedPnl
  unrealizedPnl : s.unrealizedPnl ≈ s'.unrealizedPnl
  totalPnl : s.totalPnl ≈ s'.totalPnl
  grossExposure : s.grossExposure ≈ s'.grossExposure
  netExposure : s.netExposure ≈ s'.netExposure
  openPositions : s.openPositions = s'.openPositions
  unpricedSymbols : s.unpricedSymbols = s'.unpricedSymbols

namespace Book

/-- No sum on the way to an amount of a summary has to be rounded or is out of range. -/
structure SumsExactly (prices : Prices) (ps : List Position) : Prop where
  realizedPnl : AddsExactly (ps.map Position.realizedPnl)
  unrealizedPnl : AddsExactly ((marks prices ps).map Snapshot.unrealizedPnl)
  grossExposure : AddsExactly ((marks prices ps).map Snapshot.notionalValue)
  netExposure : AddsExactly ((marks prices ps).map Snapshot.exposure)

section

variable {b : Book} {prices : Prices}

/-! ## Totals -/

theorem summary_realizedPnl (b : Book) (prices : Prices) :
    (b.summary prices).realizedPnl ≈ b.totalRealizedPnl := by
  rw [summary_eq, equiv_iff]

theorem summary_unrealizedPnl (b : Book) (prices : Prices) :
    (b.summary prices).unrealizedPnl ≈ b.totalUnrealizedPnl prices := by
  have shares : b.totalUnrealizedPnl prices
      = sum ((b.positions.filterMap (Position.snapshot? prices)).map Snapshot.unrealizedPnl) := by
    rw [totalUnrealizedPnl, List.map_filterMap]
    simp only [Position.snapshot?, Option.map_map]
    rfl
  rw [summary_eq, equiv_iff, shares]
  exact value_sum_unrealizedPnl prices b.positions

theorem summary_totalPnl (b : Book) (prices : Prices) : (b.summary prices).totalPnl ≈ b.totalPnl prices :=
  saturatingAdd_congr (b.summary_realizedPnl prices) (b.summary_unrealizedPnl prices)

/-! ## Counts -/

theorem summary_openPositions (b : Book) (prices : Prices) :
    (b.summary prices).openPositions = b.positions.countP fun p => ¬p.IsFlat := by
  rw [summary_eq]

theorem summary_unpricedSymbols (b : Book) (prices : Prices) :
    (b.summary prices).unpricedSymbols = sortSymbols (unpriced prices b.positions) := by
  rw [summary_eq]

theorem sortSymbols_perm (symbols : List String) : (sortSymbols symbols).Perm symbols := List.mergeSort_perm ..

theorem sortSymbols_increasing {symbols : List String} (distinct : symbols.Nodup) :
    (sortSymbols symbols).Pairwise (· < ·) :=
  pairwise_lt_mergeSort id (by rwa [List.map_id])

theorem nodup_unpriced {ps : List Position} (distinct : (ps.map Position.symbol).Nodup) :
    (unpriced prices ps).Nodup := distinct.sublist (List.filter_sublist.map _)

theorem mem_unpriced {ps : List Position} {symbol : String} :
    symbol ∈ unpriced prices ps ↔ ∃ p ∈ ps, p.symbol = symbol ∧ ¬p.IsFlat ∧ prices.get? symbol = none := by
  simp only [unpriced, List.mem_map, List.mem_filter, decide_eq_true_eq]
  constructor
  · rintro ⟨p, ⟨mem, held, absent⟩, rfl⟩
    exact ⟨p, mem, rfl, held, absent⟩
  · rintro ⟨p, mem, rfl, held, absent⟩
    exact ⟨p, ⟨mem, held, absent⟩, rfl⟩

/-! ## Exposures -/

theorem exists_of_mem_marks {ps : List Position} {t : Snapshot} (mem : t ∈ marks prices ps) :
    ∃ p ∈ ps, ¬p.IsFlat ∧ ∃ price, prices.get? p.symbol = some price ∧ t = p.snapshot price := by
  obtain ⟨shown, held⟩ := List.mem_filter.mp mem
  obtain ⟨p, found, snapped⟩ := List.mem_filterMap.mp shown
  obtain ⟨price, priced, rfl⟩ := Option.map_eq_some_iff.mp snapped
  exact ⟨p, found, mt (p.isFlat_snapshot price).mpr (of_decide_eq_true held), price, priced, rfl⟩

/-- The values that the net exposure adds up. -/
def exposures (prices : Prices) (ps : List Position) : List ℚ := (marks prices ps).map fun t => t.exposure.value

theorem value_netExposure (b : Book) (prices : Prices) :
    (b.summary prices).netExposure.value = saturatedSum (exposures prices b.positions) := by
  rw [summary_eq, value_sum, List.map_map]
  rfl

section

variable (nonneg : ∀ symbol price, prices.get? symbol = some price → 0 ≤ price)

include nonneg

theorem value_grossExposure (b : Book) :
    (b.summary prices).grossExposure.value = saturatedSum ((exposures prices b.positions).map (|·|)) := by
  rw [summary_eq, value_sum, exposures, List.map_map, List.map_map]
  refine congrArg saturatedSum (List.map_congr_left fun t mem => ?_)
  obtain ⟨p, _, _, price, priced, rfl⟩ := exists_of_mem_marks mem
  have price_nonneg := nonneg _ _ priced
  rw [le_iff, value_zero] at price_nonneg
  exact p.value_notionalValue price_nonneg

theorem abs_netExposure_le (b : Book) :
    (b.summary prices).netExposure.abs ≤ (b.summary prices).grossExposure := by
  rw [le_iff, value_abs, value_netExposure, value_grossExposure nonneg]
  exact abs_saturatedSum_le _

/-- Exposures of one side do not offset each other. -/
theorem abs_netExposure_of_oneSided {direction : Direction}
    (oneSided : ∀ p ∈ b.positions, ¬p.IsFlat → (prices.get? p.symbol).isSome = true → p.direction = direction) :
    (b.summary prices).netExposure.abs ≈ (b.summary prices).grossExposure := by
  rw [equiv_iff, value_abs, value_netExposure, value_grossExposure nonneg]
  have each {motive : ℚ → Prop} (holds : ∀ p : Position, p.direction = direction →
      ∀ price : Decimal, 0 ≤ price.value → motive (saturated (p.size.value * price.value))) :
      ∀ x ∈ exposures prices b.positions, motive x := by
    intro x mem
    obtain ⟨t, mark, rfl⟩ := List.mem_map.mp mem
    obtain ⟨p, found, held, price, priced, rfl⟩ := exists_of_mem_marks mark
    have price_nonneg := nonneg _ _ priced
    rw [le_iff, value_zero] at price_nonneg
    rw [p.value_exposure]
    exact holds p (oneSided p found held (by rw [priced]; rfl)) price price_nonneg
  by_cases short : direction = .short
  · refine abs_saturatedSum_of_nonpos (each fun p same price price_nonneg => ?_)
    have size_nonpos := Position.size_nonpos_of_direction (p := p) (by rw [same, short]; decide)
    exact saturated_nonpos (mul_nonpos_of_nonpos_of_nonneg size_nonpos price_nonneg)
  · refine abs_saturatedSum_of_nonneg (each fun p same price price_nonneg => ?_)
    have size_nonneg := Position.size_nonneg_of_direction (p := p) (by rwa [same])
    exact saturated_nonneg (mul_nonneg size_nonneg price_nonneg)

end

end

/-! ## Order -/

theorem marks_perm {ps ps' : List Position} (perm : ps.Perm ps') (prices : Prices) :
    (marks prices ps).Perm (marks prices ps') := (perm.filterMap _).filter _

theorem equiv_sum_of_perm {ds ds' : List Decimal} (perm : ds.Perm ds') (exact : AddsExactly ds)
    (exact' : AddsExactly ds') : sum ds ≈ sum ds' := by
  rw [equiv_iff, value_sum, value_sum, exact.saturatedSum_eq, exact'.saturatedSum_eq, total_of_perm perm]

/-- The order of the positions matters only where a sum on the way is rounded or out of range. -/
theorem sameValues_of_perm {b b' : Book} {prices : Prices} (perm : b.positions.Perm b'.positions)
    (distinct : (b.positions.map Position.symbol).Nodup) (exact : SumsExactly prices b.positions)
    (exact' : SumsExactly prices b'.positions) : (b.summary prices).SameValues (b'.summary prices) := by
  have shares (share : Snapshot → Decimal) := (marks_perm perm prices).map share
  have realized : b.totalRealizedPnl ≈ b'.totalRealizedPnl :=
    equiv_sum_of_perm (perm.map _) exact.realizedPnl exact'.realizedPnl
  have unrealized := equiv_sum_of_perm (shares Snapshot.unrealizedPnl) exact.unrealizedPnl exact'.unrealizedPnl
  have symbols : (unpriced prices b.positions).Perm (unpriced prices b'.positions) := (perm.filter _).map _
  have nodup : (unpriced prices b.positions).Nodup := nodup_unpriced distinct
  rw [summary_eq, summary_eq]
  constructor
  case realizedPnl => exact realized
  case unrealizedPnl => exact unrealized
  case totalPnl => exact saturatingAdd_congr realized unrealized
  case grossExposure => exact equiv_sum_of_perm (shares _) exact.grossExposure exact'.grossExposure
  case netExposure => exact equiv_sum_of_perm (shares _) exact.netExposure exact'.netExposure
  case openPositions => exact perm.countP_eq _
  case unpricedSymbols =>
    -- Two strictly sorted lists with the same members are one list.
    have asymm (x y : String) (less : x < y) (greater : y < x) : x = y :=
      absurd (String.lt_trans less greater) (String.lt_irrefl x)
    exact List.Perm.eq_of_pairwise (fun x y _ _ => asymm x y) (sortSymbols_increasing nodup)
      (sortSymbols_increasing (symbols.nodup_iff.mp nodup))
      ((sortSymbols_perm _).trans (symbols.trans (sortSymbols_perm _).symm))

theorem totals_of_sameValues {b b' : Book} {prices : Prices}
    (same : (b.summary prices).SameValues (b'.summary prices)) :
    b.totalRealizedPnl ≈ b'.totalRealizedPnl ∧ b.totalUnrealizedPnl prices ≈ b'.totalUnrealizedPnl prices ∧
      b.totalPnl prices ≈ b'.totalPnl prices := by
  have realized := same.realizedPnl
  have unrealized := same.unrealizedPnl
  have before := b.summary_unrealizedPnl prices
  have after := b'.summary_unrealizedPnl prices
  rw [summary_eq, summary_eq] at realized
  rw [equiv_iff] at unrealized before after
  have totals : b.totalUnrealizedPnl prices ≈ b'.totalUnrealizedPnl prices :=
    (equiv_iff _ _).mpr (before.symm.trans (unrealized.trans after))
  exact ⟨realized, totals, saturatingAdd_congr realized totals⟩

/-- Whatever was done to a book, and in whatever order its positions are visited, a summary agrees with the
totals, counts the open positions and lists those without a price.  At prices that are not negative the net
exposure is within the gross exposure, and reaches it when all exposures are on one side.  Two orders in which
all sums are exact give the same summary and totals. -/
theorem summary_agrees (settings : Settings) (commands : List Command) (prices : Prices) {b : Book}
    (perm : b.positions.Perm ((ofSettings settings).value.run commands).1.positions) :
    let reached := ((ofSettings settings).value.run commands).1
    let s := b.summary prices
    (s.realizedPnl ≈ b.totalRealizedPnl ∧ s.unrealizedPnl ≈ b.totalUnrealizedPnl prices ∧
        s.totalPnl ≈ b.totalPnl prices) ∧
      s.openPositions = (reached.positions.countP fun p => ¬p.IsFlat) ∧
      s.unpricedSymbols.Pairwise (· < ·) ∧
      (∀ symbol, symbol ∈ s.unpricedSymbols ↔
        ∃ p, reached.find? symbol = some p ∧ ¬p.IsFlat ∧ prices.get? symbol = none) ∧
      ((∀ symbol price, prices.get? symbol = some price → 0 ≤ price) →
        s.netExposure.abs ≤ s.grossExposure ∧
          ∀ direction, (∀ symbol p, reached.find? symbol = some p → ¬p.IsFlat →
              (prices.get? symbol).isSome = true → p.direction = direction) →
            s.netExposure.abs ≈ s.grossExposure) ∧
      ∀ b' : Book, b'.positions.Perm reached.positions →
        SumsExactly prices b.positions → SumsExactly prices b'.positions →
          s.SameValues (b'.summary prices) ∧ b.totalRealizedPnl ≈ b'.totalRealizedPnl ∧
            b.totalUnrealizedPnl prices ≈ b'.totalUnrealizedPnl prices ∧
            b.totalPnl prices ≈ b'.totalPnl prices := by
  intro reached s
  have distinct : (reached.positions.map Position.symbol).Nodup :=
    nodup_run (b := (ofSettings settings).value) List.nodup_nil commands
  have distinct' : (b.positions.map Position.symbol).Nodup := (perm.map Position.symbol).nodup_iff.mpr distinct
  have found_iff {p : Position} : p ∈ b.positions ↔ reached.find? p.symbol = some p := by
    rw [perm.mem_iff]
    exact mem_positions_iff distinct
  have listed : s.unpricedSymbols = _ := b.summary_unpricedSymbols prices
  refine ⟨⟨b.summary_realizedPnl prices, b.summary_unrealizedPnl prices, b.summary_totalPnl prices⟩,
    (b.summary_openPositions prices).trans (perm.countP_eq _), ?_, fun symbol => ?_,
    fun nonneg => ⟨abs_netExposure_le nonneg b, fun direction oneSided => ?_⟩, fun b' perm' exact exact' => ?_⟩
  · rw [listed]
    exact sortSymbols_increasing (nodup_unpriced distinct')
  · rw [listed, (sortSymbols_perm _).mem_iff, mem_unpriced]
    constructor
    · rintro ⟨p, mem, rfl, held, absent⟩
      exact ⟨p, found_iff.mp mem, held, absent⟩
    · rintro ⟨p, found, held, absent⟩
      have named := symbol_of_find? found
      exact ⟨p, found_iff.mpr (named ▸ found), named, held, absent⟩
  · exact abs_netExposure_of_oneSided nonneg fun p mem held priced =>
      oneSided p.symbol p (found_iff.mp mem) held priced
  · have same := sameValues_of_perm (perm.trans perm'.symm) distinct' exact exact'
    exact ⟨same, totals_of_sameValues same⟩

/-- A long, a short and a position that is left without a price. -/
def longShortAndUnpriced : List Command :=
  let two := Decimal.written 2 0
  [.fill "X" .buy two 1, .fill "Z" .buy 1 1, .fill "Y" .sell 1 two]

theorem summary_agrees_longShortAndUnpriced :
    let prices : Prices := { entries := [("X", .written 2 0), ("Y", 1), ("W", 1)] }
    let reached := ((ofSettings {}).value.run longShortAndUnpriced).1
    let b : Book := { positions := reached.positions.reverse }
    let s := b.summary prices
    b.positions.Perm reached.positions ∧
      (s.grossExposure ≈ .written 5 0 ∧ s.netExposure ≈ .written 3 0 ∧ s.totalPnl ≈ .written 3 0 ∧
        s.unpricedSymbols = ["Z"]) ∧
      s.totalPnl ≈ b.totalPnl prices ∧ s.openPositions = (reached.positions.countP fun p => ¬p.IsFlat) ∧
      (∀ symbol price, prices.get? symbol = some price → 0 ≤ price) ∧ s.netExposure.abs ≤ s.grossExposure ∧
      SumsExactly prices b.positions ∧ SumsExactly prices reached.positions ∧
      s.SameValues (reached.summary prices) := by
  intro prices reached b s
  have perm : b.positions.Perm reached.positions := List.reverse_perm _
  obtain ⟨⟨_, _, total⟩, counted, _, _, bounded, ordered⟩ :=
    summary_agrees {} longShortAndUnpriced prices perm
  have nonneg : ∀ symbol price, prices.get? symbol = some price → 0 ≤ price := by
    intro symbol price priced
    have each : ∀ entry ∈ prices.entries, 0 ≤ entry.2 := by decide +kernel
    obtain ⟨before, after, split, _⟩ := List.lookup_eq_some_iff.mp priced
    exact each (symbol, price) (by rw [split]; simp)
  have exact : SumsExactly prices b.positions := by
    constructor <;> exact addsExactly_of_scale (Nat.zero_le maxScale) (by decide +kernel) (by decide +kernel)
  have exact' : SumsExactly prices reached.positions := by
    constructor <;> exact addsExactly_of_scale (Nat.zero_le maxScale) (by decide +kernel) (by decide +kernel)
  exact ⟨perm, by decide +kernel, total, counted, nonneg, (bounded nonneg).1, exact, exact',
    (ordered reached (.refl _) exact exact').1⟩

end Book

end CostBasis
