import CostBasis.Book.Publisher
import CostBasis.Book.Summary
import CostBasis.Proofs.Json.Reordering
import CostBasis.Proofs.Json.Scalar

/-!
# Reports as texts

Updates, snapshots and summaries are read back from their JSON texts, with the scales of their decimals
and whatever their strings hold; only zeros lose their signs.  No object in such a text needs its members
in the order in which they were written.
-/

namespace CostBasis

namespace Json

/-- The way through a text and back.  What is written is read back the same, in any order of the members
at any depth, and no text is read differently for the order of its members. -/
structure Survives {α : Type} (toJson : α → Json) (ofJson? : Json → Option α) (Counted : α → Prop)
    (Same : α → α → Prop) : Prop where
  readBack : ∀ x, Counted x → ∃ y, Same y x ∧
    ∀ j, Reordered (toJson x) j → (parse? j.render).bind ofJson? = some y
  orderFree : ∀ text text' j j', parse? text = some j → parse? text' = some j' → Reordered j j' →
    (parse? text).bind ofJson? = (parse? text').bind ofJson?

theorem Survives.of_orderFree {α : Type} {toJson : α → Json} {ofJson? : Json → Option α}
    {Counted : α → Prop} {Same : α → α → Prop} (plain : α → α) (same : ∀ x, Same (plain x) x)
    (written : ∀ x, (toJson x).Written) (back : ∀ x, Counted x → ofJson? (toJson x) = some (plain x))
    (free : OrderFree ofJson?) : Survives toJson ofJson? Counted Same where
  readBack x counted := by
    refine ⟨plain x, same x, fun j reordered => ?_⟩
    -- Every order is written as well, so that its text is read back as it is.
    rw [parse?_render (reordered.written (written x)), Option.bind_some, ← free _ _ reordered,
      back x counted]
  orderFree text text' j j' read read' reordered := by
    rw [read, read', Option.bind_some, Option.bind_some, free _ _ reordered]

end Json

/-! ## Outcomes -/

namespace FillOutcome

/-- Two outcomes that are the same, where decimals are when they have one value and one scale. -/
structure Same (o o' : FillOutcome) : Prop where
  opened : o.opened.Same o'.opened
  closed : o.closed.Same o'.closed
  realizedPnl : o.realizedPnl.Same o'.realizedPnl

def plain (o : FillOutcome) : FillOutcome where
  opened := o.opened.plain
  closed := o.closed.plain
  realizedPnl := o.realizedPnl.plain

theorem same_plain (o : FillOutcome) : o.plain.Same o where
  opened := o.opened.same_plain
  closed := o.closed.same_plain
  realizedPnl := o.realizedPnl.same_plain

theorem written_toJson (o : FillOutcome) : o.toJson.Written := by
  refine Json.written_record ?_
  simp only [List.forall_mem_cons, Decimal.toJson, Json.written_text, true_and]
  exact List.forall_mem_nil _

@[simp] theorem ofJson?_toJson (o : FillOutcome) : ofJson? o.toJson = some o.plain := by
  rw [ofJson?, toJson, Json.fields?_record]
  · simp [Json.required?, List.lookup_cons, plain]
  · rfl
  · decide

theorem orderFree_ofJson? : Json.OrderFree ofJson? :=
  Json.orderFree_record fun fs fs' same => by
    simp only [Json.required?_congr Json.orderFree_decimal? same]

end FillOutcome

/-! ## Snapshots -/

namespace Snapshot

/-- The counters have at most 64 bits. -/
structure Counted (s : Snapshot) : Prop where
  lotCount : s.lotCount < pow2 64
  tradeCount : s.tradeCount < pow2 64

/-- Two snapshots that are the same, where decimals are when they have one value and one scale. -/
structure Same (s s' : Snapshot) : Prop where
  symbol : s.symbol = s'.symbol
  size : s.size.Same s'.size
  averagePrice : s.averagePrice.Same s'.averagePrice
  direction : s.direction = s'.direction
  realizedPnl : s.realizedPnl.Same s'.realizedPnl
  unrealizedPnl : s.unrealizedPnl.Same s'.unrealizedPnl
  notionalValue : s.notionalValue.Same s'.notionalValue
  markPrice : s.markPrice.Same s'.markPrice
  method : s.method = s'.method
  lotCount : s.lotCount = s'.lotCount
  tradeCount : s.tradeCount = s'.tradeCount

def plain (s : Snapshot) : Snapshot :=
  { s with
    size := s.size.plain
    averagePrice := s.averagePrice.plain
    realizedPnl := s.realizedPnl.plain
    unrealizedPnl := s.unrealizedPnl.plain
    notionalValue := s.notionalValue.plain
    markPrice := s.markPrice.plain }

theorem same_plain (s : Snapshot) : s.plain.Same s where
  symbol := rfl
  size := s.size.same_plain
  averagePrice := s.averagePrice.same_plain
  direction := rfl
  realizedPnl := s.realizedPnl.same_plain
  unrealizedPnl := s.unrealizedPnl.same_plain
  notionalValue := s.notionalValue.same_plain
  markPrice := s.markPrice.same_plain
  method := rfl
  lotCount := rfl
  tradeCount := rfl

theorem written_toJson (s : Snapshot) : s.toJson.Written := by
  refine Json.written_record ?_
  simp [Decimal.toJson, Direction.toJson, Method.toJson, Json.written_text, Json.written_count]

theorem ofJson?_toJson {s : Snapshot} (counted : s.Counted) : ofJson? s.toJson = some s.plain := by
  have lots := Json.count?_count counted.lotCount
  have trades := Json.count?_count counted.tradeCount
  rw [ofJson?, toJson, Json.fields?_record]
  · simp [Json.required?, List.lookup_cons, lots, trades, plain]
  · rfl
  · decide

theorem orderFree_ofJson? : Json.OrderFree ofJson? :=
  Json.orderFree_record fun fs fs' same => by
    simp only [Json.required?_congr Json.orderFree_text? same,
      Json.required?_congr Json.orderFree_decimal? same, Json.required?_congr Json.orderFree_count? same,
      Json.required?_congr Json.orderFree_direction? same, Json.required?_congr Json.orderFree_method? same]

end Snapshot

/-! ## Updates -/

namespace Update

/-- The counters have at most 64 bits. -/
structure Counted (u : Update) : Prop where
  sequence : u.sequence < pow2 64
  snapshot : u.snapshot.Counted

/-- Two updates that are the same, where decimals are when they have one value and one scale. -/
structure Same (u u' : Update) : Prop where
  sequence : u.sequence = u'.sequence
  side : u.side = u'.side
  quantity : u.quantity.Same u'.quantity
  price : u.price.Same u'.price
  outcome : u.outcome.Same u'.outcome
  snapshot : u.snapshot.Same u'.snapshot

def plain (u : Update) : Update :=
  { u with
    quantity := u.quantity.plain
    price := u.price.plain
    outcome := u.outcome.plain
    snapshot := u.snapshot.plain }

theorem same_plain (u : Update) : u.plain.Same u where
  sequence := rfl
  side := rfl
  quantity := u.quantity.same_plain
  price := u.price.same_plain
  outcome := u.outcome.same_plain
  snapshot := u.snapshot.same_plain

theorem written_toJson (u : Update) : u.toJson.Written := by
  refine Json.written_record ?_
  simp [Decimal.toJson, Side.toJson, Json.written_text, Json.written_count, u.outcome.written_toJson,
    u.snapshot.written_toJson]

theorem ofJson?_toJson {u : Update} (counted : u.Counted) : ofJson? u.toJson = some u.plain := by
  have sequence := Json.count?_count counted.sequence
  have snapshot := Snapshot.ofJson?_toJson counted.snapshot
  rw [ofJson?, toJson, Json.fields?_record]
  · simp [Json.required?, List.lookup_cons, sequence, snapshot, plain]
  · rfl
  · decide

theorem orderFree_ofJson? : Json.OrderFree ofJson? :=
  Json.orderFree_record fun fs fs' same => by
    simp only [Json.required?_congr Json.orderFree_count? same, Json.required?_congr Json.orderFree_side? same,
      Json.required?_congr Json.orderFree_decimal? same,
      Json.required?_congr FillOutcome.orderFree_ofJson? same,
      Json.required?_congr Snapshot.orderFree_ofJson? same]

end Update

/-! ## Summaries -/

namespace Summary

/-- The counter has at most 64 bits. -/
def Counted (s : Summary) : Prop := s.openPositions < pow2 64

/-- Two summaries that are the same, where decimals are when they have one value and one scale. -/
structure Same (s s' : Summary) : Prop where
  realizedPnl : s.realizedPnl.Same s'.realizedPnl
  unrealizedPnl : s.unrealizedPnl.Same s'.unrealizedPnl
  totalPnl : s.totalPnl.Same s'.totalPnl
  grossExposure : s.grossExposure.Same s'.grossExposure
  netExposure : s.netExposure.Same s'.netExposure
  openPositions : s.openPositions = s'.openPositions
  unpricedSymbols : s.unpricedSymbols = s'.unpricedSymbols

def plain (s : Summary) : Summary :=
  { s with
    realizedPnl := s.realizedPnl.plain
    unrealizedPnl := s.unrealizedPnl.plain
    totalPnl := s.totalPnl.plain
    grossExposure := s.grossExposure.plain
    netExposure := s.netExposure.plain }

theorem same_plain (s : Summary) : s.plain.Same s where
  realizedPnl := s.realizedPnl.same_plain
  unrealizedPnl := s.unrealizedPnl.same_plain
  totalPnl := s.totalPnl.same_plain
  grossExposure := s.grossExposure.same_plain
  netExposure := s.netExposure.same_plain
  openPositions := rfl
  unpricedSymbols := rfl

theorem written_toJson (s : Summary) : s.toJson.Written := by
  refine Json.written_record ?_
  simp [Decimal.toJson, Json.written_text, Json.written_count, Json.written_texts]

theorem ofJson?_toJson {s : Summary} (counted : s.Counted) : ofJson? s.toJson = some s.plain := by
  have count := Json.count?_count counted
  rw [ofJson?, toJson, Json.fields?_record]
  · simp [Json.required?, List.lookup_cons, count, plain]
  · rfl
  · decide

theorem orderFree_ofJson? : Json.OrderFree ofJson? :=
  Json.orderFree_record fun fs fs' same => by
    simp only [Json.required?_congr Json.orderFree_decimal? same,
      Json.required?_congr Json.orderFree_count? same,
      Json.required?_congr Json.orderFree_text?.list? same]

end Summary

/-- Every update, every snapshot and every summary survives the way through a text. -/
theorem reports_survive : Json.Survives Update.toJson Update.ofJson? Update.Counted Update.Same ∧
    Json.Survives Snapshot.toJson Snapshot.ofJson? Snapshot.Counted Snapshot.Same ∧
    Json.Survives Summary.toJson Summary.ofJson? Summary.Counted Summary.Same :=
  ⟨.of_orderFree Update.plain Update.same_plain Update.written_toJson (fun _ => Update.ofJson?_toJson)
      Update.orderFree_ofJson?,
    .of_orderFree Snapshot.plain Snapshot.same_plain Snapshot.written_toJson
      (fun _ => Snapshot.ofJson?_toJson) Snapshot.orderFree_ofJson?,
    .of_orderFree Summary.plain Summary.same_plain Summary.written_toJson
      (fun _ => Summary.ofJson?_toJson) Summary.orderFree_ofJson?⟩

theorem reports_survive_nestedReversed :
    let outcome : FillOutcome :=
      { closed := ⟨false, 1250, 3, by decide, by decide⟩
        realizedPnl := ⟨true, 0, 2, by decide, by decide⟩ }
    let snapshot := (Position.new "É\"\x01" .fifo).snapshot 1
    let update : Update := ⟨7, .sell, outcome.closed, 1, outcome, snapshot⟩
    let reversed := Json.record
      [("snapshot", snapshot.toJson),
        ("outcome", .record
          [("realized_pnl", outcome.realizedPnl.toJson), ("closed_qty", outcome.closed.toJson),
            ("opened_qty", outcome.opened.toJson)]),
        ("fill_price", update.price.toJson), ("fill_qty", update.quantity.toJson), ("side", .text "Sell"),
        ("sequence", .count 7)]
    ∃ y, y.Same update ∧ (Json.parse? reversed.render).bind Update.ofJson? = some y := by
  intro outcome snapshot update reversed
  have counted : update.Counted := ⟨by decide, by decide, by decide⟩
  obtain ⟨y, same, read⟩ := reports_survive.1.readBack update counted
  have inner : Json.Reordered outcome.toJson _ := .members (List.reverse_perm _).symm
  have outer : Json.Reordered update.toJson _ := .members (List.reverse_perm _).symm
  have reordered : Json.Reordered update.toJson reversed :=
    outer.trans (.member [(some "snapshot", snapshot.toJson)] (some "outcome") _ inner)
  exact ⟨y, same, read reversed reordered⟩

end CostBasis
