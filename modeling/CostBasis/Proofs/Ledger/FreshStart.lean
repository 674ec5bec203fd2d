import CostBasis.Proofs.Ledger.Methods

/-!
# A flat position starts afresh

Nothing is left of its history in a flat position but the profit realized so far and the number of fills.
Fills do not look at either of them, except that a closing fill adds to the profit and is refused where the
sum is out of range.  So a flat position goes on as a new one would, up to the first such refusal.
-/

namespace CostBasis

open Decimal

/-- The profit realized after a fill: a closing fill adds what it books. -/
def FillOutcome.book (total : Decimal) (o : FillOutcome) : Option Decimal :=
  if o.IsClosing then total.add? o.realizedPnl else some total

/-- The profit realized after fills, one after the other. -/
def runningTotal (start : Decimal) (outcomes : List FillOutcome) : Option Decimal :=
  outcomes.foldlM FillOutcome.book start

theorem runningTotal_concat (start : Decimal) (outcomes : List FillOutcome) (o : FillOutcome) :
    runningTotal start (outcomes ++ [o]) = (runningTotal start outcomes).bind (FillOutcome.book · o) := by
  simp only [runningTotal, List.foldlM_append, List.foldlM_cons, List.foldlM_nil, bind_pure]
  rfl

namespace Position

/-- Nothing held, down to the sign and the scale of the zeros. -/
structure Clear (p : Position) : Prop where
  lots : p.lots = []
  size : p.size = 0
  averagePrice : p.averagePrice = 0

/-- Two positions that differ at most in the profit realized and the number of fills. -/
structure SameStanding (p p' : Position) : Prop where
  symbol : p'.symbol = p.symbol
  size : p'.size = p.size
  averagePrice : p'.averagePrice = p.averagePrice
  method : p'.method = p.method
  lots : p'.lots = p.lots

/-- What a fill leaves of two positions, up to the profit realized and the number of fills, and did to both. -/
def SameResult (result result' : Position × FillOutcome) : Prop :=
  result.1.SameStanding result'.1 ∧ result'.2 = result.2

theorem SameResult.counted {result result' : Position × FillOutcome} (same : SameResult result result') :
    SameResult ({ result.1 with tradeCount := result.1.tradeCount + 1 }, result.2)
      ({ result'.1 with tradeCount := result'.1.tradeCount + 1 }, result'.2) :=
  ⟨⟨same.1.symbol, same.1.size, same.1.averagePrice, same.1.method, same.1.lots⟩, same.2⟩

/-- A close is refused because what it books takes the profit realized so far out of range. -/
def TotalOverflows (p : Position) (fill : Fill) : Prop :=
  fill.IsPositive ∧ p.Opposes fill.side ∧ fill.quantity.value ≤ |p.size.value| ∧
    ∃ walk, Walk.through fill.price p.closingSign { remaining := fill.quantity } p.lots = .ok walk ∧
      p.realizedPnl.add? walk.realized = none

section

variable {p next : Position} {fill : Fill} {outcome : FillOutcome}

theorem refused_of_totalOverflows (overflows : p.TotalOverflows fill) :
    p.apply fill
      = .error (.refused (.overflow p.symbol .realizedPnl fill.quantity fill.price)) := by
  obtain ⟨positive, opposes, enough, walk, walked, out⟩ := overflows
  exact fill_of_reduce_error positive.1 positive.2 opposes enough (reduce_of_overflow walked out)

theorem not_totalOverflows_of_ok (filled : p.apply fill = .ok (next, outcome)) :
    ¬p.TotalOverflows fill := fun overflows => by
  rw [refused_of_totalOverflows overflows] at filled
  cases filled

theorem book_of_fill (filled : p.apply fill = .ok (next, outcome)) :
    outcome.book p.realizedPnl = some next.realizedPnl := by
  have closing := isClosing_iff_opposes filled
  obtain ⟨_, _, p', rfl, ⟨opposes, _, reduced⟩ | ⟨joins, added⟩⟩ := fill_eq_ok filled
  · rw [FillOutcome.book, if_pos (closing.mpr opposes)]
    obtain ⟨_, _, _, _, _, _, booked, _, _, _, rfl, ⟨_, rfl⟩ | ⟨_, rfl⟩⟩ := reduce_eq_ok reduced
    · exact booked
    · exact booked
  · rw [FillOutcome.book, if_neg (mt closing.mp joins)]
    obtain ⟨_, _, _, _, _, _, rfl, _⟩ := add_eq_ok added
    rfl

/-- A fill that leaves nothing leaves plain zeros. -/
theorem clear_of_fill (filled : p.apply fill = .ok (next, outcome)) (flat : next.IsFlat) : next.Clear := by
  obtain ⟨quantity_pos, _, p', rfl, ⟨_, _, reduced⟩ | ⟨joins, added⟩⟩ := fill_eq_ok filled
  · obtain ⟨_, _, _, _, _, _, _, _, _, _, _, ⟨_, rfl⟩ | ⟨open_, rfl⟩⟩ := reduce_eq_ok reduced
    · exact ⟨rfl, rfl, rfl⟩
    · exact absurd flat open_
  · obtain ⟨size, _, _, _, sized, _, rfl, _⟩ := add_eq_ok added
    have positive := size_pos_of_add joins quantity_pos sized
    rw [(isZero_iff size).mp flat, abs_zero] at positive
    exact absurd positive (lt_irrefl _)

theorem Clear.sameStanding (clear : p.Clear) : p.SameStanding (.new p.symbol p.method) where
  symbol := rfl
  size := clear.size.symm
  averagePrice := clear.averagePrice.symm
  method := rfl
  lots := clear.lots.symm

end

/-! ## The method -/

theorem setMethod_of_flat {p : Position} (flat : p.IsFlat) (method : Method) :
    ∃ events, p.setMethod method = .ok { value := { p with method }, events } := by
  by_cases same : method = p.method
  · subst same
    exact ⟨[], if_pos rfl⟩
  · rw [setMethod, if_neg same, if_pos flat]
    exact ⟨_, rfl⟩

theorem setMethod_of_open {p : Position} (held : ¬p.IsFlat) (method : Method) :
    p.setMethod method
      = if method = p.method then .ok { value := p } else .error (.positionOpen p.symbol p.size) := by
  rw [setMethod, if_neg held]

/-! ## One fill of two positions -/

namespace SameStanding

variable {p p' : Position} (same : p.SameStanding p') {fill : Fill}

include same

theorem closingSign : p'.closingSign = p.closingSign := by
  rw [Position.closingSign, Position.closingSign, same.size]

theorem add (side : Side) (quantity price : Decimal) :
    Corresponds SameResult (p.add side quantity price) (p'.add side quantity price) := by
  have opened (lot : Lot) : p'.lotsAfterOpen lot = p.lotsAfterOpen lot := by
    simp only [lotsAfterOpen, same.method, same.lots]
  have grown : p'.grow? side quantity = p.grow? side quantity := by
    simp only [grow?, same.size]
  rw [add_eq, add_eq, grown]
  simp only [opened]
  refine .bind_left _ fun lot => .bind_left _ fun size => .bind_left _ fun ledger => .ok ⟨?_, rfl⟩
  exact ⟨same.symbol, rfl, rfl, same.method, rfl⟩

/-- Both walks are the same; that each profit is in range has to be known. -/
theorem reduce {quantity price : Decimal}
    (booked : ∀ walk, Walk.through price p.closingSign { remaining := quantity } p.lots = .ok walk →
      (∃ total, p.realizedPnl.add? walk.realized = some total) ∧
        ∃ total, p'.realizedPnl.add? walk.realized = some total) :
    Corresponds SameResult (p.reduce quantity price) (p'.reduce quantity price) := by
  simp only [Position.reduce_eq, same.closingSign, same.lots, same.size]
  cases walked : Walk.through price p.closingSign { remaining := quantity } p.lots with
  | error obstacle => exact .error _
  | ok walk =>
    obtain ⟨⟨total, found⟩, total', found'⟩ := booked walk walked
    simp only [ok_bind, found, found', Obstacle.checked]
    refine .bind_left _ fun lots => .bind_left _ fun average => ?_
    refine .bind_left _ fun change => .bind_left _ fun size => ?_
    split
    next => exact .ok ⟨⟨same.symbol, rfl, rfl, same.method, rfl⟩, rfl⟩
    next => exact .ok ⟨⟨same.symbol, rfl, rfl, same.method, rfl⟩, rfl⟩

/-- The step: unless a running total overflows, both positions do the same with a fill. -/
theorem apply (within : ¬p.TotalOverflows fill) (within' : ¬p'.TotalOverflows fill) :
    Corresponds SameResult (p.apply fill) (p'.apply fill) := by
  rw [Position.apply, Position.apply]
  by_cases invalid : fill.quantity ≤ 0 ∨ fill.price ≤ 0
  · rw [fill_of_invalid invalid, fill_of_invalid invalid]
    exact .error _
  obtain ⟨quantity_pos, price_pos⟩ := (not_invalid_iff _ _).mp invalid
  by_cases larger : p.Opposes fill.side ∧ |p.size.value| < fill.quantity.value
  · obtain ⟨opposes, less⟩ := larger
    have less' : |p'.size.value| < fill.quantity.value := by rwa [same.size]
    rw [fill_of_insufficient quantity_pos price_pos opposes less,
      fill_of_insufficient quantity_pos price_pos ((opposes_congr same.size).mpr opposes) less', same.symbol,
      same.size]
    exact .error _
  rw [fill_eq_trade quantity_pos price_pos, fill_eq_trade quantity_pos price_pos]
  refine .bind (R := SameResult) ?_ fun result result' results => .ok results.counted
  by_cases opposes : p.Opposes fill.side
  · have opposes' := (opposes_congr same.size).mpr opposes
    have enough : fill.quantity.value ≤ |p.size.value| := not_lt.mp fun less => larger ⟨opposes, less⟩
    have enough' : fill.quantity.value ≤ |p'.size.value| := by rwa [same.size]
    rw [trade_of_opposes opposes, trade_of_opposes opposes', close_of_enough enough, close_of_enough enough',
      failure_congr same.symbol]
    refine .mapError (same.reduce fun walk walked => ⟨?_, ?_⟩) _
    · refine Option.ne_none_iff_exists'.mp fun out => ?_
      exact within ⟨⟨quantity_pos, price_pos⟩, opposes, enough, walk, walked, out⟩
    · refine Option.ne_none_iff_exists'.mp fun out => ?_
      rw [← same.closingSign, ← same.lots] at walked
      exact within' ⟨⟨quantity_pos, price_pos⟩, opposes', enough', walk, walked, out⟩
  · have joins := mt (opposes_congr same.size).mp opposes
    rw [trade_of_not_opposes opposes, trade_of_not_opposes joins, failure_congr same.symbol]
    exact (same.add _ _ _).mapError _

end SameStanding

/-! ## Opening from flat -/

section

variable {p next : Position} {fill : Fill} {outcome : FillOutcome}

theorem clear_of_flattening (opposes : p.Opposes fill.side) (whole : fill.quantity.value = |p.size.value|)
    (filled : p.apply fill = .ok (next, outcome)) : next.Clear := by
  obtain ⟨_, _, p', rfl, ⟨_, _, reduced⟩ | ⟨joins, _⟩⟩ := fill_eq_ok filled
  · obtain ⟨_, _, _, _, size, _, _, _, _, sized, _, ⟨_, rfl⟩ | ⟨open_, rfl⟩⟩ := reduce_eq_ok reduced
    · exact ⟨rfl, rfl, rfl⟩
    · have magnitude := (nearest?_abs_sub opposes whole.le sized).1
      rw [whole, sub_self, nearest?_of_representable ⟨0, value_zero⟩, Option.some_inj] at magnitude
      exact absurd ((isZero_iff _).mpr (abs_eq_zero.mp magnitude.symm)) open_
  · exact absurd opposes joins

theorem Clear.not_opposes (clear : p.Clear) (side : Side) : ¬p.Opposes side := by
  rw [opposes_iff, clear.size, value_zero, mul_zero]
  exact lt_irrefl 0

theorem Clear.representable_grown (clear : p.Clear) (side : Side) (quantity : Decimal) :
    Representable (p.size.value + side.factor * quantity.value) := by
  rw [clear.size, value_zero, zero_add]
  cases side.factor_cases with
  | inl one =>
    rw [one, one_mul]
    exact representable_value _
  | inr minus =>
    rw [minus, neg_one_mul]
    exact (representable_value _).neg

theorem Clear.lotsAfterOpen (clear : p.Clear) {lot : Lot} (sound : lot.Sound) :
    p.lotsAfterOpen lot = .ok ([lot], lot.price) := by
  have appended : p.lotsAfterOpen lot = (do return ([lot], ← Lot.averagePrice [lot])) := by
    simp only [Position.lotsAfterOpen, clear.lots]
    cases p.method <;> rfl
  rw [appended, Lot.averagePrice_singleton sound]
  rfl

/-- A fill of a flat position leaves one lot, of its quantity and price. -/
theorem Clear.opened (clear : p.Clear) (filled : p.apply fill = .ok (next, outcome)) :
    next.lots = [⟨fill.quantity, fill.price⟩] ∧ next.size.value = fill.side.factor * fill.quantity.value ∧
      next.averagePrice = fill.price ∧ next.realizedPnl = p.realizedPnl ∧
      outcome = { opened := fill.quantity } := by
  obtain ⟨quantity_pos, price_pos, p', rfl, ⟨opposes, _⟩ | ⟨_, added⟩⟩ := fill_eq_ok filled
  · exact absurd opposes (clear.not_opposes _)
  · obtain ⟨size, lots, average, made, sized, opened, rfl, rfl⟩ := add_eq_ok added
    rw [clear.lotsAfterOpen (Sound.lot_of_make? made quantity_pos price_pos)] at opened
    cases opened
    rw [nearest?_of_representable (clear.representable_grown _ _), Option.some_inj, clear.size, value_zero,
      zero_add] at sized
    exact ⟨rfl, sized.symm, rfl, rfl, rfl⟩

/-- A fill of a flat position is accepted when it is positive and its cost is in range. -/
theorem Clear.accepted_iff (clear : p.Clear) :
    (∃ next outcome, p.apply fill = .ok (next, outcome)) ↔
      fill.IsPositive ∧ fill.quantity.value * fill.price.value < limit := by
  constructor
  · rintro ⟨next, outcome, filled⟩
    obtain ⟨quantity_pos, price_pos, p', rfl, ⟨opposes, _⟩ | ⟨_, added⟩⟩ := fill_eq_ok filled
    · exact absurd opposes (clear.not_opposes _)
    · obtain ⟨_, _, _, made, _⟩ := add_eq_ok added
      exact ⟨⟨quantity_pos, price_pos⟩, (le_abs_self _).trans_lt (Lot.make?_eq_some made).2⟩
  · rintro ⟨positive, fits⟩
    have made : Lot.make? fill.quantity fill.price = some ⟨fill.quantity, fill.price⟩ :=
      Lot.exists_make? (by rwa [abs_of_pos (mul_pos positive.1 positive.2)])
    obtain ⟨size, grown, _⟩ := (p.grow?_rounds fill.side fill.quantity).exact (clear.representable_grown _ _)
    have opened := clear.lotsAfterOpen (Sound.lot_of_make? made positive.1 positive.2)
    have added : p.add fill.side fill.quantity fill.price
        = .ok ({ p with size, averagePrice := fill.price, lots := [⟨fill.quantity, fill.price⟩] },
          { opened := fill.quantity }) := by
      rw [add_eq, made, Obstacle.checked_some rfl, ok_bind, grown, Obstacle.checked_some rfl, ok_bind, opened]
      rfl
    exact ⟨_, _, fill_of_add positive.1 positive.2 (clear.not_opposes _) added⟩

end

end Position

/-- The same fill was accepted with the same outcome, and left the same standing. -/
structure Entry.SameTrade (e e' : Entry) : Prop where
  fill : e'.fill = e.fill
  outcome : e'.outcome = e.outcome
  after : e.after.SameStanding e'.after

namespace Session

/-- No fill is refused because it takes the profit realized so far out of range. -/
def KeepsTotal (s : Session) (fills : List Fill) : Prop :=
  ∀ before fill, before ++ [fill] <+: fills → ∀ t, s.runFills before = .ok t → ¬t.position.TotalOverflows fill

theorem KeepsTotal.nil (s : Session) : s.KeepsTotal [] := fun before fill earlier => by
  simp at earlier

theorem keepsTotal_concat {s : Session} {fills : List Fill} {fill : Fill} :
    s.KeepsTotal (fills ++ [fill]) ↔
      s.KeepsTotal fills ∧ ∀ t, s.runFills fills = .ok t → ¬t.position.TotalOverflows fill := by
  constructor
  · intro keeps
    exact ⟨fun before fill' earlier => keeps before fill' (earlier.trans (List.prefix_append _ _)),
      keeps fills fill (List.prefix_refl _)⟩
  · rintro ⟨keeps, last⟩ before fill' earlier
    rcases List.prefix_concat_iff.mp earlier with whole | earlier
    · obtain ⟨rfl, ⟨⟩⟩ := List.append_inj' whole rfl
      exact last
    · exact keeps before fill' earlier

theorem step_fill_eq_ok {s s' : Session} {fill : Fill} (stepped : s.step (.fill fill) = .ok s') :
    (∃ next outcome, s.position.apply fill = .ok (next, outcome) ∧ s' = s.accept fill next outcome) ∨
      s' = s := by
  simp only [step] at stepped
  split at stepped
  next next outcome filled =>
    cases stepped
    exact .inl ⟨next, outcome, filled, rfl⟩
  next =>
    cases stepped
    exact .inr rfl
  next => cases stepped

theorem length_entries_le_of_runFills {s t : Session} {fills : List Fill}
    (ran : s.runFills fills = .ok t) : t.entries.length ≤ s.entries.length + fills.length := by
  induction fills using List.reverseRecOn generalizing t with
  | nil =>
    cases ran
    exact Nat.le_refl _
  | append_singleton fills fill ih =>
    rw [runFills_concat, bind_eq_ok] at ran
    obtain ⟨t', ran, stepped⟩ := ran
    have le := ih ran
    rw [List.length_append, List.length_singleton]
    obtain ⟨next, outcome, _, rfl⟩ | rfl := step_fill_eq_ok stepped
    · simp only [accept, List.length_append, List.length_singleton]
      omega
    · omega

/-- A run that accepts as many fills as it is asked for has had none refused. -/
theorem keepsTotal_of_length_entries {s t : Session} {fills : List Fill}
    (ran : s.runFills fills = .ok t) (all : t.entries.length = s.entries.length + fills.length) :
    s.KeepsTotal fills := by
  induction fills using List.reverseRecOn generalizing t with
  | nil => exact .nil s
  | append_singleton fills fill ih =>
    rw [runFills_concat, bind_eq_ok] at ran
    obtain ⟨t', ran, stepped⟩ := ran
    have le := length_entries_le_of_runFills ran
    rw [List.length_append, List.length_singleton] at all
    obtain ⟨next, outcome, filled, rfl⟩ | rfl := step_fill_eq_ok stepped
    · simp only [accept, List.length_append, List.length_singleton] at all
      refine keepsTotal_concat.mpr ⟨ih ran (by omega), fun u ran_u => ?_⟩
      obtain rfl := Except.ok.inj (ran.symm.trans ran_u)
      exact Position.not_totalOverflows_of_ok filled
    · omega

/-- The new position that a flat session is compared with. -/
def fresh (s : Session) : Session := start s.position.symbol s.position.method

/-- After as many fills, a session `t` that goes on from `s` stands where the new one `t'` does.  Its profit
and its number of fills go on from those of `s`. -/
structure Resumes (s t t' : Session) : Prop where
  position : t.position.SameStanding t'.position
  entries : ∃ later, t.entries = s.entries ++ later ∧ List.Forall₂ Entry.SameTrade later t'.entries
  realizedPnl : runningTotal s.position.realizedPnl (t'.entries.map (·.outcome)) = some t.position.realizedPnl
  fresh_realizedPnl : runningTotal 0 (t'.entries.map (·.outcome)) = some t'.position.realizedPnl
  tradeCount : t.position.tradeCount = s.position.tradeCount + t'.entries.length
  fresh_tradeCount : t'.position.tradeCount = t'.entries.length

namespace Resumes

theorem start {s : Session} (clear : s.position.Clear) : s.Resumes s s.fresh where
  position := clear.sameStanding
  entries := ⟨[], (List.append_nil _).symm, .nil⟩
  realizedPnl := rfl
  fresh_realizedPnl := rfl
  tradeCount := rfl
  fresh_tradeCount := rfl

theorem accept {s t t' : Session} (resumes : s.Resumes t t') {fill : Fill} {next next' : Position}
    {outcome outcome' : FillOutcome} (filled : t.position.apply fill = .ok (next, outcome))
    (filled' : t'.position.apply fill = .ok (next', outcome'))
    (same : Position.SameResult (next, outcome) (next', outcome')) :
    s.Resumes (t.accept fill next outcome) (t'.accept fill next' outcome') := by
  obtain ⟨standing, outcome_eq⟩ := same
  cases outcome_eq
  obtain ⟨later, entries, trades⟩ := resumes.entries
  have trade : Entry.SameTrade ⟨fill, t.position, next, outcome⟩ ⟨fill, t'.position, next', outcome⟩ :=
    ⟨rfl, rfl, standing⟩
  constructor
  case position => exact standing
  case entries =>
    refine ⟨later ++ [⟨fill, t.position, next, outcome⟩], ?_, List.rel_append trades (.cons trade .nil)⟩
    rw [Session.accept, entries, List.append_assoc]
  case realizedPnl =>
    rw [Session.accept, List.map_append, List.map_singleton, runningTotal_concat, resumes.realizedPnl]
    exact Position.book_of_fill filled
  case fresh_realizedPnl =>
    rw [Session.accept, List.map_append, List.map_singleton, runningTotal_concat, resumes.fresh_realizedPnl]
    exact Position.book_of_fill filled'
  case tradeCount =>
    rw [Session.accept, Session.accept, (Position.moves_of_fill filled).tradeCount_eq, resumes.tradeCount,
      List.length_append, List.length_singleton, Nat.add_assoc]
  case fresh_tradeCount =>
    rw [Session.accept, (Position.moves_of_fill filled').tradeCount_eq, resumes.fresh_tradeCount,
      List.length_append, List.length_singleton]

/-- The step, where no total overflows. -/
theorem step {s t t' : Session} (resumes : s.Resumes t t') {fill : Fill}
    (within : ¬t.position.TotalOverflows fill) (within' : ¬t'.position.TotalOverflows fill) :
    Corresponds s.Resumes (t.step (.fill fill)) (t'.step (.fill fill)) :=
  corresponds_step (resumes.position.apply within within').results resumes
    fun _ _ ⟨same, filled, filled'⟩ => resumes.accept filled filled' same

end Resumes

/-- A flat session goes on as a new one does, as long as neither total overflows. -/
theorem exists_resumes {s : Session} (sound : s.position.Sound) (clear : s.position.Clear) (fills : List Fill) :
    s.KeepsTotal fills → s.fresh.KeepsTotal fills →
      ∃ t t', s.runFills fills = .ok t ∧ s.fresh.runFills fills = .ok t' ∧ s.Resumes t t' := by
  obtain ⟨t, ran, _, goes_on⟩ := runFills_induction s
    (motive := fun fills t => s.KeepsTotal fills → s.fresh.KeepsTotal fills →
      ∃ t', s.fresh.runFills fills = .ok t' ∧ s.Resumes t t')
    sound (fun _ _ => ⟨s.fresh, rfl, .start clear⟩)
    (fun fills t fill next ran _ goes_on ran' _ keeps keeps' => by
      obtain ⟨keeps, within⟩ := keepsTotal_concat.mp keeps
      obtain ⟨keeps', within'⟩ := keepsTotal_concat.mp keeps'
      obtain ⟨t', ran_fresh, resumes⟩ := goes_on keeps keeps'
      have stepped := resumes.step (within t ran) (within' t' ran_fresh)
      rw [runFills_concat, ran, ok_bind] at ran'
      rw [ran'] at stepped
      obtain ⟨next', step_eq, resumes'⟩ := stepped.exists_ok
      exact ⟨next', by rw [runFills_concat, ran_fresh, ok_bind, step_eq], resumes'⟩)
    fills
  intro keeps keeps'
  obtain ⟨t', ran', resumes⟩ := goes_on keeps keeps'
  exact ⟨t, t', ran, ran', resumes⟩

theorem clear_of_turn {s s' : Session} {request : Request} (clear : s.position.IsFlat → s.position.Clear)
    (turn : Turn s request s') (flat : s'.position.IsFlat) : s'.position.Clear := by
  cases turn with
  | switched method =>
    have before := clear flat
    exact ⟨before.lots, before.size, before.averagePrice⟩
  | unswitched | refused => exact clear flat
  | accepted filled => exact Position.clear_of_fill filled flat

/-- Whatever was asked of a position, once flat it has no lots and plain zeros, takes any method, and goes on
as a new position does with every fill, up to one that takes either profit realized so far out of range.  A
position that is open keeps its method.  After a fill that closes all that is held, the next one leaves one lot
of its own quantity and price. -/
theorem flat_forgets (symbol : String) (method : Method) (requests : List Request) :
    ∃ s, (start symbol method).run requests = .ok s ∧
      (s.position.IsFlat →
        (s.position.lots = [] ∧ s.position.size = 0 ∧ s.position.averagePrice = 0) ∧
        (∀ method, ∃ events, s.position.setMethod method
          = .ok { value := { s.position with method }, events }) ∧
        ∀ fills, s.KeepsTotal fills → s.fresh.KeepsTotal fills →
          ∃ t t', s.runFills fills = .ok t ∧ s.fresh.runFills fills = .ok t' ∧ s.Resumes t t' ∧
            ∀ fill,
              (t.position.TotalOverflows fill → t.position.apply fill = .error (.refused
                (.overflow t.position.symbol .realizedPnl fill.quantity fill.price))) ∧
              (¬t.position.TotalOverflows fill → ¬t'.position.TotalOverflows fill →
                Corresponds Position.SameResult (t.position.apply fill) (t'.position.apply fill))) ∧
      (¬s.position.IsFlat → ∀ method,
        ((∃ changed, s.position.setMethod method = .ok changed) ↔ method = s.position.method) ∧
          s.step (.setMethod method) = .ok s) ∧
      ∀ close next outcome, s.position.Opposes close.side → close.quantity.value = |s.position.size.value| →
        s.position.apply close = .ok (next, outcome) → ∀ extra,
          ((∃ last booked, next.apply extra = .ok (last, booked)) ↔
            extra.IsPositive ∧ extra.quantity.value * extra.price.value < limit) ∧
          ∀ last booked, next.apply extra = .ok (last, booked) →
            last.lots = [⟨extra.quantity, extra.price⟩] ∧
              last.size.value = extra.side.factor * extra.quantity.value ∧ last.averagePrice = extra.price ∧
              last.realizedPnl = next.realizedPnl ∧ booked = { opened := extra.quantity } := by
  obtain ⟨s, ran, sound, clear⟩ := run_induction (start symbol method)
    (motive := fun _ s => s.position.IsFlat → s.position.Clear) (start_sound symbol method)
    (fun _ => ⟨rfl, rfl, rfl⟩) (fun _ _ _ _ _ _ clear _ turn => clear_of_turn clear turn) requests
  refine ⟨s, ran, fun flat => ⟨?_, Position.setMethod_of_flat flat, fun fills keeps keeps' => ?_⟩,
    fun held method => ?_, fun close next outcome opposes whole closed extra => ?_⟩
  · exact ⟨(clear flat).lots, (clear flat).size, (clear flat).averagePrice⟩
  · obtain ⟨t, t', ran, ran', resumes⟩ := exists_resumes sound (clear flat) fills keeps keeps'
    exact ⟨t, t', ran, ran', resumes, fun fill => ⟨Position.refused_of_totalOverflows, resumes.position.apply⟩⟩
  · rw [step, Position.setMethod_of_open held]
    by_cases same : method = s.position.method
    · rw [if_pos same]
      exact ⟨iff_of_true ⟨_, rfl⟩ same, rfl⟩
    · rw [if_neg same]
      refine ⟨iff_of_false ?_ same, rfl⟩
      rintro ⟨_, changed⟩
      cases changed
  · have cleared := Position.clear_of_flattening opposes whole closed
    exact ⟨cleared.accepted_iff, fun last booked => cleared.opened⟩

/-- A purchase, a refused switch of the method, and a sale at a profit of four. -/
def boughtAndSold : List Request :=
  let two := Decimal.written 2 0
  [.fill ⟨.buy, two, 1⟩, .setMethod .weightedAverage, .fill ⟨.sell, two, .written 3 0⟩]

/-- After the sale a short holding is opened and bought back in part.  Before the sale the holding is closed
as a whole, and the fill after that sells once more. -/
theorem flat_forgets_boughtAndSold :
    let two := Decimal.written 2 0
    let three := Decimal.written 3 0
    let fills : List Fill := [⟨.sell, two, three⟩, ⟨.buy, 1, 1⟩]
    let close : Fill := ⟨.sell, two, three⟩
    let extra : Fill := ⟨.sell, 1, two⟩
    (∃ s t t', (start "X" .fifo).run boughtAndSold = .ok s ∧ s.position.IsFlat ∧
      s.KeepsTotal fills ∧ s.fresh.KeepsTotal fills ∧
      s.runFills fills = .ok t ∧ s.fresh.runFills fills = .ok t' ∧ s.Resumes t t' ∧
      t.position.lots = [⟨1, three⟩] ∧ t'.position.lots = [⟨1, three⟩] ∧
      t.position.realizedPnl = .written 6 0 ∧ t'.position.realizedPnl = two) ∧
    ∃ s next outcome last booked, (start "X" .fifo).run (boughtAndSold.take 2) = .ok s ∧
      s.position.method = .fifo ∧ s.position.Opposes close.side ∧
      close.quantity.value = |s.position.size.value| ∧ s.position.apply close = .ok (next, outcome) ∧
      next.apply extra = .ok (last, booked) ∧ last.lots = [⟨1, two⟩] ∧ last.size.value = -1 ∧
      last.realizedPnl = .written 4 0 := by
  intro two three fills close extra
  refine ⟨?_, ?_⟩
  · obtain ⟨s, ran, flat_s, _⟩ := flat_forgets "X" .fifo boughtAndSold
    have observed : ((start "X" .fifo).run boughtAndSold).toOption.map
        (fun s => (decide s.position.IsFlat, s.entries.length, s.position.symbol, s.position.method))
        = some (true, 2, "X", .fifo) := by decide +kernel
    have sold := eq_of_observed observed ran
    simp only [Prod.mk.injEq, decide_eq_true_eq] at sold
    obtain ⟨flat, two_fills, symbol, method⟩ := sold
    have fresh : s.fresh = start "X" .fifo := by rw [Session.fresh, symbol, method]
    have whole : (start "X" .fifo).run (boughtAndSold ++ fills.map .fill) = s.runFills fills := by
      rw [run_append, ran, ok_bind, runFills]
    have observed_t : ((start "X" .fifo).run (boughtAndSold ++ fills.map .fill)).toOption.map
        (fun t => (t.entries.length, t.position.lots, t.position.realizedPnl))
        = some (4, [⟨1, three⟩], .written 6 0) := by decide +kernel
    have observed_t' : ((start "X" .fifo).runFills fills).toOption.map
        (fun t => (t.entries.length, t.position.lots, t.position.realizedPnl))
        = some (2, [⟨1, three⟩], two) := by decide +kernel
    rw [whole] at observed_t
    rw [← fresh] at observed_t'
    obtain ⟨t, ran_t, facts⟩ := exists_of_observed observed_t
    obtain ⟨t', ran_t', facts'⟩ := exists_of_observed observed_t'
    simp only [Prod.mk.injEq] at facts facts'
    have keeps : s.KeepsTotal fills := keepsTotal_of_length_entries ran_t (by rw [facts.1, two_fills]; rfl)
    have keeps' : s.fresh.KeepsTotal fills := keepsTotal_of_length_entries ran_t' facts'.1
    obtain ⟨u, u', ran_u, ran_u', resumes, _⟩ := (flat_s flat).2.2 fills keeps keeps'
    obtain rfl := Except.ok.inj (ran_t.symm.trans ran_u)
    obtain rfl := Except.ok.inj (ran_t'.symm.trans ran_u')
    exact ⟨s, t, t', ran, flat, keeps, keeps', ran_t, ran_t', resumes, facts.2.1, facts'.2.1, facts.2.2,
      facts'.2.2⟩
  · obtain ⟨s, ran, _, _, closes⟩ := flat_forgets "X" .fifo (boughtAndSold.take 2)
    have observed : ((start "X" .fifo).run (boughtAndSold.take 2)).toOption.map
        (fun s => (s.position.method, s.position.size,
          (s.position.apply close).toOption.map fun sold => sold.1.realizedPnl))
        = some (.fifo, two, some (.written 4 0)) := by decide +kernel
    have bought := eq_of_observed observed ran
    simp only [Prod.mk.injEq] at bought
    obtain ⟨method, size, sold⟩ := bought
    obtain ⟨⟨next, outcome⟩, closed, realized⟩ := exists_of_observed sold
    have opposes : s.position.Opposes close.side := by
      rw [Position.Opposes, Position.direction, size]
      decide +kernel
    have all : close.quantity.value = |s.position.size.value| := by
      rw [size]
      decide +kernel
    obtain ⟨accepted, opened⟩ := closes close next outcome opposes all closed extra
    obtain ⟨last, booked, filled⟩ := accepted.mpr (by decide +kernel)
    obtain ⟨lots, last_size, _, kept, _⟩ := opened last booked filled
    exact ⟨s, next, outcome, last, booked, ran, method, opposes, all, closed, filled, lots,
      last_size.trans (by decide +kernel), kept.trans realized⟩

end Session

end CostBasis
