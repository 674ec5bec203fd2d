import CostBasis.Proofs.Ledger.Flattening

/-!
# Open risk can be reduced

A close averages the lots that it leaves, with checked sums and a checked quotient.  The lots before the close
had an average, so their sums were in range, and rounded sums are monotone: those of fewer and smaller lots are
in range as well.  The quotient could only leave the range for a small quantity.  Sums of quantities below one
are exact, and at prices up to `10 ^ 20` the sum of the costs stays within twice that price times the quantity,
whatever is rounded.  So a close within the holding is only ever refused for the profit.
-/

namespace CostBasis

open Decimal

/-! ## Sums of fewer lots -/

/-- What may be left of a lot: no more of it, at its price. -/
structure Lot.Within (left lot : Lot) : Prop where
  quantity_le : left.quantity.value ≤ lot.quantity.value
  price_eq : left.price.value = lot.price.value

/-- A sum that is no larger than one in range, and not negative. -/
theorem exists_add_of_le {a b a' b' sum : Decimal} (nonneg : 0 ≤ a'.value + b'.value)
    (le : a'.value + b'.value ≤ a.value + b.value) (added : a.add? b = some sum) :
    ∃ sum', a'.add? b' = some sum' ∧ 0 ≤ sum'.value ∧ sum'.value ≤ sum.value := by
  have near := (add?_rounds a b).nearest?_eq added
  have close : |a'.value + b'.value| < limit := by
    rw [abs_of_nonneg nonneg]
    exact (le.trans (le_abs_self _)).trans_lt (abs_lt_limit_of_nearest? near)
  obtain ⟨sum', added', near'⟩ := (add?_rounds a' b').exists_of_lt close
  exact ⟨sum', added', nearest?_nonneg nonneg near', nearest?_mono le near' near⟩

namespace Lot

/-- Sums that are no larger, and not negative. -/
structure Totals.Within (t' t : Totals) : Prop where
  quantity_nonneg : 0 ≤ t'.quantity.value
  quantity_le : t'.quantity.value ≤ t.quantity.value
  cost_nonneg : 0 ≤ t'.cost.value
  cost_le : t'.cost.value ≤ t.cost.value

theorem Totals.within_empty : ({} : Totals).Within {} where
  quantity_nonneg := value_zero.ge
  quantity_le := le_rfl
  cost_nonneg := value_zero.ge
  cost_le := le_rfl

theorem Sound.cost_le {left lot : Lot} (sound : left.Sound) (within : left.Within lot) {cost cost' : Decimal}
    (found' : left.cost = .ok cost') (found : lot.cost = .ok cost) : cost'.value ≤ cost.value := by
  have le : left.quantity.value * left.price.value ≤ lot.quantity.value * lot.price.value := by
    rw [within.price_eq]
    exact mul_le_mul_of_nonneg_right within.quantity_le (within.price_eq ▸ sound.price_nonneg)
  exact nearest?_mono le (Obstacle.multiply_eq_ok found') (Obstacle.multiply_eq_ok found)

section

variable {t t' u : Totals}

/-- A lot more makes sums no smaller. -/
theorem Totals.Within.grow (smaller : t'.Within t) {lot : Lot} (sound : lot.Sound)
    {quantity lotCost cost : Decimal} (summed : t.quantity.add? lot.quantity = some quantity)
    (costed : lot.cost = .ok lotCost) (totalled : t.cost.add? lotCost = some cost) (places : ℕ) :
    t'.Within { quantity, cost, places } where
  quantity_nonneg := smaller.quantity_nonneg
  quantity_le := by
    have quantity_pos := sound.quantity_pos
    exact smaller.quantity_le.trans
      (le_nearest? ((add?_rounds _ _).nearest?_eq summed) (by linarith) (representable_value _))
  cost_nonneg := smaller.cost_nonneg
  cost_le := by
    have cost_nonneg := sound.cost_nonneg costed
    exact smaller.cost_le.trans
      (le_nearest? ((add?_rounds _ _).nearest?_eq totalled) (by linarith) (representable_value _))

theorem Totals.Within.grow_all (smaller : t'.Within t) {lots : List Lot} (sound : ∀ lot ∈ lots, lot.Sound)
    (added : t.add lots = .ok u) : t'.Within u := by
  induction lots generalizing t with
  | nil =>
    cases added
    exact smaller
  | cons lot rest ih =>
    rw [List.forall_mem_cons] at sound
    obtain ⟨quantity, lotCost, cost, summed, costed, totalled, added⟩ := Totals.add_cons_eq_ok.mp added
    exact ih (smaller.grow sound.1 summed costed totalled _) sound.2 added

/-- The sums over what is left of lots are in range where those over the lots are. -/
theorem Totals.exists_add_of_within {left lots : List Lot} (within : List.SublistForall₂ Lot.Within left lots)
    (sound : ∀ lot ∈ left, lot.Sound) (sound_lots : ∀ lot ∈ lots, lot.Sound) (smaller : t'.Within t)
    (added : t.add lots = .ok u) : ∃ u', t'.add left = .ok u' ∧ u'.Within u := by
  induction within generalizing t t' with
  | nil => exact ⟨t', rfl, smaller.grow_all sound_lots added⟩
  | @cons lot' lot left rest within _ ih =>
    rw [List.forall_mem_cons] at sound sound_lots
    obtain ⟨quantity, lotCost, cost, summed, costed, totalled, added⟩ := Totals.add_cons_eq_ok.mp added
    obtain ⟨lotCost', costed', _⟩ := sound.1.exists_cost
    have quantity_pos := sound.1.quantity_pos
    have cost_nonneg := sound.1.cost_nonneg costed'
    obtain ⟨quantity', summed', quantity_nonneg, quantity_le⟩ :=
      exists_add_of_le (add_nonneg smaller.quantity_nonneg quantity_pos.le)
        (add_le_add smaller.quantity_le within.quantity_le) summed
    obtain ⟨cost', totalled', cost_nonneg, cost_le⟩ :=
      exists_add_of_le (add_nonneg smaller.cost_nonneg cost_nonneg)
        (add_le_add smaller.cost_le (sound.1.cost_le within costed' costed)) totalled
    have smaller' :
        Totals.Within { quantity := quantity', cost := cost', places := max t'.places lot'.price.scale }
          { quantity, cost, places := max t.places lot.price.scale } :=
      ⟨quantity_nonneg, quantity_le, cost_nonneg, cost_le⟩
    obtain ⟨u', added', less⟩ := ih sound.2 sound_lots.2 smaller' added
    have added_all := Totals.add_cons_eq_ok.mpr ⟨quantity', lotCost', cost', summed', costed', totalled', added'⟩
    exact ⟨u', added_all, less⟩
  | @cons_right lot left rest _ ih =>
    rw [List.forall_mem_cons] at sound_lots
    obtain ⟨quantity, lotCost, cost, summed, costed, totalled, added⟩ := Totals.add_cons_eq_ok.mp added
    exact ih sound sound_lots.2 (smaller.grow sound_lots.1 summed costed totalled _) added

end

/-! ## The mean of cheap lots -/

/-- Below `2 * 10 ^ 20` a number keeps eight places, so it is rounded by less than a small multiple of any
positive decimal. -/
theorem nearest?_le_add {x y : ℚ} (near : nearest? x = some y) (nonneg : 0 ≤ x) (small : x ≤ 2 * 10 ^ 20)
    {d : Decimal} (positive : 0 < d.value) : y ≤ x + 5 * 10 ^ 19 * d.value := by
  have room : |x| * 10 ^ 8 < limit := by
    rw [abs_of_nonneg nonneg, limit, maxMantissa_eq]
    norm_num
    linarith
  have moved := (le_abs_self _).trans (abs_sub_le_of_nearest? near (by decide) room)
  have unit := (onGrid_value d).one_le positive
  norm_num [maxScale] at moved unit
  linarith

/-- A sum below one has room for all places of what is added. -/
theorem eq_add_of_nearest?_lt_one {a b : Decimal} {sum : ℚ} (near : nearest? (a.value + b.value) = some sum)
    (nonneg : 0 ≤ a.value + b.value) (lt : sum < 1) : sum = a.value + b.value := by
  have below : a.value + b.value < 1 := by
    by_contra above
    exact absurd (le_nearest? near (not_lt.mp above) ⟨1, value_one⟩) (not_le.mpr lt)
  have representable : Representable (a.value + b.value) := by
    refine ((onGrid_value a).add (onGrid_value b)).representable le_rfl ?_
    rw [abs_of_nonneg nonneg]
    norm_num [maxScale]
    linarith
  rw [nearest?_of_representable representable, Option.some_inj] at near
  exact near.symm

section

variable {lots : List Lot} (sound : ∀ lot ∈ lots, lot.Sound) (cheap : ∀ lot ∈ lots, lot.price.value ≤ 10 ^ 20)

include sound cheap

/-- Each lot adds at most `10 ^ 20` times its quantity to the cost, and is rounded twice. -/
theorem Totals.cost_le_of_lt_one {t u : Totals} (added : t.add lots = .ok u) (small : u.quantity.value < 1)
    (quantity_nonneg : 0 ≤ t.quantity.value) (cost_nonneg : 0 ≤ t.cost.value)
    (bound : t.cost.value ≤ 2 * 10 ^ 20 * t.quantity.value) :
    u.cost.value ≤ 2 * 10 ^ 20 * u.quantity.value := by
  induction lots generalizing t with
  | nil =>
    cases added
    exact bound
  | cons lot rest ih =>
    rw [List.forall_mem_cons] at sound cheap
    obtain ⟨quantity, lotCost, cost, summed, costed, totalled, added⟩ := Totals.add_cons_eq_ok.mp added
    have quantity_pos := sound.1.quantity_pos
    have price_nonneg := sound.1.price_nonneg
    have lotCost_nonneg := sound.1.cost_nonneg costed
    have near := (add?_rounds _ _).nearest?_eq summed
    have sum_nonneg : 0 ≤ t.quantity.value + lot.quantity.value := by linarith
    have le := (Totals.le_quantity sound.2 added (nearest?_nonneg sum_nonneg near)).1
    have quantity_eq := eq_add_of_nearest?_lt_one near sum_nonneg (le.trans_lt small)
    have below : t.quantity.value + lot.quantity.value < 1 := quantity_eq ▸ le.trans_lt small
    have product_le : lot.quantity.value * lot.price.value ≤ 10 ^ 20 * lot.quantity.value := by
      rw [mul_comm]
      exact mul_le_mul_of_nonneg_right cheap.1 quantity_pos.le
    have lotCost_le := nearest?_le_add (Obstacle.multiply_eq_ok costed)
      (mul_nonneg quantity_pos.le price_nonneg) (by linarith) quantity_pos
    have cost_le := nearest?_le_add ((add?_rounds _ _).nearest?_eq totalled)
      (add_nonneg cost_nonneg lotCost_nonneg) (by linarith) quantity_pos
    refine ih sound.2 cheap.2 added (nearest?_nonneg sum_nonneg near)
      (nearest?_nonneg (add_nonneg cost_nonneg lotCost_nonneg) ((add?_rounds _ _).nearest?_eq totalled)) ?_
    rw [quantity_eq]
    linarith

/-- The quotient of the sums over cheap lots is in range. -/
theorem Totals.exists_mean {u : Totals} (nonempty : lots ≠ []) (added : ({} : Totals).add lots = .ok u) :
    ∃ mean, u.cost.div? u.quantity = some mean := by
  have empty := Totals.within_empty
  have cost_nonneg : 0 ≤ u.cost.value := empty.cost_nonneg.trans (empty.grow_all sound added).cost_le
  have quantity_pos : 0 < u.quantity.value := by
    obtain ⟨lot, member⟩ := List.exists_mem_of_ne_nil lots nonempty
    exact (sound lot member).quantity_pos.trans_le
      ((Totals.le_quantity sound added empty.quantity_nonneg).2 lot member)
  have close : |u.cost.value / u.quantity.value| < limit := by
    rw [abs_of_nonneg (div_nonneg cost_nonneg quantity_pos.le)]
    by_cases small : u.quantity.value < 1
    · have cost_le : u.cost.value ≤ 2 * 10 ^ 20 * u.quantity.value :=
        Totals.cost_le_of_lt_one sound cheap added small empty.quantity_nonneg empty.cost_nonneg
          (by rw [value_zero, mul_zero])
      refine ((div_le_iff₀ quantity_pos).mpr cost_le).trans_lt ?_
      rw [limit, maxMantissa_eq]
      norm_num
    · calc u.cost.value / u.quantity.value ≤ u.cost.value := div_le_self cost_nonneg (not_lt.mp small)
        _ ≤ maxMantissa := (le_abs_self _).trans (abs_value_le _)
        _ < limit := maxMantissa_lt_limit
  have divisor : ¬u.quantity.IsZero := mt (isZero_iff _).mp quantity_pos.ne'
  obtain ⟨mean, divided, _⟩ := (div?_rounds u.cost u.quantity divisor).exists_of_lt close
  exact ⟨mean, divided⟩

end

theorem exists_averagePrice_of_mean {lots : List Lot} {u : Totals} (added : ({} : Totals).add lots = .ok u)
    (divided : 2 ≤ lots.length → ∃ mean, u.cost.div? u.quantity = some mean) :
    ∃ average, averagePrice lots = .ok average := by
  simp only [averagePrice, added, ok_bind]
  rcases lots with _ | ⟨lot, _ | ⟨second, rest⟩⟩
  · exact ⟨0, rfl⟩
  · exact ⟨lot.price, rfl⟩
  · obtain ⟨mean, found⟩ := divided (by simp)
    simp only [found, Obstacle.checked_some rfl, ok_bind]
    exact ⟨_, rfl⟩

end Lot

namespace Position

/-! ## Closing -/

section

variable {price direction : Decimal} (price_nonneg : 0 ≤ price.value)
  (unit : direction.value = 1 ∨ direction.value = -1)

include price_nonneg unit

/-- A walk is only ever stopped by the profit. -/
theorem Walk.through_or_overflow {lots : List Lot} (sound : ∀ lot ∈ lots, lot.Sound) {w : Walk}
    (nonneg : 0 ≤ w.remaining.value) :
    (∃ w', Walk.through price direction w lots = .ok w') ∨
      Walk.through price direction w lots = .error (.overflow .realizedPnl) := by
  induction lots generalizing w with
  | nil => exact .inl ⟨w, rfl⟩
  | cons lot rest ih =>
    rw [List.forall_mem_cons] at sound
    by_cases zero : w.remaining.IsZero
    · exact .inl ⟨w, Walk.through_of_isZero zero _ _ _⟩
    obtain ⟨gain, signed, remaining, _, _, left, through⟩ :=
      Walk.through_cons price_nonneg unit rest sound.1 nonneg zero
    rw [through]
    cases booked : gain.mul? signed with
    | none => exact .inr rfl
    | some pnl =>
      rw [Obstacle.checked_some rfl, ok_bind]
      cases added : w.realized.add? pnl with
      | none => exact .inr rfl
      | some realized =>
        rw [Obstacle.checked_some rfl, ok_bind]
        refine ih sound.2 ?_
        rw [Walk.pass_remaining]
        exact nearest?_nonneg (sub_nonneg.mpr (min_le_left _ _)) left

end

/-- What survives of lots is the newest of them, and no more of any. -/
theorem within_of_survivors {lots left : List Lot} {w : Walk} (sound : ∀ lot ∈ lots, lot.Sound)
    (taken : 0 ≤ w.taken.value) (survived : survivors lots w = .ok left) :
    List.SublistForall₂ Lot.Within left lots := by
  have same (rest : List Lot) : List.Forall₂ Lot.Within rest rest :=
    List.forall₂_same.mpr fun _ _ => ⟨le_rfl, rfl⟩
  refine List.sublistForall₂_iff.mpr ⟨lots.drop w.exhausted, ?_, List.drop_sublist _ _⟩
  unfold survivors at survived
  split at survived
  next gone =>
    cases survived
    rw [gone]
    exact .nil
  next lot rest found =>
    simp only [Lot.consume, bind_eq_ok] at survived
    obtain ⟨_, ⟨quantity, subtracted, consumed⟩, survived⟩ := survived
    cases consumed
    cases survived
    have lot_sound := sound lot (List.mem_of_mem_drop (found ▸ List.mem_cons_self))
    have least : 0 ≤ (min w.taken lot.quantity).value := by
      rw [value_min]
      exact le_min taken lot_sound.quantity_pos.le
    rw [found]
    refine .cons ⟨?_, rfl⟩ (same rest)
    exact nearest?_le (Obstacle.subtract_eq_ok subtracted) (by linarith) (representable_value _)

/-- A ledger of which every part has an average: its own sums are in range, and if it has several lots then
they are cheap. -/
structure Reducible (p : Position) : Prop where
  sound : p.Sound
  averages : Lot.averagePrice p.lots = .ok p.averagePrice
  cheap : 2 ≤ p.lots.length → ∀ lot ∈ p.lots, lot.price.value ≤ 10 ^ 20

section

variable {p : Position} (reducible : p.Reducible) {side : Side} {quantity price : Decimal}
  (quantity_pos : 0 < quantity.value) (price_pos : 0 < price.value)

include reducible quantity_pos price_pos

/-- The average over what a close leaves is in range at every stage. -/
theorem Reducible.exists_average {walk : Walk}
    (walked : Walk.through price p.closingSign { remaining := quantity } p.lots = .ok walk) :
    ∃ left totals average, survivors p.lots walk = .ok left ∧
      Lot.Totals.add {} left = .ok totals ∧
      (2 ≤ left.length → ∃ mean, totals.cost.div? totals.quantity = some mean) ∧
      Lot.averagePrice left = .ok average := by
  have sound := reducible.sound
  obtain ⟨left, survived, left_sound, _⟩ := sound.survivors quantity_pos price_pos walked
  have taken := (Walk.amounts_nonneg price_pos.le p.closingSign_cases sound.lots
    (w := { remaining := quantity }) quantity_pos.le value_zero.ge walked).2
  have averages := reducible.averages
  simp only [Lot.averagePrice, bind_eq_ok] at averages
  obtain ⟨sums, summed, _⟩ := averages
  obtain ⟨totals, added, _⟩ := Lot.Totals.exists_add_of_within
    (within_of_survivors sound.lots taken survived) left_sound sound.lots Lot.Totals.within_empty summed
  have divided (several : 2 ≤ left.length) : ∃ mean, totals.cost.div? totals.quantity = some mean := by
    have prices := prices_of_survivors survived
    have length_eq := congrArg List.length prices
    rw [List.length_map, List.length_drop, List.length_map] at length_eq
    have cheap := reducible.cheap (by omega)
    refine Lot.Totals.exists_mean left_sound (fun lot member => ?_) (by rintro rfl; simp at several) added
    -- A survivor has the price of one of the lots before.
    have priced : lot.price ∈ (p.lots.map Lot.price).drop walk.exhausted :=
      prices ▸ List.mem_map_of_mem member
    obtain ⟨before, before_mem, price_eq⟩ := List.mem_map.mp (List.mem_of_mem_drop priced)
    rw [← price_eq]
    exact cheap before before_mem
  obtain ⟨average, averaged⟩ := Lot.exists_averagePrice_of_mean added divided
  exact ⟨left, totals, average, survived, added, divided, averaged⟩

theorem Reducible.reduce (opposes : p.Opposes side) (enough : quantity.value ≤ |p.size.value|) :
    (∃ next outcome, p.reduce quantity price = .ok (next, outcome)) ∨
      p.reduce quantity price = .error (.overflow .realizedPnl) := by
  obtain ⟨walk, walked⟩ | stopped := Walk.through_or_overflow price_pos.le p.closingSign_cases
    reducible.sound.lots (w := { remaining := quantity }) quantity_pos.le
  · cases booked : p.realizedPnl.add? walk.realized with
    | none => exact .inr (reduce_of_overflow walked booked)
    | some realizedPnl =>
      obtain ⟨left, _, average, survived, _, _, averaged⟩ :=
        reducible.exists_average quantity_pos price_pos walked
      obtain ⟨next, reduced, _⟩ :=
        exists_reduce_of_enough opposes quantity_pos.le enough walked booked survived averaged
      exact .inl ⟨next, _, reduced⟩
  · refine .inr ?_
    rw [Position.reduce_eq, stopped]
    rfl

/-- A close within the holding is accepted, or refused for the profit. -/
theorem Reducible.fill (opposes : p.Opposes side) (enough : quantity.value ≤ |p.size.value|) :
    (∃ next outcome, p.fill side quantity price = .ok (next, outcome)) ∨
      p.fill side quantity price = .error (.refused (.overflow p.symbol .realizedPnl quantity price)) := by
  obtain ⟨next, outcome, reduced⟩ | stopped := reducible.reduce quantity_pos price_pos opposes enough
  · exact .inl ⟨_, _, fill_of_reduce quantity_pos price_pos opposes enough reduced⟩
  · exact .inr (fill_of_reduce_error quantity_pos price_pos opposes enough stopped)

end

/-! ## Prices of lots -/

/-- Under FIFO the prices of lots are prices of fills. -/
theorem cheap_of_fill {p next : Position} {fill : Fill} {outcome : FillOutcome} {top : ℚ}
    (cheap : p.method = .fifo → ∀ lot ∈ p.lots, lot.price.value ≤ top)
    (fill_cheap : fill.price.value ≤ top) (filled : p.apply fill = .ok (next, outcome))
    (fifo : next.method = .fifo) : ∀ lot ∈ next.lots, lot.price.value ≤ top := by
  have before := cheap ((method_of_fill filled).symm.trans fifo)
  by_cases opposes : p.Opposes fill.side
  · intro lot member
    have suffix := prices_suffix_of_fill opposes filled
    obtain ⟨lot', member', price_eq⟩ := List.mem_map.mp (suffix.subset (List.mem_map_of_mem member))
    rw [← price_eq]
    exact before lot' member'
  · obtain ⟨_, _, p', rfl, ⟨opposes', _⟩ | ⟨_, added⟩⟩ := fill_eq_ok filled
    · exact absurd opposes' opposes
    obtain ⟨_, lots, _, _, _, opened, rfl, _⟩ := add_eq_ok added
    obtain ⟨_, _, _, weighted, _⟩ | ⟨_, rfl, _⟩ := lotsAfterOpen_eq_ok opened
    · cases weighted.symm.trans fifo
    · rw [List.forall_mem_append, List.forall_mem_singleton]
      exact ⟨before, fill_cheap⟩

end Position

namespace Session

theorem cheap_of_turn {s s' : Session} {request : Request} {top : ℚ} (sound : s.position.Sound)
    (cheap : s.position.method = .fifo → ∀ lot ∈ s.position.lots, lot.price.value ≤ top)
    (request_cheap : ∀ fill, request = .fill fill → fill.price.value ≤ top) (turn : Turn s request s')
    (fifo : s'.position.method = .fifo) : ∀ lot ∈ s'.position.lots, lot.price.value ≤ top := by
  cases turn with
  | switched method flat =>
    -- Lots of another method do not become lots of this one: there are none.
    rw [sound.flat flat]
    exact List.forall_mem_nil _
  | unswitched | refused => exact cheap fifo
  | accepted filled => exact Position.cheap_of_fill cheap (request_cheap _ rfl) filled fifo

theorem reducible_of_run (symbol : String) (method : Method) {requests : List Request}
    (cheap : ∀ fill, .fill fill ∈ requests → fill.price.value ≤ 10 ^ 20) :
    ∃ s, (start symbol method).run requests = .ok s ∧ s.position.Reducible := by
  obtain ⟨s, ran, sound, fifo_cheap⟩ := run_induction (start symbol method)
    (motive := fun requests s => (∀ fill, .fill fill ∈ requests → fill.price.value ≤ 10 ^ 20) →
      s.position.method = .fifo → ∀ lot ∈ s.position.lots, lot.price.value ≤ 10 ^ 20)
    (start_sound symbol method) (fun _ _ => List.forall_mem_nil _)
    (fun requests s request s' _ sound before _ turn cheap =>
      cheap_of_turn sound (before fun fill member => cheap fill (List.mem_append_left _ member))
        (fun fill last => cheap fill (by simp [last])) turn)
    requests
  obtain ⟨_, averaged, averages⟩ := of_exists_ok (averagePrice_of_run symbol method requests) ran
  refine ⟨s, ran, sound, averages, fun several => ?_⟩
  cases named : s.position.method with
  | fifo => exact fifo_cheap cheap named
  | weightedAverage =>
    have single := (averaged named).single
    omega

/-- Whatever was asked of a position at prices up to `10 ^ 20`, a fill against the holding and within it is
accepted, or refused because the profit is out of range.  The average over what it leaves is no reason: the
sums over those lots are in range, and so is their quotient. -/
theorem closes_unless_profit_overflows (symbol : String) (method : Method) {requests : List Request}
    (cheap : ∀ fill, .fill fill ∈ requests → fill.price.value ≤ 10 ^ 20) :
    ∃ s, (start symbol method).run requests = .ok s ∧
      ∀ fill, s.position.Opposes fill.side → 0 < fill.quantity.value →
        fill.quantity.value ≤ |s.position.size.value| → 0 < fill.price.value →
          ((∃ next outcome, s.position.apply fill = .ok (next, outcome)) ∨
            s.position.apply fill = .error (.refused
              (.overflow s.position.symbol .realizedPnl fill.quantity fill.price))) ∧
          ∀ walk, Position.Walk.through fill.price s.position.closingSign { remaining := fill.quantity }
              s.position.lots = .ok walk →
            ∃ left totals average, Position.survivors s.position.lots walk = .ok left ∧
              Lot.Totals.add {} left = .ok totals ∧
              (2 ≤ left.length → ∃ mean, totals.cost.div? totals.quantity = some mean) ∧
              Lot.averagePrice left = .ok average := by
  obtain ⟨s, ran, reducible⟩ := reducible_of_run symbol method cheap
  exact ⟨s, ran, fun fill opposes quantity_pos enough price_pos =>
    ⟨reducible.fill quantity_pos price_pos opposes enough,
      fun walk walked => reducible.exists_average quantity_pos price_pos walked⟩⟩

/-- A purchase at the highest price, and two of the smallest quantities. -/
def dustAfterDear : List Request :=
  let dust := Decimal.written 3 28
  [.fill ⟨.buy, 1, .written (10 ^ 20) 0⟩, .fill ⟨.buy, dust, 1⟩, .fill ⟨.buy, dust, .written 2 0⟩]

/-- The sale of the dear lot is accepted at a loss, and what it leaves is averaged. -/
theorem closes_unless_profit_overflows_dustAfterDear :
    let dust := Decimal.written 3 28
    let left : List Lot := [⟨dust, 1⟩, ⟨dust, .written 2 0⟩]
    let fill : Fill := ⟨.sell, 1, .written 2 0⟩
    (∀ fill, .fill fill ∈ dustAfterDear → fill.price.value ≤ 10 ^ 20) ∧
      ∃ s walk totals mean next outcome, (start "X" .fifo).run dustAfterDear = .ok s ∧
        s.position.Opposes fill.side ∧ 0 < fill.quantity.value ∧
        fill.quantity.value ≤ |s.position.size.value| ∧ 0 < fill.price.value ∧
        Position.Walk.through fill.price s.position.closingSign { remaining := fill.quantity }
          s.position.lots = .ok walk ∧
        Position.survivors s.position.lots walk = .ok left ∧ Lot.Totals.add {} left = .ok totals ∧
        totals.cost.div? totals.quantity = some mean ∧ s.position.apply fill = .ok (next, outcome) ∧
        next.lots = left ∧ next.averagePrice = .written 150 2 ∧
        outcome.realizedPnl = -.written 99999999999999999998 0 := by
  intro dust left fill
  have cheap : ∀ fill, .fill fill ∈ dustAfterDear → fill.price.value ≤ 10 ^ 20 := by
    intro fill member
    simp only [dustAfterDear, List.mem_cons, Request.fill.injEq, List.not_mem_nil, or_false] at member
    rcases member with rfl | rfl | rfl <;> decide +kernel
  obtain ⟨s, ran, closes⟩ := closes_unless_profit_overflows "X" .fifo cheap
  have walk_observed : ((start "X" .fifo).run dustAfterDear).toOption.map
      (fun s => (s.position.size,
        (Position.Walk.through fill.price s.position.closingSign { remaining := fill.quantity }
          s.position.lots).toOption.map fun walk => (Position.survivors s.position.lots walk).toOption))
      = some (.written 10000000000000000000000000006 28, some (some left)) := by decide +kernel
  have sale_observed : ((start "X" .fifo).run dustAfterDear).toOption.map
      (fun s => (s.position.apply fill).toOption.map fun sold =>
        (sold.1.lots, sold.1.averagePrice, sold.2.realizedPnl))
      = some (some (left, .written 150 2, -.written 99999999999999999998 0)) := by decide +kernel
  have facts := eq_of_observed walk_observed ran
  have sold := eq_of_observed sale_observed ran
  obtain ⟨size, walks⟩ := Prod.mk.inj facts
  have opposes : s.position.Opposes fill.side := by
    rw [Position.Opposes, Position.direction, size]
    decide +kernel
  have quantity_pos : 0 < fill.quantity.value := by decide +kernel
  have enough : fill.quantity.value ≤ |s.position.size.value| := by
    rw [size]
    decide +kernel
  have price_pos : 0 < fill.price.value := by decide +kernel
  obtain ⟨ends, averages⟩ := closes fill opposes quantity_pos enough price_pos
  obtain ⟨walk, walked, survived⟩ := exists_of_observed walks
  obtain ⟨left', totals, average, survived', summed, mean, _⟩ := averages walk walked
  rw [survived'] at survived
  obtain rfl : left' = left := Option.some_inj.mp survived
  obtain ⟨mean, divided⟩ := mean (by decide)
  obtain ⟨next, outcome, filled⟩ | refused := ends
  · obtain ⟨lots, average_eq, realized⟩ :
        next.lots = left ∧ next.averagePrice = .written 150 2 ∧
          outcome.realizedPnl = -.written 99999999999999999998 0 := by
      rw [filled] at sold
      simpa only [Prod.mk.injEq] using Option.some_inj.mp sold
    exact ⟨cheap, s, walk, totals, mean, next, outcome, ran, opposes, quantity_pos, enough, price_pos,
      walked, survived', summed, divided, filled, lots, average_eq, realized⟩
  · rw [refused] at sold
    cases sold

end Session

end CostBasis
