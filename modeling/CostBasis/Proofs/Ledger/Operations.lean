import CostBasis.Proofs.Ledger.Fill

/-!
# Operations without a check

Beside its checked computations a fill evaluates differences and products that would stop the program
if they left the range of the decimals, and quotients that must not be by zero.  `Position.Evaluates`
lists them, place by place.  Where all of them are safe the fill has no fault, and in a sound ledger all
of them are.
-/

namespace CostBasis

open Decimal

/-- An operation on decimals that the ledger evaluates without checking its operands. -/
inductive Operation where
  | difference (a b : Decimal)
  | product (a b : Decimal)
  | quotient (a b : Decimal)

/-- A difference or a product has to be in range.  Whether a quotient is in range is checked, so it
only has to have a divisor. -/
def Operation.Safe : Operation → Prop
  | .difference a b => ∃ d, Obstacle.subtract a b = .ok d
  | .product a b => ∃ d, Obstacle.multiply a b = .ok d
  | .quotient _ b => ¬ b.IsZero

/-! ## What is evaluated, place by place -/

def Lot.costing (lot : Lot) : Operation := .product lot.quantity lot.price

/-- Operations of merging two lots. -/
inductive Lot.Merging (a b : Lot) : Operation → Prop where
  | older : a.Merging b a.costing
  | newer : a.Merging b b.costing
  | mean {quantity cost : Decimal} (sum : a.quantity.add? b.quantity = some quantity) :
      a.Merging b (.quotient cost quantity)

/-- Operations of averaging lots. -/
inductive Lot.Averaging (lots : List Lot) : Operation → Prop where
  | cost {lot : Lot} (member : lot ∈ lots) : Averaging lots lot.costing
  | mean {totals : Totals} (several : 2 ≤ lots.length) (summed : Totals.add {} lots = .ok totals) :
      Averaging lots (.quotient totals.cost totals.quantity)

namespace Position

/-- Operations of a walk that comes to a lot. -/
inductive Walk.Passing (price direction : Decimal) (w : Walk) (lot : Lot) : Operation → Prop where
  | gain : Passing price direction w lot (.difference price lot.price)
  | signed : Passing price direction w lot (.product (min w.remaining lot.quantity) direction)
  | remaining :
      Passing price direction w lot (.difference w.remaining (min w.remaining lot.quantity))

/-- Operations of an adding fill whose lot has been made. -/
inductive Adding (p : Position) (lot : Lot) : Operation → Prop where
  | merging {average : Lot} {o : Operation} (weighted : p.method = .weightedAverage)
      (newest : p.lots.getLast? = some average) (merging : average.Merging lot o) : p.Adding lot o
  | averaging {o : Operation} (averaging : Lot.Averaging (p.lots ++ [lot]) o) : p.Adding lot o

/-- Operations of a close: of the walk, of what it leaves of the lots, and of the new size. -/
inductive Reducing (p : Position) (quantity price : Decimal) : Operation → Prop where
  | walking {passed rest : List Lot} {lot : Lot} {walk : Walk} {o : Operation}
      (split : p.lots = passed ++ lot :: rest)
      (walked : Walk.through price p.closingSign { remaining := quantity } passed = .ok walk)
      (unfinished : ¬ walk.remaining.IsZero) (passing : walk.Passing price p.closingSign lot o) :
      p.Reducing quantity price o
  | consuming {walk : Walk} {lot : Lot} {rest : List Lot}
      (walked : Walk.through price p.closingSign { remaining := quantity } p.lots = .ok walk)
      (first : p.lots.drop walk.exhausted = lot :: rest) :
      p.Reducing quantity price (.difference lot.quantity (min walk.taken lot.quantity))
  | averaging {walk : Walk} {left : List Lot} {o : Operation}
      (walked : Walk.through price p.closingSign { remaining := quantity } p.lots = .ok walk)
      (survived : survivors p.lots walk = .ok left) (averaging : Lot.Averaging left o) :
      p.Reducing quantity price o
  | change : p.Reducing quantity price (.product quantity p.closingSign)
  | size {change : Decimal} (changed : Obstacle.multiply quantity p.closingSign = .ok change) :
      p.Reducing quantity price (.difference p.size change)

/-- Operations of a fill.  One that is not positive, or closes more than is held, is refused before
any of them. -/
inductive Evaluates (p : Position) (fill : Fill) : Operation → Prop where
  | adding {o : Operation} (positive : fill.IsPositive) (joins : ¬ p.Opposes fill.side)
      (made : Lot.make? fill.quantity fill.price = some ⟨fill.quantity, fill.price⟩)
      (adding : p.Adding ⟨fill.quantity, fill.price⟩ o) : p.Evaluates fill o
  | reducing {o : Operation} (positive : fill.IsPositive) (opposes : p.Opposes fill.side)
      (enough : fill.quantity.value ≤ |p.size.value|)
      (reducing : p.Reducing fill.quantity fill.price o) : p.Evaluates fill o

end Position

/-! ## Nothing else stops a fill -/

namespace Lot

theorem merge_faultFree {a b : Lot} (safe : ∀ o, a.Merging b o → o.Safe) : FaultFree (a.merge b) := by
  obtain ⟨costA, foundA⟩ := safe _ .older
  obtain ⟨costB, foundB⟩ := safe _ .newer
  simp only [Lot.merge, cost]
  rw [foundA, foundB]
  refine .bind (.checked _ _) fun _ _ => ?_
  refine .bind (.ok _) fun _ _ => ?_
  refine .bind (.ok _) fun _ _ => ?_
  refine .bind (.checked _ _) fun _ _ => ?_
  refine .bind (.checked _ _) fun _ _ => ?_
  exact .checked _ _

theorem Totals.add_faultFree {lots : List Lot} (safe : ∀ lot ∈ lots, lot.costing.Safe) (t : Totals) :
    FaultFree (t.add lots) := by
  induction lots generalizing t with
  | nil => exact .ok t
  | cons lot rest ih =>
    rw [List.forall_mem_cons] at safe
    obtain ⟨cost, found⟩ := safe.1
    simp only [Totals.add, Lot.cost]
    rw [found]
    refine .bind (.checked _ _) fun _ _ => ?_
    refine .bind (.ok _) fun _ _ => ?_
    refine .bind (.checked _ _) fun _ _ => ?_
    exact ih safe.2 _

theorem averagePrice_faultFree {lots : List Lot} (safe : ∀ o, Averaging lots o → o.Safe) :
    FaultFree (averagePrice lots) := by
  simp only [averagePrice]
  refine .bind (Totals.add_faultFree (fun _ member => safe _ (.cost member)) _) fun totals _ => ?_
  split
  · exact .ok _
  · exact .ok _
  · exact .bind (.checked _ _) fun _ _ => .ok _

end Lot

namespace Position

theorem Walk.through_faultFree {price direction : Decimal} {lots : List Lot} (w : Walk)
    (safe : ∀ passed lot rest walk o, lots = passed ++ lot :: rest →
      Walk.through price direction w passed = .ok walk → ¬ walk.remaining.IsZero →
      walk.Passing price direction lot o → o.Safe) : FaultFree (Walk.through price direction w lots) := by
  induction lots generalizing w with
  | nil => exact .ok w
  | cons lot rest ih =>
    by_cases zero : w.remaining.IsZero
    · exact .of_ok (Walk.through_of_isZero zero price direction _)
    · obtain ⟨gain, gained⟩ := safe [] lot rest w _ rfl rfl zero .gain
      obtain ⟨signed, multiplied⟩ := safe [] lot rest w _ rfl rfl zero .signed
      obtain ⟨remaining, left⟩ := safe [] lot rest w _ rfl rfl zero .remaining
      simp only [Walk.through, if_neg zero, gained, multiplied, left, ok_bind]
      refine .bind (.checked _ _) fun pnl booked => ?_
      refine .bind (.checked _ _) fun realized added => ?_
      -- Where the rest of the walk comes to, the walk as a whole comes to.
      refine ih _ fun passed lot' rest' walk o split walked => ?_
      refine safe (lot :: passed) lot' rest' walk o (by rw [split]; rfl) ?_
      simp only [Walk.through, if_neg zero, gained, multiplied, left, ok_bind, booked, added]
      exact walked

theorem survivors_faultFree {lots : List Lot} {walk : Walk}
    (safe : ∀ lot rest, lots.drop walk.exhausted = lot :: rest →
      (Operation.difference lot.quantity (min walk.taken lot.quantity)).Safe) :
    FaultFree (survivors lots walk) := by
  simp only [survivors]
  split
  next => exact .ok _
  next lot rest first =>
    obtain ⟨quantity, left⟩ := safe lot rest first
    simp only [Lot.consume, left, ok_bind]
    exact .ok _

section

variable {p : Position}

theorem lotsAfterOpen_faultFree {lot : Lot} (safe : ∀ o, p.Adding lot o → o.Safe) :
    FaultFree (p.lotsAfterOpen lot) := by
  simp only [lotsAfterOpen]
  split
  next weighted newest =>
    exact .bind (Lot.merge_faultFree fun o merging => safe o (.merging weighted newest merging))
      fun _ _ => .ok _
  next =>
    exact .bind (Lot.averagePrice_faultFree fun o averaging => safe o (.averaging averaging))
      fun _ _ => .ok _

theorem add_faultFree {side : Side} {quantity price : Decimal}
    (safe : Lot.make? quantity price = some ⟨quantity, price⟩ →
      ∀ o, p.Adding ⟨quantity, price⟩ o → o.Safe) : FaultFree (p.add side quantity price) := by
  simp only [add]
  refine .bind (.checked _ _) fun lot checked => ?_
  refine .bind (.checked _ _) fun size _ => ?_
  have made := Obstacle.checked_eq_ok.mp checked
  obtain ⟨rfl, _⟩ := Lot.make?_eq_some made
  exact .bind (lotsAfterOpen_faultFree (safe made)) fun _ _ => .ok _

theorem reduce_faultFree {quantity price : Decimal}
    (safe : ∀ o, p.Reducing quantity price o → o.Safe) : FaultFree (p.reduce quantity price) := by
  simp only [reduce_eq]
  refine .bind (Walk.through_faultFree _ fun passed lot rest walk o split walked unfinished passing =>
    safe o (.walking split walked unfinished passing)) fun walk walked => ?_
  refine .bind (.checked _ _) fun realizedPnl _ => ?_
  refine .bind (survivors_faultFree fun lot rest first => safe _ (.consuming walked first))
    fun left survived => ?_
  refine .bind (Lot.averagePrice_faultFree fun o averaging =>
    safe o (.averaging walked survived averaging)) fun average _ => ?_
  obtain ⟨change, changed⟩ := safe _ .change
  obtain ⟨size, sized⟩ := safe _ (.size changed)
  refine .bind (.of_ok changed) fun change' changed' => ?_
  cases changed.symm.trans changed'
  refine .bind (.of_ok sized) fun _ _ => ?_
  split <;> exact .ok _

theorem ne_fault_of_faultFree {quantity price : Decimal} {α : Type} {x : Except Obstacle α}
    (free : FaultFree x) (fault : Fault) :
    x.mapError (p.failure quantity price) ≠ .error (.fault fault) := by
  intro h
  cases x with
  | ok a => cases h
  | error obstacle =>
    cases obstacle with
    | overflow stage => cases h
    | fault fault' => exact free fault' rfl

/-- A fill whose operations are safe has no fault. -/
theorem apply_ne_fault {fill : Fill} (safe : ∀ o, p.Evaluates fill o → o.Safe) (fault : Fault) :
    p.apply fill ≠ .error (.fault fault) := by
  intro h
  unfold apply Position.fill at h
  split at h
  next => cases h
  next valid =>
    have positive : fill.IsPositive := (not_invalid_iff _ _).mp valid
    cases traded : p.trade fill.side fill.quantity fill.price with
    | ok result =>
      rw [traded] at h
      cases h
    | error failure =>
      rw [traded] at h
      cases h
      unfold trade at traded
      split at traded
      next opposes =>
        unfold close at traded
        split at traded
        next => cases traded
        next enough =>
          rw [lt_iff, value_abs, not_lt] at enough
          have free : FaultFree (p.reduce fill.quantity fill.price) :=
            reduce_faultFree fun o reducing => safe o (.reducing positive opposes enough reducing)
          exact ne_fault_of_faultFree free fault traded
      next joins =>
        have free : FaultFree (p.add fill.side fill.quantity fill.price) :=
          add_faultFree fun made o adding => safe o (.adding positive joins made adding)
        exact ne_fault_of_faultFree free fault traded

end

end Position

/-! ## Lots -/

namespace Lot

theorem Sound.costing_safe {lot : Lot} (sound : lot.Sound) : lot.costing.Safe := by
  obtain ⟨cost, found, _⟩ := sound.exists_cost
  exact ⟨cost, found⟩

theorem Sound.merging_safe {a b : Lot} (hA : a.Sound) (hB : b.Sound) {o : Operation}
    (merging : a.Merging b o) : o.Safe := by
  cases merging with
  | older => exact hA.costing_safe
  | newer => exact hB.costing_safe
  | mean sum =>
    intro zero
    have nearest := (add?_rounds _ _).nearest?_eq sum
    have more : a.quantity.value ≤ a.quantity.value + b.quantity.value := by
      have := hB.quantity_pos
      linarith
    have positive := hA.quantity_pos.trans_le (le_nearest? nearest more (representable_value _))
    rw [(isZero_iff _).mp zero] at positive
    exact lt_irrefl 0 positive

/-- Sums of quantities only grow, and are no less than any quantity in them. -/
theorem Totals.le_quantity {lots : List Lot} (sound : ∀ lot ∈ lots, lot.Sound) {t t' : Totals}
    (summed : t.add lots = .ok t') (nonneg : 0 ≤ t.quantity.value) :
    t.quantity.value ≤ t'.quantity.value ∧ ∀ lot ∈ lots, lot.quantity.value ≤ t'.quantity.value := by
  induction lots generalizing t with
  | nil =>
    cases summed
    exact ⟨le_rfl, by simp⟩
  | cons lot rest ih =>
    rw [List.forall_mem_cons] at sound ⊢
    have quantity_pos := sound.1.quantity_pos
    obtain ⟨quantity, _, _, sum, _, _, summed⟩ := add_cons_eq_ok.mp summed
    have nearest := (add?_rounds _ _).nearest?_eq sum
    have before : t.quantity.value ≤ quantity.value :=
      le_nearest? nearest (by linarith) (representable_value _)
    have here : lot.quantity.value ≤ quantity.value :=
      le_nearest? nearest (by linarith) (representable_value _)
    obtain ⟨after, others⟩ := ih sound.2 summed (nonneg.trans before)
    exact ⟨before.trans after, here.trans after, others⟩

theorem averaging_safe {lots : List Lot} (sound : ∀ lot ∈ lots, lot.Sound) {o : Operation}
    (averaging : Averaging lots o) : o.Safe := by
  cases averaging with
  | cost member => exact (sound _ member).costing_safe
  | mean several summed =>
    intro zero
    -- The sum is at least the quantity of the first lot.
    cases lots with
    | nil => simp at several
    | cons first rest =>
      have nonneg : 0 ≤ ({} : Totals).quantity.value := value_zero.ge
      have le := (Totals.le_quantity sound summed nonneg).2 first List.mem_cons_self
      have positive := (sound first List.mem_cons_self).quantity_pos.trans_le le
      rw [(isZero_iff _).mp zero] at positive
      exact lt_irrefl 0 positive

end Lot

/-! ## Fills -/

namespace Position

section

variable {price direction : Decimal} (price_nonneg : 0 ≤ price.value)
  (unit : direction.value = 1 ∨ direction.value = -1)

include price_nonneg unit

theorem Walk.passing_safe {w : Walk} {lot : Lot} (sound : lot.Sound) (nonneg : 0 ≤ w.remaining.value)
    {o : Operation} (passing : w.Passing price direction lot o) : o.Safe := by
  cases passing with
  | gain =>
    obtain ⟨gain, found, _⟩ := Obstacle.exists_subtract (sound.price_apart price_nonneg)
    exact ⟨gain, found⟩
  | signed =>
    obtain ⟨signed, found, _⟩ :=
      Obstacle.exists_multiply_sign (a := min w.remaining lot.quantity) unit
    exact ⟨signed, found⟩
  | remaining =>
    have consumed : 0 ≤ (min w.remaining lot.quantity).value := by
      rw [value_min]
      exact le_min nonneg sound.quantity_pos.le
    obtain ⟨remaining, found, _⟩ := Obstacle.exists_subtract_of_le (a := w.remaining) consumed
      (by rw [value_min]; exact min_le_left _ _)
    exact ⟨remaining, found⟩

/-- Wherever a walk has come to, neither what remains to be closed nor what it took from the last lot is
negative. -/
theorem Walk.amounts_nonneg {lots : List Lot} (sound : ∀ lot ∈ lots, lot.Sound) {w w' : Walk}
    (nonneg : 0 ≤ w.remaining.value) (taken : 0 ≤ w.taken.value)
    (walked : Walk.through price direction w lots = .ok w') :
    0 ≤ w'.remaining.value ∧ 0 ≤ w'.taken.value := by
  induction lots generalizing w with
  | nil =>
    cases walked
    exact ⟨nonneg, taken⟩
  | cons lot rest ih =>
    rw [List.forall_mem_cons] at sound
    by_cases zero : w.remaining.IsZero
    · rw [Walk.through_of_isZero zero] at walked
      cases walked
      exact ⟨nonneg, taken⟩
    · obtain ⟨_, _, remaining, _, _, left, through⟩ :=
        Walk.through_cons price_nonneg unit rest sound.1 nonneg zero
      rw [through] at walked
      simp only [bind_eq_ok] at walked
      obtain ⟨_, _, realized, _, walked⟩ := walked
      refine ih sound.2 ?_ ?_ walked
      · rw [Walk.pass_remaining]
        exact nearest?_nonneg (sub_nonneg.mpr (min_le_left _ _)) left
      · simp only [Walk.pass]
        split
        next => exact taken
        next =>
          rw [value_min]
          exact le_min nonneg sound.1.quantity_pos.le

end

section

variable {p : Position} {fill : Fill} {o : Operation} (sound : p.Sound) (positive : fill.IsPositive)

include sound positive

theorem Sound.adding_safe (made : Lot.make? fill.quantity fill.price = some ⟨fill.quantity, fill.price⟩)
    (adding : p.Adding ⟨fill.quantity, fill.price⟩ o) : o.Safe := by
  have lot_sound := Sound.lot_of_make? made positive.1 positive.2
  cases adding with
  | merging weighted newest merging =>
    exact (sound.lots _ (List.mem_of_getLast? newest)).merging_safe lot_sound merging
  | averaging averaging =>
    refine Lot.averaging_safe ?_ averaging
    rw [List.forall_mem_append, List.forall_mem_singleton]
    exact ⟨sound.lots, lot_sound⟩

theorem Sound.reducing_safe (opposes : p.Opposes fill.side)
    (enough : fill.quantity.value ≤ |p.size.value|)
    (reducing : p.Reducing fill.quantity fill.price o) : o.Safe := by
  obtain ⟨quantity_pos, price_pos⟩ := positive
  cases reducing with
  | walking split walked unfinished passing =>
    have lots_sound := sound.lots
    rw [split, List.forall_mem_append, List.forall_mem_cons] at lots_sound
    obtain ⟨passed_sound, lot_sound, _⟩ := lots_sound
    have nonneg := (Walk.amounts_nonneg price_pos.le p.closingSign_cases passed_sound
      (w := { remaining := fill.quantity }) quantity_pos.le value_zero.ge walked).1
    exact Walk.passing_safe price_pos.le p.closingSign_cases lot_sound nonneg passing
  | consuming walked first =>
    -- The survivors are known to exist, and this difference is the quantity of their first lot.
    obtain ⟨left, survived, _⟩ := sound.survivors quantity_pos price_pos walked
    simp only [Position.survivors, first, Lot.consume, bind_eq_ok] at survived
    obtain ⟨_, ⟨quantity, found, _⟩, _⟩ := survived
    exact ⟨quantity, found⟩
  | averaging walked survived averaging =>
    obtain ⟨left, survived', left_sound, _⟩ := sound.survivors quantity_pos price_pos walked
    rw [survived] at survived'
    cases survived'
    exact Lot.averaging_safe left_sound averaging
  | change =>
    obtain ⟨change, found, _⟩ := Obstacle.exists_multiply_sign (a := fill.quantity) p.closingSign_cases
    exact ⟨change, found⟩
  | size changed =>
    obtain ⟨size, found, _⟩ :=
      Obstacle.exists_subtract (size_apart_of_change opposes quantity_pos.le enough changed)
    exact ⟨size, found⟩

end

theorem Sound.evaluates_safe {p : Position} (sound : p.Sound) {fill : Fill} {o : Operation}
    (evaluates : p.Evaluates fill o) : o.Safe := by
  cases evaluates with
  | adding positive joins made adding => exact sound.adding_safe positive made adding
  | reducing positive opposes enough reducing =>
    exact sound.reducing_safe positive opposes enough reducing

/-- No trusted operation stops a fill of a sound ledger. -/
theorem Sound.apply_ne_fault {p : Position} (sound : p.Sound) {fill : Fill} (fault : Fault) :
    p.apply fill ≠ .error (.fault fault) :=
  Position.apply_ne_fault (fun _ => sound.evaluates_safe) fault

end Position

end CostBasis
