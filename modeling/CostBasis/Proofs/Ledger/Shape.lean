import CostBasis.Proofs.Ledger.Session

/-!
# The shape of a ledger after a fill

A lot that a fill opens joins the ledger at its end.  A close takes whole lots from its front and a part
of the next one, never all of it, and touches no other: which lots and how much, its walk through the
ledger says beforehand.
-/

namespace CostBasis

open Decimal

namespace Position

/-- What a walk leaves of lots: none, or those after the ones that it closed, with what it took coming
off the first of them. -/
inductive Walk.Leaves (w : Walk) (lots : List Lot) : List Lot → Prop where
  | none (counted : w.exhausted = lots.length) : w.Leaves lots []
  | some {removed rest : List Lot} {first : Lot} {quantity : Decimal}
      (split : lots = removed ++ first :: rest) (counted : w.exhausted = removed.length)
      (partly : w.taken < first.quantity)
      (reduced : nearest? (first.quantity.value - w.taken.value) = some quantity.value)
      (pos : 0 < quantity) (le : quantity ≤ first.quantity) :
      w.Leaves lots ({ first with quantity } :: rest)

/-- The lots that a walk closed are the first, and what it took from the next one is not all of it. -/
structure Walk.Splits (w : Walk) (lots removed rest : List Lot) : Prop where
  split : lots = removed ++ rest
  counted : w.exhausted = removed.length
  nonneg : 0 ≤ w.taken.value
  partly : ∀ lot ∈ rest.head?, w.taken.value < lot.quantity.value

section

variable {price direction : Decimal} (price_nonneg : 0 ≤ price.value)
  (unit : direction.value = 1 ∨ direction.value = -1)

include price_nonneg unit

/-- Of the lots that lie ahead, a walk closes some of the first and stops before the end of the next. -/
theorem Walk.exists_splits {lots : List Lot} (sound : ∀ lot ∈ lots, lot.Sound) {w w' : Walk}
    (nonneg : 0 ≤ w.remaining.value) (untaken : w.taken.value = 0)
    (walked : Walk.through price direction w lots = .ok w') :
    ∃ n removed rest, w'.exhausted = w.exhausted + n ∧
      Walk.Splits { w' with exhausted := n } lots removed rest := by
  -- Along the lots; as long as the walk goes on, nothing has been taken from a lot it did not close.
  induction lots generalizing w with
  | nil =>
    cases walked
    exact ⟨0, [], [], rfl, rfl, rfl, untaken.ge, by simp⟩
  | cons lot rest ih =>
    rw [List.forall_mem_cons] at sound
    by_cases zero : w.remaining.IsZero
    · rw [Walk.through_of_isZero zero, Except.ok.injEq] at walked
      subst walked
      refine ⟨0, [], lot :: rest, rfl, rfl, rfl, untaken.ge, ?_⟩
      rintro _ ⟨⟩
      exact untaken.trans_lt sound.1.quantity_pos
    · obtain ⟨_, _, remaining, _, _, left, through⟩ :=
        Walk.through_cons price_nonneg unit rest sound.1 nonneg zero
      rw [through] at walked
      simp only [bind_eq_ok] at walked
      obtain ⟨_, _, realized, _, walked⟩ := walked
      by_cases outright : lot.quantity.value ≤ w.remaining.value
      · have remaining_nonneg : 0 ≤ remaining.value :=
          nearest?_nonneg (sub_nonneg.mpr (min_le_left _ _)) left
        rw [Walk.pass, if_pos outright] at walked
        obtain ⟨n, removed, rest', exhausted, splits⟩ :=
          ih sound.2 (w := { w with remaining, realized, exhausted := w.exhausted + 1 })
            remaining_nonneg untaken walked
        refine ⟨n + 1, lot :: removed, rest', ?_, ?_, ?_, splits.nonneg, splits.partly⟩
        · rw [exhausted, Nat.add_assoc, Nat.add_comm 1]
        · rw [splits.split, List.cons_append]
        · rw [List.length_cons, ← splits.counted]
      · -- The close ends inside this lot, which leaves nothing for the walk to do.
        have partly := not_le.mp outright
        rw [min_eq_left partly.le, sub_self, nearest?_of_representable ⟨0, value_zero⟩,
          Option.some_inj] at left
        rw [Walk.pass, if_neg outright, Walk.through_of_isZero ((isZero_iff _).mpr left.symm),
          Except.ok.injEq] at walked
        subst walked
        have taken : (min w.remaining lot.quantity).value = w.remaining.value := by
          rw [value_min, min_eq_left partly.le]
        refine ⟨0, [], lot :: rest, rfl, rfl, rfl, taken.ge.trans' nonneg, ?_⟩
        rintro _ ⟨⟩
        exact taken.trans_lt partly

end

/-- To settle a walk on the ledger leaves of it what the walk has found. -/
theorem Walk.Splits.settle {w : Walk} {lots removed rest : List Lot} (splits : w.Splits lots removed rest)
    (sound : ∀ lot ∈ lots, lot.Sound) : ∃ left, settle lots w = .ok left ∧ w.Leaves lots left := by
  obtain ⟨rfl, counted, nonneg, partly⟩ := splits
  have dropped : popLots w.exhausted (removed ++ rest) = rest := by
    rw [popLots_eq_drop, counted, List.drop_left]
  cases rest with
  | nil =>
    refine ⟨[], by rw [Position.settle, dropped], .none ?_⟩
    rw [counted, List.append_nil]
  | cons first rest =>
    have first_sound := sound first (by simp)
    have partly : w.taken.value < first.quantity.value := partly first rfl
    obtain ⟨left, consumed, left_sound, price_eq, reduced⟩ := first_sound.exists_consume nonneg partly
    have shape : left = { first with quantity := left.quantity } := Lot.ext rfl price_eq
    refine ⟨left :: rest, ?_, ?_⟩
    · rw [Position.settle, dropped]
      simp only [consumed, ok_bind]
      rfl
    · rw [shape]
      refine .some rfl counted ?_ reduced ?_ ?_
      · rwa [lt_iff]
      · rw [lt_iff, value_zero]
        exact left_sound.quantity_pos
      · rw [le_iff]
        exact nearest?_le reduced (by linarith) (representable_value _)

section

variable {p next : Position} {side : Side} {quantity price : Decimal} {outcome : FillOutcome}

/-- A walk through a sound ledger is settled on it. -/
theorem Sound.exists_settled (sound : p.Sound) (quantity_pos : 0 < quantity.value)
    (price_pos : 0 < price.value) {walk : Walk}
    (walked : Walk.through price p.closingSign { remaining := quantity } p.lots = .ok walk) :
    ∃ left, Position.settle p.lots walk = .ok left ∧ walk.Leaves p.lots left := by
  obtain ⟨n, removed, rest, exhausted, splits⟩ :=
    Walk.exists_splits price_pos.le p.closingSign_cases sound.lots (w := { remaining := quantity })
      quantity_pos.le value_zero walked
  rw [Nat.zero_add] at exhausted
  subst exhausted
  exact splits.settle sound.lots

/-- What a close leaves: nothing of a ledger that ends flat, and of another one what its walk says. -/
theorem Sound.leaves_of_close (sound : p.Sound) (opposes : p.Opposes side)
    (filled : p.fill side quantity price = .ok (next, outcome)) :
    ∃ walk left, Walk.through price p.closingSign { remaining := quantity } p.lots = .ok walk ∧
      walk.Leaves p.lots left ∧ Lot.averagePrice next.lots = .ok next.averagePrice ∧
      (next.IsFlat ∧ next.lots = [] ∨ ¬next.IsFlat ∧ next.lots = left) := by
  obtain ⟨quantity_pos, price_pos, p', rfl, ⟨_, _, reduced⟩ | ⟨joins, _⟩⟩ := fill_eq_ok filled
  · obtain ⟨walk, _, lots, average, size, walked, _, survived, averages, _, _, closed⟩ :=
      reduce_eq_ok reduced
    obtain ⟨left, settled, leaves⟩ := sound.exists_settled quantity_pos price_pos walked
    -- The ledger itself loses what was worked out on its copies.
    rw [settle_eq_survivors, survived, Except.ok.injEq] at settled
    subst settled
    refine ⟨walk, lots, walked, leaves, ?_⟩
    rcases closed with ⟨_, rfl⟩ | ⟨open_, rfl⟩
    · exact ⟨rfl, .inl ⟨isZero_zero, rfl⟩⟩
    · exact ⟨averages, .inr ⟨open_, rfl⟩⟩
  · exact absurd opposes joins

/-- A lot that is not merged stands behind the lots before it. -/
theorem lots_of_appended (joins : ¬p.Opposes side) (unmerged : p.method = .fifo ∨ p.lots = [])
    (filled : p.fill side quantity price = .ok (next, outcome)) :
    next.lots = p.lots ++ [⟨quantity, price⟩] := by
  obtain ⟨_, _, p', rfl, ⟨opposes, _⟩ | ⟨_, added⟩⟩ := fill_eq_ok filled
  · exact absurd opposes joins
  · obtain ⟨size, lots, average, _, _, opened, rfl, _⟩ := add_eq_ok added
    obtain ⟨front, last, merged, weighted, split, _⟩ | ⟨_, lots_eq, _⟩ := lotsAfterOpen_eq_ok opened
    · rcases unmerged with fifo | none
      · rw [weighted] at fifo
        cases fifo
      · simp [none] at split
    · exact lots_eq

end

end Position

namespace Session

/-- Whatever was asked of a position, no lot of its ledger is empty.  A fill that adds to it appends a lot
of its own unless it is merged.  A fill that closes leaves what its walk through the ledger has found: the
lots behind those that were closed, with a part taken from the first of them, at the average price that was
worked out on copies.  Only a position that ends flat is left with no lots in any case. -/
theorem ledgers_shaped (symbol : String) (method : Method) (requests : List Request) :
    ∃ s, (start symbol method).run requests = .ok s ∧
      (∀ lot ∈ s.position.lots, 0 < lot.quantity) ∧
      ∀ fill next outcome, s.position.apply fill = .ok (next, outcome) →
        (∀ lot ∈ next.lots, 0 < lot.quantity) ∧
        (¬outcome.IsClosing → s.position.method = .fifo ∨ s.position.lots = [] →
          next.lots = s.position.lots ++ [⟨fill.quantity, fill.price⟩]) ∧
        (outcome.IsClosing →
          ∃ walk left,
            Position.Walk.through fill.price s.position.closingSign { remaining := fill.quantity }
              s.position.lots = .ok walk ∧
            walk.Leaves s.position.lots left ∧
            Lot.averagePrice next.lots = .ok next.averagePrice ∧
            (next.IsFlat ∧ next.lots = [] ∨ ¬next.IsFlat ∧ next.lots = left)) := by
  obtain ⟨s, ran, sound, _⟩ := run_induction (start symbol method) (motive := fun _ _ => True)
    (start_sound symbol method) trivial (fun _ _ _ _ _ _ _ _ _ => trivial) requests
  have positive {p : Position} (sound : p.Sound) : ∀ lot ∈ p.lots, 0 < lot.quantity := fun lot member => by
    rw [lt_iff, value_zero]
    exact (sound.lots lot member).quantity_pos
  refine ⟨s, ran, positive sound, fun fill next outcome filled => ⟨positive (sound.fill filled), ?_, ?_⟩⟩
  · rw [Position.isClosing_iff_opposes filled]
    exact fun joins unmerged => Position.lots_of_appended joins unmerged filled
  · rw [Position.isClosing_iff_opposes filled]
    exact fun opposes => sound.leaves_of_close opposes filled

theorem ledgers_shaped_closedAcrossLots :
    let bought : List Request := [.fill ⟨.buy, .written 2 0, 1⟩, .fill ⟨.buy, .written 2 0, .written 3 0⟩]
    let sale : Fill := ⟨.sell, .written 3 0, .written 2 0⟩
    ∃ s next outcome walk, (start "X" .fifo).run bought = .ok s ∧
      s.position.apply sale = .ok (next, outcome) ∧ outcome.IsClosing ∧
      Position.Walk.Leaves walk s.position.lots next.lots ∧ next.lots = [⟨1, .written 3 0⟩] := by
  intro bought sale
  obtain ⟨s, ran, _, shaped⟩ := ledgers_shaped "X" .fifo bought
  have observed : ((start "X" .fifo).run bought).toOption.map
      (fun s => (s.position.apply sale).toOption.map fun sold =>
        (sold.1.lots, decide sold.1.IsFlat, decide sold.2.IsClosing))
      = some (some ([⟨1, .written 3 0⟩], false, true)) := by decide +kernel
  have sold := eq_of_observed observed ran
  obtain ⟨⟨next, outcome⟩, filled, facts⟩ := exists_of_observed sold
  simp only [Prod.mk.injEq, decide_eq_false_iff_not, decide_eq_true_eq] at facts
  obtain ⟨lots, open_, closing⟩ := facts
  obtain ⟨walk, left, _, leaves, _, ⟨flat, _⟩ | ⟨_, rfl⟩⟩ := (shaped sale next outcome filled).2.2 closing
  · exact absurd flat open_
  · exact ⟨s, next, outcome, walk, ran, filled, closing, leaves, lots⟩

end Session

end CostBasis
