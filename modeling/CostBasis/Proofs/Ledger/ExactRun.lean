import CostBasis.Proofs.Ledger.ExactFill

/-!
# Runs in the exact range

What holds of a new position and is kept by exact fills and by changes of the method holds throughout
a run in the exact range.
-/

namespace CostBasis

open Decimal

def fillsOf (requests : List Request) : List Fill :=
  requests.filterMap fun
    | .fill fill => some fill
    | .setMethod _ => none

theorem fillsOf_append (first second : List Request) :
    fillsOf (first ++ second) = fillsOf first ++ fillsOf second := List.filterMap_append

theorem fillsOf_fill (fill : Fill) : fillsOf [.fill fill] = [fill] := rfl

@[simp] theorem fillsOf_map_fill (fills : List Fill) : fillsOf (fills.map .fill) = fills := by
  simp only [fillsOf]
  rw [List.filterMap_map]
  exact List.filterMap_some

theorem fillsOf_mono {done requests : List Request} (before : done <+: requests) :
    fillsOf done <+: fillsOf requests := before.filterMap _

theorem fillsOf_next {done requests : List Request} {fill : Fill}
    (before : done ++ [.fill fill] <+: requests) : fillsOf done ++ [fill] <+: fillsOf requests := by
  rw [← fillsOf_fill, ← fillsOf_append]
  exact fillsOf_mono before

theorem Position.Exact.mono {a b : ℕ} {top used used' : ℚ} {p : Position} (exact : p.Exact a b top used)
    (top_nonneg : 0 ≤ top) (le : used ≤ used') : p.Exact a b top used' where
  lots := exact.lots
  size_eq := exact.size_eq
  size_le := exact.size_le.trans le
  realized_grid := exact.realized_grid
  realized_le := exact.realized_le.trans (mul_le_mul_of_nonneg_right le top_nonneg)

namespace Session

section

variable {a b : ℕ} {requests : List Request} (range : ExactRange a b (fillsOf requests))

include range

/-- An accepted fill of a run in the exact range does what it should, exactly. -/
theorem exact_accepted {done : List Request} {fill : Fill} {p next : Position} {outcome : FillOutcome}
    (before : done ++ [.fill fill] <+: requests)
    (exact : p.Exact a b (largestPrice (fillsOf requests)) (turnover (fillsOf done)))
    (filled : p.apply fill = .ok (next, outcome)) :
    next.Exact a b (largestPrice (fillsOf requests)) (turnover (fillsOf (done ++ [.fill fill]))) ∧
      (p.Opposes fill.side ∧ fill.quantity.value ≤ |p.size.value| ∧ p.Shrunk fill next outcome ∨
        ¬ p.Opposes fill.side ∧ p.Grown fill next outcome) := by
  have positive : fill.IsPositive := by
    obtain ⟨quantity_pos, price_pos, _⟩ := Position.fill_eq_ok filled
    exact ⟨quantity_pos, price_pos⟩
  obtain ⟨fill_exact, room⟩ := range.next (fillsOf_next before) positive
  rw [fillsOf_append, turnover_append, fillsOf_fill, turnover_singleton positive]
  rcases exact.apply_cases range.bounds fill_exact room with
    ⟨_, _, refused⟩ | ⟨next', outcome', filled', next_exact, did⟩
  · rw [filled] at refused
    cases refused
  · rw [filled] at filled'
    cases filled'
    exact ⟨next_exact, did⟩

/-- What a run in the exact range keeps, at each of its steps. -/
theorem exact_induction (symbol : String) (method : Method) {motive : Session → Prop}
    (new : motive (start symbol method))
    (switched : ∀ s method, .setMethod method ∈ requests → s.position.IsFlat → motive s →
      motive { s with position := { s.position with method } })
    (shrunk : ∀ s fill next outcome used, s.position.apply fill = .ok (next, outcome) →
      s.position.Exact a b (largestPrice (fillsOf requests)) used →
      s.position.Opposes fill.side → fill.quantity.value ≤ |s.position.size.value| →
      s.position.Shrunk fill next outcome → motive s → motive (s.accept fill next outcome))
    (grown : ∀ s fill next outcome used, s.position.apply fill = .ok (next, outcome) →
      s.position.Exact a b (largestPrice (fillsOf requests)) used →
      ¬ s.position.Opposes fill.side → s.position.Grown fill next outcome → motive s →
      motive (s.accept fill next outcome))
    {done : List Request} (before : done <+: requests) :
    ∃ s, (start symbol method).run done = .ok s ∧
      s.position.Exact a b (largestPrice (fillsOf requests)) (turnover (fillsOf done)) ∧ motive s := by
  have top_nonneg := largestPrice_nonneg (fillsOf requests)
  obtain ⟨s, ran, _, holds⟩ := run_induction (start symbol method)
    (motive := fun done s => done <+: requests →
      s.position.Exact a b (largestPrice (fillsOf requests)) (turnover (fillsOf done)) ∧ motive s)
    (start_sound symbol method)
    (fun _ => ⟨Position.Exact.new a b _ symbol method, new⟩)
    (fun done s request s' _ _ holds _ turned before => by
      obtain ⟨exact, kept⟩ := holds ((List.prefix_append _ _).trans before)
      -- The volume of the requests bounds the position, also by those that do nothing.
      have more : turnover (fillsOf done) ≤ turnover (fillsOf (done ++ [request])) :=
        turnover_mono (fillsOf_mono (List.prefix_append _ _))
      cases turned with
      | switched method flat =>
        have exact' := exact.mono top_nonneg more
        refine ⟨⟨exact'.lots, exact'.size_eq, exact'.size_le, exact'.realized_grid,
          exact'.realized_le⟩, switched s method ?_ flat kept⟩
        exact before.subset (List.mem_append_right _ List.mem_cons_self)
      | unswitched | refused => exact ⟨exact.mono top_nonneg more, kept⟩
      | accepted filled =>
        obtain ⟨next_exact, did⟩ := exact_accepted range before exact filled
        refine ⟨next_exact, ?_⟩
        rcases did with ⟨opposes, enough, did⟩ | ⟨joins, did⟩
        · exact shrunk s _ _ _ _ filled exact opposes enough did kept
        · exact grown s _ _ _ _ filled exact joins did kept)
    done
  exact ⟨s, ran, holds before⟩

/-- Throughout a run in the exact range, the position is exact. -/
theorem exact_run (symbol : String) (method : Method) {done : List Request} (before : done <+: requests) :
    ∃ s, (start symbol method).run done = .ok s ∧
      s.position.Exact a b (largestPrice (fillsOf requests)) (turnover (fillsOf done)) := by
  obtain ⟨s, ran, exact, -⟩ := exact_induction range symbol method (motive := fun _ => True) trivial
    (fun _ _ _ _ _ => trivial) (fun _ _ _ _ _ _ _ _ _ _ _ => trivial)
    (fun _ _ _ _ _ _ _ _ _ _ => trivial) before
  exact ⟨s, ran, exact⟩

end

end Session

end CostBasis
