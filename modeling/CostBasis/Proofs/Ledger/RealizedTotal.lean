import CostBasis.Proofs.Ledger.ExactRun

/-!
# The running total of profits

Each fill reports the profit that it books, and the position keeps the total.  A fill moves the total to the
decimal nearest to its sum with the report.  So the total is the sum of the reports as long as every such sum
is a decimal, which it is in the exact range.  It is not once a small profit of many places meets a large
total.
-/

namespace CostBasis

open Decimal

/-- What entries report to have booked, together. -/
def reported (entries : List Entry) : ℚ := (entries.map (·.outcome.realizedPnl.value)).sum

/-- The total before an entry together with what the entry reports. -/
def Entry.due (e : Entry) : ℚ := e.before.realizedPnl.value + e.outcome.realizedPnl.value

theorem reported_concat (entries : List Entry) (e : Entry) :
    reported (entries ++ [e]) = reported entries + e.outcome.realizedPnl.value := by
  simp [reported]

/-- An accepted fill moves the total to the decimal nearest to what is due. -/
theorem Position.nearest?_realizedPnl_of_fill {p next : Position} {side : Side} {quantity price : Decimal}
    {outcome : FillOutcome} (filled : p.fill side quantity price = .ok (next, outcome)) :
    nearest? (p.realizedPnl.value + outcome.realizedPnl.value) = some next.realizedPnl.value := by
  obtain ⟨_, _, p', rfl, ⟨_, _, reduced⟩ | ⟨_, added⟩⟩ := fill_eq_ok filled
  · obtain ⟨_, _, _, _, _, _, booked, _, _, _, rfl, ⟨_, rfl⟩ | ⟨_, rfl⟩⟩ := reduce_eq_ok reduced
    · exact (add?_rounds _ _).nearest?_eq booked
    · exact (add?_rounds _ _).nearest?_eq booked
  · -- An adding fill reports nothing and leaves the total as it is.
    obtain ⟨_, _, _, _, _, _, rfl, rfl⟩ := add_eq_ok added
    have unmoved : p.realizedPnl.value + (0 : Decimal).value = p.realizedPnl.value := by
      rw [value_zero, add_zero]
    change nearest? (p.realizedPnl.value + (0 : Decimal).value) = _
    rw [unmoved]
    exact nearest?_of_representable (representable_value _)

namespace Session

def Reconciled (s : Session) : Prop := s.position.realizedPnl.value = reported s.entries

def StaysReconciled (start : Session) (requests : List Request) : Prop :=
  ∀ done, done <+: requests → ∀ s, start.run done = .ok s → s.Reconciled

theorem reconciled_start (symbol : String) (method : Method) : (start symbol method).Reconciled := value_zero

/-- An accepted fill keeps a session reconciled exactly when what is due is a decimal. -/
theorem Reconciled.accept_iff {s : Session} (reconciled : s.Reconciled) {fill : Fill} {next : Position}
    {outcome : FillOutcome} (filled : s.position.apply fill = .ok (next, outcome)) :
    (s.accept fill next outcome).Reconciled ↔
      Representable (Entry.due ⟨fill, s.position, next, outcome⟩) := by
  have nearest := Position.nearest?_realizedPnl_of_fill filled
  have sum_eq : reported (s.accept fill next outcome).entries
      = s.position.realizedPnl.value + outcome.realizedPnl.value := by
    rw [accept, reported_concat, reconciled]
  rw [Reconciled, sum_eq, Entry.due]
  constructor
  · intro total
    exact ⟨next.realizedPnl, total⟩
  · intro representable
    rw [nearest?_of_representable representable, Option.some_inj] at nearest
    exact nearest.symm

theorem staysReconciled_of_exactRange (symbol : String) (method : Method) {a b : ℕ} {requests : List Request}
    (range : ExactRange a b (fillsOf requests)) : (start symbol method).StaysReconciled requests := by
  intro done before s ran
  refine (of_exists_ok (exact_induction range symbol method (motive := Reconciled)
    (reconciled_start symbol method)
    (fun s method _ _ kept => kept)
    (fun s fill next outcome used filled exact opposes enough shrunk kept => by
      refine (kept.accept_iff filled).mpr ?_
      rw [Entry.due, ← shrunk.realized_eq]
      exact representable_value _)
    (fun s fill next outcome used filled exact joins grown kept => by
      refine (kept.accept_iff filled).mpr ?_
      rw [Entry.due, grown.outcome_eq, value_zero, add_zero]
      exact representable_value _)
    before) ran).2

/-- Each accepted fill moves the total to the decimal nearest to what is due.  The total stays the exact sum
of the reports exactly when for every accepted fill what is due is a decimal, so in particular throughout a
run in the exact range. -/
theorem staysReconciled_iff (symbol : String) (method : Method) (requests : List Request) :
    ∃ s, (start symbol method).run requests = .ok s ∧
      (∀ e ∈ s.entries, nearest? e.due = some e.after.realizedPnl.value) ∧
      ((start symbol method).StaysReconciled requests ↔ ∀ e ∈ s.entries, Representable e.due) ∧
      ∀ a b, ExactRange a b (fillsOf requests) → (start symbol method).StaysReconciled requests := by
  obtain ⟨s, ran, _, nearest, iff⟩ := run_induction (start symbol method)
    (motive := fun requests s => (∀ e ∈ s.entries, nearest? e.due = some e.after.realizedPnl.value) ∧
      ((start symbol method).StaysReconciled requests ↔ ∀ e ∈ s.entries, Representable e.due))
    (start_sound symbol method)
    ⟨List.forall_mem_nil _, iff_of_true
      (fun done before s ran => by
        obtain rfl := List.prefix_nil.mp before
        cases ran
        exact reconciled_start symbol method)
      (List.forall_mem_nil _)⟩
    (fun requests s request s' ran sound ⟨nearest, iff⟩ ran' turn => by
      have last : (∀ t, (start symbol method).run (requests ++ [request]) = .ok t → t.Reconciled)
          ↔ s'.Reconciled := by simp [ran']
      have before : (start symbol method).StaysReconciled requests → s.Reconciled :=
        fun stays => stays requests (List.prefix_refl _) s ran
      rw [StaysReconciled, forall_prefix_concat, last, ← StaysReconciled]
      -- Only an accepted fill moves the total or adds a report.
      cases turn with
      | switched | unswitched | refused => exact ⟨nearest, by rw [← iff]; exact and_iff_left_of_imp before⟩
      | accepted filled =>
        simp only [accept, List.forall_mem_append, List.forall_mem_singleton, ← iff]
        refine ⟨⟨nearest, Position.nearest?_realizedPnl_of_fill filled⟩, ?_⟩
        exact and_congr_right fun stays => (before stays).accept_iff filled)
    requests
  exact ⟨s, ran, nearest, iff, fun a b range => staysReconciled_of_exactRange symbol method range⟩

/-- A profit of a hundred thousand, and then one on the eighteenth place of a quantity. -/
def smallAfterLarge : List Request :=
  let small := Decimal.written 1 18
  [.fill ⟨.buy, 1, 1⟩, .fill ⟨.sell, 1, .written 100001 0⟩, .fill ⟨.buy, small, .written 1 6⟩,
    .fill ⟨.sell, small, .written 3 6⟩]

/-- The total has no room for the places of the second profit, which is lost. -/
theorem not_staysReconciled_smallAfterLarge :
    ¬ (start "X" .weightedAverage).StaysReconciled smallAfterLarge := by
  intro stays
  have observed : ((start "X" .weightedAverage).run smallAfterLarge).toOption.map
      (fun s => (s.position.realizedPnl, s.entries.map (·.outcome.realizedPnl)))
        = some (.written 10000000000000000000000000000 23,
            [0, .written 100000 0, 0, .written 2 24]) := by
    decide +kernel
  obtain ⟨s, ran, facts⟩ := exists_of_observed observed
  obtain ⟨total, reports⟩ := Prod.mk.inj facts
  have reconciled : s.Reconciled := stays smallAfterLarge (List.prefix_refl _) s ran
  have reported_eq : reported s.entries
      = (([0, .written 100000 0, 0, .written 2 24] : List Decimal).map value).sum := by
    rw [reported, ← reports, List.map_map]
    rfl
  rw [Reconciled, total, reported_eq] at reconciled
  revert reconciled
  decide +kernel

end Session

end CostBasis
