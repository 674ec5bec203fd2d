import CostBasis.Proofs.Ledger.Operations

/-!
# Sessions

A session is a position together with the fills it has accepted.  Requests reach it in any order and
with any arguments: a refused one leaves it as it was.  A session that starts from a new position is
never stopped, so what a turn keeps holds after every run.
-/

namespace CostBasis

open Decimal

/-- The decimal of a mantissa and a scale, to write out the fills of a run. -/
def Decimal.written (mantissa scale : ℕ) : Decimal := (ofParts? false mantissa scale).getD 0

/-- What can be asked of a position. -/
inductive Request where
  | fill (fill : Fill)
  | setMethod (method : Method)
deriving DecidableEq

/-- An accepted fill, with the position on either side of it. -/
structure Entry where
  fill : Fill
  before : Position
  after : Position
  outcome : FillOutcome

/-- A position with the fills it has accepted, oldest first. -/
structure Session where
  position : Position
  entries : List Entry := []

/-- What holds of all beginnings of a run, holds of those of the run without its end and of the run. -/
theorem forall_prefix_concat {α : Type} {motive : List α → Prop} {before : List α} {last : α} :
    (∀ done, done <+: before ++ [last] → motive done) ↔
      (∀ done, done <+: before → motive done) ∧ motive (before ++ [last]) := by
  simp only [List.prefix_concat_iff]
  constructor
  · intro all
    exact ⟨fun done earlier => all done (.inr earlier), all _ (.inl rfl)⟩
  · rintro ⟨earlier, whole⟩ done (rfl | shorter)
    · exact whole
    · exact earlier done shorter

namespace Session

def start (symbol : String) (method : Method) : Session := { position := .new symbol method }

def accept (s : Session) (fill : Fill) (next : Position) (outcome : FillOutcome) : Session where
  position := next
  entries := s.entries ++ [⟨fill, s.position, next, outcome⟩]

/-- Serves one request.  Only a fault stops the session. -/
def step (s : Session) : Request → Except Fault Session
  | .setMethod method =>
    match s.position.setMethod method with
    | .ok changed => .ok { s with position := changed.value }
    | .error _ => .ok s
  | .fill fill =>
    match s.position.apply fill with
    | .ok (next, outcome) => .ok (s.accept fill next outcome)
    | .error (.refused _) => .ok s
    | .error (.fault fault) => .error fault

def run (s : Session) (requests : List Request) : Except Fault Session := requests.foldlM step s

def runFills (s : Session) (fills : List Fill) : Except Fault Session := s.run (fills.map .fill)

/-! ## Turns -/

/-- What a request does to a session. -/
inductive Turn (s : Session) : Request → Session → Prop where
  | switched (method : Method) (flat : s.position.IsFlat) :
      Turn s (.setMethod method) { s with position := { s.position with method } }
  | unswitched (method : Method) (kept : method = s.position.method ∨ ¬ s.position.IsFlat) :
      Turn s (.setMethod method) s
  | accepted {fill : Fill} {next : Position} {outcome : FillOutcome}
      (filled : s.position.apply fill = .ok (next, outcome)) :
      Turn s (.fill fill) (s.accept fill next outcome)
  | refused {fill : Fill} {error : FillError}
      (failed : s.position.apply fill = .error (.refused error)) : Turn s (.fill fill) s

/-- A request to a sound ledger is served, and leaves it sound. -/
theorem exists_turn {s : Session} (sound : s.position.Sound) (request : Request) :
    ∃ s', s.step request = .ok s' ∧ Turn s request s' ∧ s'.position.Sound := by
  cases request with
  | setMethod method =>
    simp only [step, Position.setMethod]
    -- The method in force is accepted at any time, another one only while flat.
    by_cases same : method = s.position.method
    · simp only [if_pos same]
      exact ⟨s, rfl, .unswitched method (.inl same), sound⟩
    · by_cases flat : s.position.IsFlat
      · simp only [if_neg same, if_pos flat]
        exact ⟨_, rfl, .switched method flat, sound.lots, sound.flat⟩
      · simp only [if_neg same, if_neg flat]
        exact ⟨s, rfl, .unswitched method (.inr flat), sound⟩
  | fill fill =>
    simp only [step]
    cases filled : s.position.apply fill with
    | ok result =>
      obtain ⟨next, outcome⟩ := result
      exact ⟨s.accept fill next outcome, rfl, .accepted filled, sound.fill filled⟩
    | error failure =>
      cases failure with
      | refused error => exact ⟨s, rfl, .refused filled, sound⟩
      | fault fault => exact absurd filled (sound.apply_ne_fault fault)

/-! ## Runs -/

theorem run_append (s : Session) (first second : List Request) :
    s.run (first ++ second) = (s.run first >>= fun s' => s'.run second) := by
  simp only [run]
  rw [List.foldlM_append]

theorem run_concat (s : Session) (requests : List Request) (request : Request) :
    s.run (requests ++ [request]) = (s.run requests >>= fun s' => s'.step request) := by
  rw [run_append]
  simp only [run]
  simp only [List.foldlM_cons, List.foldlM_nil, bind_pure]

theorem runFills_concat (s : Session) (fills : List Fill) (fill : Fill) :
    s.runFills (fills ++ [fill]) = (s.runFills fills >>= fun s' => s'.step (.fill fill)) := by
  rw [runFills, List.map_append]
  exact run_concat s _ _

theorem runFills_of_apply {s : Session} {fill : Fill} {next : Position} {outcome : FillOutcome}
    (filled : s.position.apply fill = .ok (next, outcome)) (fills : List Fill) :
    s.runFills (fill :: fills) = (s.accept fill next outcome).runFills fills := by
  have stepped : s.step (.fill fill) = .ok (s.accept fill next outcome) := by simp only [step, filled]
  simp only [runFills, run, List.map_cons]
  rw [List.foldlM_cons, stepped, ok_bind]

/-- What holds at the start and is kept by every turn holds after every run, and every run ends. -/
theorem run_induction (start : Session) {motive : List Request → Session → Prop}
    (sound : start.position.Sound) (nil : motive [] start)
    (turn : ∀ requests s request s', start.run requests = .ok s → s.position.Sound →
      motive requests s → start.run (requests ++ [request]) = .ok s' → Turn s request s' →
      motive (requests ++ [request]) s') (requests : List Request) :
    ∃ s, start.run requests = .ok s ∧ s.position.Sound ∧ motive requests s := by
  -- On the end of the requests, since a turn is added after the ones already served.
  induction requests using List.reverseRecOn with
  | nil => exact ⟨start, rfl, sound, nil⟩
  | append_singleton requests request ih =>
    obtain ⟨s, ran, s_sound, holds⟩ := ih
    obtain ⟨s', stepped, turned, s'_sound⟩ := exists_turn s_sound request
    have ran' : start.run (requests ++ [request]) = .ok s' := by
      rw [run_concat, ran, ok_bind, stepped]
    exact ⟨s', ran', s'_sound, turn requests s request s' ran s_sound holds ran' turned⟩

/-- The same for runs of fills. -/
theorem runFills_induction (start : Session) {motive : List Fill → Session → Prop}
    (sound : start.position.Sound) (nil : motive [] start)
    (turn : ∀ fills s fill s', start.runFills fills = .ok s → s.position.Sound →
      motive fills s → start.runFills (fills ++ [fill]) = .ok s' → Turn s (.fill fill) s' →
      motive (fills ++ [fill]) s') (fills : List Fill) :
    ∃ s, start.runFills fills = .ok s ∧ s.position.Sound ∧ motive fills s := by
  obtain ⟨s, ran, s_sound, holds⟩ := run_induction start
    (motive := fun requests s => ∀ fills, requests = fills.map .fill → motive fills s) sound
    (fun fills none => by rwa [List.map_eq_nil_iff.mp none.symm])
    (fun requests s request s' ran s_sound holds ran' turned fills eq => by
      rcases List.eq_nil_or_concat fills with rfl | ⟨before, fill, rfl⟩
      · simp at eq
      · rw [List.concat_eq_append] at eq ⊢
        rw [List.map_append] at eq
        obtain ⟨rfl, last⟩ := List.append_inj' eq rfl
        obtain rfl : request = .fill fill := List.singleton_inj.mp last
        refine turn before s fill s' ran s_sound (holds before rfl) ?_ turned
        rw [runFills, List.map_append]
        exact ran')
    (fills.map .fill)
  exact ⟨s, ran, s_sound, holds fills rfl⟩

theorem start_sound (symbol : String) (method : Method) : (start symbol method).position.Sound :=
  .new symbol method

/-- Whatever is asked of a position, its lots are of positive quantity at a price that is not negative
and have their cost in range, every operation that a further fill evaluates is safe, and the fill is
accepted or refused. -/
theorem run_safe (symbol : String) (method : Method) (requests : List Request) :
    ∃ s, (start symbol method).run requests = .ok s ∧
      (∀ lot ∈ s.position.lots, 0 < lot.quantity ∧ 0 ≤ lot.price ∧ lot.costing.Safe) ∧
      ∀ fill, (∀ o, s.position.Evaluates fill o → o.Safe) ∧
        ((∃ next outcome, s.position.apply fill = .ok (next, outcome)) ∨
          ∃ error, s.position.apply fill = .error (.refused error)) := by
  obtain ⟨s, ran, sound, _⟩ := run_induction (start symbol method) (motive := fun _ _ => True)
    (start_sound symbol method) trivial (fun _ _ _ _ _ _ _ _ _ => trivial) requests
  refine ⟨s, ran, fun lot member => ?_, fun fill => ⟨fun o => sound.evaluates_safe, ?_⟩⟩
  · have lot_sound := sound.lots lot member
    rw [lt_iff, le_iff, value_zero]
    exact ⟨lot_sound.quantity_pos, lot_sound.price_nonneg, lot_sound.costing_safe⟩
  · cases applied : s.position.apply fill with
    | ok result => exact .inl ⟨result.1, result.2, rfl⟩
    | error failure =>
      cases failure with
      | refused error => exact .inr ⟨error, rfl⟩
      | fault fault => exact absurd applied (sound.apply_ne_fault fault)

end Session

end CostBasis
