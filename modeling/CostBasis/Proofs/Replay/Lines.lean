import CostBasis.Replay.Record
import CostBasis.Proofs.Json.Fields
import CostBasis.Proofs.Json.Scalar

/-!
# Records as lines

A record is read back from its line, with the scales of its decimals; only zeros lose their signs.
-/

namespace CostBasis

/-! ## Fields -/

@[simp] theorem OrderId.ofJson?_toJson (id : OrderId) : OrderId.ofJson? id.toJson = some id := rfl

@[simp] theorem Record.status?_toJson (s : OrderStatus) : Record.status? s.toJson = some s := by
  cases s <;> rfl

namespace Json

@[simp] theorem nullable?_null {α : Type} (value? : Json → Option α) :
    nullable? value? null = some none := rfl

@[simp] theorem nullable?_text (s : String) : nullable? text? (text s) = some (some s) := rfl

end Json

namespace ExecutionReport

def plain (r : ExecutionReport) : ExecutionReport :=
  { r with
    lastFillQuantity := r.lastFillQuantity.plain
    lastFillPrice := r.lastFillPrice.plain
    executedQuantity := r.executedQuantity.plain
    averagePrice := r.averagePrice.plain }

theorem map_fst_members (r : ExecutionReport) : r.members.map Prod.fst = fieldNames := rfl

theorem ofFields?_members {r : ExecutionReport} (timely : r.timestamp < pow2 64) :
    ofFields? Record.status? r.members = some r.plain := by
  have count := Json.count?_count timely
  cases reason : r.reason <;>
    simp [ofFields?, members, Json.required?, Json.optional?, List.lookup_cons, count, plain, reason]

/-- The fields of a report are texts, its time and perhaps a null. -/
theorem value_of_mem_members {r : ExecutionReport} {m : String × Json} (mem : m ∈ r.members) :
    (∃ s, m.2 = .text s) ∨ m.2 = .count r.timestamp ∨ m.2 = .null := by
  simp only [members, List.mem_cons, List.not_mem_nil, or_false] at mem
  rcases mem with rfl | rfl | rfl | rfl | rfl | rfl | rfl | rfl | rfl | rfl
  case inr.inr.inr.inr.inr.inr.inr.inr.inl => exact .inr (.inl rfl)
  case inr.inr.inr.inr.inr.inr.inr.inr.inr =>
    cases reason : r.reason with
    | none => exact .inr (.inr rfl)
    | some text => exact .inl ⟨text, rfl⟩
  all_goals exact .inl ⟨_, rfl⟩

end ExecutionReport

namespace Record

def plain (r : Record) : Record := { r with report := r.report.plain }

/-- Two records that are the same, where decimals are when they have one value and one scale. -/
structure Same (r r' : Record) : Prop where
  side : r.side = r'.side
  symbol : r.report.symbol = r'.report.symbol
  clientOrderId : r.report.clientOrderId = r'.report.clientOrderId
  venueOrderId : r.report.venueOrderId = r'.report.venueOrderId
  lastFillQuantity : r.report.lastFillQuantity.Same r'.report.lastFillQuantity
  lastFillPrice : r.report.lastFillPrice.Same r'.report.lastFillPrice
  status : r.report.status = r'.report.status
  executedQuantity : r.report.executedQuantity.Same r'.report.executedQuantity
  averagePrice : r.report.averagePrice.Same r'.report.averagePrice
  timestamp : r.report.timestamp = r'.report.timestamp
  reason : r.report.reason = r'.report.reason

theorem same_plain (r : Record) : r.plain.Same r where
  side := rfl
  symbol := rfl
  clientOrderId := rfl
  venueOrderId := rfl
  lastFillQuantity := r.report.lastFillQuantity.same_plain
  lastFillPrice := r.report.lastFillPrice.same_plain
  status := rfl
  executedQuantity := r.report.executedQuantity.same_plain
  averagePrice := r.report.averagePrice.same_plain
  timestamp := rfl
  reason := rfl

def Unsigned (r : Record) : Prop :=
  ∀ d ∈ [r.report.lastFillQuantity, r.report.lastFillPrice, r.report.executedQuantity,
    r.report.averagePrice], ¬(d.negative = true ∧ d.mantissa = 0)

theorem plain_of_unsigned {r : Record} (unsigned : r.Unsigned) : r.plain = r := by
  simp only [Unsigned, ← Decimal.plain_eq_self_iff, List.forall_mem_cons] at unsigned
  obtain ⟨quantity, price, executed, average, _⟩ := unsigned
  simp only [plain, ExecutionReport.plain, quantity, price, executed, average]

variable {r : Record}

theorem written_toJson (r : Record) : r.toJson.Written := by
  refine Json.written_record fun m mem => ?_
  obtain rfl | mem := List.mem_cons.mp mem
  · exact Json.written_text _
  · obtain ⟨s, value⟩ | value | value := ExecutionReport.value_of_mem_members mem <;> rw [value]
    · exact Json.written_text s
    · exact Json.written_count _
    · trivial

theorem readable_of_mem_members (timely : r.report.timestamp < pow2 64) {m : String × Json}
    (mem : m ∈ r.report.members) (depth : Nat) : readable depth m.2 = true := by
  obtain ⟨s, value⟩ | value | value := ExecutionReport.value_of_mem_members mem <;> rw [value]
  · cases depth <;> rfl
  · cases depth <;> exact Number.isSome_double?_of_lt timely
  · cases depth <;> rfl

theorem ofJson?_toJson (timely : r.report.timestamp < pow2 64) : ofJson? r.toJson = some r.plain := by
  have named := Json.named?_record (("side", r.side.toJson) :: r.report.members)
  have side : Json.select? ["side"] (("side", r.side.toJson) :: r.report.members)
      = some [("side", r.side.toJson)] := by
    simp [Json.select?, ExecutionReport.members]
  have others : (("side", r.side.toJson) :: r.report.members).filter (fun m => m.1 != "side")
      = r.report.members := by
    simp [ExecutionReport.members]
  have readable : r.report.members.all (fun m => readable (maxDepth - 1) m.2) = true :=
    List.all_eq_true.mpr fun m mem => readable_of_mem_members timely mem _
  have fields : Json.select? ExecutionReport.fieldNames r.report.members = some r.report.members :=
    Json.select?_of_declared r.report.map_fst_members (by decide)
  have required : Json.required? [("side", r.side.toJson)] "side" Side.ofJson? = some r.side := by
    simp [Json.required?]
  rw [toJson, Json.record, ofJson?, named]
  simp only [Option.bind_eq_bind, Option.bind_some, side, required, others, readable, if_true, fields,
    ExecutionReport.ofFields?_members timely]
  rfl

/-- A record is read back from its line. -/
theorem parse?_line (timely : r.report.timestamp < pow2 64) :
    (Json.parse? r.line).bind ofJson? = some r.plain := by
  rw [line, Json.parse?_render r.written_toJson, Option.bind_some, ofJson?_toJson timely]

end Record

end CostBasis
