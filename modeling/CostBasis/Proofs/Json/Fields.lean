import CostBasis.Json.Reading
import CostBasis.Method
import CostBasis.Side
import CostBasis.Proofs.Json.RoundTrip
import CostBasis.Proofs.Json.Scalar

/-!
# Reading records and variants

What a reader finds among the members of an object.  A record is read whole by the names of its fields,
and a variant by its own name.
-/

namespace CostBasis

/-! ## Variants -/

@[simp] theorem Side.ofJson?_toJson (s : Side) : Side.ofJson? s.toJson = some s := by
  cases s <;> rfl

@[simp] theorem Direction.ofJson?_toJson (d : Direction) : Direction.ofJson? d.toJson = some d := by
  cases d <;> rfl

@[simp] theorem Method.ofJson?_toJson (m : Method) : Method.ofJson? m.toJson = some m := by
  cases m <;> rfl

namespace Json

/-! ## What is written -/

theorem written_text (s : String) : (text s).Written := rfl

theorem written_count (n : Nat) : (count n).Written := by
  simp [count, Written, Number.Written]

theorem writtenItems_iff {items : List Json} : WrittenItems items ↔ ∀ item ∈ items, item.Written := by
  induction items with
  | nil => simp [WrittenItems]
  | cons item items ih => simp [WrittenItems, ih]

theorem writtenMembers_iff {members : List (Option String × Json)} :
    WrittenMembers members ↔ ∀ m ∈ members, m.1.isSome = true ∧ m.2.Written := by
  induction members with
  | nil => simp [WrittenMembers]
  | cons m members ih => simp only [WrittenMembers, ih, List.forall_mem_cons, and_assoc]

theorem written_texts (texts : List String) : (array (texts.map text)).Written := by
  rw [Written, writtenItems_iff, List.forall_mem_map]
  exact fun s _ => written_text s

/-- A record is written when its fields are. -/
theorem written_record {members : List (String × Json)} (written : ∀ m ∈ members, m.2.Written) :
    (record members).Written := by
  rw [record, Written, writtenMembers_iff, List.forall_mem_map]
  exact fun m mem => ⟨rfl, written m mem⟩

@[simp] theorem list?_texts (texts : List String) :
    list? text? (array (texts.map text)) = some texts := by
  induction texts with
  | nil => rfl
  | cons s texts ih => simp_all [list?]

/-! ## The fields of a record -/

def labelled (m : Option String × Json) : String × Json := (m.1.getD "", m.2)

/-- An object has named members unless one of its names has no text. -/
theorem named?_eq (members : List (Option String × Json)) : named? members
    = if members.all (·.1.isSome) then some (members.map labelled) else none := by
  induction members with
  | nil => rfl
  | cons m members ih =>
    obtain ⟨name, value⟩ := m
    simp only [named?, List.mapM_cons] at ih ⊢
    rw [ih, List.all_cons]
    cases name with
    | none => rfl
    | some name =>
      cases members.all fun m => m.1.isSome with
      | false => rfl
      | true => rfl

@[simp] theorem named?_record (members : List (String × Json)) :
    named? (members.map fun m => (some m.1, m.2)) = some members := by
  rw [named?_eq, if_pos (by rw [List.all_map, List.all_eq_true]; exact fun _ _ => rfl), List.map_map]
  exact congrArg some (List.map_id members)

theorem select?_eq_some_iff {names : List String} {members known : List (String × Json)} :
    select? names members = some known ↔
      known = members.filter (fun m => names.contains m.1) ∧ (known.map Prod.fst).Nodup := by
  rw [select?]
  constructor
  · intro selected
    split at selected
    next nodup =>
      cases selected
      exact ⟨rfl, nodup⟩
    next => cases selected
  · rintro ⟨rfl, nodup⟩
    exact if_pos nodup

section

variable {names : List String} {fields : List (String × Json)}

theorem select?_of_declared (declared : fields.map Prod.fst = names) (nodup : names.Nodup) :
    select? names fields = some fields := by
  refine select?_eq_some_iff.mpr ⟨(List.filter_eq_self.mpr fun m mem => ?_).symm, declared ▸ nodup⟩
  exact List.contains_iff_mem.mpr (declared ▸ List.mem_map_of_mem mem)

/-- A record is read whole by the names of its fields. -/
theorem fields?_record (declared : fields.map Prod.fst = names) (nodup : names.Nodup) :
    (record fields).fields? names = some fields := by
  rw [record, fields?, named?_record, Option.bind_eq_bind, Option.bind_some,
    select?_of_declared declared nodup]

end

/-! ## Fields that may be missing -/

section

variable {α : Type} {names : List String} {members known : List (String × Json)} {name : String}
  {read? : Json → Option α}

/-- What members say under a name: nothing, or a value that is read. -/
def States (members : List (String × Json)) (name : String) (read? : Json → Option α) :
    Option α → Prop
  | none => ∀ j, (name, j) ∉ members
  | some a => ∃ j, (name, j) ∈ members ∧ read? j = some a

theorem lookup_eq_some_iff_mem {fields : List (String × Json)} (nodup : (fields.map Prod.fst).Nodup)
    {j : Json} : fields.lookup name = some j ↔ (name, j) ∈ fields := by
  induction fields with
  | nil => simp
  | cons m fields ih =>
    obtain ⟨other, value⟩ := m
    rw [List.map_cons, List.nodup_cons] at nodup
    rw [List.lookup_cons, List.mem_cons, Prod.mk.injEq]
    by_cases here : name = other
    · obtain rfl := here
      have absent : (name, j) ∉ fields := fun mem => nodup.1 (List.mem_map.mpr ⟨_, mem, rfl⟩)
      simp [absent, eq_comm]
    · simp only [beq_false_of_ne here, ih nodup.2, here, false_and, false_or]

/-- A field that may be missing is what the members state, or its default. -/
theorem optional?_eq_some_iff (selected : select? names members = some known) (declared : name ∈ names)
    {default a : α} : optional? known name read? default = some a ↔
      ∃ stated, States members name read? stated ∧ a = stated.getD default := by
  obtain ⟨rfl, nodup⟩ := select?_eq_some_iff.mp selected
  -- Among the known members no name comes twice, so that a lookup finds whatever is there.
  have found (j : Json) : (members.filter fun m => names.contains m.1).lookup name = some j
      ↔ (name, j) ∈ members := by
    rw [lookup_eq_some_iff_mem nodup, List.mem_filter]
    exact and_iff_left (List.contains_iff_mem.mpr declared)
  rw [optional?]
  cases here : (members.filter fun m => names.contains m.1).lookup name with
  | none =>
    have absent (j : Json) : (name, j) ∉ members := fun mem => by
      rw [← found, here] at mem
      cases mem
    constructor
    · rintro ⟨⟩
      exact ⟨none, absent, rfl⟩
    · rintro ⟨_ | b, stated, rfl⟩
      · rfl
      · obtain ⟨j, mem, _⟩ := stated
        exact absurd mem (absent j)
  | some j =>
    have mem := (found j).mp here
    constructor
    · exact fun read => ⟨some a, ⟨j, mem, read⟩, rfl⟩
    · rintro ⟨_ | b, stated, rfl⟩
      · exact absurd mem (stated j)
      · obtain ⟨j', mem', read⟩ := stated
        obtain rfl := Option.some_inj.mp (here.symm.trans ((found j').mpr mem'))
        exact read

end

end Json

end CostBasis
