import CostBasis.Json.Reading
import CostBasis.Proofs.Json.Fields

/-!
# The order of members

The members of an object may come in any order.  A reader that looks its fields up by their names gives
the same for all these orders, at any depth, if the readers of its fields do.
-/

namespace CostBasis.Json

/-- The members of any of the objects in a value may change their order, and nothing else. -/
inductive Reordered : Json → Json → Prop where
  | refl (j : Json) : Reordered j j
  | trans {a b c : Json} : Reordered a b → Reordered b c → Reordered a c
  | members {ms ms' : List (Option String × Json)} :
    ms.Perm ms' → Reordered (.object ms) (.object ms')
  | member {a b : Json} (before : List (Option String × Json)) (name : Option String)
    (after : List (Option String × Json)) : Reordered a b →
    Reordered (.object (before ++ (name, a) :: after)) (.object (before ++ (name, b) :: after))
  | item {a b : Json} (before after : List Json) : Reordered a b →
    Reordered (.array (before ++ a :: after)) (.array (before ++ b :: after))

variable {j j' : Json}

theorem Reordered.written (reordered : Reordered j j') (written : j.Written) : j'.Written := by
  induction reordered with
  | refl => exact written
  | trans _ _ first second => exact second (first written)
  | members perm =>
    rw [Written, writtenMembers_iff] at written ⊢
    exact fun m mem => written m (perm.mem_iff.mpr mem)
  | member before name after _ ih =>
    simp only [Written, writtenMembers_iff, List.forall_mem_append, List.forall_mem_cons] at written ⊢
    exact ⟨written.1, ⟨written.2.1.1, ih written.2.1.2⟩, written.2.2⟩
  | item before after _ ih =>
    simp only [Written, writtenItems_iff, List.forall_mem_append, List.forall_mem_cons] at written ⊢
    exact ⟨written.1, ih written.2.1, written.2.2⟩

/-- A value without members has one order. -/
theorem Reordered.null_iff (reordered : Reordered j j') : j = .null ↔ j' = .null := by
  induction reordered with
  | refl => exact Iff.rfl
  | trans _ _ first second => exact first.trans second
  | members | member | item => exact iff_of_false nofun nofun

/-! ## Fields that are found by name -/

/-- Under each name both have a field or neither, and the two differ only in order. -/
def SameFields (fs fs' : List (String × Json)) : Prop :=
  ∀ name, Option.Rel Reordered (fs.lookup name) (fs'.lookup name)

namespace SameFields

theorem of_eq {fs fs' : List (String × Json)} (same : ∀ name, fs.lookup name = fs'.lookup name) :
    SameFields fs fs' := fun name => by
  rw [same]
  cases fs'.lookup name with
  | none => exact .none
  | some value => exact .some (.refl value)

theorem refl (fs : List (String × Json)) : SameFields fs fs := .of_eq fun _ => rfl

theorem cons {fs fs' : List (String × Json)} (same : SameFields fs fs') (name : String)
    (reordered : Reordered j j') : SameFields ((name, j) :: fs) ((name, j') :: fs') := fun other => by
  simp only [List.lookup_cons]
  cases other == name with
  | true => exact .some reordered
  | false => exact same other

/-- Where no name comes twice, fields are found in any order. -/
theorem of_perm {fs fs' : List (String × Json)} (perm : fs.Perm fs') (nodup : (fs.map Prod.fst).Nodup) :
    SameFields fs fs' := by
  have nodup' := (perm.map Prod.fst).nodup_iff.mp nodup
  refine .of_eq fun name => Option.ext fun j => ?_
  rw [lookup_eq_some_iff_mem nodup, lookup_eq_some_iff_mem nodup', perm.mem_iff]

/-- One member of many changes. -/
theorem replace {before after : List (String × Json)} (name : String) (reordered : Reordered j j') :
    SameFields (before ++ (name, j) :: after) (before ++ (name, j') :: after) := by
  induction before with
  | nil => exact (refl after).cons name reordered
  | cons m before ih => exact ih.cons m.1 (.refl m.2)

/-- One item of an array of fields changes. -/
theorem zip {before after : List Json} (names : List String) (reordered : Reordered j j') :
    SameFields (names.zip (before ++ j :: after)) (names.zip (before ++ j' :: after)) := by
  induction before generalizing names with
  | nil =>
    cases names with
    | nil => exact refl []
    | cons name names => exact (refl _).cons name reordered
  | cons item before ih =>
    cases names with
    | nil => exact refl []
    | cons name names => exact (ih names).cons name (.refl item)

end SameFields

/-! ## Readers -/

variable {α : Type} {read? : Json → Option α}

/-- A reader to which the order of members is nothing. -/
def OrderFree (read? : Json → Option α) : Prop := ∀ j j', Reordered j j' → read? j = read? j'

theorem required?_congr {fs fs' : List (String × Json)} (free : OrderFree read?)
    (same : SameFields fs fs') (name : String) : required? fs name read? = required? fs' name read? := by
  have found := same name
  simp only [required?]
  revert found
  cases fs.lookup name <;> cases fs'.lookup name <;> rintro ⟨⟩
  next => rfl
  next reordered => exact free _ _ reordered

/-- A reader that does not look into objects and arrays is free of order. -/
theorem OrderFree.of_scalar (objects : ∀ ms ms', read? (.object ms) = read? (.object ms'))
    (arrays : ∀ items items', read? (.array items) = read? (.array items')) : OrderFree read? := by
  intro j j' reordered
  induction reordered with
  | refl => rfl
  | trans _ _ first second => exact first.trans second
  | members | member => exact objects _ _
  | item => exact arrays _ _

theorem orderFree_text? : OrderFree text? := .of_scalar (fun _ _ => rfl) fun _ _ => rfl

theorem orderFree_count? : OrderFree count? := .of_scalar (fun _ _ => rfl) fun _ _ => rfl

theorem orderFree_decimal? : OrderFree Decimal.ofJson? := .of_scalar (fun _ _ => rfl) fun _ _ => rfl

theorem OrderFree.list? (free : OrderFree read?) : OrderFree (list? read?) := by
  intro j j' reordered
  induction reordered with
  | refl => rfl
  | trans _ _ first second => exact first.trans second
  | members | member => rfl
  | item before after reordered _ =>
    simp only [Json.list?, List.mapM_append, List.mapM_cons, free _ _ reordered]

/-- What an object is as a variant depends on whether it has one member, which is null. -/
theorem variant?_object_congr (variants : List (String × α)) {ms ms' : List (Option String × Json)}
    (same : ∀ name, ms = [(some name, .null)] ↔ ms' = [(some name, .null)]) :
    variant? variants (.object ms) = variant? variants (.object ms') := by
  by_cases single : ∃ name, ms = [(some name, .null)]
  · obtain ⟨name, rfl⟩ := single
    rw [(same name).mp rfl]
  · have refused {ms : List (Option String × Json)} (other : ∀ name, ms ≠ [(some name, .null)]) :
        variant? variants (.object ms) = none := by
      unfold variant?
      split
      next is_text => cases is_text
      next is_object => exact absurd (Json.object.inj is_object) (other _)
      next => rfl
    rw [refused fun name is_single => single ⟨name, is_single⟩,
      refused fun name is_single => single ⟨name, (same name).mpr is_single⟩]

theorem orderFree_variant? (variants : List (String × α)) : OrderFree (variant? variants) := by
  intro j j' reordered
  induction reordered with
  | refl => rfl
  | trans _ _ first second => exact first.trans second
  | members perm =>
    refine variant?_object_congr variants fun name => ?_
    rw [← List.perm_singleton, ← List.perm_singleton]
    exact ⟨perm.symm.trans, perm.trans⟩
  | member before name after reordered _ =>
    refine variant?_object_congr variants fun name => ?_
    simp only [List.append_eq_singleton_iff, List.cons.injEq, List.cons_ne_nil, and_false, or_false,
      Prod.mk.injEq, reordered.null_iff]
  | item => rfl

theorem orderFree_side? : OrderFree Side.ofJson? := orderFree_variant? _

theorem orderFree_direction? : OrderFree Direction.ofJson? := orderFree_variant? _

theorem orderFree_method? : OrderFree Method.ofJson? := orderFree_variant? _

theorem fields?_object (names : List String) (ms : List (Option String × Json)) :
    (object ms).fields? names
      = if ms.all (·.1.isSome) then select? names (ms.map labelled) else none := by
  rw [fields?, named?_eq]
  split <;> rfl

section

variable {names : List String} {build? : List (String × Json) → Option α}
  (free : ∀ fs fs', SameFields fs fs' → build? fs = build? fs')

include free

theorem bind_select?_of_perm {fs fs' : List (String × Json)} (perm : fs.Perm fs') :
    (select? names fs).bind build? = (select? names fs').bind build? := by
  have known := perm.filter fun m => names.contains m.1
  simp only [select?, (known.map Prod.fst).nodup_iff]
  split
  next nodup => exact free _ _ (.of_perm known ((known.map Prod.fst).nodup_iff.mpr nodup))
  next => rfl

theorem bind_select?_of_replace (before : List (String × Json)) (name : String)
    (after : List (String × Json)) (reordered : Reordered j j') :
    (select? names (before ++ (name, j) :: after)).bind build?
      = (select? names (before ++ (name, j') :: after)).bind build? := by
  simp only [select?, List.filter_append, List.filter_cons]
  split
  next =>
    -- The names are the same, so that one comes twice in both or in neither.
    simp only [List.map_append, List.map_cons]
    split
    next => exact free _ _ (.replace name reordered)
    next => rfl
  next => rfl

/-- A record is read in any order if what is made of its fields does not depend on theirs. -/
theorem orderFree_record : OrderFree fun j => (j.fields? names).bind build? := by
  intro j j' reordered
  induction reordered with
  | refl => rfl
  | trans _ _ first second => exact first.trans second
  -- In all three cases the fields that are found are the same up to order; the names decide the rest.
  | members perm =>
    simp only [fields?_object, perm.all_eq]
    split
    next => exact bind_select?_of_perm free (perm.map labelled)
    next => rfl
  | member before name after reordered _ =>
    simp only [fields?_object, List.all_append, List.all_cons, List.map_append, List.map_cons, labelled]
    split
    next => exact bind_select?_of_replace free _ _ _ reordered
    next => rfl
  | item before after reordered _ =>
    simp only [fields?, List.length_append, List.length_cons]
    split
    next => exact free _ _ (.zip names reordered)
    next => rfl

end

end CostBasis.Json
