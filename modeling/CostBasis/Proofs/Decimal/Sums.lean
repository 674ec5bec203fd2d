import CostBasis.Proofs.Decimal.Grid
import CostBasis.Proofs.Decimal.Saturation

/-!
# Sums of many decimals

Decimals are added one after the other.  Their sum is exact when no sum on the way has to be rounded or is
out of range, as it is for decimals of a few places that are not too large together.  In general it depends
on their order, but not on zeros among them, and it changes its sign with them.
-/

namespace CostBasis

namespace Decimal

def total (ds : List Decimal) : ℚ := (ds.map value).sum

@[simp] theorem total_nil : total [] = 0 := rfl

@[simp] theorem total_cons (d : Decimal) (ds : List Decimal) : total (d :: ds) = d.value + total ds := rfl

@[simp] theorem total_append (ds ds' : List Decimal) : total (ds ++ ds') = total ds + total ds' := by
  simp only [total, List.map_append, List.sum_append]

theorem total_of_perm {ds ds' : List Decimal} (perm : ds.Perm ds') : total ds = total ds' :=
  (perm.map value).sum_eq

theorem total_map_add {α : Type} {f g h : α → Decimal} {xs : List α}
    (each : ∀ x ∈ xs, (h x).value = (f x).value + (g x).value) :
    total (xs.map h) = total (xs.map f) + total (xs.map g) := by
  simp only [total, List.map_map]
  rw [← List.sum_map_add]
  exact congrArg List.sum (List.map_congr_left each)

/-- No sum on the way from the first decimal to the last has to be rounded or is out of range. -/
def AddsExactly (ds : List Decimal) : Prop := ∀ part, part <+: ds → Representable (total part)

theorem AddsExactly.of_concat {ds : List Decimal} {d : Decimal} (exact : AddsExactly (ds ++ [d])) :
    AddsExactly ds := fun _ part => exact _ (part.trans (List.prefix_append ds [d]))

theorem AddsExactly.representable {ds : List Decimal} (exact : AddsExactly ds) : Representable (total ds) :=
  exact ds (List.prefix_refl ds)

theorem onGrid_total {places : ℕ} {ds : List Decimal} (scale : ∀ d ∈ ds, d.scale ≤ places) :
    OnGrid places (total ds) := by
  induction ds with
  | nil => exact .zero
  | cons d ds ih =>
    rw [List.forall_mem_cons] at scale
    rw [total_cons]
    exact (onGrid_of_scale scale.1).add (ih scale.2)

theorem abs_total_le (ds : List Decimal) : |total ds| ≤ total (ds.map abs) := by
  induction ds with
  | nil => simp
  | cons d ds ih =>
    rw [List.map_cons, total_cons, total_cons, value_abs]
    exact (abs_add_le _ _).trans (by gcongr)

theorem total_abs_le_append (part rest : List Decimal) :
    total (part.map abs) ≤ total ((part ++ rest).map abs) := by
  have nonneg : 0 ≤ total (rest.map abs) := (abs_nonneg _).trans (abs_total_le rest)
  rw [List.map_append, total_append]
  linarith

/-- Decimals of a few places add up exactly when they are not too large together. -/
theorem addsExactly_of_scale {places : ℕ} {ds : List Decimal} (le : places ≤ maxScale)
    (scale : ∀ d ∈ ds, d.scale ≤ places) (small : total (ds.map abs) * 10 ^ places < 2 ^ 96) :
    AddsExactly ds := by
  rintro part ⟨rest, rfl⟩
  have grid : OnGrid places (total part) := onGrid_total fun d mem => scale d (List.mem_append_left rest mem)
  have bound : |total part| ≤ total ((part ++ rest).map abs) :=
    (abs_total_le part).trans (total_abs_le_append part rest)
  exact grid.representable le (lt_of_le_of_lt (by gcongr) small)

/-! ## Saturating results -/

theorem value_saturatingAdd {a b : Decimal} (exact : Representable (a.value + b.value)) :
    (a.saturatingAdd b).value = a.value + b.value :=
  (saturates_add a b).value_eq (nearest?_of_representable exact)

theorem value_saturatingMul {a b : Decimal} (exact : Representable (a.value * b.value)) :
    (a.saturatingMul b).value = a.value * b.value :=
  (saturates_mul a b).value_eq (nearest?_of_representable exact)

theorem value_saturatingMul_of_isZero {a : Decimal} (zero : a.IsZero) (b : Decimal) :
    (a.saturatingMul b).value = 0 := by
  have product : a.value * b.value = 0 := by rw [(isZero_iff a).mp zero, zero_mul]
  rw [value_saturatingMul (product ▸ ⟨0, value_zero⟩), product]

/-! ## Saturating sums -/

/-- The sum of numbers one after the other, saturated after each of them. -/
def saturatedSum (xs : List ℚ) : ℚ := xs.foldl (fun sum x => saturated (sum + x)) 0

@[simp] theorem saturatedSum_nil : saturatedSum [] = 0 := rfl

@[simp] theorem saturatedSum_concat (xs : List ℚ) (x : ℚ) :
    saturatedSum (xs ++ [x]) = saturated (saturatedSum xs + x) := by
  simp only [saturatedSum, List.foldl_concat]

theorem value_foldl_saturatingAdd (ds : List Decimal) :
    (ds.foldl saturatingAdd 0).value = saturatedSum (ds.map value) := by
  induction ds using List.reverseRecOn with
  | nil => exact value_zero
  | append_singleton ds d ih =>
    rw [List.foldl_concat, (saturates_add _ _).value_eq_saturated, ih, List.map_append, List.map_singleton,
      saturatedSum_concat]

theorem AddsExactly.saturatedSum_eq {ds : List Decimal} (exact : AddsExactly ds) :
    saturatedSum (ds.map value) = total ds := by
  induction ds using List.reverseRecOn with
  | nil => rfl
  | append_singleton ds d ih =>
    have sum : total (ds ++ [d]) = total ds + d.value := by simp
    rw [List.map_append, List.map_singleton, saturatedSum_concat, ih exact.of_concat, ← sum]
    exact saturated_of_representable exact.representable

theorem representable_saturatedSum (xs : List ℚ) : Representable (saturatedSum xs) := by
  rcases List.eq_nil_or_concat xs with rfl | ⟨before, last, rfl⟩
  · exact ⟨0, value_zero⟩
  · rw [List.concat_eq_append, saturatedSum_concat]
    exact representable_saturated _

/-- Zeros can be left out of a sum. -/
theorem saturatedSum_filter {α : Type} {share : α → ℚ} {kept : α → Bool} {xs : List α}
    (zero : ∀ x ∈ xs, kept x = false → share x = 0) :
    saturatedSum ((xs.filter kept).map share) = saturatedSum (xs.map share) := by
  induction xs using List.reverseRecOn with
  | nil => rfl
  | append_singleton xs x ih =>
    rw [List.forall_mem_append, List.forall_mem_singleton] at zero
    rw [List.filter_append, List.map_append, List.map_append, List.map_singleton, saturatedSum_concat,
      ← ih zero.1]
    cases keeps : kept x with
    | true =>
      rw [List.filter_singleton, keeps]
      exact saturatedSum_concat _ _
    | false =>
      rw [List.filter_singleton, keeps, zero.2 keeps, add_zero,
        saturated_of_representable (representable_saturatedSum _)]
      simp

/-! ## Sums and magnitudes -/

theorem saturatedSum_neg (xs : List ℚ) : saturatedSum (xs.map (-·)) = -saturatedSum xs := by
  induction xs using List.reverseRecOn with
  | nil => simp
  | append_singleton xs x ih =>
    rw [List.map_append, List.map_singleton, saturatedSum_concat, saturatedSum_concat, ih, ← saturated_neg,
      neg_add]

/-- The magnitude of a sum is at most the sum of the magnitudes, even where only one of them saturates. -/
theorem abs_saturatedSum_le (xs : List ℚ) : |saturatedSum xs| ≤ saturatedSum (xs.map (|·|)) := by
  induction xs using List.reverseRecOn with
  | nil => simp
  | append_singleton xs x ih =>
    rw [List.map_append, List.map_singleton, saturatedSum_concat, saturatedSum_concat, abs_saturated]
    exact saturated_mono ((abs_add_le _ _).trans (add_le_add_left ih _))

theorem abs_saturatedSum_of_nonneg {xs : List ℚ} (nonneg : ∀ x ∈ xs, 0 ≤ x) :
    |saturatedSum xs| = saturatedSum (xs.map (|·|)) := by
  have same : xs.map (|·|) = xs :=
    (List.map_congr_left fun x mem => abs_of_nonneg (nonneg x mem)).trans (List.map_id' xs)
  have bound := abs_saturatedSum_le xs
  rw [same] at bound ⊢
  exact le_antisymm bound (le_abs_self _)

theorem abs_saturatedSum_of_nonpos {xs : List ℚ} (nonpos : ∀ x ∈ xs, x ≤ 0) :
    |saturatedSum xs| = saturatedSum (xs.map (|·|)) := by
  have reflected : ∀ y ∈ xs.map (-·), 0 ≤ y := by
    intro y mem
    obtain ⟨x, found, rfl⟩ := List.mem_map.mp mem
    exact neg_nonneg.mpr (nonpos x found)
  rw [← abs_neg, ← saturatedSum_neg, abs_saturatedSum_of_nonneg reflected, List.map_map]
  simp [Function.comp_def]

end Decimal

end CostBasis
