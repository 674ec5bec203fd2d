import CostBasis.Proofs.Json.RoundTrip

/-!
# The characters of a JSON text

A compact text holds no control characters, whatever the strings in it: it is a single line.
-/

namespace CostBasis.Json

def Visible (cs : List Char) : Prop := ∀ c ∈ cs, ' ' ≤ c

instance (cs : List Char) : Decidable (Visible cs) := List.decidableBAll (' ' ≤ ·) cs

theorem visible_append {cs cs' : List Char} : Visible (cs ++ cs') ↔ Visible cs ∧ Visible cs' :=
  List.forall_mem_append

theorem visible_digitChar (n : Nat) : ' ' ≤ n.digitChar := by
  by_cases small : n < 16
  · revert n
    decide
  · rw [show n.digitChar = '*' from Nat.digitChar_eq_star.mpr (by omega)]
    decide

theorem visible_toDigits (n : Nat) : Visible (Nat.toDigits 10 n) := by
  rw [Nat.toDigits_eq_if (by decide)]
  split
  next => simpa [Visible] using visible_digitChar n
  next =>
    rw [visible_append]
    exact ⟨visible_toDigits (n / 10), by simpa [Visible] using visible_digitChar (n % 10)⟩
termination_by n

theorem visible_printChar (c : Char) : Visible (printChar c) := by
  by_cases short : c ∈ shortEscaped
  · simp only [shortEscaped, List.mem_cons, List.not_mem_nil, or_false] at short
    rcases short with rfl | rfl | rfl | rfl | rfl | rfl | rfl <;> decide
  · simp only [shortEscaped, List.mem_cons, List.not_mem_nil, or_false, not_or] at short
    obtain ⟨quote, backslash, b, f, n, r, t⟩ := short
    rw [printChar, if_neg quote, if_neg backslash, if_neg b, if_neg f, if_neg n, if_neg r, if_neg t]
    split
    next => simp [Visible, visible_digitChar]
    next plain => simpa [Visible] using plain

theorem visible_printString (s : String) : Visible (printString s) := by
  have chars : Visible (s.toList.flatMap printChar) := fun c mem => by
    obtain ⟨_, _, mem⟩ := List.mem_flatMap.mp mem
    exact visible_printChar _ c mem
  simp only [printString, visible_append]
  exact ⟨⟨by decide, chars⟩, by decide⟩

theorem visible_printNumber (n : Number) : Visible (printNumber n) := by
  have fraction : Visible (printFraction n.fraction) := by
    rw [printFraction]
    split
    next => decide
    next =>
      refine List.forall_mem_cons.mpr ⟨by decide, List.forall_mem_map.mpr fun d _ => ?_⟩
      exact visible_digitChar d
  have exponent : Visible (printExponent n.exponent) := by
    rcases n.exponent with _ | e | e
    · decide
    · exact List.forall_mem_cons.mpr ⟨by decide, visible_toDigits e⟩
    · exact List.forall_mem_cons.mpr
        ⟨by decide, List.forall_mem_cons.mpr ⟨by decide, visible_toDigits (e + 1)⟩⟩
  simp only [printNumber_eq, visible_append]
  exact ⟨by split <;> decide, visible_toDigits n.whole, fraction, exponent⟩

mutual

/-- What is not visible in a value is escaped. -/
theorem visible_print : ∀ j : Json, Visible (print j)
  | .null => by decide
  | .bool true => by decide
  | .bool false => by decide
  | .number n => visible_printNumber n
  | .string _ => visible_printString _
  | .array items => by
    simp only [print, visible_append]
    exact ⟨⟨by decide, visible_printItems items⟩, by decide⟩
  | .object members => by
    simp only [print, visible_append]
    exact ⟨⟨by decide, visible_printMembers members⟩, by decide⟩

theorem visible_printItems : ∀ items : List Json, Visible (printItems items)
  | [] => by decide
  | [item] => visible_print item
  | item :: next :: items => by
    simp only [printItems, visible_append]
    exact ⟨⟨visible_print item, by decide⟩, visible_printItems (next :: items)⟩

theorem visible_printMembers : ∀ members : List (Option String × Json), Visible (printMembers members)
  | [] => by decide
  | [(_, value)] => by
    simp only [printMembers, visible_append]
    exact ⟨⟨visible_printString _, by decide⟩, visible_print value⟩
  | (_, value) :: next :: members => by
    simp only [printMembers, visible_append]
    exact ⟨⟨⟨⟨visible_printString _, by decide⟩, visible_print value⟩, by decide⟩,
      visible_printMembers (next :: members)⟩

end

end CostBasis.Json
