import CostBasis.Replay.Mark
import CostBasis.Proofs.Decimal.Text
import CostBasis.Proofs.Outcome
import CostBasis.Proofs.Text

/-!
# Reading marks

A text is a mark when its first equals sign has a symbol before it and a positive price after it, each
with nothing but blanks around it.  So every mark is read back from its symbol and the text of its price,
whatever blanks stand around them.
-/

namespace CostBasis

open Text

theorem Text.isBlank_of_isDigit {c : Char} (digit : c.isDigit = true) : isBlank c = false := by
  have bounds : 48 ≤ c.toNat ∧ c.toNat ≤ 57 := by
    simpa [Char.isDigit, UInt32.le_iff_toNat_le] using digit
  simp only [isBlank, Ranges.has, blankRanges, List.any_cons, List.any_nil, Bool.or_false,
    Bool.or_eq_false_iff, Bool.and_eq_false_iff, decide_eq_false_iff_not]
  omega

/-- No blank stands in the text of a decimal. -/
theorem Decimal.trimmed_text (d : Decimal) : Trimmed d.text.toList := by
  refine trimmed_of_visible fun c mem => ?_
  rw [text, String.toList_ofList] at mem
  simp only [chars, List.mem_append] at mem
  rcases mem with (sign | whole) | fraction
  · split at sign
    · rw [List.mem_singleton.mp sign]
      decide
    · cases sign
  · exact isBlank_of_isDigit (Nat.isDigit_of_mem_toDigits (by decide) (by decide) whole)
  · split at fraction
    · cases fraction
    · rcases List.mem_cons.mp fraction with rfl | digit
      · decide
      · exact isBlank_of_isDigit (isDigit_of_mem_paddedDigits digit)

namespace Mark

/-- A text is split at its first equals sign. -/
theorem splitEquals_eq_some_iff {cs before after : List Char} :
    splitEquals cs = some (before, after) ↔ cs = before ++ '=' :: after ∧ '=' ∉ before := by
  induction cs generalizing before with
  | nil => simp [splitEquals]
  | cons c rest ih =>
    rw [splitEquals]
    cases before with
    | nil => by_cases equals : c = '=' <;> simp [equals]
    | cons b before =>
      by_cases equals : c = '='
      · -- A part before the first sign does not begin with one.
        simp only [equals, if_true, Option.some.injEq, Prod.mk.injEq, List.cons_append, List.cons.injEq,
          List.mem_cons, not_or]
        exact iff_of_false (fun same => List.cons_ne_nil b before same.1.symm) fun both => both.2.1 both.1.1
      · simp only [if_neg equals, Option.map_eq_some_iff, Prod.exists, Prod.mk.injEq, List.cons.injEq,
          List.cons_append, List.mem_cons, not_or]
        constructor
        · rintro ⟨_, _, split, ⟨rfl, rfl⟩, rfl⟩
          obtain ⟨parts, first⟩ := ih.mp split
          exact ⟨⟨rfl, parts⟩, Ne.symm equals, first⟩
        · rintro ⟨⟨rfl, parts⟩, _, first⟩
          exact ⟨before, after, ih.mpr ⟨parts, first⟩, ⟨rfl, rfl⟩, rfl⟩

theorem not_le_zero_iff {d : Decimal} : ¬d ≤ 0 ↔ 0 < d := by
  change ¬d.coefficient * 1 ≤ 0 * pow10 d.scale ↔ 0 * pow10 d.scale < d.coefficient * 1
  exact Int.not_le

theorem read_of_splitEquals {cs before after : List Char} (split : splitEquals cs = some (before, after))
    {m : Mark} : read cs = .ok m ↔ trim before = m.symbol.toList ∧ m.symbol ≠ "" ∧
      Decimal.parseChars (trim after) = .ok m.price ∧ 0 < m.price := by
  simp only [read, split]
  constructor
  · intro ended
    split at ended
    next => cases ended
    next any =>
      split at ended
      next => cases ended
      next price read =>
        split at ended
        next => cases ended
        next positive =>
          cases ended
          refine ⟨String.toList_ofList.symm, fun empty => any ?_, read, not_le_zero_iff.mp positive⟩
          simpa using congrArg String.toList empty
  · rintro ⟨symbol, nonempty, price, positive⟩
    have any : m.symbol.toList ≠ [] := by simpa using nonempty
    rw [symbol, if_neg any, price]
    simp only [if_neg (not_le_zero_iff.mpr positive), String.ofList_toList]

theorem read_eq_ok_iff {cs : List Char} {m : Mark} :
    read cs = .ok m ↔ ∃ before after, splitEquals cs = some (before, after) ∧
      trim before = m.symbol.toList ∧ m.symbol ≠ "" ∧
      Decimal.parseChars (trim after) = .ok m.price ∧ 0 < m.price := by
  constructor
  · intro ended
    cases split : splitEquals cs with
    | none =>
      simp only [read, split] at ended
      cases ended
    | some parts => exact ⟨parts.1, parts.2, rfl, (read_of_splitEquals split).mp ended⟩
  · rintro ⟨before, after, split, parts⟩
    exact (read_of_splitEquals split).mpr parts

theorem parse_eq_ok_iff {s : String} {m : Mark} :
    parse s = .ok m ↔ ∃ before after, s.toList = before ++ '=' :: after ∧ '=' ∉ before ∧
      Trims before m.symbol.toList ∧ m.symbol ≠ "" ∧
      ∃ price : String, Trims after price.toList ∧ Decimal.parse price = .ok m.price ∧ 0 < m.price := by
  simp only [parse, mapError_eq_ok, read_eq_ok_iff, splitEquals_eq_some_iff, trim_eq_iff, and_assoc]
  refine exists_congr fun before => exists_congr fun after => ?_
  refine and_congr_right fun _ => and_congr_right fun _ => and_congr_right fun _ => and_congr_right fun _ => ?_
  constructor
  · rintro ⟨price, positive⟩
    refine ⟨String.ofList (trim after), ?_, ?_, positive⟩
    · rw [String.toList_ofList]
      exact trims_trim after
    · rwa [Decimal.parse, String.toList_ofList]
  · rintro ⟨price, trims, read, positive⟩
    exact ⟨by rw [trims.trim_eq]; exact read, positive⟩

/-- Every mark is read from its symbol and the text of its price, with any blanks around the two, and a
text is read as a mark only if its first equals sign parts it into such a symbol and the text of such a
price. -/
theorem marks_readBack :
    (∀ (m : Mark) (w₁ w₂ w₃ w₄ : String), m.symbol ≠ "" → '=' ∉ m.symbol.toList →
      Trimmed m.symbol.toList → 0 < m.price → (∀ w ∈ [w₁, w₂, w₃, w₄], Blank w.toList) →
      parse (w₁ ++ m.symbol ++ w₂ ++ "=" ++ w₃ ++ m.price.text ++ w₄) = .ok m) ∧
    ∀ (s : String) (m : Mark), parse s = .ok m ↔
      ∃ before after, s.toList = before ++ '=' :: after ∧ '=' ∉ before ∧
        Trims before m.symbol.toList ∧ m.symbol ≠ "" ∧ '=' ∉ m.symbol.toList ∧
        ∃ price : String, Trims after price.toList ∧ Decimal.parse price = .ok m.price ∧ 0 < m.price := by
  refine ⟨fun m w₁ w₂ w₃ w₄ nonempty first trimmed positive blanks => ?_, fun s m => ?_⟩
  · simp only [List.forall_mem_cons] at blanks
    obtain ⟨blank₁, blank₂, blank₃, blank₄, _⟩ := blanks
    -- No equals sign is a blank, so that the first one is that of the mark.
    have unequal {w : String} (blank : Blank w.toList) : '=' ∉ w.toList := fun mem =>
      absurd (blank _ mem) (by decide)
    refine parse_eq_ok_iff.mpr ⟨w₁.toList ++ m.symbol.toList ++ w₂.toList,
      w₃.toList ++ m.price.text.toList ++ w₄.toList, ?_, ?_, ?_, nonempty, m.price.text, ?_, ?_, positive⟩
    · simp [String.toList_append]
    · simp [unequal blank₁, unequal blank₂, first]
    · exact ⟨trimmed, _, _, blank₁, blank₂, rfl⟩
    · exact ⟨m.price.trimmed_text, _, _, blank₃, blank₄, rfl⟩
    · rw [Decimal.parse_text, Decimal.plain_of_pos positive]
  · rw [parse_eq_ok_iff]
    refine exists_congr fun before => exists_congr fun after => ?_
    constructor
    · rintro ⟨split, first, symbol, nonempty, price⟩
      exact ⟨split, first, symbol, nonempty, fun mem => first (symbol.subset mem), price⟩
    · rintro ⟨split, first, symbol, nonempty, _, price⟩
      exact ⟨split, first, symbol, nonempty, price⟩

theorem marks_readBack_spacedAndScaled :
    parse ("\u2003" ++ "BTC USD" ++ " \t" ++ "=" ++ "\u00a0" ++ "0.0100" ++ "\n")
      = .ok ⟨"BTC USD", ⟨false, 100, 4, by decide, by decide⟩⟩ := by
  let mark : Mark := ⟨"BTC USD", ⟨false, 100, 4, by decide, by decide⟩⟩
  have text : mark.price.text = "0.0100" := by decide +kernel
  have head : mark.symbol.toList.head? = some 'B' := by decide
  have last : mark.symbol.toList.getLast? = some 'D' := by decide
  have trimmed : Text.Trimmed mark.symbol.toList :=
    ⟨by rw [head]; rintro _ ⟨⟩; decide, by rw [last]; rintro _ ⟨⟩; decide⟩
  have blanks : ∀ w ∈ ["\u2003", " \t", "\u00a0", "\n"], Text.Blank w.toList := by decide
  have read := marks_readBack.1 mark "\u2003" " \t" "\u00a0" "\n" (by decide) (by decide) trimmed
    (by decide) blanks
  rwa [text] at read

end Mark

end CostBasis
