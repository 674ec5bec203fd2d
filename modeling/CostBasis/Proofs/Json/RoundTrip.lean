import CostBasis.Json.Parser
import CostBasis.Json.Basic
import CostBasis.Proofs.Decimal.Text

/-!
# Reading what was written

The compact text of a value is read back as that value, whatever follows it, as long as its strings have
a text and the digits of its numbers are digits.
-/

namespace CostBasis

def Number.Written (n : Number) : Prop := ∀ d ∈ n.fraction, d < 10

namespace Json

/-! ## Strings -/

def shortEscaped : List Char := ['"', '\\', '\x08', '\x0c', '\n', '\r', '\t']

/-- The piece by which a character is written. -/
def pieceOf (c : Char) : Piece := if c < ' ' ∧ c ∉ shortEscaped then .unit c.toNat else .char c

theorem hexDigit?_digitChar {n : Nat} (small : n < 16) : hexDigit? n.digitChar = some n := by
  revert n
  decide

/-- A control character is written by its two last hexadecimal digits. -/
theorem hexUnit?_of_lt {n : Nat} (small : n < 256) :
    hexUnit? '0' '0' (n / 16).digitChar (n % 16).digitChar = some n := by
  have high : hexDigit? (n / 16).digitChar = some (n / 16) := hexDigit?_digitChar (by omega)
  have low : hexDigit? (n % 16).digitChar = some (n % 16) := hexDigit?_digitChar (by omega)
  have zero : hexDigit? '0' = some 0 := rfl
  simp only [hexUnit?, high, low, zero, Option.pure_def, Option.bind_eq_bind, Option.bind_some,
    Option.some.injEq]
  omega

theorem readPieces_printChar (c : Char) (rest : List Char) :
    readPieces (printChar c ++ rest)
      = (readPieces rest).map fun (pieces, rest) => (pieceOf c :: pieces, rest) := by
  by_cases short : c ∈ shortEscaped
  · have piece : pieceOf c = .char c := if_neg fun control => control.2 short
    rw [piece]
    simp only [shortEscaped, List.mem_cons, List.not_mem_nil, or_false] at short
    rcases short with rfl | rfl | rfl | rfl | rfl | rfl | rfl <;>
      cases read : readPieces rest <;> simp [printChar, readPieces, escapedChar?, read]
  · have plain := short
    simp only [shortEscaped, List.mem_cons, List.not_mem_nil, or_false, not_or] at plain
    obtain ⟨quote, backslash, b, f, n, r, t⟩ := plain
    by_cases control : c < ' '
    · have piece : pieceOf c = .unit c.toNat := if_pos ⟨control, short⟩
      have small : c.toNat < 32 := control
      have unit := hexUnit?_of_lt (n := c.toNat) (by omega)
      cases read : readPieces rest <;>
        simp [printChar, quote, backslash, b, f, n, r, t, control, piece, readPieces, unit, read]
    · have piece : pieceOf c = .char c := if_neg fun both => control both.1
      rw [printChar, if_neg quote, if_neg backslash, if_neg b, if_neg f, if_neg n, if_neg r, if_neg t,
        if_neg control, piece, List.singleton_append, readPieces.eq_def]
      split
      next text => cases text
      next text => exact absurd (List.cons.inj text).1 quote
      next text => exact absurd (List.cons.inj text).1 backslash
      next text => exact absurd (List.cons.inj text).1 backslash
      next text =>
        cases text
        rw [if_neg control, Option.map_eq_bind]
        rfl

/-- Pieces that are no half of a surrogate pair spell characters on their own. -/
theorem spell?_pieceOf (c : Char) (pieces : List Piece) :
    spell? (pieceOf c :: pieces) = (spell? pieces).map (c :: ·) := by
  simp only [pieceOf]
  split
  next control =>
    have small : c.toNat < 32 := control.1
    have high : isHighSurrogate c.toNat = false := by simp only [isHighSurrogate]; simp; omega
    have low : isLowSurrogate c.toNat = false := by simp only [isLowSurrogate]; simp; omega
    cases pieces with
    | nil => simp [spell?, high, low, Char.ofNat_toNat]
    | cons piece pieces => cases piece <;> simp [spell?, high, low, Char.ofNat_toNat]
  next => rw [spell?]

theorem readPieces_flatMap (cs rest : List Char) :
    readPieces (cs.flatMap printChar ++ '"' :: rest) = some (cs.map pieceOf, rest) := by
  induction cs with
  | nil => simp [readPieces]
  | cons c cs ih => rw [List.flatMap_cons, List.append_assoc, readPieces_printChar, ih]; rfl

theorem spell?_map_pieceOf (cs : List Char) : spell? (cs.map pieceOf) = some cs := by
  induction cs with
  | nil => rw [List.map_nil, spell?]
  | cons c cs ih => rw [List.map_cons, spell?_pieceOf, ih, Option.map_some]

theorem readString_printString (s : String) (rest : List Char) :
    readString (s.toList.flatMap printChar ++ '"' :: rest) = some (some s, rest) := by
  simp only [readString, readPieces_flatMap, Option.map_some, spell?_map_pieceOf, String.ofList_toList]

/-! ## Numbers -/

/-- Characters of which the first, if there is one, is one of the given ones. -/
def StartsIn (chars cs : List Char) : Prop := ∀ c ∈ cs.head?, c ∈ chars

/-- What may follow a value in a compact text. -/
def delimiters : List Char := [',', ']', '\x7d']

theorem StartsIn.nil (chars : List Char) : StartsIn chars [] := by simp [StartsIn]

theorem startsIn_cons {chars cs : List Char} {c : Char} : StartsIn chars (c :: cs) ↔ c ∈ chars := by
  simp [StartsIn]

theorem StartsIn.mono {chars more cs : List Char} (starts : StartsIn chars cs) (subset : chars ⊆ more) :
    StartsIn more cs := fun c head => subset (starts c head)

theorem readDigits1_append {digits rest chars : List Char} (all : ∀ c ∈ digits, c.isDigit = true)
    (some : digits ≠ []) (ends : StartsIn chars rest) (others : chars.any Char.isDigit = false) :
    readDigits1 (digits ++ rest) = .some (digits, rest) := by
  have none : rest.takeWhile Char.isDigit = [] ∧ rest.dropWhile Char.isDigit = rest := by
    cases rest with
    | nil => exact ⟨rfl, rfl⟩
    | cons c rest =>
      have other : ¬c.isDigit := List.any_eq_false.mp others c (startsIn_cons.mp ends)
      simp [other]
  simp only [readDigits1, List.takeWhile_append_of_pos all, List.dropWhile_append_of_pos all, none,
    List.append_nil]

theorem readDigits1_toDigits (n : Nat) {rest chars : List Char} (ends : StartsIn chars rest)
    (others : chars.any Char.isDigit = false) :
    readDigits1 (Nat.toDigits 10 n ++ rest) = some (Nat.toDigits 10 n, rest) :=
  readDigits1_append (fun _ mem => Nat.isDigit_of_mem_toDigits (by decide) (by decide) mem)
    Nat.toDigits_ne_nil ends others

theorem readWhole_toDigits (n : Nat) {rest chars : List Char} (ends : StartsIn chars rest)
    (others : chars.any Char.isDigit = false) :
    readWhole (Nat.toDigits 10 n ++ rest) = some (n, rest) := by
  have digits := readDigits1_toDigits n ends others
  have plain : ¬((Nat.toDigits 10 n).head? = some '0' ∧ Nat.toDigits 10 n ≠ ['0']) := by
    rintro ⟨leading, longer⟩
    cases head?_toDigits leading
    exact longer (Nat.toDigits_zero 10)
  simp only [readWhole, digits, Option.bind_eq_bind, Option.bind_some, if_neg plain,
    Nat.ofDigitChars_ten_toDigits]

def printFraction (fraction : List Nat) : List Char :=
  if fraction = [] then [] else '.' :: fraction.map Nat.digitChar

def printExponent : Option Int → List Char
  | none => []
  | some (.ofNat e) => 'e' :: Nat.toDigits 10 e
  | some (.negSucc e) => 'e' :: '-' :: Nat.toDigits 10 (e + 1)

theorem printNumber_eq (n : Number) :
    printNumber n = (if n.negative then ['-'] else []) ++ (Nat.toDigits 10 n.whole
      ++ (printFraction n.fraction ++ printExponent n.exponent)) := by
  simp only [printNumber, List.append_assoc]
  rfl

section

variable {rest : List Char} (ends : StartsIn delimiters rest)

include ends

theorem startsIn_printExponent (exponent : Option Int) :
    StartsIn ('e' :: delimiters) (printExponent exponent ++ rest) := by
  match exponent with
  | none => exact ends.mono (List.subset_cons_self _ _)
  | some (.ofNat e) | some (.negSucc e) => exact startsIn_cons.mpr List.mem_cons_self

theorem startsIn_printFraction (fraction : List Nat) (exponent : Option Int) :
    StartsIn ('.' :: 'e' :: delimiters) (printFraction fraction ++ (printExponent exponent ++ rest)) := by
  simp only [printFraction]
  split
  next => exact (startsIn_printExponent ends exponent).mono (List.subset_cons_self _ _)
  next => exact startsIn_cons.mpr List.mem_cons_self

theorem readPower_toDigits (negative : Bool) (n : Nat) :
    readPower negative (Nat.toDigits 10 n ++ rest)
      = some (some (if negative then -(n : Int) else n), rest) := by
  have digits := readDigits1_toDigits n ends (by decide)
  simp only [readPower, digits, Option.bind_eq_bind, Option.bind_some, Nat.ofDigitChars_ten_toDigits]

theorem readExponent_printExponent (exponent : Option Int) :
    readExponent (printExponent exponent ++ rest) = some (exponent, rest) := by
  match exponent with
  | none =>
    cases rest with
    | nil => rfl
    | cons c rest =>
      have delimits := startsIn_cons.mp ends
      have plain : ¬(c = 'e' ∨ c = 'E') := by
        rintro (rfl | rfl) <;> exact absurd delimits (by decide)
      simp only [printExponent, List.nil_append, readExponent, if_neg plain]
  | some (.negSucc e) =>
    have power := readPower_toDigits ends true (e + 1)
    simp only [printExponent, List.cons_append, readExponent, true_or, if_true, power]
    rfl
  | some (.ofNat e) =>
    have power := readPower_toDigits ends false e
    obtain ⟨c, cs, digits, digit⟩ := exists_toDigits e
    rw [digits, List.cons_append] at power
    rw [printExponent, digits, List.cons_append, List.cons_append, readExponent, if_pos (.inl rfl)]
    · exact power
    · rintro _ ⟨⟩
      cases digit
    · rintro _ ⟨⟩
      cases digit

theorem readFraction_printFraction {fraction : List Nat} (digits : ∀ d ∈ fraction, d < 10)
    (exponent : Option Int) :
    readFraction (printFraction fraction ++ (printExponent exponent ++ rest))
      = some (fraction, printExponent exponent ++ rest) := by
  have follows := startsIn_printExponent ends exponent
  generalize printExponent exponent ++ rest = cs at follows
  by_cases none : fraction = []
  · subst none
    rw [printFraction, if_pos rfl, List.nil_append, readFraction]
    rintro _ rfl
    exact absurd (startsIn_cons.mp follows) (by decide)
  · have written : ∀ c ∈ fraction.map Nat.digitChar, c.isDigit = true := by
      intro c mem
      obtain ⟨d, d_mem, rfl⟩ := List.mem_map.mp mem
      simpa [Nat.isDigit_digitChar] using digits d d_mem
    have read : (fraction.map Nat.digitChar).map (fun c => c.toNat - '0'.toNat) = fraction := by
      rw [List.map_map]
      refine (List.map_congr_left fun d mem => ?_).trans (List.map_id fraction)
      exact Nat.toNat_digitChar_sub_48_of_lt_ten (digits d mem)
    rw [printFraction, if_neg none, List.cons_append, readFraction,
      readDigits1_append written (by simpa using none) follows (by decide)]
    simp only [Option.bind_eq_bind, Option.bind_some, read]

theorem readUnsigned_printNumber {n : Number} (written : n.Written) :
    readUnsigned n.negative (Nat.toDigits 10 n.whole
      ++ (printFraction n.fraction ++ (printExponent n.exponent ++ rest))) = some (n, rest) := by
  rw [readUnsigned, readWhole_toDigits n.whole (startsIn_printFraction ends _ _) (by decide)]
  simp only [Option.bind_eq_bind, Option.bind_some, readFraction_printFraction ends written,
    readExponent_printExponent ends]

theorem readNumber_printNumber {n : Number} (written : n.Written) :
    readNumber (printNumber n ++ rest) = some (n, rest) := by
  have unsigned := readUnsigned_printNumber ends written
  rw [printNumber_eq]
  cases negative : n.negative with
  | true =>
    rw [negative] at unsigned
    simp only [if_true, List.cons_append, List.append_assoc]
    exact unsigned
  | false =>
    rw [negative] at unsigned
    -- Without a sign the number begins with a digit.
    obtain ⟨c, cs, digits, digit⟩ := exists_toDigits n.whole
    rw [digits, List.cons_append] at unsigned
    simp only [Bool.false_eq_true, if_false, List.nil_append, List.append_assoc, digits, List.cons_append]
    rw [readNumber]
    · exact unsigned
    · rintro _ ⟨⟩
      cases digit

end

/-! ## Values -/

mutual

/-- Whether a value is all that its text says: its strings have a text, and its digits are digits. -/
def Written : Json → Prop
  | number n => n.Written
  | string s => s.isSome = true
  | array items => WrittenItems items
  | object members => WrittenMembers members
  | _ => True

def WrittenItems : List Json → Prop
  | [] => True
  | item :: items => item.Written ∧ WrittenItems items

def WrittenMembers : List (Option String × Json) → Prop
  | [] => True
  | (name, value) :: members => name.isSome = true ∧ value.Written ∧ WrittenMembers members

end

theorem exists_printNumber (n : Number) :
    ∃ c cs, printNumber n = c :: cs ∧ (c = '-' ∨ c.isDigit = true) := by
  rw [printNumber_eq]
  cases n.negative with
  | true => exact ⟨'-', _, rfl, .inl rfl⟩
  | false =>
    obtain ⟨c, cs, digits, digit⟩ := exists_toDigits n.whole
    exact ⟨c, _, by rw [digits]; rfl, .inr digit⟩

/-- A text begins with what the value is, not with a blank or a closing bracket. -/
theorem exists_print (j : Json) : ∃ c cs, print j = c :: cs ∧ isSpace c = false ∧ c ≠ ']' := by
  cases j with
  | null => exact ⟨'n', _, rfl, rfl, by decide⟩
  | bool b => cases b <;> exact ⟨_, _, rfl, rfl, by decide⟩
  | number n =>
    obtain ⟨c, cs, printed, numeric⟩ := exists_printNumber n
    refine ⟨c, cs, printed, ?_⟩
    rcases numeric with rfl | digit
    · decide
    · constructor
      · cases space : isSpace c with
        | false => rfl
        | true =>
          simp only [isSpace, Bool.or_eq_true, decide_eq_true_eq] at space
          rcases space with ((rfl | rfl) | rfl) | rfl <;> cases digit
      · rintro rfl
        cases digit
  | string s => exact ⟨'"', _, rfl, rfl, by decide⟩
  | array items => exact ⟨'[', _, rfl, rfl, by decide⟩
  | object members => exact ⟨'\x7b', _, rfl, rfl, by decide⟩

theorem skipSpace_of_visible {c : Char} (visible : isSpace c = false) (cs : List Char) :
    skipSpace (c :: cs) = c :: cs :=
  List.dropWhile_cons_of_neg (by simp [visible])

theorem skipSpace_print (j : Json) (rest : List Char) : skipSpace (print j ++ rest) = print j ++ rest := by
  obtain ⟨c, cs, printed, visible, _⟩ := exists_print j
  rw [printed, List.cons_append, skipSpace_of_visible visible]

theorem exists_printItems {items : List Json} (any : items ≠ []) :
    ∃ c cs, printItems items = c :: cs ∧ isSpace c = false ∧ c ≠ ']' := by
  match items with
  | [item] => exact exists_print item
  | item :: next :: items =>
    obtain ⟨c, cs, printed, visible⟩ := exists_print item
    exact ⟨c, _, by rw [printItems, printed]; rfl, visible⟩

theorem exists_printMembers {members : List (Option String × Json)} (any : members ≠ []) :
    ∃ cs, printMembers members = '"' :: cs := by
  match members with
  | [(name, value)] | (name, value) :: next :: members => exact ⟨_, rfl⟩

theorem readValue_number {c : Char} (numeric : c = '-' ∨ c.isDigit = true) (bound : Nat) (cs : List Char) :
    readValue (bound + 1) (c :: cs) = (readNumber (c :: cs)).map fun (n, rest) => (.number n, rest) := by
  rw [readValue]
  all_goals
    intros
    rename_i same
    cases same
    revert numeric
    decide

theorem readString_printAnyString {s : Option String} (written : s.isSome = true) :
    ∃ cs, printAnyString s = '"' :: cs ∧ ∀ rest, readString (cs ++ rest) = some (s, rest) := by
  obtain ⟨s, rfl⟩ := Option.isSome_iff_exists.mp written
  refine ⟨s.toList.flatMap printChar ++ ['"'], by simp [printAnyString, printString], fun rest => ?_⟩
  rw [List.append_assoc]
  exact readString_printString s rest

theorem print_length_pos (j : Json) : 0 < (print j).length := by
  obtain ⟨c, cs, printed, _⟩ := exists_print j
  simp [printed]

mutual

/-- Reading gives back a value and what follows it. -/
theorem readValue_print : ∀ (j : Json) {bound : Nat} {rest : List Char}, j.Written →
    (print j).length < bound → StartsIn delimiters rest → readValue bound (print j ++ rest) = some (j, rest)
  | _, 0, _, _, long, _ => absurd long (Nat.not_lt_zero _)
  | .null, _ + 1, _, _, _, _ => rfl
  | .bool true, _ + 1, _, _, _, _ => rfl
  | .bool false, _ + 1, _, _, _, _ => rfl
  | .number n, bound + 1, rest, written, _, ends => by
    obtain ⟨c, cs, printed, numeric⟩ := exists_printNumber n
    have read := readNumber_printNumber ends written
    rw [printed, List.cons_append] at read
    rw [print, printed, List.cons_append, readValue_number numeric, read]
    rfl
  | .string s, bound + 1, rest, written, _, _ => by
    obtain ⟨cs, printed, read⟩ := readString_printAnyString written
    rw [print, printed, List.cons_append, readValue, read]
    rfl
  | .array [], _ + 1, _, _, _, _ => rfl
  | .array (item :: items), bound + 1, rest, written, short, _ => by
    have any := List.cons_ne_nil item items
    have read : readItems bound (printItems (item :: items) ++ ']' :: rest) = some (item :: items, rest) :=
      readItems_print (item :: items) any written (by simpa [print] using short)
    -- The items do not begin with the bracket that would close the array at once.
    obtain ⟨c, cs, printed, visible, open_⟩ := exists_printItems any
    simp only [print, List.cons_append, List.nil_append, List.append_assoc]
    rw [printed, List.cons_append] at read ⊢
    rw [readValue, skipSpace_of_visible visible]
    split
    next closed => exact absurd (List.cons.inj closed).1 open_
    next => rw [read, Option.map_some]
  | .object [], _ + 1, _, _, _, _ => rfl
  | .object (m :: members), bound + 1, rest, written, short, _ => by
    have any := List.cons_ne_nil m members
    have read : readMembers bound (printMembers (m :: members) ++ '\x7d' :: rest)
        = some (m :: members, rest) :=
      readMembers_print (m :: members) any written (by simpa [print] using short)
    obtain ⟨cs, printed⟩ := exists_printMembers any
    simp only [print, List.cons_append, List.nil_append, List.append_assoc]
    rw [printed, List.cons_append] at read ⊢
    rw [readValue, skipSpace_of_visible rfl]
    split
    next closed => cases closed
    next => rw [read, Option.map_some]

theorem readItems_print : ∀ (items : List Json) {bound : Nat} {rest : List Char}, items ≠ [] →
    WrittenItems items → (printItems items).length + 1 < bound →
    readItems bound (printItems items ++ ']' :: rest) = some (items, rest)
  | [], _, _, any, _, _ => absurd rfl any
  | _ :: _, 0, _, _, _, long => absurd long (Nat.not_lt_zero _)
  | [item], bound + 1, rest, _, written, short => by
    have read : readValue bound (print item ++ ']' :: rest) = some (item, ']' :: rest) :=
      readValue_print item written.1 (by simp only [printItems] at short; omega)
        (startsIn_cons.mpr (by decide))
    rw [printItems, readItems, read]
    rfl
  | item :: next :: items, bound + 1, rest, _, written, short => by
    have pos := print_length_pos item
    simp only [printItems, List.length_append, List.length_singleton] at short
    have any := List.cons_ne_nil next items
    have first (more : List Char) : readValue bound (print item ++ ',' :: more) = some (item, ',' :: more) :=
      readValue_print item written.1 (by omega) (startsIn_cons.mpr (by decide))
    have later : readItems bound (printItems (next :: items) ++ ']' :: rest) = some (next :: items, rest) :=
      readItems_print (next :: items) any written.2 (by omega)
    obtain ⟨c, cs, printed, visible, _⟩ := exists_printItems any
    rw [printed, List.cons_append] at later
    rw [printItems, List.append_assoc, List.append_assoc, List.singleton_append, readItems, printed,
      List.cons_append, first]
    simp only [Option.bind_eq_bind, Option.bind_some, skipSpace_of_visible visible,
      skipSpace_of_visible (c := ',') rfl, later]

theorem readMembers_print : ∀ (members : List (Option String × Json)) {bound : Nat} {rest : List Char},
    members ≠ [] → WrittenMembers members → (printMembers members).length + 1 < bound →
    readMembers bound (printMembers members ++ '\x7d' :: rest) = some (members, rest)
  | [], _, _, any, _, _ => absurd rfl any
  | _ :: _, 0, _, _, _, long => absurd long (Nat.not_lt_zero _)
  | [(name, value)], bound + 1, rest, _, written, short => by
    simp only [printMembers, List.length_append, List.length_singleton] at short
    obtain ⟨cs, named, read⟩ := readString_printAnyString written.1
    have valued : readValue bound (print value ++ '\x7d' :: rest) = some (value, '\x7d' :: rest) :=
      readValue_print value written.2.1 (by omega) (startsIn_cons.mpr (by decide))
    simp only [printMembers, named, List.cons_append, List.append_assoc, List.nil_append, readMembers, read,
      Option.bind_eq_bind, Option.bind_some, skipSpace_of_visible (c := ':') rfl, skipSpace_print, valued,
      skipSpace_of_visible (c := '\x7d') rfl]
  | (name, value) :: next :: members, bound + 1, rest, _, written, short => by
    simp only [printMembers, List.length_append, List.length_singleton] at short
    obtain ⟨cs, named, read⟩ := readString_printAnyString written.1
    have any := List.cons_ne_nil next members
    have valued (more : List Char) :
        readValue bound (print value ++ ',' :: more) = some (value, ',' :: more) :=
      readValue_print value written.2.1 (by omega) (startsIn_cons.mpr (by decide))
    have later : readMembers bound (printMembers (next :: members) ++ '\x7d' :: rest)
        = some (next :: members, rest) :=
      readMembers_print (next :: members) any written.2.2 (by omega)
    obtain ⟨quoted, printed⟩ := exists_printMembers any
    rw [printed, List.cons_append] at later
    simp only [printMembers, named, List.cons_append, List.append_assoc, List.nil_append, readMembers, read,
      Option.bind_eq_bind, Option.bind_some, skipSpace_of_visible (c := ':') rfl, skipSpace_print, printed,
      valued, skipSpace_of_visible (c := ',') rfl, skipSpace_of_visible (c := '"') rfl, later]

end

/-- A value is read back from its compact text. -/
theorem parse?_render {j : Json} (written : j.Written) : parse? j.render = some j := by
  have read : readValue ((print j).length + 1) (print j ++ []) = some (j, []) :=
    readValue_print j written (Nat.lt_succ_self _) (.nil _)
  have from_start := skipSpace_print j []
  rw [List.append_nil] at read from_start
  simp only [parse?, render, String.toList_ofList, from_start, read, Option.bind_eq_bind, Option.bind_some]
  rfl

end Json

end CostBasis
