/-!
# Text

Characters are told apart by sets of code points.  A text is stored in files, as UTF-8; bytes that are no
well-formed UTF-8 are no text.
-/

namespace CostBasis

namespace Text

/-! ## Sets of code points -/

abbrev Ranges := List (Nat × Nat)

def Ranges.has (ranges : Ranges) (c : Char) : Bool :=
  ranges.any fun r => decide (r.1 ≤ c.toNat) && decide (c.toNat ≤ r.2)

/-! ## Blanks

A character is blank when Unicode gives it the property `White_Space`.  Trimming removes the blanks
at both ends of a text and nothing else. -/

/-- The code points with the property `White_Space`. -/
def blankRanges : Ranges := [
  (0x0009, 0x000D), (0x0020, 0x0020), (0x0085, 0x0085), (0x00A0, 0x00A0), (0x1680, 0x1680),
  (0x2000, 0x200A), (0x2028, 0x2029), (0x202F, 0x202F), (0x205F, 0x205F), (0x3000, 0x3000)]

def isBlank (c : Char) : Bool := blankRanges.has c

def trim (cs : List Char) : List Char :=
  ((cs.dropWhile isBlank).reverse.dropWhile isBlank).reverse

/-! ## Bytes -/

def decode? (bytes : List UInt8) : Option String := String.fromUTF8? ⟨bytes.toArray⟩

def encode (s : String) : List UInt8 := s.toUTF8.toList

end Text

/-! ## Files -/

/-- What stands at a path. -/
inductive File where
  /-- Nothing that can be opened. -/
  | missing
  /-- Something that can be opened but not read, such as a directory. -/
  | unreadable
  | content (bytes : List UInt8)
deriving DecidableEq, Repr

def File.text? : File → Option String
  | content bytes => Text.decode? bytes
  | _ => none

end CostBasis
