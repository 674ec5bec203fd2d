/-!
# JSON values

A `Json` keeps all that a JSON text says apart from its spacing: the order and the repetition of
members, and the digits of a number, which are only later read as a count or as a double.
-/

namespace CostBasis

/-- A number as it is written: `± whole . fraction e exponent`. -/
structure Number where
  negative : Bool := false
  whole : Nat
  /-- The digits after the point; none without a point. -/
  fraction : List Nat := []
  exponent : Option Int := none
deriving DecidableEq, Repr

/-- A JSON value.  A string whose escapes leave half of a surrogate pair alone is well formed but has
no text, and then stands as none. -/
inductive Json where
  | null
  | bool (b : Bool)
  | number (n : Number)
  | string (s : Option String)
  | array (items : List Json)
  | object (members : List (Option String × Json))

namespace Json

def text (s : String) : Json := string (some s)

def count (n : Nat) : Json := number { whole := n }

def record (members : List (String × Json)) : Json :=
  object (members.map fun m => (some m.1, m.2))

/-! ## Writing

The compact form: no blanks, members in their order, and in strings an escape only where one is
needed. -/

def printChar (c : Char) : List Char :=
  if c = '"' then ['\\', '"']
  else if c = '\\' then ['\\', '\\']
  else if c = '\x08' then ['\\', 'b']
  else if c = '\x0c' then ['\\', 'f']
  else if c = '\n' then ['\\', 'n']
  else if c = '\r' then ['\\', 'r']
  else if c = '\t' then ['\\', 't']
  else if c < ' ' then
    ['\\', 'u', '0', '0', (c.toNat / 16).digitChar, (c.toNat % 16).digitChar]
  else [c]

def printString (s : String) : List Char := ['"'] ++ s.toList.flatMap printChar ++ ['"']

/-- A string that may lack a text, which is then shown by the character that stands for no other. -/
def printAnyString (s : Option String) : List Char := printString (s.getD "\ufffd")

def printNumber (n : Number) : List Char :=
  let sign := if n.negative then ['-'] else []
  let fraction := if n.fraction = [] then [] else '.' :: n.fraction.map Nat.digitChar
  let exponent := match n.exponent with
    | none => []
    | some (.ofNat e) => 'e' :: Nat.toDigits 10 e
    | some (.negSucc e) => 'e' :: '-' :: Nat.toDigits 10 (e + 1)
  sign ++ Nat.toDigits 10 n.whole ++ fraction ++ exponent

mutual

def print : Json → List Char
  | null => "null".toList
  | bool true => "true".toList
  | bool false => "false".toList
  | number n => printNumber n
  | string s => printAnyString s
  | array items => ['['] ++ printItems items ++ [']']
  | object members => ['\x7b'] ++ printMembers members ++ ['\x7d']

def printItems : List Json → List Char
  | [] => []
  | [item] => print item
  | item :: next :: items => print item ++ [','] ++ printItems (next :: items)

def printMembers : List (Option String × Json) → List Char
  | [] => []
  | [(name, value)] => printAnyString name ++ [':'] ++ print value
  | (name, value) :: next :: members =>
    printAnyString name ++ [':'] ++ print value ++ [','] ++ printMembers (next :: members)

end

def render (j : Json) : String := String.ofList (print j)

end Json

end CostBasis
