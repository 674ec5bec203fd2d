import CostBasis.Decimal.Basic

/-!
# Decimals as text

A decimal is written with a sign if it has one, all digits of its integer part and exactly as many
digits after the point as its scale; there is no point at scale zero and never an exponent.

More is read than is written.  A plain decimal has an optional sign, digits with at most one point among
them, and underscores anywhere after the first digit.  Digits that do not fit are dropped after the point,
the first of them rounding a half away from zero, and are an error before it.  An underscore means nothing,
except that right after the 28th place of a mantissa that is not long it stands for a zero, which rounds
nothing.  A text that is no plain decimal but holds an `e` is read as a plain decimal times a power of ten.
-/

namespace CostBasis

/-! ## Writing -/

/-- The last `width` decimal digits of `n`, with leading zeros. -/
def paddedDigits : Nat → Nat → List Char
  | 0, _ => []
  | width + 1, n => paddedDigits width (n / 10) ++ [(n % 10).digitChar]

@[simp] theorem length_paddedDigits (width n : Nat) : (paddedDigits width n).length = width := by
  induction width generalizing n with
  | zero => rfl
  | succ width ih => simp [paddedDigits, ih]

namespace Decimal

def chars (d : Decimal) : List Char :=
  let sign := if d.negative then ['-'] else []
  let fraction := if d.scale = 0 then [] else '.' :: paddedDigits d.scale d.mantissa
  sign ++ Nat.toDigits 10 (d.mantissa / pow10 d.scale) ++ fraction

def text (d : Decimal) : String := String.ofList d.chars

instance : ToString Decimal := ⟨text⟩

end Decimal

/-! ## Errors of reading -/

/-- Why a text is not a decimal. -/
inductive DecimalError where
  | empty
  | twoPoints
  | leadingUnderscore
  | unknownCharacter
  | noDigits
  | tooManyDigits
  | roundedOut
  | malformedExponent
  | exponentTooLarge (exponent : Nat)
  | tooLarge
deriving DecidableEq, Repr

namespace DecimalError

def message : DecimalError → String
  | empty => "Invalid decimal: empty"
  | twoPoints => "Invalid decimal: two decimal points"
  | leadingUnderscore => "Invalid decimal: must start lead with a number"
  | unknownCharacter => "Invalid decimal: unknown character"
  | noDigits => "Invalid decimal: no digits found"
  | tooManyDigits => "Invalid decimal: overflow from too many digits"
  | roundedOut => "Invalid decimal: overflow from mantissa after rounding"
  | malformedExponent => "Failed to parse"
  | exponentTooLarge exponent =>
    s!"Scale exceeds the maximum precision allowed: {exponent} > {Decimal.maxScale}"
  | tooLarge => "Number exceeds maximum value that can be represented."

end DecimalError

def digit? (c : Char) : Option Nat := if c.isDigit then some (c.toNat - '0'.toNat) else none

namespace Decimal

/-! ## Plain decimals -/

/-- Accepts the digits and underscores after the one that rounded. -/
def checkDropped : List Char → Except DecimalError Unit
  | [] => .ok ()
  | c :: rest =>
    if c.isDigit ∨ c = '_' then checkDropped rest
    else .error (if c = '.' then .twoPoints else .unknownCharacter)

/-- A mantissa and a scale with one unit added in the last place. -/
def bump (mantissa scale : Nat) : Except DecimalError (Nat × Nat) :=
  if mantissa < maxMantissa then .ok (mantissa + 1, scale)
  else if scale = 0 then .error .roundedOut
  else .ok ((mantissa + 5) / 10, scale - 1)

/-- A mantissa is long when it is `2 ^ 64 / 10 - 255` at least without its last digit. -/
def isLong (mantissa : Nat) : Bool := decide (pow2 64 / 10 - 255 ≤ mantissa / 10)

/-- Rounds on the first of the digits that have no room, past underscores. -/
def roundDropped (mantissa scale : Nat) : List Char → Except DecimalError (Nat × Nat)
  | [] => .ok (mantissa, scale)
  | c :: rest =>
    if c = '_' then roundDropped mantissa scale rest
    else if c.isDigit then do
      let kept ← if '5' ≤ c then bump mantissa scale else pure (mantissa, scale)
      checkDropped rest
      pure kept
    else .error (if c = '.' then .twoPoints else .unknownCharacter)

/-- What has been read of a plain decimal. -/
structure Reading where
  mantissa : Nat := 0
  scale : Nat := 0
  /-- The point has been read. -/
  pointed : Bool := false
  /-- A digit has been read. -/
  started : Bool := false

def readDigits (r : Reading) : List Char → Except DecimalError (Nat × Nat)
  | [] => if r.started then .ok (r.mantissa, r.scale) else .error .noDigits
  | c :: rest =>
    if r.pointed ∧ r.scale = maxScale then
      if c = '_' ∧ !isLong r.mantissa then do
        checkDropped rest
        pure (r.mantissa, r.scale)
      else roundDropped r.mantissa r.scale (c :: rest)
    else
      match digit? c with
      | some digit =>
        let longer := r.mantissa * 10 + digit
        if longer ≤ maxMantissa then
          let scale := if r.pointed then r.scale + 1 else 0
          readDigits { r with mantissa := longer, scale, started := true } rest
        else if r.pointed then roundDropped r.mantissa r.scale (c :: rest)
        else .error .tooManyDigits
      | none =>
        if c = '.' then
          if r.pointed then .error .twoPoints else readDigits { r with pointed := true } rest
        else if c = '_' then
          if r.started then readDigits r rest else .error .leadingUnderscore
        else .error .unknownCharacter

def build (negative : Bool) (mantissa scale : Nat) : Except DecimalError Decimal :=
  match ofParts? negative mantissa scale with
  | some d => .ok d
  | none => .error .tooLarge

/-- The decimal of a sign and what was read after it; a zero takes no sign. -/
def signed (negative : Bool) (parts : Nat × Nat) : Except DecimalError Decimal :=
  build (negative && decide (parts.1 ≠ 0)) parts.1 parts.2

def parsePlain : List Char → Except DecimalError Decimal
  | [] => .error .empty
  | '-' :: rest => do signed true (← readDigits {} rest)
  | '+' :: rest => do signed false (← readDigits {} rest)
  | cs => do signed false (← readDigits {} cs)

/-! ## Powers of ten -/

/-- An unsigned 32-bit number, with an optional plus sign. -/
def parseExponent (cs : List Char) : Except DecimalError Nat :=
  let digits := match cs with
    | '+' :: rest => rest
    | cs => cs
  let n := Nat.ofDigitChars 10 digits 0
  if digits ≠ [] ∧ digits.all Char.isDigit ∧ n < pow2 32 then .ok n else .error .malformedExponent

/-- `d / 10 ^ n`: the scale grows by `n`, and where it would pass 28 the digits beyond are dropped,
the first of them rounding a half away from zero.  A number that vanishes so keeps its sign. -/
def shiftRight (d : Decimal) (n : Nat) : Except DecimalError Decimal :=
  if maxScale < n then .error (.exponentTooLarge n)
  else
    let dropped := d.scale + n - maxScale
    let mantissa :=
      if dropped = 0 then d.mantissa
      else (d.mantissa + 5 * pow10 (dropped - 1)) / pow10 dropped
    build d.negative mantissa (min (d.scale + n) maxScale)

/-- `d * 10 ^ n`: the scale shrinks by `n`, and where it would pass zero the mantissa grows. -/
def shiftLeft (d : Decimal) (n : Nat) : Except DecimalError Decimal :=
  if n ≤ d.scale then build d.negative d.mantissa (d.scale - n)
  else if maxScale < n then .error (.exponentTooLarge n)
  else build d.negative (d.mantissa * pow10 (n - d.scale)) 0

def isExponentMark (c : Char) : Bool := c = 'e' || c = 'E'

/-- Reads a plain decimal, an exponent mark and a power of ten. -/
def parseScientific (cs : List Char) : Except DecimalError Decimal := do
  let base ← parsePlain (cs.takeWhile fun c => !isExponentMark c)
  match (cs.dropWhile fun c => !isExponentMark c).drop 1 with
  | '-' :: rest => base.shiftRight (← parseExponent rest)
  | rest => base.shiftLeft (← parseExponent rest)

def parseChars (cs : List Char) : Except DecimalError Decimal :=
  match parsePlain cs with
  | .ok d => .ok d
  | .error e => if cs.any isExponentMark then parseScientific cs else .error e

def parse (s : String) : Except DecimalError Decimal := parseChars s.toList

end Decimal

end CostBasis
