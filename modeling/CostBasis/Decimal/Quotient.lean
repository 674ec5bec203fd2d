import CostBasis.Decimal.Arithmetic

/-!
# Quotients

Long division in blocks of up to nine digits.  It stops when nothing is left over, or when one more
digit would leave the range; the last digit is then rounded to nearest, a half to even.  A quotient
that took more than one block sheds trailing zeros in groups of eight, four, two and one.
-/

namespace CostBasis

namespace Decimal

/-- The most digits, up to `limit`, by which a mantissa in range can grow and stay in range. -/
def room (mantissa : Nat) : Nat → Nat
  | 0 => 0
  | limit + 1 =>
    if mantissa * pow10 (limit + 1) ≤ maxMantissa then limit + 1 else room mantissa limit

theorem room_le (mantissa limit : Nat) : room mantissa limit ≤ limit := by
  induction limit with
  | zero => simp [room]
  | succ limit ih =>
    unfold room
    split
    next => exact Nat.le_refl _
    next => exact Nat.le_succ_of_le ih

/-- A quotient of mantissas at a scale; `trimmed` tells that its trailing zeros are to be shed. -/
structure Quotient where
  mantissa : Nat
  scale : Nat
  trimmed : Bool
deriving DecidableEq, Repr

/-- Rounds `(mantissa + rest / divisor) / 10 ^ scale`, with `scale` not negative, to its last digit.
Reaching `2 ^ 96` costs one digit more. -/
def settle? (divisor mantissa rest : Nat) (scale : Int) : Option Quotient :=
  let rounded := divHalfEven (mantissa * divisor + rest) divisor
  if rounded ≤ maxMantissa then some ⟨rounded, scale.toNat, true⟩
  else if 1 ≤ scale then some ⟨divHalfEven rounded 10, (scale - 1).toNat, true⟩
  else none

/-- Extends `(mantissa + rest / divisor) / 10 ^ scale` by blocks of digits until it ends or is full. -/
def extend? (divisor mantissa rest : Nat) (scale : Int) (trimmed : Bool) : Option Quotient :=
  if rest = 0 then
    if 0 ≤ scale then some ⟨mantissa, scale.toNat, trimmed⟩
    else
      let block := min 9 (-scale).toNat
      if mantissa * pow10 block ≤ maxMantissa then
        extend? divisor (mantissa * pow10 block) 0 (scale + block) trimmed
      else none
  else
    let block := room mantissa (min 9 (28 - scale).toNat)
    if block < 9 ∧ (block : Int) + scale < 0 then none
    else if block = 0 then settle? divisor mantissa rest scale
    else
      let longer := mantissa * pow10 block + rest * pow10 block / divisor
      let left := rest * pow10 block % divisor
      if longer ≤ maxMantissa then extend? divisor longer left (scale + block) true
      else if 1 ≤ scale + block then
        some ⟨divHalfEven (longer * divisor + left) (10 * divisor), (scale + block - 1).toNat, true⟩
      else none
termination_by (28 - scale).toNat
decreasing_by
  · omega
  · have := room_le mantissa (min 9 (28 - scale).toNat)
    omega

/-- Sheds `places` trailing zeros if they are there and the mantissa is a multiple of `unit`. -/
def shed (q : Quotient) (places unit : Nat) : Quotient :=
  if q.mantissa % unit = 0 ∧ places ≤ q.scale ∧ q.mantissa % pow10 places = 0 then
    { q with mantissa := q.mantissa / pow10 places, scale := q.scale - places }
  else q

/-- Sheds trailing zeros: eight at a time while the low word is zero, then four, two and one. -/
def Quotient.trim (q : Quotient) : Quotient :=
  if q.trimmed then
    [(8, pow2 32), (8, pow2 32), (8, pow2 32), (4, 16), (2, 4), (1, 2)].foldl
      (fun q group => shed q group.1 group.2) q
  else q

def div? (a b : Decimal) : Option Decimal :=
  if b.IsZero then none
  else if a.IsZero then some 0
  else do
    let scale : Int := (a.scale : Int) - b.scale
    let q ← extend? b.mantissa (a.mantissa / b.mantissa) (a.mantissa % b.mantissa) scale false
    ofParts? (a.negative != b.negative) q.trim.mantissa q.trim.scale

end Decimal

end CostBasis
