/-!
Finite binary64 numbers and correct rounding to them. A magnitude is kept as its rank among the
magnitudes in increasing order, which is also its bit pattern: the binade and the significand are
read off it, and rounding up at the end of a binade needs no carry of its own.
-/

namespace CurlSnippet

/-- A finite number of the binary64 format; `rank` counts the smaller magnitudes. -/
structure Binary64 where
  negative : Bool
  rank : Fin (2047 * Nat.pow 2 52)
  deriving DecidableEq, Repr

namespace Binary64

/-- The exponent of the unit of the significand, counted from the smallest unit, 2 ^ -1074. -/
def shift (x : Binary64) : Nat := x.rank.val / Nat.pow 2 52 - 1

def significand (x : Binary64) : Nat := x.rank.val - x.shift * Nat.pow 2 52

/-- The magnitude as a multiple of the smallest unit, 2 ^ -1074. -/
def scaled (x : Binary64) : Nat := x.significand * Nat.pow 2 x.shift

def isZero (x : Binary64) : Bool := x.rank.val == 0

/-- The nearest whole number to a quotient; a half goes to the even neighbour. -/
def roundQuotient (num den : Nat) : Nat :=
  let q := num / den
  let r := num % den
  if 2 * r < den then q else if den < 2 * r then q + 1 else q + q % 2

/-- The number nearest a quotient, or none when it rounds past the largest finite number. -/
def ofQuotient (negative : Bool) (num den : Nat) : Option Binary64 :=
  let units := num * Nat.pow 2 1074
  let shift := (units / den).log2 - 52
  let rank := shift * Nat.pow 2 52 + roundQuotient units (den * Nat.pow 2 shift)
  if h : rank < 2047 * Nat.pow 2 52 then some ⟨negative, ⟨rank, h⟩⟩ else none

def zero (negative : Bool) : Binary64 := ⟨negative, ⟨0, by decide⟩⟩

/-- The number nearest `coefficient * 10 ^ exponent`. Magnitudes from 10 ^ 309 on are past the
largest number, those up to 10 ^ -324 are less than half the smallest; both are settled from the
count of digits alone. -/
def ofDecimal (negative : Bool) (coefficient : Nat) (exponent : Int) : Option Binary64 :=
  let point := exponent + (Nat.toDigits 10 coefficient).length
  if coefficient = 0 ∨ point ≤ -324 then some (zero negative)
  else if 309 < point then none
  else ofQuotient negative (coefficient * Nat.pow 10 exponent.toNat) (Nat.pow 10 (-exponent).toNat)

end Binary64

end CurlSnippet
