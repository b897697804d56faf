import CurlSnippet.Decimal.Binary64

/-!
The shortest decimal that reads back as a given binary64 number, and its written form. On the grid
of `n` significant digits only the two neighbours of the number can be nearest to it; the first
grid on which one of them reads back is taken, and of two the nearer.
-/

namespace CurlSnippet

/-- The number `coefficient * 10 ^ exponent`. -/
structure Decimal where
  coefficient : Nat
  exponent : Int
  deriving DecidableEq, Repr

namespace Decimal

/-- Moves the zeros at the end of the coefficient into the exponent. -/
def reduce (d : Decimal) : Decimal :=
  let zeros := ((Nat.toDigits 10 d.coefficient).reverse.takeWhile (· == '0')).length
  if d.coefficient = 0 then d else ⟨d.coefficient / Nat.pow 10 zeros, d.exponent + zeros⟩

end Decimal

namespace Binary64

/-- The exponent of the first significant digit: the largest `k` with `10 ^ k` not above the
magnitude. The scaling makes a whole number of every positive magnitude. -/
def decimalExponent (x : Binary64) : Int :=
  (Nat.toDigits 10 (x.scaled * Nat.pow 10 400 / Nat.pow 2 1074)).length - 401

/-- The exact value. -/
def exactDecimal (x : Binary64) : Decimal := ⟨x.scaled * Nat.pow 5 1074, -1074⟩

def readsBack (x : Binary64) (d : Decimal) : Bool :=
  ofDecimal x.negative d.coefficient d.exponent == some x

/-- The neighbour on the grid of `n` significant digits that reads back, the nearer of two. -/
def nearestOnGrid? (x : Binary64) (n : Nat) : Option Decimal :=
  let unit := x.decimalExponent - n + 1
  let num := x.scaled * Nat.pow 10 (-unit).toNat
  let den := Nat.pow 2 1074 * Nat.pow 10 unit.toNat
  let below : Decimal := ⟨num / den, unit⟩
  let above : Decimal := ⟨num / den + 1, unit⟩
  let nearer : Decimal := ⟨roundQuotient num den, unit⟩
  if x.readsBack nearer then some nearer
  else if x.readsBack below then some below
  else if x.readsBack above then some above
  else none

/-- The decimal with the fewest digits that reads back as the number. -/
def shortest (x : Binary64) : Decimal :=
  (((List.range 17).findSome? fun i => x.nearestOnGrid? (i + 1)).getD x.exactDecimal).reduce

/-- How a number is spelled: the exponents of the first digit written without an exponent part,
and the least number of digits of an exponent part. -/
structure Spelling where
  lowest : Int
  highest : Int
  exponentDigits : Nat

/-- Positional from 0.0001 up to below 10 ^ 16, otherwise with an exponent of two digits. -/
def Spelling.standard : Spelling := ⟨-4, 15, 2⟩

def zeros (n : Nat) : List Char := List.replicate n '0'

def spellExponent (s : Spelling) (k : Int) : List Char :=
  let digits := Nat.toDigits 10 k.natAbs
  'e' :: (if k < 0 then '-' else '+') :: (zeros (s.exponentDigits - digits.length) ++ digits)

/-- The significant digits, the first of them worth `10 ^ k`, in the given spelling. A positional
number always has a digit after its point. -/
def spellDigits (s : Spelling) (digits : List Char) (k : Int) : List Char :=
  if k < s.lowest ∨ s.highest < k then
    match digits with
    | [] => []
    | [d] => d :: spellExponent s k
    | d :: rest => d :: '.' :: (rest ++ spellExponent s k)
  else if k < 0 then
    '0' :: '.' :: (zeros ((-k).toNat - 1) ++ digits)
  else
    let whole := k.toNat + 1
    digits.take whole ++ zeros (whole - digits.length) ++
      '.' :: (if digits.length ≤ whole then ['0'] else digits.drop whole)

/-- The shortest text that reads back as the number. -/
def spell (s : Spelling) (x : Binary64) : List Char :=
  let magnitude :=
    if x.isZero then ['0', '.', '0']
    else
      let digits := Nat.toDigits 10 x.shortest.coefficient
      spellDigits s digits (x.shortest.exponent + digits.length - 1)
  if x.negative then '-' :: magnitude else magnitude

end Binary64

end CurlSnippet
