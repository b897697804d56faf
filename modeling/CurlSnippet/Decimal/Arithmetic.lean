import CurlSnippet.Decimal.Binary64

/-!
Sums and products of binary64 numbers, rounded like every other number: the exact result first, then
the nearest number.
-/

namespace CurlSnippet.Binary64

/-- The number nearest a whole number. -/
def ofNat (n : Nat) : Option Binary64 := ofQuotient false n 1

/-- The product, or none past the largest number. -/
def mul (x y : Binary64) : Option Binary64 :=
  ofQuotient (x.negative != y.negative) (x.scaled * y.scaled)
    (Nat.pow 2 1074 * Nat.pow 2 1074)

/-- The sum, or none past the largest number. Opposite numbers add up to a positive zero. -/
def add (x y : Binary64) : Option Binary64 :=
  if x.negative = y.negative then ofQuotient x.negative (x.scaled + y.scaled) (Nat.pow 2 1074)
  else if x.scaled = y.scaled then some (zero false)
  else if y.scaled < x.scaled then ofQuotient x.negative (x.scaled - y.scaled) (Nat.pow 2 1074)
  else ofQuotient y.negative (y.scaled - x.scaled) (Nat.pow 2 1074)

/-- Whether the number is exactly a whole number. -/
def equalsInt (x : Binary64) (n : Int) : Bool :=
  let magnitude := (n.natAbs : Nat) * Nat.pow 2 1074
  magnitude == x.scaled && (magnitude == 0 || x.negative == decide (n < 0))

end CurlSnippet.Binary64
