/-!
Hexadecimal digits, written in lower case and read in either.
-/

namespace CurlSnippet.Hex

/-- The digit of a number below 16. -/
def digit (n : Nat) : Char := Nat.digitChar n

def value? (c : Char) : Option Nat :=
  if c.isDigit then some (c.toNat - '0'.toNat)
  else if 'a' ≤ c ∧ c ≤ 'f' then some (c.toNat - 'a'.toNat + 10)
  else if 'A' ≤ c ∧ c ≤ 'F' then some (c.toNat - 'A'.toNat + 10)
  else none

def isDigit (c : Char) : Bool := (value? c).isSome

/-- The lowest digits of a number, as many as asked for. -/
def digits : Nat → Nat → List Char
  | 0, _ => []
  | count + 1, n => digits count (n / 16) ++ [digit (n % 16)]

end CurlSnippet.Hex
