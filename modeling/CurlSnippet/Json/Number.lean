import CurlSnippet.Json.Basic

/-!
The number grammar of JSON: an optional minus, a whole part without leading zeros, then an optional
fraction and an optional exponent. A number with neither of the last two is a whole number.
-/

namespace CurlSnippet.Json

/-- The longest run of digits of a whole number that is read. -/
def maxIntDigits : Nat := 4300

def isNumberChar (c : Char) : Bool :=
  c.isDigit || c == '-' || c == '+' || c == '.' || c == 'e' || c == 'E'

def ofDigits (cs : List Char) : Nat := Nat.ofDigitChars 10 cs 0

/-- The digits after a point, and what follows them; no digits without a point. -/
def fraction? : List Char → Option (List Char × List Char)
  | '.' :: rest =>
    let digits := rest.takeWhile Char.isDigit
    if digits.isEmpty then none else some (digits, rest.dropWhile Char.isDigit)
  | cs => some ([], cs)

def digits? (cs : List Char) : Option Nat :=
  if cs.isEmpty || !cs.all Char.isDigit then none else some (ofDigits cs)

/-- The exponent, which must be all that is left. -/
def exponent? : List Char → Option Int
  | [] => some 0
  | c :: rest =>
    if c = 'e' ∨ c = 'E' then
      match rest with
      | '-' :: rest => (digits? rest).map fun n => -(n : Int)
      | '+' :: rest => (digits? rest).map Int.ofNat
      | rest => (digits? rest).map Int.ofNat
    else none

def unsigned? (negative : Bool) (cs : List Char) : Option Json :=
  let whole := cs.takeWhile Char.isDigit
  let rest := cs.dropWhile Char.isDigit
  if whole.isEmpty || (whole.length != 1 && whole.head? == some '0') then none
  else if rest.isEmpty then
    if maxIntDigits < whole.length then none
    else
      let n : Int := ofDigits whole
      some (.int (if negative then -n else n))
  else do
    let (fraction, rest) ← fraction? rest
    let e ← exponent? rest
    let x ← Binary64.ofDecimal negative (ofDigits (whole ++ fraction)) (e - fraction.length)
    return .float x

/-- Reads a number that is the whole of the text. -/
def number? : List Char → Option Json
  | '-' :: cs => unsigned? true cs
  | cs => unsigned? false cs

end CurlSnippet.Json
