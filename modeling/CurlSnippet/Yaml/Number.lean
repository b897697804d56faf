import CurlSnippet.Blank
import CurlSnippet.Decimal.Arithmetic
import CurlSnippet.Decimal.Shortest
import CurlSnippet.Letter.Digit
import CurlSnippet.Search
import CurlSnippet.Yaml.Error

/-!
The numbers that scalars spell. Underscores count for nothing, digits of any script are digits, and
blanks around a number are passed over. Base sixty is written with colons.
-/

namespace CurlSnippet.Yaml

/-- A floating-point number as YAML knows it. What is no number is `nan` under the name that YAML
has for it, and `undefined` under another or as the result of a sum. -/
inductive Real where
  | finite (x : Binary64)
  | infinite (negative : Bool)
  | nan
  | undefined
  deriving DecidableEq, Repr

namespace Real

def negate : Real → Real
  | finite x => finite { x with negative := !x.negative }
  | infinite negative => infinite (!negative)
  | x => x

/-- A number times a positive weight. -/
def scale (w : Binary64) : Real → Real
  | finite x => match x.mul w with
    | some y => finite y
    | none => infinite x.negative
  | x => x

def add : Real → Real → Real
  | finite x, finite y => match x.add y with
    | some z => finite z
    | none => infinite x.negative
  | infinite m, infinite n => if m = n then infinite m else undefined
  | infinite m, finite _ => infinite m
  | finite _, infinite n => infinite n
  | _, _ => undefined

end Real

namespace Number

/-- The text as far as numbers are concerned: decimal digits of all scripts are the same, and so are
blanks outside of ASCII. A question mark stands for what belongs to no number. -/
def plainChar : CodePoint → Char
  | .scalar c =>
    if c.toNat < 128 then c
    else if isBlank c then ' '
    else match Letter.digit? c with
      | some d => Nat.digitChar d
      | none => '?'
  | .surrogate _ => '?'

/-- White space around a number. -/
def isSpace (c : Char) : Bool := c == ' ' || ('\t' ≤ c && c ≤ '\r')

def dropSpaces (cs : List Char) : List Char := cs.dropWhile isSpace

/-- A sign in front, as whether it is a minus, and what follows. -/
def cutSign : List Char → Bool × List Char
  | '-' :: rest => (true, rest)
  | '+' :: rest => (false, rest)
  | cs => (false, cs)

/-- What follows the mark of the base, which may be written. -/
def dropMark (base : Nat) (cs : List Char) : List Char :=
  match cs with
  | '0' :: c :: rest =>
    if (base = 16 ∧ (c = 'x' ∨ c = 'X')) ∨ (base = 8 ∧ (c = 'o' ∨ c = 'O')) ∨
      (base = 2 ∧ (c = 'b' ∨ c = 'B')) then rest else cs
  | cs => cs

def digit? (base : Nat) (c : Char) : Option Nat :=
  (Hex.value? c).bind fun d => if d < base then some d else none

def ofDigits (base : Nat) (digits : List Char) : Nat :=
  digits.foldl (fun n c => n * base + (digit? base c).getD 0) 0

/-- The whole number that a text spells in a base. Only in base ten is there a limit to the count of
digits. -/
def inBase (base : Nat) (t : Text) : Except Error Int :=
  let (negative, cs) := cutSign (dropSpaces (t.map plainChar))
  let cs := dropMark base cs
  let digits := cs.takeWhile fun c => (digit? base c).isSome
  if base = 10 && Json.maxIntDigits < digits.length then .error (.intDigits digits.length)
  else if digits.isEmpty || !(cs.drop digits.length).all isSpace then .error (.intSpelling base t)
  else
    let n : Int := ofDigits base digits
    .ok (if negative then -n else n)

def dropUnderscores (t : Text) : Text := t.filter (· != .scalar '_')

/-- A sign at the very front, as whether it is a minus, and what follows. -/
def outerSign (t : Text) : Except Error (Bool × Text) :=
  match t with
  | [] => .error .emptyNumber
  | .scalar '-' :: rest => .ok (true, rest)
  | .scalar '+' :: rest => .ok (false, rest)
  | t => .ok (false, t)

/-- The whole number of a scalar. A zero in front announces another base. -/
def int (t : Text) : Except Error Int := do
  let (negative, t) ← outerSign (dropUnderscores t)
  let n ← match t with
    | [] => .error .emptyNumber
    | [.scalar '0'] => .ok 0
    | .scalar '0' :: .scalar 'b' :: rest => inBase 2 rest
    | .scalar '0' :: .scalar 'x' :: rest => inBase 16 rest
    | .scalar '0' :: _ => inBase 8 t
    | t =>
      if t.contains (.scalar ':') then
        (Search.parts (.scalar ':') t).foldlM (fun n part => return n * 60 + (← inBase 10 part)) 0
      else inBase 10 t
  return if negative then -n else n

/-- The magnitude of a decimal number, infinite past the largest number. -/
def magnitude? (cs : List Char) : Option Real := do
  let whole := cs.takeWhile Char.isDigit
  let (fraction, rest) := match cs.dropWhile Char.isDigit with
    | '.' :: rest => (rest.takeWhile Char.isDigit, rest.dropWhile Char.isDigit)
    | rest => ([], rest)
  if whole.isEmpty && fraction.isEmpty then none
  else
    let e ← Json.exponent? rest
    let digits := Json.ofDigits (whole ++ fraction)
    return match Binary64.ofDecimal false digits (e - fraction.length) with
      | some x => .finite x
      | none => .infinite false

/-- The number that a text in lower case spells. -/
def decimal (t : Text) : Except Error Real :=
  let trimmed := (dropSpaces (dropSpaces (t.map plainChar)).reverse).reverse
  let (negative, cs) := cutSign trimmed
  let word := String.ofList cs
  let magnitude :=
    if word = "inf" ∨ word = "infinity" then some (.infinite false)
    else if word = "nan" then some .undefined
    else magnitude? cs
  match magnitude with
  | some x => .ok (if negative then x.negate else x)
  | none => .error (.floatSpelling t)

/-- The sum of the parts of a number in base sixty, from the last one on, added to what there is
already. Every step is rounded. -/
def sixtiethSum (weight : Nat) (total : Real) : List Real → Except Error Real
  | [] => .ok total
  | x :: rest => match Binary64.ofNat weight with
    | some w => sixtiethSum (weight * 60) (total.add (x.scale w)) rest
    | none => .error .wideWeight

/-- The floating-point number of a scalar. -/
def float (t : Text) : Except Error Real := do
  let (negative, t) ← outerSign (dropUnderscores t).lower
  if t = .ofString ".nan" then return .nan
  let x ←
    if t = .ofString ".inf" then .ok (.infinite false)
    else if t.contains (.scalar ':') then do
      let parts ← (Search.parts (.scalar ':') t).mapM decimal
      sixtiethSum 1 (.finite (.zero false)) parts.reverse
    else decimal t
  return if negative then x.negate else x

end Number

end CurlSnippet.Yaml
