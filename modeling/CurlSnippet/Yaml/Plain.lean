import CurlSnippet.Hex
import CurlSnippet.Search
import CurlSnippet.Text
import CurlSnippet.Yaml.Kind
import CurlSnippet.Yaml.Timestamp

/-!
The kind of a scalar by its text: null, a truth value, a number in one of several bases or in base
sixty, a timestamp, one of a few marks, and otherwise ordinary text.
-/

namespace CurlSnippet.Yaml.Plain

def truths : List String := [
  "yes", "Yes", "YES", "no", "No", "NO", "true", "True", "TRUE", "false", "False", "FALSE",
  "on", "On", "ON", "off", "Off", "OFF"]

def nulls : List String := ["~", "null", "Null", "NULL"]

/-- Marks that stand for tags, anchors and aliases, and are no values. -/
def properties : List String := ["!", "&", "*"]

def isUnderscoreOr (p : Char → Bool) (c : Char) : Bool := p c || c == '_'

/-- Nonempty and of one kind throughout, underscores included. -/
def isRun (p : Char → Bool) (cs : List Char) : Bool := !cs.isEmpty && cs.all (isUnderscoreOr p)

/-- A digit and then any digits and underscores. -/
def isDigitRun (cs : List Char) : Bool :=
  cs.head?.any Char.isDigit && cs.all (isUnderscoreOr Char.isDigit)

def unsigned (cs : List Char) : List Char :=
  match cs with
  | '+' :: rest => rest
  | '-' :: rest => rest
  | cs => cs

/-- A number up to 59 of one or two digits. -/
def isSixtieth (cs : List Char) : Bool :=
  match cs with
  | [a] => a.isDigit
  | [a, b] => '0' ≤ a && a ≤ '5' && b.isDigit
  | _ => false

def isOctalDigit (c : Char) : Bool := '0' ≤ c && c ≤ '7'

def isBinaryDigit (c : Char) : Bool := c == '0' || c == '1'

def isInt (cs : List Char) : Bool :=
  match unsigned cs with
  | '0' :: 'b' :: rest => isRun isBinaryDigit rest
  | '0' :: 'x' :: rest => isRun Hex.isDigit rest
  | ['0'] => true
  | '0' :: rest => isRun isOctalDigit rest
  | cs => match Search.parts ':' cs with
    | first :: rest => isDigitRun first && rest.all isSixtieth
    | [] => false

/-- A fraction and an exponent, which needs a sign. -/
def isFractionTail (cs : List Char) : Bool :=
  match cs.dropWhile (isUnderscoreOr Char.isDigit) with
  | [] => true
  | e :: sign :: digits =>
    (e == 'e' || e == 'E') && (sign == '+' || sign == '-') && !digits.isEmpty &&
      digits.all Char.isDigit
  | _ => false

def infinities : List (List Char) := [".inf".toList, ".Inf".toList, ".INF".toList]

def nans : List (List Char) := [".nan".toList, ".NaN".toList, ".NAN".toList]

def isFloat (cs : List Char) : Bool :=
  infinities.contains (unsigned cs) || nans.contains cs ||
  (match cs with
    | '.' :: rest => rest.head?.any Char.isDigit && isFractionTail rest
    | _ => match Search.cut? (· == '.') (unsigned cs) with
      | some (whole, fraction) =>
        (isDigitRun whole && isFractionTail fraction) ||
          (match Search.parts ':' whole with
            | first :: sixtieths => isDigitRun first && !sixtieths.isEmpty &&
                sixtieths.all isSixtieth && fraction.all (isUnderscoreOr Char.isDigit)
            | [] => false)
      | none => false)

/-- The kind of a text of one line. -/
def lineKind (cs : List Char) : Kind :=
  let s := String.ofList cs
  if truths.contains s then .bool
  else if isFloat cs then .float
  else if isInt cs then .int
  else if s == "<<" then .merge
  else if nulls.contains s then .null
  else if (Timestamp.ofChars? true cs).isSome then .timestamp
  else if s == "=" then .value
  else if properties.contains s then .unknown
  else .str

/-- The text without a line feed at its end. -/
def dropFeed (cs : List Char) : List Char :=
  if cs.getLast? == some '\n' then cs.dropLast else cs

/-- The kind of a scalar that leaves it to its text. A line feed at the end does not count. -/
def kind (t : Text) : Kind :=
  match t.chars? with
  | none => .str
  | some [] => .null
  | some cs => lineKind (dropFeed cs)

end CurlSnippet.Yaml.Plain
