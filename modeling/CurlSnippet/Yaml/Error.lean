import CurlSnippet.Json.Number
import CurlSnippet.Quoted
import CurlSnippet.Yaml.Timestamp

/-!
Why a YAML text has no value. Most faults of form and structure are not told apart; those of single
numbers, truth values and timestamps are.
-/

namespace CurlSnippet.Yaml

/-- Causes, from the form of the text to the value of a scalar. -/
inductive Error where
  /-- The text is not YAML, or what it says has no meaning here. -/
  | malformed
  /-- An escape names a number past the last code point. -/
  | codePoint
  /-- An escape names a number of more than 31 bits. -/
  | wideCodePoint
  /-- A text spells no whole number in its base. -/
  | intSpelling (base : Nat) (text : Text)
  | intDigits (count : Nat)
  | floatSpelling (text : Text)
  /-- A place in base sixty weighs more than the largest number. -/
  | wideWeight
  /-- A number is marked as one and has no characters. -/
  | emptyNumber
  /-- A word is marked as a truth value and is none. -/
  | truth (word : Text)
  | notATimestamp
  /-- A mapping stands where the text of a timestamp has to be. -/
  | timestampOfMapping
  | timestamp (fault : Timestamp.Fault)
  /-- The text of a mapping is to be found in the mapping itself. -/
  | endless
  deriving DecidableEq, Repr

namespace Error

open Timestamp (number)

def ofOption {α : Type} (a : Option α) : Except Error α :=
  match a with
  | some a => .ok a
  | none => .error .malformed

/-- The longest part of a quoted text that the message of a whole number shows. -/
def shownCharacters : Nat := 200

/-- What a message says about whole numbers with too many digits. -/
def digitLimit (more : String) : String :=
  "Exceeds the limit (" ++ number Json.maxIntDigits ++ " digits) for integer string conversion" ++
    more ++ "; use sys.set_int_max_str_digits() to increase the limit"

/-- The message of an error. There is none for a malformed text, and the fault of a word that is no
truth value is told by the word. -/
def message? : Error → Option String
  | malformed | truth _ => none
  | codePoint => some "chr() arg not in range(0x110000)"
  | wideCodePoint => some "Python int too large to convert to C int"
  | intSpelling base text => some ("invalid literal for int() with base " ++ number base ++ ": " ++
      String.ofList (text.quoted.toList.take shownCharacters))
  | intDigits count => some (digitLimit (": value has " ++ number count ++ " digits"))
  | floatSpelling text => some ("could not convert string to float: " ++ text.quoted)
  | wideWeight => some "int too large to convert to float"
  | emptyNumber => some "string index out of range"
  | notATimestamp => some "'NoneType' object has no attribute 'groupdict'"
  | timestampOfMapping => some "expected string or bytes-like object, got 'list'"
  | timestamp fault => some fault.message
  | endless => some "maximum recursion depth exceeded"

/-- Whether the fault is one of a value that is out of range or spelt in a wrong way. -/
def isOfValue : Error → Bool
  | codePoint | intSpelling _ _ | intDigits _ | floatSpelling _ | timestamp _ => true
  | _ => false

end Error

end CurlSnippet.Yaml
