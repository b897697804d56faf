import CurlSnippet.Hex
import CurlSnippet.Utf8

/-!
Percent-encoding. A percent sign is kept, so an escape that is already there stays as it is; every
byte of a character that is not allowed is written by its number.
-/

namespace CurlSnippet.Url.Percent

/-- Letters, digits and the marks that are never encoded. -/
def isUnreserved (c : Char) : Bool :=
  c.isAlphanum || c == '_' || c == '.' || c == '-' || c == '~'

/-- The characters that a path keeps besides the unreserved ones. -/
def pathMarks : List Char :=
  ['/', '%', ':', '@', '!', '$', '&', '\'', '(', ')', '*', '+', ',', ';', '=']

def isPathChar (c : Char) : Bool := isUnreserved c || pathMarks.contains c

def isQueryChar (c : Char) : Bool := isPathChar c || c == '?'

/-- A number below 16 in upper case. -/
def hexDigit (n : Nat) : Char := (Hex.digit n).toUpper

def encodeByte (b : UInt8) : List Char := ['%', hexDigit (b.toNat / 16), hexDigit (b.toNat % 16)]

def encode (keep : Char → Bool) (cs : List Char) : List Char :=
  cs.flatMap fun c => if keep c then [c] else (utf8 [c]).flatMap encodeByte

end CurlSnippet.Url.Percent
