import CurlSnippet.Text

/-!
White space: the characters that separate words and that trimming removes. Trimming is stated on
lists of characters and lifted to strings.
-/

namespace CurlSnippet

/-- The white space of Unicode, and the four separators U+001C to U+001F. -/
def isBlank (c : Char) : Bool :=
  let n := c.toNat
  (9 ≤ n && n ≤ 13) || (28 ≤ n && n ≤ 32) || n == 0x85 || n == 0xA0 || n == 0x1680 ||
    (0x2000 ≤ n && n ≤ 0x200A) || n == 0x2028 || n == 0x2029 || n == 0x202F || n == 0x205F ||
    n == 0x3000

namespace Blank

def trimLeft (cs : List Char) : List Char := cs.dropWhile isBlank

def trimRight (cs : List Char) : List Char := (cs.reverse.dropWhile isBlank).reverse

/-- Without the white space at both ends. -/
def trim (cs : List Char) : List Char := trimRight (trimLeft cs)

end Blank

/-- The string without the white space at both ends. -/
def trim (s : String) : String := String.ofList (Blank.trim s.toList)

def isBlankString (s : String) : Bool := s.toList.all isBlank

def isBlankText (t : Text) : Bool := t.all fun p => p.char?.any isBlank

end CurlSnippet
