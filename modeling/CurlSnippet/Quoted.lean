import CurlSnippet.Hex
import CurlSnippet.Letter.Case
import CurlSnippet.Quoted.PrintableTable

/-!
Text quoted for a message. Single quotes are used unless the text holds some and no double quote;
code points without a printed form are written by their number. Bytes are quoted in the same way,
behind a `b`.
-/

namespace CurlSnippet.Quoted

def isPrintable (c : Char) : Bool := !Letter.inRanges unprintableRanges c

def escapeNumber (n : Nat) : List Char :=
  if n < 0x100 then '\\' :: 'x' :: Hex.digits 2 n
  else if n < 0x10000 then '\\' :: 'u' :: Hex.digits 4 n
  else '\\' :: 'U' :: Hex.digits 8 n

/-- A character between two marks. Those that do not count as plain are written by their number. -/
def escapeChar (isPlain : Char → Bool) (mark c : Char) : List Char :=
  if c = mark ∨ c = '\\' then ['\\', c]
  else if c = '\n' then ['\\', 'n']
  else if c = '\r' then ['\\', 'r']
  else if c = '\t' then ['\\', 't']
  else if isPlain c then [c]
  else escapeNumber c.toNat

def escapePoint (mark : Char) : CodePoint → List Char
  | .scalar c => escapeChar isPrintable mark c
  | .surrogate o => escapeNumber (CodePoint.surrogate o).toNat

/-- The mark for a text, given whether a kind of quote stands in it. -/
def quoteMark (holds : Char → Bool) : Char := if holds '\'' && !holds '"' then '"' else '\''

def textChars (t : Text) : List Char :=
  let mark := quoteMark fun q => t.contains (.scalar q)
  mark :: (t.flatMap (escapePoint mark) ++ [mark])

def byteChars (bytes : List UInt8) : List Char :=
  let cs := bytes.map fun b => Char.ofNat b.toNat
  let mark := quoteMark cs.contains
  let isPlain (c : Char) : Bool := ' ' ≤ c && c ≤ '~'
  'b' :: mark :: (cs.flatMap (escapeChar isPlain mark) ++ [mark])

end CurlSnippet.Quoted

namespace CurlSnippet

/-- The text in quotes, as messages show it. -/
def Text.quoted (t : Text) : String := String.ofList (Quoted.textChars t)

def quoted (s : String) : String := (Text.ofString s).quoted

end CurlSnippet
