import CurlSnippet.Json.Escape

/-!
Source text in pieces: program text as it stands, and string literals by the text they denote. What
a request says enters a snippet only as the content of a literal.
-/

namespace CurlSnippet

inductive Piece where
  | code (s : String)
  /-- A double-quoted literal. -/
  | literal (t : Text)
  /-- A literal between backquotes, which takes every character as it stands. -/
  | raw (t : Text)
  deriving DecidableEq, Repr

instance : Coe String Piece := ⟨.code⟩

/-- The escape of a code point inside a double-quoted literal: that of JSON, and the two line
separators, which end a line in some languages, by their number. -/
def escapeInLiteral : CodePoint → Text
  | .scalar c =>
    if c = '\u2028' ∨ c = '\u2029' then Text.ofChars ('\\' :: 'u' :: Json.hex4 c.toNat)
    else Json.escape (.scalar c)
  | p => Json.escape p

/-- The double-quoted literal of a text. -/
def quote (t : Text) : Text := .scalar '"' :: (t.flatMap escapeInLiteral ++ [.scalar '"'])

namespace Piece

def text : Piece → Text
  | code s => Text.ofString s
  | literal t => quote t
  | raw t => .scalar '\x60' :: (t ++ [.scalar '\x60'])

/-- The literal of an ordinary string. -/
def string (s : String) : Piece := .literal (Text.ofString s)

end Piece

/-- The pieces of one or more lines. -/
abbrev Line := List Piece

def Line.text (l : Line) : Text := l.flatMap Piece.text

/-- A line from parts of it, one after the other. -/
def Line.ofParts (parts : List Line) : Line := parts.flatten

/-- Lines of source text. -/
abbrev Snippet := List Line

/-- A snippet from blocks of lines, one after the other. -/
def Snippet.ofBlocks (blocks : List Snippet) : Snippet := blocks.flatten

def Snippet.text (s : Snippet) : Text := Text.lines (s.map Line.text)

end CurlSnippet
