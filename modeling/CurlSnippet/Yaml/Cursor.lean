/-!
A place in a YAML text: what is left to read, with its line and column.
-/

namespace CurlSnippet.Yaml

structure Cursor where
  rest : List Char
  index : Nat
  line : Nat
  column : Nat
  deriving DecidableEq, Repr

def isBreak (c : Char) : Bool :=
  c == '\n' || c == '\r' || c == '\x85' || c == '\u2028' || c == '\u2029'

/-- The end of the text or of a line. -/
def endsLine : Option Char → Bool
  | none => true
  | some c => isBreak c

/-- The end of the text or of a line, or a space. -/
def endsAtSpace (c : Option Char) : Bool := endsLine c || c == some ' '

/-- The end of the text or of a line, a space or a tab. -/
def endsWord (c : Option Char) : Bool := endsAtSpace c || c == some '\t'

namespace Cursor

def start (text : List Char) : Cursor := ⟨text, 0, 0, 0⟩

def peek (c : Cursor) : Option Char := c.rest.head?

def peekAt (c : Cursor) (n : Nat) : Option Char := c.rest[n]?

def next (c : Cursor) : Cursor :=
  match c.rest with
  | [] => c
  | ch :: rest =>
    let endsHere := (isBreak ch && ch != '\r') || (ch == '\r' && rest.head? != some '\n')
    if endsHere then ⟨rest, c.index + 1, c.line + 1, 0⟩
    else ⟨rest, c.index + 1, c.line, if ch == '\uFEFF' then c.column else c.column + 1⟩

def skip : Nat → Cursor → Cursor
  | 0, c => c
  | n + 1, c => skip n c.next

/-- The longest run of characters of a kind, and the place after it. -/
def takeWhile (c : Cursor) (p : Char → Bool) : List Char × Cursor :=
  let run := c.rest.takeWhile p
  (run, skip run.length c)

def skipWhile (c : Cursor) (p : Char → Bool) : Cursor := (c.takeWhile p).2

def skipSpaces (c : Cursor) : Cursor := c.skipWhile (· == ' ')

/-- Skips spaces until a column. -/
def skipSpacesTo (c : Cursor) (column : Nat) : Cursor :=
  skip ((c.rest.take (column - c.column)).takeWhile (· == ' ')).length c

/-- A line break here, as the text it stands for, and the place after it. -/
def lineBreak? (c : Cursor) : Option (Char × Cursor) :=
  match c.rest with
  | '\r' :: '\n' :: _ => some ('\n', skip 2 c)
  | ch :: _ =>
    if ch == '\u2028' || ch == '\u2029' then some (ch, c.next)
    else if isBreak ch then some ('\n', c.next)
    else none
  | [] => none

/-- Whether a mark that separates documents stands here. -/
def atSeparator (c : Cursor) : Bool :=
  match c.rest with
  | x :: y :: z :: rest =>
    ((x == '-' && y == '-' && z == '-') || (x == '.' && y == '.' && z == '.')) &&
      endsWord rest.head?
  | _ => false

/-- What is left of a line after a directive or the head of a block: spaces and a comment. -/
def endLine? (c : Cursor) : Option Cursor :=
  let c := c.skipSpaces
  let c := if c.peek == some '#' then c.skipWhile (!isBreak ·) else c
  match c.lineBreak? with
  | some (_, c) => some c
  | none => if c.peek.isNone then some c else none

end Cursor

end CurlSnippet.Yaml
