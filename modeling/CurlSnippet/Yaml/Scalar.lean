import CurlSnippet.Hex
import CurlSnippet.Yaml.Cursor
import CurlSnippet.Yaml.Error

/-!
The texts of YAML scalars: quoted, plain, and in blocks. A single line break between two lines of a
quoted or plain scalar is a space, and further breaks are kept.
-/

namespace CurlSnippet.Yaml.Scalar

/-- What a run of line breaks stands for, of which the first was read as `first`. -/
def fold (first : Char) (more : List Char) : List Char :=
  (if first != '\n' then [first] else if more.isEmpty then [' '] else []) ++ more

/-- The line breaks inside a quoted scalar, with the white space around them. A mark that separates
documents must not stand there. -/
def quotedBreaks : Nat → Cursor → Option (List Char × Cursor)
  | 0, _ => none
  | fuel + 1, c =>
    if c.atSeparator then none
    else
      let c := c.skipWhile fun ch => ch == ' ' || ch == '\t'
      match c.lineBreak? with
      | some (b, c) => (quotedBreaks fuel c).map fun r => (b :: r.1, r.2)
      | none => some ([], c)

/-- The character of a one-letter escape. -/
def escapes : List (Char × Char) := [
  ('0', '\x00'), ('a', '\x07'), ('b', '\x08'), ('t', '\t'), ('\t', '\t'), ('n', '\n'),
  ('v', '\x0b'), ('f', '\x0c'), ('r', '\r'), ('e', '\x1b'), (' ', ' '), ('"', '"'),
  ('\\', '\\'), ('/', '/'), ('N', '\x85'), ('_', '\xa0'), ('L', '\u2028'), ('P', '\u2029')]

/-- The number of hexadecimal digits of a numbered escape. -/
def escapeDigits : List (Char × Nat) := [('x', 2), ('u', 4), ('U', 8)]

def hexNumber? (digits : List Char) : Option Nat :=
  digits.foldlM (fun n d => (Hex.value? d).map (n * 16 + ·)) 0

/-- The code point that an escape names by its number. -/
def codePoint (n : Nat) : Except Error CodePoint :=
  if n < 0x110000 then .ok (.ofNat n)
  else if n < 0x80000000 then .error .codePoint
  else .error .wideCodePoint

/-- The code point of a numbered escape. -/
def numbered (c : Cursor) (digits : Nat) : Except Error (CodePoint × Cursor) := do
  let ds := c.rest.take digits
  let n ← Error.ofOption (if ds.length = digits then hexNumber? ds else none)
  return (← codePoint n, c.skip digits)

/-- An escape of a double-quoted scalar, after its backslash. -/
def escape (fuel : Nat) (c : Cursor) : Except Error (Text × Cursor) :=
  match c.peek with
  | none => .error .malformed
  | some ch =>
    match escapes.lookup ch, escapeDigits.lookup ch with
    | some d, _ => .ok ([.scalar d], c.next)
    | none, some digits => (numbered c.next digits).map fun r => ([r.1], r.2)
    | none, none => match c.lineBreak? with
      | some (_, c) => (Error.ofOption (quotedBreaks fuel c)).map fun r => (.ofChars r.1, r.2)
      | none => .error .malformed

/-- The text of a quoted scalar after its opening quote, added to what is read already, newest
first. -/
def quotedFrom (double : Bool) : Nat → Text → Cursor → Except Error (Text × Cursor)
  | 0, _, _ => .error .malformed
  | fuel + 1, text, c =>
    match c.peek with
    | none => .error .malformed
    | some ch =>
      if ch == ' ' || ch == '\t' || isBreak ch then
        let (blanks, c) := c.takeWhile fun ch => ch == ' ' || ch == '\t'
        if c.peek.isNone then .error .malformed
        else match c.lineBreak? with
          | none => quotedFrom double fuel (.ofChars blanks.reverse ++ text) c
          | some (b, c) => match quotedBreaks fuel c with
            | none => .error .malformed
            | some (bs, c) => quotedFrom double fuel (.ofChars (fold b bs).reverse ++ text) c
      else if double then
        if ch == '"' then .ok (text.reverse, c.next)
        else if ch == '\\' then match escape fuel c.next with
          | .error e => .error e
          | .ok (t, c) => quotedFrom double fuel (t.reverse ++ text) c
        else quotedFrom double fuel (.scalar ch :: text) c.next
      else if ch == '\'' then
        if c.peekAt 1 == some '\'' then quotedFrom double fuel (.scalar '\'' :: text) (c.skip 2)
        else .ok (text.reverse, c.next)
      else quotedFrom double fuel (.scalar ch :: text) c.next

/-- A quoted scalar at its opening quote. -/
def quoted (double : Bool) (c : Cursor) : Except Error (Text × Cursor) :=
  quotedFrom double (c.rest.length + 1) [] c.next

def isFlowMark (c : Char) : Bool := c == ',' || c == '[' || c == ']' || c == '\x7b' || c == '\x7d'

/-- The length of the run of a plain scalar up to white space, a colon that ends a key, or, inside
brackets, one of their marks. -/
def plainRun (flow : Bool) : List Char → Nat
  | [] => 0
  | c :: rest =>
    if endsWord (some c) then 0
    else if c == ':' && (endsWord rest.head? || (flow && rest.head?.any isFlowMark)) then 0
    else if flow && (isFlowMark c || c == '?') then 0
    else plainRun flow rest + 1

/-- The empty lines and the indentation after a line of a plain scalar; none where a mark that
separates documents follows. -/
def plainBreaks : Nat → Cursor → List Char × Cursor × Bool
  | 0, c => ([], c, false)
  | fuel + 1, c =>
    if c.atSeparator then ([], c, true)
    else
      let c := c.skipSpaces
      match c.lineBreak? with
      | some (b, c) =>
        let (bs, c, ended) := plainBreaks fuel c
        (b :: bs, c, ended)
      | none => ([], c, false)

/-- The white space after a run, what it stands for, and whether it holds a line break. Nothing is
kept before a mark that separates documents. -/
def plainSpaces (fuel : Nat) (c : Cursor) : List Char × Cursor × Bool :=
  let (blanks, c) := c.takeWhile (· == ' ')
  match c.lineBreak? with
  | none => (blanks, c, false)
  | some (b, c) =>
    let (bs, c, ended) := plainBreaks fuel c
    (if ended then [] else fold b bs, c, true)

/-- A plain scalar: its text, the place after it and the white space behind it, and whether a line
break has been read since its last run. -/
def plainFrom (flow : Bool) (indent : Nat) :
    Nat → List Char → List Char → Bool → Cursor → List Char × Cursor × Bool
  | 0, text, _, broken, c => (text, c, broken)
  | fuel + 1, text, spaces, broken, c =>
    let n := if c.peek == some '#' then 0 else plainRun flow c.rest
    if n = 0 then (text, c, broken)
    else
      let text := text ++ spaces ++ c.rest.take n
      let (spaces, c, broken) := plainSpaces fuel (Cursor.skip n c)
      if spaces.isEmpty || c.peek == some '#' || (!flow && c.column < indent) then (text, c, broken)
      else plainFrom flow indent fuel text spaces broken c

def plain (flow : Bool) (indent : Nat) (c : Cursor) : List Char × Cursor × Bool :=
  plainFrom flow indent (c.rest.length + 1) [] [] false c

/-- What becomes of the line breaks at the end of a block. -/
inductive Chomping where
  | clip
  | strip
  | keep
  deriving DecidableEq, Repr

def chomping? (c : Char) : Option Chomping :=
  if c = '+' then some .keep else if c = '-' then some .strip else none

/-- An indentation given as a digit from 1 to 9. -/
def increment? (c : Char) : Option Nat :=
  if c.isDigit && c != '0' then some (c.toNat - '0'.toNat) else none

/-- The head of a block after its first mark: chomping and indentation, in any order. -/
def blockHead? (c : Cursor) : Option (Chomping × Option Nat × Cursor) :=
  let read (c : Cursor) : Chomping × Option Nat × Cursor :=
    match c.peek.bind chomping? with
    | some k => match c.next.peek.bind increment? with
      | some n => (k, some n, Cursor.skip 2 c)
      | none => (k, none, c.next)
    | none => match c.peek.bind increment? with
      | some n => match c.next.peek.bind chomping? with
        | some k => (k, some n, Cursor.skip 2 c)
        | none => (.clip, some n, c.next)
      | none => (.clip, none, c)
  let (k, n, c) := read c
  if endsAtSpace c.peek then c.endLine?.map fun c => (k, n, c) else none

/-- The empty lines before a block, and the deepest indentation seen. -/
def leadingBreaks : Nat → Nat → Cursor → List Char × Nat × Cursor
  | 0, deepest, c => ([], deepest, c)
  | fuel + 1, deepest, c =>
    let c := c.skipSpaces
    let deepest := max deepest c.column
    match c.lineBreak? with
    | some (b, c) =>
      let (bs, deepest, c) := leadingBreaks fuel deepest c
      (b :: bs, deepest, c)
    | none => ([], deepest, c)

/-- The empty lines inside a block of the given indentation. -/
def blockBreaks (indent : Nat) : Nat → Cursor → List Char × Cursor
  | 0, c => ([], c)
  | fuel + 1, c =>
    let c := c.skipSpacesTo indent
    match c.lineBreak? with
    | some (b, c) =>
      let (bs, c) := blockBreaks indent fuel c
      (b :: bs, c)
    | none => ([], c)

def startsWithBlank (c : Cursor) : Bool := c.peek == some ' ' || c.peek == some '\t'

/-- The lines of a block after the text that is read already, newest first: all of the text, the
last line break, and the breaks after it. In a folded block the break between two lines that start
with no blank is a space. -/
def blockLines (folded : Bool) (indent : Nat) :
    Nat → List Char → List Char → Cursor → List Char × List Char × List Char × Cursor
  | 0, text, breaks, c => (text.reverse, [], breaks, c)
  | fuel + 1, text, breaks, c =>
    if c.column != indent || c.peek.isNone then (text.reverse, [], breaks, c)
    else
      let plainStart := !startsWithBlank c
      let (line, c) := c.takeWhile (!isBreak ·)
      let text := line.reverse ++ breaks.reverse ++ text
      let (lineBreak, c) := match c.lineBreak? with
        | some (b, c) => ([b], c)
        | none => ([], c)
      let (breaks, c) := blockBreaks indent fuel c
      if c.column == indent && c.peek.isSome then
        let joined :=
          if folded && lineBreak == ['\n'] && plainStart && !startsWithBlank c then
            if breaks.isEmpty then [' '] else []
          else lineBreak
        blockLines folded indent fuel (joined ++ text) breaks c
      else (text.reverse, lineBreak, breaks, c)

/-- A block at its first mark, inside a collection of the given indentation; -1 stands outside of
all. -/
def block? (folded : Bool) (outer : Int) (c : Cursor) : Option (List Char × Cursor) := do
  let fuel := c.rest.length + 1
  let (chomping, increment, c) ← blockHead? c.next
  let least := max (outer + 1).toNat 1
  let (indent, breaks, c) := match increment with
    | some n =>
      let indent := least + n - 1
      let (breaks, c) := blockBreaks indent fuel c
      (indent, breaks, c)
    | none =>
      let (breaks, deepest, c) := leadingBreaks fuel 0 c
      (max least deepest, breaks, c)
  let (text, lineBreak, breaks, c) := blockLines folded indent fuel [] breaks c
  return (match chomping with
    | .strip => text
    | .clip => text ++ lineBreak
    | .keep => text ++ lineBreak ++ breaks, c)

end CurlSnippet.Yaml.Scalar
