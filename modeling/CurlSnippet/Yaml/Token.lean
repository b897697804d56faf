import CurlSnippet.Entries
import CurlSnippet.Yaml.Scalar

/-!
The tokens of a YAML text. Indentation opens and closes block collections. A scalar may turn out to
be a key only when its colon is reached, so the place of every possible key is remembered and the
marks for it are put in afterwards; until then none of the tokens from there on is settled. A fault
that is not one of form leaves the settled tokens in use.
-/

namespace CurlSnippet.Yaml

inductive Token where
  | version (major : Nat)
  | tagHandle (handle start : String)
  | otherDirective
  | documentStart
  | documentEnd
  | blockSequence
  | blockMapping
  | blockEnd
  | flowSequence
  | flowSequenceEnd
  | flowMapping
  | flowMappingEnd
  | entry
  | comma
  | key
  | value
  | alias (name : String)
  | anchor (name : String)
  | tag (handle : Option String) (suffix : String)
  | scalar (text : Text) (plain : Bool)
  deriving DecidableEq, Repr

namespace Token

/-- A place where a key may have begun: the number of tokens before it, and whether something is
missing unless it is a key. -/
structure KeyPlace where
  before : Nat
  required : Bool
  index : Nat
  line : Nat
  column : Nat
  deriving DecidableEq, Repr

/-- The tokens read so far, newest first, and what decides about the next one. Indentation -1 is
outside of all collections; key places are kept for each depth of brackets. -/
structure Scanner where
  cursor : Cursor
  tokens : List Token
  depth : Nat
  indent : Int
  outer : List Int
  keyAllowed : Bool
  places : Entries Nat KeyPlace

namespace Scanner

def start (text : List Char) : Scanner := ⟨.start text, [], 0, -1, [], true, []⟩

def emit (s : Scanner) (k : Token) : Scanner := { s with tokens := k :: s.tokens }

/-- Puts a token in behind the first `before` tokens. -/
def insertAt (s : Scanner) (before : Nat) (k : Token) : Scanner :=
  let newer := s.tokens.length - before
  { s with tokens := s.tokens.take newer ++ k :: s.tokens.drop newer }

def advance (s : Scanner) (n : Nat) : Scanner := { s with cursor := s.cursor.skip n }

/-- Closes the block collections that are indented deeper than a column. -/
def unwind (column : Int) : List Int → Scanner → Scanner
  | [], s => s
  | i :: outer, s =>
    if s.depth = 0 && column < s.indent then
      unwind column outer { s.emit .blockEnd with indent := i, outer := outer }
    else s

def unwindTo (s : Scanner) (column : Int) : Scanner := unwind column s.outer s

/-- Opens a block collection at a column that is deeper than the current indentation. -/
def indentTo (s : Scanner) (column : Nat) : Option Scanner :=
  if s.indent < column then some { s with indent := column, outer := s.indent :: s.outer } else none

def dropPlace (s : Scanner) (depth : Nat) : Scanner :=
  { s with places := s.places.filter fun p => p.1 != depth }

/-- Gives up the place of a key at this depth of brackets; an error if a key is required there. -/
def removePlace? (s : Scanner) : Option Scanner :=
  match s.places.get? s.depth with
  | some p => if p.required then none else some (s.dropPlace s.depth)
  | none => some s

/-- Notes that a key may begin here. -/
def savePlace? (s : Scanner) : Option Scanner :=
  if s.keyAllowed then do
    let required := s.depth = 0 && s.indent = (s.cursor.column : Int)
    let s ← s.removePlace?
    let c := s.cursor
    let place : KeyPlace := ⟨s.tokens.length, required, c.index, c.line, c.column⟩
    return { s with places := s.places.put s.depth place }
  else some s

/-- The longest distance between the start of a key and its colon. -/
def maxKeyLength : Nat := 1024

/-- Gives up the places that lie on an earlier line or too far back. -/
def dropStale? (s : Scanner) : Option Scanner :=
  let stale (p : Nat × KeyPlace) : Bool :=
    p.2.line != s.cursor.line || p.2.index + maxKeyLength < s.cursor.index
  if s.places.any fun p => stale p && p.2.required then none
  else some { s with places := s.places.filter fun p => !stale p }

/-- Skips white space, comments and line breaks. Outside of brackets a key may follow a break. -/
def skipBlanks : Nat → Scanner → Scanner
  | 0, s => s
  | fuel + 1, s =>
    let c := s.cursor.skipSpaces
    let c := if c.peek == some '#' then c.skipWhile (!isBreak ·) else c
    match c.lineBreak? with
    | some (_, c) =>
      skipBlanks fuel { s with cursor := c, keyAllowed := s.keyAllowed || s.depth = 0 }
    | none => { s with cursor := c }

def toNextToken (s : Scanner) : Scanner :=
  let c := s.cursor
  let s := if c.index = 0 && c.peek == some '\uFEFF' then s.advance 1 else s
  skipBlanks (s.cursor.rest.length + 1) s

end Scanner

open Scanner

def isNameChar (c : Char) : Bool := c.isAlphanum || c == '-' || c == '_'

def isUriChar (c : Char) : Bool :=
  c.isAlphanum || "-;/?:@&=+$,_.!~*'()[]%".toList.contains c

/-- Escaped bytes of a tag, from a percent sign on. -/
def uriBytes : Nat → Cursor → Option (List UInt8 × Cursor)
  | 0, _ => none
  | fuel + 1, c =>
    match c.rest with
    | '%' :: a :: b :: _ => do
      let n ← Scalar.hexNumber? [a, b]
      let (bs, c) ← uriBytes fuel (c.skip 3)
      return (UInt8.ofNat n :: bs, c)
    | '%' :: _ => none
    | _ => some ([], c)

/-- The text of a tag; escaped bytes have to be UTF-8. -/
def uriFrom : Nat → Cursor → Option (String × Cursor)
  | 0, _ => none
  | fuel + 1, c =>
    match c.peek with
    | none => some ("", c)
    | some ch =>
      if ch == '%' then do
        let (bs, c) ← uriBytes (c.rest.length + 1) c
        let s ← String.fromUTF8? ⟨bs.toArray⟩
        let (rest, c) ← uriFrom fuel c
        return (s ++ rest, c)
      else if isUriChar ch then do
        let (rest, c) ← uriFrom fuel c.next
        return (String.singleton ch ++ rest, c)
      else some ("", c)

def uri? (c : Cursor) : Option (String × Cursor) := do
  let (s, c) ← uriFrom (c.rest.length + 1) c
  if s.isEmpty then none else some (s, c)

/-- A tag handle: one mark, or a name between two. -/
def handle? (c : Cursor) : Option (String × Cursor) :=
  if c.peek == some '!' then
    if c.peekAt 1 == some ' ' then some ("!", c.next)
    else
      let (name, c) := c.next.takeWhile isNameChar
      if c.peek == some '!' then some (String.ofList ('!' :: name ++ ['!']), c.next) else none
  else none

/-- A number of a version. There is a limit to the count of its digits. -/
def number (c : Cursor) : Except Error (Nat × Cursor) :=
  let (ds, c) := c.takeWhile Char.isDigit
  if ds.isEmpty then .error .malformed
  else if Json.maxIntDigits < ds.length then .error (.intDigits ds.length)
  else .ok (Nat.ofDigitChars 10 ds 0, c)

/-- The rest of a directive that tells the version: two numbers, of which the first counts. -/
def versionRest (c : Cursor) : Except Error (Token × Cursor) := do
  let (major, c) ← number c
  if c.peek != some '.' then .error .malformed
  else
    let (_, c) ← number c.next
    if endsAtSpace c.peek then return (.version major, ← Error.ofOption c.endLine?)
    else .error .malformed

/-- The rest of a directive that gives a tag handle its meaning. -/
def handleRest? (c : Cursor) : Option (Token × Cursor) := do
  let (handle, c) ← handle? c
  if c.peek != some ' ' then none
  else
    let (start, c) ← uri? c.skipSpaces
    if endsAtSpace c.peek then return (.tagHandle handle start, ← c.endLine?) else none

/-- A directive at its percent sign. -/
def directive (c : Cursor) : Except Error (Token × Cursor) :=
  let (name, c) := c.next.takeWhile isNameChar
  if name.isEmpty || !endsAtSpace c.peek then .error .malformed
  else if name == "YAML".toList then versionRest c.skipSpaces
  else if name == "TAG".toList then Error.ofOption (handleRest? c.skipSpaces)
  else (Error.ofOption (c.skipWhile (!isBreak ·)).endLine?).map fun c => (.otherDirective, c)

/-- The name of an anchor or an alias, after its mark. -/
def anchorName? (c : Cursor) : Option (String × Cursor) :=
  let (name, c) := c.takeWhile isNameChar
  let ends := endsWord c.peek || c.peek.any fun ch => "?:,]\x7d%@\x60".toList.contains ch
  if !name.isEmpty && ends then some (String.ofList name, c) else none

/-- A tag at its mark: in angle brackets, alone, or behind a handle. -/
def tagText? (c : Cursor) : Option (Token × Cursor) :=
  if c.peekAt 1 == some '<' then do
    let (suffix, c) ← uri? (c.skip 2)
    if c.peek == some '>' then some (.tag none suffix, c.next) else none
  else if endsWord (c.peekAt 1) then some (.tag none "!", c.next)
  else
    let word := (c.rest.drop 1).takeWhile fun ch => !endsAtSpace (some ch)
    do
      let (handle, c) ← if word.contains '!' then handle? c else some ("!", c.next)
      let (suffix, c) ← uri? c
      return (.tag (some handle) suffix, c)

/-- A tag at its mark, with white space behind it. -/
def tag? (c : Cursor) : Option (Token × Cursor) :=
  (tagText? c).bind fun r => if endsAtSpace r.2.peek then some r else none

def noKey (s : Scanner) : Scanner := { s with keyAllowed := false }

/-- Ends everything that is open outside of brackets. -/
def leaveBlocks? (s : Scanner) : Option Scanner := (s.unwindTo (-1)).removePlace?.map noKey

def openFlow? (k : Token) (s : Scanner) : Option Scanner := do
  let s ← s.savePlace?
  return { (s.emit k).advance 1 with depth := s.depth + 1, keyAllowed := true }

def closeFlow? (k : Token) (s : Scanner) : Option Scanner := do
  let s ← s.removePlace?
  if s.depth = 0 then none
  else return { (s.emit k).advance 1 with depth := s.depth - 1, keyAllowed := false }

def comma? (s : Scanner) : Option Scanner := do
  let s ← s.removePlace?
  return { (s.emit .comma).advance 1 with keyAllowed := true }

/-- Opens a block collection here if the column is deeper than the indentation. -/
def openBlock (k : Token) (s : Scanner) : Scanner :=
  match s.indentTo s.cursor.column with
  | some s => s.emit k
  | none => s

def dash? (s : Scanner) : Option Scanner := do
  let s ← if s.depth != 0 then some s
    else if s.keyAllowed then some (openBlock .blockSequence s) else none
  let s ← s.removePlace?
  return { (s.emit .entry).advance 1 with keyAllowed := true }

def key? (s : Scanner) : Option Scanner := do
  let s ← if s.depth != 0 then some s
    else if s.keyAllowed then some (openBlock .blockMapping s) else none
  let s ← s.removePlace?
  return { (s.emit .key).advance 1 with keyAllowed := s.depth = 0 }

/-- A colon. After a possible key it makes one of it; otherwise it has no key, or the key was
marked. -/
def value? (s : Scanner) : Option Scanner :=
  match s.places.get? s.depth with
  | some p =>
    let s := (s.dropPlace s.depth).insertAt p.before .key
    let s := if s.depth != 0 then s else match s.indentTo p.column with
      | some s => s.insertAt p.before .blockMapping
      | none => s
    some { (s.emit .value).advance 1 with keyAllowed := false }
  | none => do
    let s ← if s.depth != 0 then some s
      else if s.keyAllowed then some (openBlock .blockMapping s) else none
    let s ← s.removePlace?
    return { (s.emit .value).advance 1 with keyAllowed := s.depth = 0 }

/-- A token that may be a key or belong to one. -/
def keyPart (read : Cursor → Except Error (Token × Cursor)) (s : Scanner) :
    Except Error Scanner := do
  let s ← Error.ofOption s.savePlace?
  let (k, c) ← read s.cursor
  return { s.emit k with cursor := c, keyAllowed := false }

/-- An anchor or an alias at its mark. -/
def named (token : String → Token) (c : Cursor) : Except Error (Token × Cursor) :=
  (Error.ofOption (anchorName? c.next)).map fun r => (token r.1, r.2)

def quoted (double : Bool) (c : Cursor) : Except Error (Token × Cursor) :=
  (Scalar.quoted double c).map fun r => (.scalar r.1 false, r.2)

def plain? (s : Scanner) : Option Scanner := do
  let s ← s.savePlace?
  let (text, c, broken) := Scalar.plain (s.depth != 0) (s.indent + 1).toNat s.cursor
  return { s.emit (.scalar (.ofChars text) true) with cursor := c, keyAllowed := broken }

def block? (folded : Bool) (s : Scanner) : Option Scanner := do
  let s ← s.removePlace?
  let (text, c) ← Scalar.block? folded s.indent s.cursor
  return { s.emit (.scalar (.ofChars text) false) with cursor := c, keyAllowed := true }

def startsPlain (flow : Bool) (ch : Char) (following : Option Char) : Bool :=
  !(endsWord (some ch) || "-?:,[]\x7b\x7d#&*!|>'\"%@\x60".toList.contains ch) ||
    (!endsWord following && (ch == '-' || (!flow && (ch == '?' || ch == ':'))))

/-- Reads the token at the cursor, which is not at the end of the text. -/
def fetch (s : Scanner) (ch : Char) : Except Error Scanner :=
  let c := s.cursor
  let flow := s.depth != 0
  let stands := endsWord (c.peekAt 1)
  let step (s : Option Scanner) : Except Error Scanner := Error.ofOption s
  if ch == '%' && c.column == 0 then do
    let s ← step (leaveBlocks? s)
    let (k, c) ← directive s.cursor
    return { s.emit k with cursor := c }
  else if (ch == '-' || ch == '.') && c.column == 0 && c.atSeparator then do
    let s ← step (leaveBlocks? s)
    return (s.emit (if ch == '-' then .documentStart else .documentEnd)).advance 3
  else if ch == '[' then step (openFlow? .flowSequence s)
  else if ch == '\x7b' then step (openFlow? .flowMapping s)
  else if ch == ']' then step (closeFlow? .flowSequenceEnd s)
  else if ch == '\x7d' then step (closeFlow? .flowMappingEnd s)
  else if ch == ',' then step (comma? s)
  else if ch == '-' && stands then step (dash? s)
  else if ch == '?' && (flow || stands) then step (key? s)
  else if ch == ':' && (flow || stands) then step (value? s)
  else if ch == '*' then keyPart (named .alias) s
  else if ch == '&' then keyPart (named .anchor) s
  else if ch == '!' then keyPart (fun c => Error.ofOption (tag? c)) s
  else if ch == '|' && !flow then step (block? false s)
  else if ch == '>' && !flow then step (block? true s)
  else if ch == '\'' then keyPart (quoted false) s
  else if ch == '"' then keyPart (quoted true) s
  else if startsPlain flow ch (c.peekAt 1) then step (plain? s)
  else .error .malformed

/-- The tokens that do not wait for a colon: none from the first open key place on. -/
def settled (s : Scanner) : List Token :=
  let live := s.places.filter fun p =>
    p.2.line = s.cursor.line && s.cursor.index ≤ p.2.index + maxKeyLength
  s.tokens.reverse.take (live.foldl (fun n p => min n p.2.before) s.tokens.length)

/-- Reads the next token and what comes with it, or ends the text, which the flag tells. -/
def step (s : Scanner) : Except Error (Scanner × Bool) := do
  let s ← Error.ofOption s.toNextToken.dropStale?
  let s := s.unwindTo s.cursor.column
  match s.cursor.peek with
  | none => return (← Error.ofOption (leaveBlocks? s), true)
  | some ch => return (← fetch s ch, false)

/-- Reads on to the end of the text, or to a fault that leaves the tokens before it in use. -/
def scanFrom : Nat → Scanner → Except Error (List Token × Option Error)
  | 0, _ => .error .malformed
  | fuel + 1, s => match step s with
    | .ok (s, true) => .ok (s.tokens.reverse, none)
    | .ok (s, false) => scanFrom fuel s
    | .error .malformed => .error .malformed
    | .error e => .ok (settled s, some e)

/-- Whether a text may hold a character. -/
def isPrintable (c : Char) : Bool :=
  let n := c.toNat
  n == 9 || n == 10 || n == 13 || (0x20 ≤ n && n ≤ 0x7E) || n == 0x85 ||
    (0xA0 ≤ n && n ≤ 0xFFFD) || 0x10000 ≤ n

/-- The tokens of a text, and the fault that ends them early. A text some part of which is no token
is malformed as a whole. -/
def scan (text : List Char) : Except Error (List Token × Option Error) :=
  if text.all isPrintable then scanFrom (text.length + 1) (.start text) else .error .malformed

end Token

end CurlSnippet.Yaml
