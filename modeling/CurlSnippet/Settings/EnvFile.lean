import CurlSnippet.Blank
import CurlSnippet.Entries
import CurlSnippet.Search

/-!
Files of variables. A line binds a name to a value, which may be quoted; a line that does not parse
is skipped, and a value may refer to variables that are bound before it or outside.
-/

namespace CurlSnippet.EnvFile

/-- A name and its value; a name without an equals sign has none. -/
abbrev Binding := String × Option String

def isLineEnd (c : Char) : Bool := c == '\n' || c == '\r'

def isInlineBlank (c : Char) : Bool := isBlank c && !isLineEnd c

def dropInlineBlanks (cs : List Char) : List Char := cs.dropWhile isInlineBlank

/-- What follows the rest of the line. -/
def dropLine (cs : List Char) : List Char := (cs.dropWhile fun c => !isLineEnd c).drop 1

def dropExport (cs : List Char) : List Char :=
  match cs.splitAt 6 with
  | (word, rest) =>
    if word = "export".toList && rest.head?.any isInlineBlank then dropInlineBlanks rest else cs

/-- The name at the start of a line, none for a comment, and what follows it. -/
def name? (cs : List Char) : Option (Option String × List Char) :=
  match cs with
  | '#' :: _ => some (none, cs)
  | '\'' :: rest => match Search.cut? (· == '\'') rest with
    | some (name, rest) => if name.isEmpty then none else some (some (String.ofList name), rest)
    | none => none
  | cs =>
    let isNameChar (c : Char) : Bool := !(c == '=' || c == '#' || isBlank c)
    let name := cs.takeWhile isNameChar
    if name.isEmpty then none else some (some (String.ofList name), cs.dropWhile isNameChar)

/-- Cuts at the first quote without a backslash before it. -/
def cutUnescaped? (quote : Char) : Bool → List Char → Option (List Char × List Char)
  | _, [] => none
  | escaped, c :: rest =>
    if c = quote && !escaped then some ([], rest)
    else (cutUnescaped? quote (c == '\\') rest).map fun r => (c :: r.1, r.2)

/-- The inside of a quoted value after its opening quote. A quote after a backslash closes the value
only if no other does. -/
def cutQuoted? (quote : Char) (cs : List Char) : Option (List Char × List Char) :=
  match cutUnescaped? quote false cs with
  | some r => some r
  | none => Search.cutLast? (· == quote) cs

def singleEscapes : List (Char × Char) := [('\\', '\\'), ('\'', '\'')]

def doubleEscapes : List (Char × Char) := [
  ('\\', '\\'), ('\'', '\''), ('"', '"'), ('a', '\x07'), ('b', '\x08'), ('f', '\x0c'), ('n', '\n'),
  ('r', '\r'), ('t', '\t'), ('v', '\x0b')]

/-- Resolves the escapes of a table and keeps every other backslash. -/
def unescape (escapes : List (Char × Char)) : List Char → List Char
  | [] => []
  | [c] => [c]
  | c :: d :: rest =>
    if c = '\\' then match escapes.lookup d with
      | some e => e :: unescape escapes rest
      | none => c :: unescape escapes (d :: rest)
    else c :: unescape escapes (d :: rest)

/-- Drops a comment that stands after white space. -/
def dropComment : List Char → List Char
  | [] => []
  | c :: rest =>
    if isBlank c && (rest.dropWhile isBlank).head? == some '#' then [] else c :: dropComment rest

/-- The value after an equals sign, and what follows it. -/
def value? (cs : List Char) : Option (String × List Char) :=
  match cs with
  | '\'' :: rest =>
    (cutQuoted? '\'' rest).map fun r => (String.ofList (unescape singleEscapes r.1), r.2)
  | '"' :: rest =>
    (cutQuoted? '"' rest).map fun r => (String.ofList (unescape doubleEscapes r.1), r.2)
  | cs =>
    let line := cs.takeWhile fun c => !isLineEnd c
    some (String.ofList (Blank.trimRight (dropComment line)), cs.dropWhile fun c => !isLineEnd c)

/-- Ends a line after its binding, with a comment or without. -/
def endLine (b : Option Binding) (cs : List Char) : Option Binding × List Char :=
  let rest := match dropInlineBlanks cs with
    | '#' :: comment => comment.dropWhile fun c => !isLineEnd c
    | _ => cs
  match dropInlineBlanks rest with
  | [] => (b, [])
  | c :: after => if isLineEnd c then (b, after) else (none, dropLine rest)

/-- The binding at the start of a text, none if there is none, and what follows it. -/
def next (cs : List Char) : Option Binding × List Char :=
  let cs := cs.dropWhile isBlank
  if cs.isEmpty then (none, [])
  else
    let cs := dropExport cs
    match name? cs with
    | none => (none, dropLine cs)
    | some (name, rest) => match dropInlineBlanks rest with
      | '=' :: rest =>
        let rest := dropInlineBlanks rest
        match value? rest with
        | none => (none, dropLine rest)
        | some (v, rest) => endLine (name.map fun n => (n, some v)) rest
      | rest => endLine (name.map fun n => (n, none)) rest

/-- Every binding takes some of the text, so its length bounds their number. -/
def bindingsFrom : Nat → List Char → List Binding
  | 0, _ => []
  | fuel + 1, cs =>
    if cs.isEmpty then []
    else
      let (b, rest) := next cs
      b.toList ++ bindingsFrom fuel rest

/-- A byte order mark at the start of a file does not count. -/
def dropOrderMark (cs : List Char) : List Char :=
  match cs with
  | '\uFEFF' :: rest => rest
  | cs => cs

def bindings (text : String) : List Binding :=
  let cs := dropOrderMark text.toList
  bindingsFrom cs.length cs

/-- A reference to a variable with the text for an unbound one, after its dollar sign and brace. -/
def reference? (cs : List Char) : Option (String × String × List Char) :=
  let isNameChar (c : Char) : Bool := !(c == '\x7d' || c == ':')
  let name := String.ofList (cs.takeWhile isNameChar)
  match cs.dropWhile isNameChar with
  | '\x7d' :: rest => some (name, "", rest)
  | ':' :: '-' :: rest => match Search.cut? (· == '\x7d') rest with
    | some (default, rest) => some (name, String.ofList default, rest)
    | none => none
  | _ => none

/-- The variables that a text refers to. -/
def references : List Char → List String
  | '$' :: '\x7b' :: rest => ((reference? rest).map (·.1)).toList ++ references rest
  | _ :: rest => references rest
  | [] => []

/-- Puts values in for references; `look` gives a value, an empty one or none. -/
def expandFrom (look : String → Option (Option String)) : Nat → List Char → List Char
  | 0, _ => []
  | _ + 1, [] => []
  | fuel + 1, c :: rest =>
    match c, rest with
    | '$', '\x7b' :: inner => match reference? inner with
      | some (name, default, after) =>
        let v := match look name with
          | some v => v.getD ""
          | none => default
        v.toList ++ expandFrom look fuel after
      | none => c :: expandFrom look fuel rest
    | _, _ => c :: expandFrom look fuel rest

def expand (look : String → Option (Option String)) (s : String) : String :=
  String.ofList (expandFrom look (s.toList.length + 1) s.toList)

/-- What a reference sees: the outer variables first, then the bindings so far. -/
def look (outer : Entries String String) (bound : Entries String (Option String)) (name : String) :
    Option (Option String) :=
  match outer.get? name with
  | some v => some (some v)
  | none => bound.get? name

/-- The variables that a text binds, with all references resolved. -/
def resolved (outer : Entries String String) (text : String) : Entries String (Option String) :=
  (bindings text).foldl
    (fun bound b => bound.put b.1 (b.2.map fun v => expand (look outer bound) v)) []

/-- Why a variable cannot be set. -/
inductive Fault where
  | nullCharacter
  | name
  deriving DecidableEq, Repr

def Fault.message : Fault → String
  | nullCharacter => "embedded null byte"
  | name => "illegal environment variable name"

def check (name value : String) : Except Fault Unit :=
  if name.toList.contains '\x00' || value.toList.contains '\x00' then .error .nullCharacter
  else if name.toList.contains '=' then .error .name
  else .ok ()

/-- The outer variables and those of a text that are not set outside. -/
def merge (outer : Entries String String) (text : String) :
    Except Fault (Entries String String) :=
  (resolved outer text).foldlM (fun env b =>
    match outer.get? b.1, b.2 with
    | none, some v => match check b.1 v with
      | .ok () => .ok (env.put b.1 v)
      | .error f => .error f
    | _, _ => .ok env) outer

end CurlSnippet.EnvFile
