import CurlSnippet.Blank

/-!
The words of a shell line. White space separates words, a quote at the start of a word opens a
quoted word, and a backslash before a line end continues the line. Single quotes take every
character as it stands; double quotes know backslash escapes. A quote that is never closed ends
with the line.
-/

namespace CurlSnippet.Words

/-- Where the reader stands: between words, or inside a word of which the newest character comes
first. `escape` is a backslash inside double quotes. -/
inductive Mode where
  | blank
  | bare (word : List Char)
  | single (word : List Char)
  | double (word : List Char)
  | escape (word : List Char)
  deriving DecidableEq, Repr

/-- What a letter after a backslash stands for. -/
def unescape (c : Char) : Char :=
  if c = 'n' then '\n' else if c = 't' then '\t' else if c = 'r' then '\r' else c

def scan : Mode → List Char → List (List Char)
  | .blank, [] => []
  | .bare w, [] => [w.reverse]
  | .single w, [] => [w.reverse]
  | .double w, [] => [w.reverse]
  | .escape w, [] => [('\\' :: w).reverse]
  | .blank, c :: rest =>
    if isBlank c then scan .blank rest
    else if c = '\'' then scan (.single []) rest
    else if c = '"' then scan (.double []) rest
    else scan (.bare [c]) rest
  | .bare w, c :: rest =>
    if isBlank c then w.reverse :: scan .blank rest else scan (.bare (c :: w)) rest
  | .single w, c :: rest =>
    if c = '\'' then w.reverse :: scan .blank rest else scan (.single (c :: w)) rest
  | .double w, c :: rest =>
    if c = '"' then w.reverse :: scan .blank rest
    else if c = '\\' then scan (.escape w) rest
    else scan (.double (c :: w)) rest
  | .escape w, c :: rest => scan (.double (unescape c :: w)) rest

/-- Puts a space for every backslash that ends a line, together with the line end. -/
def joinLines : List Char → List Char
  | '\\' :: '\n' :: rest => ' ' :: joinLines rest
  | '\\' :: '\r' :: '\n' :: rest => ' ' :: joinLines rest
  | c :: rest => c :: joinLines rest
  | [] => []

/-- The words of a line as lists of characters. -/
def splitChars (cs : List Char) : List (List Char) := scan .blank (joinLines (Blank.trim cs))

def split (line : String) : List String := (splitChars line.toList).map String.ofList

/-- Whether a word would not be read back if it stood bare. -/
def needsQuotes (w : List Char) : Bool :=
  match w with
  | [] => true
  | c :: _ => c == '\'' || c == '"' || w.any isBlank

/-- Whether single quotes could not hold the word: its own quote would close it, and a line end
could be read as the end of a continued line. -/
def needsDoubleQuotes (w : List Char) : Bool :=
  w.any fun c => c == '\'' || c == '\n' || c == '\r'

def escapeChar (c : Char) : List Char :=
  if c = '\\' then ['\\', '\\']
  else if c = '"' then ['\\', '"']
  else if c = '\n' then ['\\', 'n']
  else if c = '\r' then ['\\', 'r']
  else if c = '\t' then ['\\', 't']
  else [c]

/-- A word as it stands in a line. -/
def quoteWord (w : List Char) : List Char :=
  if !needsQuotes w then w
  else if !needsDoubleQuotes w then '\'' :: (w ++ ['\''])
  else '"' :: (w.flatMap escapeChar ++ ['"'])

def joinChars (ws : List (List Char)) : List Char := List.intercalate [' '] (ws.map quoteWord)

/-- A line that is read back as the given words. -/
def join (ws : List String) : String := String.ofList (joinChars (ws.map String.toList))

end CurlSnippet.Words
