import CurlSnippet.Json.Basic
import CurlSnippet.Json.Escape

/-!
Printing a JSON value as JSON, on one line or with every item on a line of its own.
-/

namespace CurlSnippet.Json

inductive Layout where
  /-- One line without any blank. -/
  | compact
  /-- One line, with a blank after each comma and each colon. -/
  | inline
  /-- Every item on its own line, indented by that many spaces a level; a negative number is 0. -/
  | lines (indent : Int)

namespace Layout

/-- The layout that an indentation asks for, one line without any. -/
def ofIndent : Option Int → Layout
  | none => inline
  | some n => lines n

/-- What stands before an item of a container whose items are at the given level, and before the
closing bracket of a container at that level. -/
def lineBreak : Layout → Nat → Text
  | lines n, level => .scalar '\n' :: List.replicate (n.toNat * level) (.scalar ' ')
  | _, _ => []

def comma : Layout → Text
  | inline => [.scalar ',', .scalar ' ']
  | _ => [.scalar ',']

def colon : Layout → Text
  | compact => [.scalar ':']
  | _ => [.scalar ':', .scalar ' ']

end Layout

mutual

/-- The value as JSON text, as it stands in a container of the given level. -/
def printAt (l : Layout) (level : Nat) : Json → Text
  | str t => quoted t
  | arr [] => Text.ofString "[]"
  | arr items =>
    .scalar '[' :: (printItems l (level + 1) items ++ l.lineBreak level ++ [.scalar ']'])
  | obj [] => [.scalar '\x7b', .scalar '\x7d']
  | obj members =>
    .scalar '\x7b' :: (printMembers l (level + 1) members ++ l.lineBreak level ++ [.scalar '\x7d'])
  | v => Text.ofChars v.spellAtom

def printItems (l : Layout) (level : Nat) : List Json → Text
  | [] => []
  | [v] => l.lineBreak level ++ printAt l level v
  | v :: rest => l.lineBreak level ++ printAt l level v ++ l.comma ++ printItems l level rest

def printMembers (l : Layout) (level : Nat) : List (Text × Json) → Text
  | [] => []
  | [(k, v)] => l.lineBreak level ++ quoted k ++ l.colon ++ printAt l level v
  | (k, v) :: rest =>
    l.lineBreak level ++ quoted k ++ l.colon ++ printAt l level v ++ l.comma ++
      printMembers l level rest

end

def print (l : Layout) (v : Json) : Text := printAt l 0 v

/-- The value with every item on its own line. -/
def pretty (indent : Int) (v : Json) : Text := print (.lines indent) v

end CurlSnippet.Json
