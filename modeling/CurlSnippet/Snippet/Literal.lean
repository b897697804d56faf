import CurlSnippet.Json.Basic
import CurlSnippet.Snippet.Basic

/-!
A JSON value as a nested literal of a programming language. Languages differ in the spelling of
null, true and false; maps and lists are written alike, one item a line.
-/

namespace CurlSnippet

/-- The spellings of the three named values. -/
structure Spelling where
  null : String
  yes : String
  no : String
  deriving DecidableEq, Repr

namespace Spelling

def lowerCase : Spelling := ⟨"null", "true", "false"⟩

def capitalized : Spelling := ⟨"None", "True", "False"⟩

end Spelling

/-- The indentation of a line, nothing for a negative number. -/
def spaces (n : Int) : Piece := .code (String.ofList (List.replicate n.toNat ' '))

mutual

/-- The literal of a value on a line of the given level. An item stands one level deeper, the
closing bracket on the level itself. -/
def literalAt (names : Spelling) (indent level : Int) : Json → Line
  | .null => [names.null]
  | .bool true => [names.yes]
  | .bool false => [names.no]
  | .str t => [.literal t]
  | .arr [] => ["[]"]
  | .arr items =>
    .code "[\n" :: (literalItems names indent (level + 1) items ++
      [.code "\n", spaces (indent * level), .code "]"])
  | .obj [] => ["\x7b\x7d"]
  | .obj members =>
    .code "\x7b\n" :: (literalMembers names indent (level + 1) members ++
      [.code "\n", spaces (indent * level), .code "\x7d"])
  | v => [String.ofList v.spellAtom]

def literalItems (names : Spelling) (indent level : Int) : List Json → Line
  | [] => []
  | [v] => spaces (indent * level) :: literalAt names indent level v
  | v :: rest =>
    spaces (indent * level) :: (literalAt names indent level v ++
      .code ",\n" :: literalItems names indent level rest)

def literalMembers (names : Spelling) (indent level : Int) : List (Text × Json) → Line
  | [] => []
  | [(k, v)] =>
    spaces (indent * level) :: .literal k :: .code ": " :: literalAt names indent level v
  | (k, v) :: rest =>
    spaces (indent * level) :: .literal k :: .code ": " :: (literalAt names indent level v ++
      .code ",\n" :: literalMembers names indent level rest)

end

end CurlSnippet
