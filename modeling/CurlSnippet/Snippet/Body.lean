import CurlSnippet.Json.Decode
import CurlSnippet.Request.Basic
import CurlSnippet.Snippet.Literal

/-!
Parts that the snippets share: the body as a value when it is one, and lists of headers.
-/

namespace CurlSnippet

/-- The JSON value of a body that is sent as JSON; none if it does not decode. -/
def Request.jsonBody? (r : Request) (body : String) : Option Json :=
  if r.isJson then Json.decode? (Text.ofString body) else none

namespace Snippet

/-- Indentation by that many levels. -/
def tab (width levels : Nat) : Piece := spaces (width * levels)

/-- One line a header, as members of a map. -/
def headerLines (indent : Piece) (headers : List (String × String)) : Snippet :=
  headers.map fun h => [indent, .string h.1, ": ", .string h.2, ","]

/-- The headers as a member of an options object, or nothing without any. -/
def headerBlock (headers : List (String × String)) : Snippet :=
  if headers.isEmpty then []
  else .ofBlocks [[["  headers: \x7b"]], headerLines (tab 2 2) headers, [["  \x7d,"]]]

/-- The lines, unless there is nothing to say. -/
def optional {α : Type} (a : Option α) (lines : α → Snippet) : Snippet :=
  match a with
  | some a => lines a
  | none => []

end Snippet

end CurlSnippet
