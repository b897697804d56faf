import CurlSnippet.Search

/-!
File paths with slashes. Repeated slashes, single points and a slash at the end say nothing and are
dropped; exactly two slashes in front are kept, and two points always are.
-/

namespace CurlSnippet

/-- The slashes in front and the names after them. -/
structure Path where
  root : String
  names : List String
  deriving DecidableEq, Repr

namespace Path

def ofString (s : String) : Path :=
  let slashes := (s.toList.takeWhile (· == '/')).length
  let root := if slashes = 0 then "" else if slashes = 2 then "//" else "/"
  let parts := (Search.parts '/' s.toList).map String.ofList
  ⟨root, parts.filter fun p => p != "" && p != "."⟩

/-- The path as text; the empty path is a single point. -/
def text (p : Path) : String :=
  let t := p.root ++ "/".intercalate p.names
  if t = "" then "." else t

end Path

end CurlSnippet
