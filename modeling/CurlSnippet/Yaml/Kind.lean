/-!
The kinds of YAML nodes. A tag names one; a tag that names none of them makes a node unknown.
-/

namespace CurlSnippet.Yaml

inductive Kind where
  | null
  | bool
  | int
  | float
  | binary
  | timestamp
  | str
  | seq
  | map
  | set
  /-- A sequence of mappings of one member each. -/
  | omap
  | pairs
  /-- The key of members that are taken over from elsewhere. -/
  | merge
  /-- The key of the member that can stand for its mapping. -/
  | value
  | unknown
  deriving DecidableEq, Repr

namespace Kind

def standard : List (String × Kind) := [
  ("null", null), ("bool", bool), ("int", int), ("float", float), ("binary", binary),
  ("timestamp", timestamp), ("str", str), ("seq", seq), ("map", map), ("set", set), ("omap", omap),
  ("pairs", pairs), ("merge", merge), ("value", value)]

/-- What all tags of the standard start with. -/
def standardStart : String := "tag:yaml.org,2002:"

def ofTag (tag : String) : Kind :=
  ((standard.find? fun k => standardStart ++ k.1 = tag).map Prod.snd).getD unknown

end Kind

end CurlSnippet.Yaml
