import CurlSnippet.Blank
import CurlSnippet.Json.Basic
import CurlSnippet.Letter.Case
import CurlSnippet.Quoted
import CurlSnippet.Snippet.Literal

/-!
The kinds of client code that can be written, with the names by which they are asked for.
-/

namespace CurlSnippet

inductive Target where
  | fetch
  | axios
  | requests
  | go
  | node
  deriving DecidableEq, Repr

namespace Target

/-- All targets, in the order in which they are listed. -/
def all : List Target := [fetch, axios, requests, go, node]

/-- The target of a run that names none. -/
def fallback : Target := fetch

def name : Target → String
  | fetch => "js-fetch"
  | axios => "js-axios"
  | requests => "python-requests"
  | go => "go"
  | node => "nodejs"

/-- The name shown to people. -/
def label : Target → String
  | fetch => "JavaScript (Fetch)"
  | axios => "JavaScript (Axios)"
  | requests => "Python (Requests)"
  | go => "Go"
  | node => "Node.js"

/-- Other names of a target: its role, and short spellings. -/
def aliases : List (String × Target) := [
  ("promise-fetch", fetch),
  ("fetch", fetch),
  ("object-config-client", axios),
  ("axios", axios),
  ("scripting-session", requests),
  ("python", requests),
  ("requests", requests),
  ("compiled-request-builder", go),
  ("golang", go),
  ("raw-transport", node),
  ("node", node)]

def names : List (String × Target) := all.map (fun t => (t.name, t)) ++ aliases

/-- The target of a name, whatever its case and the white space around it. -/
def ofName? (name : String) : Option Target := names.lookup (lower (trim name))

/-- A name that is none; `shown` is the name as messages show it. -/
structure Unknown where
  shown : String
  deriving DecidableEq, Repr

def Unknown.message (u : Unknown) : String :=
  "unknown target " ++ u.shown ++ " (expected one of: " ++ ", ".intercalate (all.map name) ++ ")"

def ofName (name : String) : Except Unknown Target :=
  match ofName? name with
  | some t => .ok t
  | none => .error ⟨quoted name⟩

/-- The target that a JSON scalar names; no number, truth value or null names one. -/
def ofJson : Json → Except Unknown Target
  | .str t => ofName ((t.toString?).getD "")
  | v => .error ⟨((Line.text (literalAt .capitalized 0 0 v)).toString?).getD ""⟩

end Target

end CurlSnippet
