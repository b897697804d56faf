import CurlSnippet.Command
import CurlSnippet.Snippet.Axios
import CurlSnippet.Snippet.Fetch
import CurlSnippet.Snippet.Go
import CurlSnippet.Snippet.Node
import CurlSnippet.Snippet.Requests
import CurlSnippet.Target

/-!
From a line to client code, for one target or for all of them.
-/

namespace CurlSnippet

/-- The client code of a request for a target. -/
def Request.snippet (r : Request) : Target → Snippet
  | .fetch => Snippet.fetch r
  | .axios => Snippet.axios r
  | .requests => Snippet.requests r
  | .go => Snippet.go r
  | .node => Snippet.node r

def Request.code (r : Request) (t : Target) : Text := (r.snippet t).text

/-- Code, or a message for the person who typed the line; neither for a blank line. -/
structure Conversion where
  output : Text
  error : String
  deriving DecidableEq, Repr

namespace Conversion

def succeeded (c : Conversion) : Bool := !c.output.isEmpty

/-- The message for a line that gives no request. -/
def refusal : String :=
  "Could not parse the cURL command. Make sure it starts with 'curl' and includes a URL."

def ofLine (line : String) (t : Target) : Conversion :=
  if isBlankString line then ⟨[], ""⟩
  else match Command.read line with
    | .ok r => ⟨r.code t, ""⟩
    | .error _ => ⟨[], refusal⟩

/-- The code of a line for every target, in their order. -/
def allOfLine (line : String) : Except CommandError (List (Target × Text)) :=
  match Command.read line with
  | .ok r => .ok (Target.all.map fun t => (t, r.code t))
  | .error e => .error e

end Conversion

end CurlSnippet
