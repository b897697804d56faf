import CurlSnippet.Command.Flag
import CurlSnippet.Request.Basic
import CurlSnippet.Request.Content

/-!
A request while its command line is being read. Every flag changes one part of the draft; the
finished request is checked like any other.
-/

namespace CurlSnippet

/-- What has been read so far; an empty url or method counts as absent. -/
structure Draft where
  url : String
  method : String
  headers : Entries String String
  body : Option String
  auth : Option Credentials
  deriving DecidableEq, Repr

namespace Draft

def empty : Draft := ⟨"", "", [], none, none⟩

def putHeader (d : Draft) (name value : String) : Draft :=
  { d with headers := d.headers.put name value }

/-- The trimmed halves of a header line; a line without a colon is no header. -/
def headerOf? (line : String) : Option (String × String) :=
  (Search.cut? (· == ':') line.toList).map fun r =>
    (String.ofList (Blank.trim r.1), String.ofList (Blank.trim r.2))

/-- Splits at the first colon; without one the password is empty. -/
def credentialsOf (text : String) : Credentials :=
  match Search.cut? (· == ':') text.toList with
  | some (user, password) => ⟨String.ofList user, String.ofList password⟩
  | none => ⟨text, ""⟩

/-- The draft after a flag and its argument. The last body wins, except that a form field never
replaces a body. -/
def apply (d : Draft) (f : Flag) (arg : String) : Draft :=
  match f with
  | .method => { d with method := upper arg }
  | .header => match headerOf? arg with
    | some (name, value) => d.putHeader name value
    | none => d
  | .body => { d with body := some arg }
  | .user => { d with auth := some (credentialsOf arg) }
  | .json =>
    ({ d with body := some arg }.putHeader "Content-Type" "application/json").putHeader
      "Accept" "application/json"
  | .form => { d with body := some (d.body.getD arg) }
  | .cookie => d.putHeader "Cookie" arg
  | .userAgent => d.putHeader "User-Agent" arg
  | .referer => d.putHeader "Referer" arg
  | .plain => d

/-- The method given, or the usual one for a request with or without a body. -/
def effectiveMethod (d : Draft) : String :=
  let m := trim d.method
  if m = "" then (if d.body.isSome then "POST" else "GET") else m

def finish (d : Draft) : Check Request :=
  Request.check d.url d.effectiveMethod d.headers d.body d.auth
    (Content.isJson d.headers d.body) (Content.isForm d.headers)

end Draft

end CurlSnippet
