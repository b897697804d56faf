import CurlSnippet.Blank
import CurlSnippet.Entries
import CurlSnippet.Letter.Case
import CurlSnippet.Search

/-!
What kind of body a request has, from its headers and from how the body begins.
-/

namespace CurlSnippet.Content

/-- The last value among the headers that name the content type in any case; empty without one. -/
def contentType (headers : Entries String String) : String :=
  headers.foldl (fun found h => if lower h.1 = "content-type" then h.2 else found) ""

/-- Whether the first character after white space opens a JSON object or array. -/
def opensContainer (body : String) : Bool :=
  match Blank.trimLeft body.toList with
  | c :: _ => c == '\x7b' || c == '['
  | [] => false

def isJson (headers : Entries String String) (body : Option String) : Bool :=
  Search.occursIn "application/json".toList (contentType headers).toList ||
    body.any opensContainer

def isForm (headers : Entries String String) : Bool :=
  Search.occursIn "application/x-www-form-urlencoded".toList (contentType headers).toList

end CurlSnippet.Content
