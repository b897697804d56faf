import CurlSnippet.Snippet.Body

/-!
Client code for the requests library. Headers and the body are bound to names first and passed as
keyword arguments; the usual methods have a function of their own.
-/

namespace CurlSnippet.Snippet

namespace Requests

/-- The methods with a function of their own. -/
def helpers : List String := ["GET", "POST", "PUT", "PATCH", "DELETE", "HEAD", "OPTIONS"]

def headerBinding (r : Request) : Snippet :=
  if r.headers.isEmpty then []
  else .ofBlocks [[["headers = \x7b"]], headerLines (tab 4 1) r.headers, [["\x7d"], []]]

/-- The binding of the body: a value for the library to serialise, or the text as it is. -/
def bodyBinding (r : Request) : Snippet :=
  optional r.body fun b => match r.jsonBody? b with
    | some v => [.ofParts [["payload = "], literalAt .capitalized 4 0 v], []]
    | none => [["data = ", .string b], []]

/-- The function that is called, with the url as its last argument so far. -/
def callee (r : Request) : Line :=
  if r.method ∈ helpers then ["response = requests.", lower r.method, "(url"]
  else ["response = requests.request(", .string r.method, ", url"]

def headerArgument (r : Request) : Line :=
  if r.headers.isEmpty then [] else [", headers=headers"]

def authArgument (r : Request) : Line :=
  match r.auth with
  | some a => [", auth=(", .string a.user, ", ", .string a.password, ")"]
  | none => []

def bodyArgument (r : Request) : Line :=
  match r.body with
  | some b => if (r.jsonBody? b).isSome then [", json=payload"] else [", data=data"]
  | none => []

/-- The arguments after the method and the url, each with the comma before it. -/
def arguments (r : Request) : Line :=
  .ofParts [headerArgument r, authArgument r, bodyArgument r]

def call (r : Request) : Line := .ofParts [callee r, arguments r, [")"]]

end Requests

def requests (r : Request) : Snippet :=
  .ofBlocks [
    [["import requests"], []],
    Requests.headerBinding r,
    Requests.bodyBinding r,
    [["url = ", .string r.url],
      [],
      Requests.call r,
      ["print(response.json())"]]]

end CurlSnippet.Snippet
