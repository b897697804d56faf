import CurlSnippet.Snippet.Body

/-!
Client code that calls the browser's fetch function. Credentials go into a header of their own.
-/

namespace CurlSnippet.Snippet

namespace Fetch

def bodyPieces (r : Request) (body : String) : Line :=
  match r.jsonBody? body with
  | some v => .ofParts [["JSON.stringify("], literalAt .lowerCase 2 1 v, [")"]]
  | none => [.string body]

def headers (r : Request) : List (String × String) :=
  r.headers ++ (r.auth.map fun a => ("Authorization", a.header)).toList

def options (r : Request) : Snippet :=
  .ofBlocks [
    if r.method = "GET" then [] else [["  method: ", .string r.method, ","]],
    headerBlock (headers r),
    optional r.body fun b => [.ofParts [["  body: "], bodyPieces r b, [","]]]]

end Fetch

def fetch (r : Request) : Snippet :=
  .ofBlocks [
    [["const response = await fetch(", .string r.url, ", \x7b"]],
    Fetch.options r,
    [["\x7d);"],
      ["const data = await response.json();"],
      ["console.log(data);"]]]

end CurlSnippet.Snippet
