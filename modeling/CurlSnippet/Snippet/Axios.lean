import CurlSnippet.Snippet.Body

/-!
Client code that passes one configuration object to axios, which serialises a body value itself.
-/

namespace CurlSnippet.Snippet

namespace Axios

def dataPieces (r : Request) (body : String) : Line :=
  match r.jsonBody? body with
  | some v => literalAt .lowerCase 2 1 v
  | none => [.string body]

def config (r : Request) : Snippet :=
  .ofBlocks [
    [["  method: ", .string (lower r.method), ","],
      ["  url: ", .string r.url, ","]],
    optional r.auth fun a => [
      ["  auth: \x7b"],
      ["    username: ", .string a.user, ","],
      ["    password: ", .string a.password, ","],
      ["  \x7d,"]],
    headerBlock r.headers,
    optional r.body fun b => [.ofParts [["  data: "], dataPieces r b, [","]]]]

end Axios

def axios (r : Request) : Snippet :=
  .ofBlocks [
    [["import axios from 'axios';"],
      [],
      ["const response = await axios(\x7b"]],
    Axios.config r,
    [["\x7d);"],
      ["console.log(response.data);"]]]

end CurlSnippet.Snippet
