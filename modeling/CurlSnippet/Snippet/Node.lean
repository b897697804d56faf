import CurlSnippet.Snippet.Body
import CurlSnippet.Url

/-!
Client code for the transport modules of Node.js. A URL that cannot be taken apart leaves a note and
a skeleton.
-/

namespace CurlSnippet.Snippet

namespace Node

def dataPieces (r : Request) (body : String) : Line :=
  match r.jsonBody? body with
  | some v => .ofParts [["JSON.stringify("], literalAt .lowerCase 2 0 v, [")"]]
  | none => [.string body]

/-- The headers with the expressions of their values; the length of a body is computed. -/
def headers (r : Request) : List (String × Piece) :=
  r.headers.map (fun h => (h.1, .string h.2)) ++
    (r.body.map fun _ => ("Content-Length", .code "Buffer.byteLength(postData)")).toList ++
    (r.auth.map fun a => ("Authorization", .string a.header)).toList

def headerOptions (r : Request) : Snippet :=
  if (headers r).isEmpty then []
  else .ofBlocks [
    [["  headers: \x7b"]],
    (headers r).map fun h => ["    ", .string h.1, ": ", h.2, ","],
    [["  \x7d,"]]]

def options (r : Request) (e : Endpoint) : Snippet :=
  .ofBlocks [
    [["const options = \x7b"],
      ["  hostname: ", .string e.host, ","]],
    if e.hasUnusualPort then [["  port: ", String.ofList (Nat.toDigits 10 e.port), ","]] else [],
    [["  path: ", .string e.path, ","],
      ["  method: ", .string r.method, ","]],
    headerOptions r,
    [["\x7d;"]]]

def call (e : Endpoint) : Snippet := [
  ["const req = ", e.protocol.name, ".request(options, (res) => \x7b"],
  ["  let data = '';"],
  ["  res.on('data', (chunk) => \x7b data += chunk; \x7d);"],
  ["  res.on('end', () => \x7b console.log(JSON.parse(data)); \x7d);"],
  ["\x7d);"],
  [],
  ["req.on('error', (e) => \x7b console.error(e); \x7d);"]]

def skeleton (url : String) : Snippet := [
  ["// Could not fully parse the URL: ", .string url],
  ["// Please adjust hostname, path and port below."],
  ["const https = require('https');"],
  ["// ... (manual setup required)"]]

/-- The code for a URL that has been taken apart. -/
def withEndpoint (r : Request) (e : Endpoint) : Snippet :=
  .ofBlocks [
    [["const ", e.protocol.name, " = require('", e.protocol.name, "');"], []],
    optional r.body fun b => [.ofParts [["const postData = "], dataPieces r b, [";"]], []],
    options r e,
    [[]],
    call e,
    optional r.body fun _ => [["req.write(postData);"]],
    [["req.end();"]]]

end Node

def node (r : Request) : Snippet :=
  match Url.endpoint? r.url with
  | some e => Node.withEndpoint r e
  | none => Node.skeleton r.url

end CurlSnippet.Snippet
