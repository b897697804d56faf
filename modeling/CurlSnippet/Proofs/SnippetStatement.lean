import CurlSnippet.Proofs.Scanning
import CurlSnippet.Proofs.SnippetBody

/-!
What a snippet states of a request besides its body, and how it is read off the text. Each target
has a grammar of its own, in which every literal has its place; a text is read by it from the first
character to the last.
-/

namespace CurlSnippet

/-- Where a snippet sends its request. -/
inductive Address where
  | url (u : String)
  | parts (protocol : List Char) (host : String) (port : Option (List Char)) (path : String)
  deriving DecidableEq, Repr

/-- How a snippet says which method it uses. -/
inductive MethodForm where
  | omitted
  | literal (m : String)
  /-- By the function that is called. -/
  | helper (name : List Char)
  deriving DecidableEq, Repr

inductive HeaderValue where
  | text (s : String)
  /-- The length of the body, computed when the snippet runs. -/
  | bodyLength
  deriving DecidableEq, Repr

structure Statement where
  address : Address
  method : MethodForm
  headers : List (String × HeaderValue)
  credentials : Option Credentials
  deriving DecidableEq, Repr

namespace Request

def statedAddress (r : Request) : Target → Address
  | .node => match Url.endpoint? r.url with
    | some e => .parts e.protocol.name.toList e.host
      (if e.hasUnusualPort then some (Nat.toDigits 10 e.port) else none) e.path
    | none => .url r.url
  | _ => .url r.url

def statedMethod (r : Request) : Target → MethodForm
  | .fetch => if r.method = "GET" then .omitted else .literal r.method
  | .axios => .literal (lower r.method)
  | .requests =>
    if r.method ∈ Snippet.Requests.helpers then .helper (lower r.method).toList
    else .literal r.method
  | .go | .node => .literal r.method

/-- The headers in their order, and those that a target adds for credentials and for a body. -/
def statedHeaders (r : Request) (t : Target) : List (String × HeaderValue) :=
  let length := (r.body.map fun _ => ("Content-Length", HeaderValue.bodyLength)).toList
  let auth := (r.auth.map fun a => ("Authorization", HeaderValue.text a.header)).toList
  r.headers.map (fun h => (h.1, .text h.2)) ++ match t with
    | .fetch => auth
    | .node => length ++ auth
    | _ => []

def statedCredentials (r : Request) : Target → Option Credentials
  | .fetch | .node => none
  | _ => r.auth

/-- The body, if it is sent as a value. -/
def payload? (r : Request) : Option String :=
  r.body.bind fun b => if (r.jsonBody? b).isSome then some b else none

/-- The body, if it is sent as text. -/
def data? (r : Request) : Option String :=
  r.body.bind fun b => if (r.jsonBody? b).isSome then none else some b

/-- What a snippet of the request has to state. -/
def stated (r : Request) (t : Target) : Statement :=
  ⟨r.statedAddress t, r.statedMethod t, r.statedHeaders t, r.statedCredentials t⟩

end Request

namespace Source

namespace Scanner

def headerValue : Scanner HeaderValue := do
  match ← option false "Buffer.byteLength(postData)" (pure ()) with
  | some _ => return .bodyLength
  | none => return .text (← literal)

/-- A header as a member of a map, after its indentation. -/
def header : Scanner (String × HeaderValue) := do
  let name ← literal
  mark false ": "
  let value ← headerValue
  mark false ","
  return (name, value)

/-- Headers with program text after them. -/
def headersThen (last : String) : Scanner (List (String × HeaderValue)) := do
  let headers ← many false "\n    " header
  mark false last
  return headers

/-- A map of headers between its first line and its last, or no headers. -/
def headerMap (first last : String) : Scanner (List (String × HeaderValue)) := do
  let headers ← option false first (headersThen last)
  return headers.getD []

/-- A literal with program text after it. -/
def literalThen (b : Bool) (s : String) : Scanner String := do
  let found ← literal
  mark b s
  return found

/-- A user and a password with program text between them and after them. -/
def credentials (b : Bool) (between last : String) : Scanner Credentials := do
  let user ← literal
  mark b between
  let password ← literal
  mark b last
  return ⟨user, password⟩

/-- A body expression after the program text before it, if it is there. -/
def body (b : Bool) (opener : String) (stop : Char) : Scanner (Option Unit) :=
  option b opener (passOver stop)

def fetch : Scanner Statement := do
  mark false "\nconst response = await fetch("
  let url ← literal
  mark false ", \x7b"
  let method ← option false "\n  method: " (literalThen false ",")
  let headers ← headerMap "\n  headers: \x7b" "\n  \x7d,"
  let _ ← body false "\n  body: " ','
  mark false "\n\x7d);\nconst data = await response.json();\nconsole.log(data);"
  return ⟨.url url, (method.map .literal).getD .omitted, headers, none⟩

def axios : Scanner Statement := do
  mark false "\nimport axios from 'axios';\n\nconst response = await axios(\x7b\n  method: "
  let method ← literal
  mark false ",\n  url: "
  let url ← literal
  mark false ","
  let auth ← option false "\n  auth: \x7b\n    username: "
    (credentials false ",\n    password: " ",\n  \x7d,")
  let headers ← headerMap "\n  headers: \x7b" "\n  \x7d,"
  let _ ← body false "\n  data: " ','
  mark false "\n\x7d);\nconsole.log(response.data);"
  return ⟨.url url, .literal method, headers, auth⟩

/-- The method and the function that is called with it. -/
def callee : Scanner MethodForm := do
  match ← option false "request(" (literalThen false ", url") with
  | some m => return .literal m
  | none =>
    let name ← run Char.isAlpha
    mark false "(url"
    return .helper name

/-- What has been bound to a name has to be passed on, and nothing else may be. -/
def passed (b : Bool) (s : String) (bound : Bool) : Scanner Unit := do
  let found ← option b s (pure ())
  guard (found.isSome = bound)

def requests : Scanner Statement := do
  mark false "\nimport requests\n"
  let headers ← headerMap "\nheaders = \x7b" "\n\x7d\n"
  let payload ← body false "\npayload = " '\n'
  let data ← body false "\ndata = " '\n'
  mark false "\nurl = "
  let url ← literal
  mark false "\n\nresponse = requests."
  let method ← callee
  passed false ", headers=headers" !headers.isEmpty
  let auth ← option false ", auth=(" (credentials false ", " ")")
  passed false ", json=payload" payload.isSome
  passed false ", data=data" data.isSome
  mark false ")\nprint(response.json())"
  return ⟨.url url, method, headers, auth⟩

/-- The lines of a program that gives up on any error. -/
def check : String := "\n\tif err != nil \x7b\n\t\tpanic(err)\n\t\x7d"

/-- A call that sets a header, after its beginning. -/
def headerCall : Scanner (String × HeaderValue) := do
  let name ← literal
  mark true ", "
  let value ← literal
  mark true ")"
  return (name, .text value)

def go : Scanner Statement := do
  mark true "\npackage main\n"
  mark true "\nimport (\n\t\"fmt\"\n\t\"io\"\n\t\"net/http\""
  let strings ← option true "\n\t\"strings\"" (pure ())
  mark true "\n)\n"
  mark true "\nfunc main() \x7b\n\turl := "
  let url ← literal
  mark true "\n"
  let body ← body true "\n\tbody := strings.NewReader(" ')'
  guard (body.isSome = strings.isSome)
  mark true "\n\treq, err := http.NewRequest("
  let method ← literal
  mark true (if body.isSome then ", url, body)" else ", url, nil)")
  mark true check
  mark true "\n"
  let headers ← many true "\n\treq.Header.Set(" headerCall
  let auth ← option true "\n\treq.SetBasicAuth(" (credentials true ", " ")")
  mark true (if headers.isEmpty && auth.isNone then "" else "\n")
  mark true "\n\tclient := &http.Client\x7b\x7d\n\tresp, err := client.Do(req)"
  mark true check
  mark true "\n\tdefer resp.Body.Close()\n\n\trespBody, err := io.ReadAll(resp.Body)"
  mark true check
  mark true "\n\tfmt.Println(string(respBody))\n\x7d"
  return ⟨.url url, .literal method, headers, auth⟩

/-- A body that is bound to a name, up to the empty line after it. -/
def postData : Scanner Unit := do
  passOver ';'
  mark false "\n"

def port : Scanner (List Char) := do
  let digits ← run Char.isDigit
  mark false ","
  return digits

def node : Scanner Statement := do
  mark false "\nconst "
  let protocol ← run Char.isAlpha
  mark false " = require('"
  let required ← run Char.isAlpha
  mark false "');\n"
  let body ← option false "\nconst postData = " postData
  mark false "\nconst options = \x7b\n  hostname: "
  let host ← literal
  mark false ","
  let port ← option false "\n  port: " port
  mark false "\n  path: "
  let path ← literal
  mark false ",\n  method: "
  let method ← literal
  mark false ","
  let headers ← headerMap "\n  headers: \x7b" "\n  \x7d,"
  mark false "\n\x7d;\n"
  mark false "\nconst req = "
  let caller ← run Char.isAlpha
  guard (required = protocol ∧ caller = protocol)
  mark false ".request(options, (res) => \x7b\n  let data = '';"
  mark false "\n  res.on('data', (chunk) => \x7b data += chunk; \x7d);"
  mark false "\n  res.on('end', () => \x7b console.log(JSON.parse(data)); \x7d);"
  mark false "\n\x7d);\n\nreq.on('error', (e) => \x7b console.error(e); \x7d);"
  passed false "\nreq.write(postData);" body.isSome
  mark false "\nreq.end();"
  return ⟨.parts protocol host port path, .literal method, headers, none⟩

end Scanner

end Source

namespace Target

open Source

def scanner : Target → Scanner Statement
  | .fetch => .fetch
  | .axios => .axios
  | .requests => .requests
  | .go => .go
  | .node => .node

/-- What a text states, read as a snippet from its first character to its last. -/
def statement? (t : Target) (code : Text) : Option Statement := do
  let ls ← read t.backquotes .code code
  let (s, rest) ← t.scanner (.code (.scalar '\n') :: ls)
  guard rest.isEmpty
  return s

end Target

end CurlSnippet
