import CurlSnippet.Url

/-!
Taking a URL apart with the faults that may come up, and the parts that a transport call is made
of. After a fault there is nothing to call, and the same holds without a host or for a scheme that
no transport module serves.
-/

namespace CurlSnippet.Url

/-- Why a URL cannot be taken apart. -/
inductive Fault where
  /-- A bracket without its partner, or brackets that enclose no address. -/
  | brackets
  /-- A character that would pass for a delimiter of the authority. -/
  | lookalike
  /-- A port with other characters than digits. -/
  | portText
  /-- A port of more digits than are read. -/
  | longPort
  /-- A number past the last port. -/
  | portRange
  deriving DecidableEq, Repr

namespace Authority

def read (cs : List Char) : Except Fault Authority :=
  let (user, hostPort) := cutUserInfo cs
  let opens := cs.contains '['
  if opens != cs.contains ']' || (opens && !bracketsFit hostPort) then .error .brackets
  else if cs.any isLookalike then .error .lookalike
  else
    let (host, port) := hostAndPort hostPort
    .ok ⟨user, host, port⟩

/-- The number of the port, nothing without a port. -/
def readPort (a : Authority) : Except Fault (Option Nat) :=
  if a.port.isEmpty then .ok none
  else if !a.port.all Char.isDigit then .error .portText
  else if maxPortDigits < a.port.length then .error .longPort
  else
    let n := Nat.ofDigitChars 10 a.port 0
    if n ≤ 65535 then .ok (some n) else .error .portRange

end Authority

/-- A URL taken apart: its components, the host without brackets, and the port if one is given. -/
structure Parts extends Components where
  host : List Char
  port : Option Nat
  deriving DecidableEq, Repr

def isSchemeChar (c : Char) : Bool := c.isAlphanum || c == '+' || c == '-' || c == '.'

/-- A letter, then letters, digits and marks. -/
def isScheme : List Char → Bool
  | [] => false
  | c :: rest => c.isAlpha && rest.all isSchemeChar

/-- The scheme before the first colon and what follows the colon. All of the text follows where no
scheme stands before a colon. -/
def cutScheme (cs : List Char) : List Char × List Char :=
  match Search.cut? (· == ':') cs with
  | some (scheme, rest) => if isScheme scheme then (scheme, rest) else ([], cs)
  | none => ([], cs)

/-- The authority after two slashes and what follows it. -/
def cutAuthority : List Char → List Char × List Char
  | '/' :: '/' :: rest =>
    (rest.takeWhile fun c => !endsAuthority c, rest.dropWhile fun c => !endsAuthority c)
  | cs => ([], cs)

/-- The components of a URL by its scheme and what follows the scheme; the fragment is dropped. -/
def Components.ofRest (scheme rest : List Char) : Components :=
  let (authority, resource) := cutAuthority rest
  let (path, query) := Authority.cutOr '?' (resource.takeWhile (· != '#'))
  ⟨scheme, authority, path, query⟩

/-- The components of any URL, empty where they are missing. -/
def reference (url : List Char) : Components :=
  let (scheme, rest) := cutScheme (clean url)
  .ofRest scheme rest

def split (url : String) : Except Fault Parts := do
  let c := reference url.toList
  let a ← Authority.read c.authority
  let port ← a.readPort
  return ⟨c, a.host, port⟩

/-- The parts of a URL that a transport call can be made of. -/
def transport? (url : String) : Option Parts :=
  match split url with
  | .error _ => none
  | .ok p => if (Protocol.ofName? p.scheme).isSome ∧ ¬ p.host.isEmpty then some p else none

/-- Where a call goes that uses the protocol. -/
def Parts.endpoint (p : Parts) (protocol : Protocol) : Endpoint :=
  ⟨protocol, String.ofList (lowerHost p.host), p.port.getD protocol.defaultPort,
    String.ofList (encodedPath p.toComponents)⟩

end CurlSnippet.Url
