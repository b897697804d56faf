import CurlSnippet.Blank
import CurlSnippet.Letter.Case
import CurlSnippet.Url.Authority
import CurlSnippet.Url.Percent

/-!
Taking apart an http or https URL into what a transport call needs. White space around the URL is
dropped, tabs and line ends inside it are left out, and path and query are percent-encoded.
-/

namespace CurlSnippet

inductive Protocol where
  | http
  | https
  deriving DecidableEq, Repr

namespace Protocol

def name : Protocol → String
  | http => "http"
  | https => "https"

def defaultPort : Protocol → Nat
  | http => 80
  | https => 443

def ofName? (name : List Char) : Option Protocol :=
  let n := name.map Char.toLower
  if n = "http".toList then some http else if n = "https".toList then some https else none

end Protocol

/-- Where a request goes: the path with its query, and a host without brackets. -/
structure Endpoint where
  protocol : Protocol
  host : String
  port : Nat
  path : String
  deriving DecidableEq, Repr

namespace Endpoint

def hasUnusualPort (e : Endpoint) : Bool := e.port != e.protocol.defaultPort

end Endpoint

namespace Url

/-- The components of a URL as they are written. -/
structure Components where
  scheme : List Char
  authority : List Char
  path : List Char
  query : List Char
  deriving DecidableEq, Repr

def clean (url : List Char) : List Char :=
  ((Blank.trim url).dropWhile (· ≤ ' ')).filter fun c => !(c == '\t' || c == '\n' || c == '\r')

def endsAuthority (c : Char) : Bool := c == '/' || c == '?' || c == '#'

/-- The components of a URL with an authority; the fragment is dropped. -/
def components? (url : List Char) : Option Components :=
  match Search.cut? (· == ':') (clean url) with
  | some (scheme, '/' :: '/' :: rest) =>
    let authority := rest.takeWhile fun c => !endsAuthority c
    let resource := (rest.dropWhile fun c => !endsAuthority c).takeWhile (· != '#')
    match Search.cut? (· == '?') resource with
    | some (path, query) => some ⟨scheme, authority, path, query⟩
    | none => some ⟨scheme, authority, resource, []⟩
  | _ => none

/-- Lower case, apart from the zone of an address. -/
def lowerHost (host : List Char) : List Char :=
  match Search.cut? (· == '%') host with
  | some (name, zone) => Letter.lower name ++ '%' :: zone
  | none => Letter.lower host

def encodedPath (c : Components) : List Char :=
  let path := Percent.encode Percent.isPathChar (if c.path.isEmpty then ['/'] else c.path)
  if c.query.isEmpty then path else path ++ '?' :: Percent.encode Percent.isQueryChar c.query

def endpoint? (url : String) : Option Endpoint := do
  let c ← components? url.toList
  let protocol ← Protocol.ofName? c.scheme
  let a ← Authority.ofChars? c.authority
  let port ← a.portNumber? protocol.defaultPort
  if a.host.isEmpty then none
  else some ⟨protocol, String.ofList (lowerHost a.host), port, String.ofList (encodedPath c)⟩

end Url

end CurlSnippet
