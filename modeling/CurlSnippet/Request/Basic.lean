import CurlSnippet.Base64
import CurlSnippet.Blank
import CurlSnippet.Letter.Case
import CurlSnippet.Request.Issue
import CurlSnippet.Utf8

/-!
A checked request. Its url is not empty, and its method is upper case, trimmed and not empty.
-/

namespace CurlSnippet

/-- A user and a password for basic authentication. -/
structure Credentials where
  user : String
  password : String
  deriving DecidableEq, Repr

namespace Credentials

/-- The value of the header that carries the credentials. -/
def header (a : Credentials) : String :=
  "Basic " ++ String.ofList (Base64.encode (utf8 (a.user.toList ++ ':' :: a.password.toList)))

def toJson (a : Credentials) : Json :=
  .ofMembers [("user", .ofString a.user), ("password", .ofString a.password)]

end Credentials

structure Request where
  url : String
  method : String
  headers : Entries String String
  body : Option String
  auth : Option Credentials
  isJson : Bool
  isForm : Bool
  url_ne : url ≠ ""
  method_ne : method ≠ ""
  deriving DecidableEq, Repr

namespace Request

def checkUrl (url : String) : Check { u : String // u ≠ "" } :=
  if h : url = "" then .under (Text.ofString "url") (.fail .emptyUrl) else .ok ⟨url, h⟩

def checkMethod (method : String) : Check { m : String // m ≠ "" } :=
  let m := upper (trim method)
  if h : m = "" then .under (Text.ofString "method") (.fail .emptyMethod) else .ok ⟨m, h⟩

/-- The request with a checked url and a checked method. -/
def ofChecked (url : { u : String // u ≠ "" }) (method : { m : String // m ≠ "" })
    (headers : Entries String String) (body : Option String) (auth : Option Credentials)
    (isJson isForm : Bool) : Request :=
  ⟨url.1, method.1, headers, body, auth, isJson, isForm, url.2, method.2⟩

/-- The request with these parts, if its url and its method can stand. -/
def check (url method : String) (headers : Entries String String) (body : Option String)
    (auth : Option Credentials) (isJson isForm : Bool) : Check Request :=
  match Check.both (checkUrl url) (checkMethod method) with
  | .ok (u, m) => .ok (ofChecked u m headers body auth isJson isForm)
  | .error issues => .error issues

def toJson (r : Request) : Json :=
  .ofMembers [
    ("url", .ofString r.url),
    ("method", .ofString r.method),
    ("headers", .ofMembers (r.headers.map fun h => (h.1, .ofString h.2))),
    ("body", .ofOption .ofString r.body),
    ("auth", .ofOption Credentials.toJson r.auth),
    ("is_json", .bool r.isJson),
    ("is_form_urlencoded", .bool r.isForm)]

end Request

end CurlSnippet
