import CurlSnippet.Request.Basic

/-!
Reading a request from a JSON value. Unknown members are passed over, absent ones have a default
except the url and the user, and the issues of all members are reported together.
-/

namespace CurlSnippet

namespace Check

def text : Json → Check String
  | .str t => match t.toString? with
    | some s => .ok s
    | none => fail .brokenText
  | _ => fail .notText

def yesWords : List String := ["1", "on", "t", "true", "y", "yes"]

def noWords : List String := ["0", "off", "f", "false", "n", "no"]

/-- Truth values may be numbers equal to 0 or 1, or one of a few words in any case. -/
def bool : Json → Check Bool
  | .bool b => .ok b
  | .int n => if n = 0 then .ok false else if n = 1 then .ok true else fail .unclearBool
  | .float x =>
    if x.isZero then .ok false
    else if Binary64.ofDecimal false 1 0 = some x then .ok true
    else fail .notBool
  | .str t => match t.toString? with
    | some s =>
      let w := String.ofList (s.toList.map Char.toLower)
      if w ∈ yesWords then .ok true else if w ∈ noWords then .ok false else fail .unclearBool
    | none => fail .brokenText
  | _ => fail .notBool

/-- The check of a member, or its default when it is absent. -/
def member {α : Type} (members : List (Text × Json)) (key : String) (default : Check α)
    (check : Json → Check α) : Check α :=
  under (Text.ofString key) <|
    match Entries.get? members (Text.ofString key) with
    | some v => check v
    | none => default

def nullable {α : Type} (check : Json → Check α) : Json → Check (Option α)
  | .null => .ok none
  | v => match check v with
    | .ok a => .ok (some a)
    | .error e => .error e

/-- The check of a header, of which the name is a part of its own. -/
def header (m : Text × Json) : Check (String × String) :=
  under m.1 (both (under (Text.ofString "[key]") (text (.str m.1))) (text m.2))

def headers : Json → Check (Entries String String)
  | .obj members => all (members.map header)
  | _ => fail .notMap

end Check

namespace Credentials

def ofJson : Json → Check Credentials
  | .obj members =>
    match Check.both (Check.member members "user" (.fail .missing) Check.text)
      (Check.member members "password" (.ok "") Check.text) with
    | .ok (user, password) => .ok ⟨user, password⟩
    | .error e => .error e
  | _ => .fail (.notRecord "BasicAuth")

end Credentials

namespace Request

/-- Checks the contents of a text only when it is one. -/
def filled {α : Type} (c : Check String) (check : String → Check α) : Check α :=
  match c with
  | .ok s => check s
  | .error e => .error e

def ofJson : Json → Check Request
  | .obj members =>
    let url := filled (Check.member members "url" (.fail .missing) Check.text) checkUrl
    let method := filled (Check.member members "method" (.ok "GET") Check.text) checkMethod
    let headers := Check.member members "headers" (.ok []) Check.headers
    let body := Check.member members "body" (.ok none) (Check.nullable Check.text)
    let auth := Check.member members "auth" (.ok none) (Check.nullable Credentials.ofJson)
    let isJson := Check.member members "is_json" (.ok false) Check.bool
    let isForm := Check.member members "is_form_urlencoded" (.ok false) Check.bool
    match url.both (method.both (headers.both (body.both (auth.both (isJson.both isForm))))) with
    | .ok (u, m, headers, body, auth, isJson, isForm) =>
      .ok (ofChecked u m headers body auth isJson isForm)
    | .error issues => .error issues
  | _ => .fail (.notRecord "NormalizedRequest")

end Request

end CurlSnippet
