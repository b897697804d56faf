import CurlSnippet.Convert
import CurlSnippet.Url.Split

/-!
Client code with the faults that may come up while it is written: a value of a kind that has no
literal, a whole number with too many digits, a scheme whose usual port is not known.
-/

namespace CurlSnippet

inductive WritingFault where
  /-- A value that is none of JSON, by the name of its kind. -/
  | unsupported (kind : String)
  /-- A whole number with more digits than are written. -/
  | longNumber (n : Int)
  /-- A scheme that is looked up for a port and has none. -/
  | noPort (scheme : List Char)
  deriving DecidableEq, Repr

/-- A value that is handed to a writer: one of the kinds of JSON, or of any other kind, of which only
the name is kept. -/
inductive Value where
  | null
  | bool (b : Bool)
  | int (n : Int)
  | float (x : Binary64)
  | str (t : Text)
  | list (items : List Value)
  | dict (members : List (Text × Value))
  | other (kind : String)

namespace Value

mutual

def ofJson : Json → Value
  | .null => null
  | .bool b => bool b
  | .int n => int n
  | .float x => float x
  | .str t => str t
  | .arr items => list (ofItems items)
  | .obj members => dict (ofMembers members)

def ofItems : List Json → List Value
  | [] => []
  | v :: rest => ofJson v :: ofItems rest

def ofMembers : List (Text × Json) → List (Text × Value)
  | [] => []
  | (k, v) :: rest => (k, ofJson v) :: ofMembers rest

end

mutual

/-- The value as JSON if all of it can be written, else what comes up first in the order of
writing. -/
def written : Value → Except WritingFault Json
  | null => .ok .null
  | bool b => .ok (.bool b)
  | int n =>
    if Json.maxIntDigits < (Nat.toDigits 10 n.natAbs).length then .error (.longNumber n)
    else .ok (.int n)
  | float x => .ok (.float x)
  | str t => .ok (.str t)
  | list items => (writtenItems items).map .arr
  | dict members => (writtenMembers members).map .obj
  | other kind => .error (.unsupported kind)

def writtenItems : List Value → Except WritingFault (List Json)
  | [] => .ok []
  | v :: rest => do
    let first ← written v
    let others ← writtenItems rest
    return first :: others

def writtenMembers : List (Text × Value) → Except WritingFault (List (Text × Json))
  | [] => .ok []
  | (k, v) :: rest => do
    let first ← written v
    let others ← writtenMembers rest
    return (k, first) :: others

end

/-- The literal of a value as it stands in code. -/
def literalAt (names : Spelling) (indent level : Int) (v : Value) : Except WritingFault Line :=
  v.written.map (CurlSnippet.literalAt names indent level)

/-- The value as JSON text in a layout. -/
def print (l : Json.Layout) (v : Value) : Except WritingFault Text := v.written.map (Json.print l)

/-- The value as JSON text with every item on its own line. -/
def pretty (indent : Int) (v : Value) : Except WritingFault Text :=
  v.written.map (Json.pretty indent)

end Value

/-- The transport module for a scheme; its usual port is looked up by the same name. -/
def Url.Parts.protocol (p : Url.Parts) : Except WritingFault Protocol :=
  match Protocol.ofName? p.scheme with
  | some protocol => .ok protocol
  | none => .error (.noPort p.scheme)

namespace Request

/-- The expression of a body: its text in quotes, or its value as the target writes values. -/
def writtenBody (r : Request) (body : String) (t : Target) : Except WritingFault Line :=
  match (r.jsonBody? body).map Value.ofJson with
  | none => .ok [.string body]
  | some v => match t with
    | .fetch => (v.literalAt .lowerCase 2 1).map fun l =>
      .ofParts [["JSON.stringify("], l, [")"]]
    | .axios => v.literalAt .lowerCase 2 1
    | .requests => v.literalAt .capitalized 4 0
    | .go => (v.pretty 2).map fun text => [Snippet.Go.textPiece text]
    | .node => (v.literalAt .lowerCase 2 0).map fun l =>
      .ofParts [["JSON.stringify("], l, [")"]]

/-- Writes the code for a target. A URL that cannot be taken apart is no fault: it leaves a note and
a skeleton, for which no body is written. -/
def generate (r : Request) (t : Target) : Except WritingFault Text := do
  match t with
  | .node =>
    match Url.transport? r.url with
    | none => return (Snippet.Node.skeleton r.url).text
    | some p =>
      let _ ← r.body.mapM (r.writtenBody · .node)
      let protocol ← p.protocol
      return (Snippet.Node.withEndpoint r (p.endpoint protocol)).text
  | t =>
    let _ ← r.body.mapM (r.writtenBody · t)
    return r.code t

end Request

end CurlSnippet
