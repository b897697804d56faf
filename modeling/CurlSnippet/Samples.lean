import CurlSnippet.Blank
import CurlSnippet.Files
import CurlSnippet.Yaml.Content

/-!
Example lines by label. A file of them is a mapping whose values are texts with something in them;
its keys are turned into text for labels.
-/

namespace CurlSnippet

abbrev Samples := Entries Text Text

namespace Samples

/-- The examples that are always there. -/
def builtInStrings : List (String × String) := [
  ("GET with headers",
    "curl https://api.example.com/users \\\n  -H 'Authorization: Bearer YOUR_TOKEN' \\\n" ++
    "  -H 'Accept: application/json'"),
  ("POST JSON",
    "curl -X POST https://api.example.com/users \\\n  -H 'Content-Type: application/json' \\\n" ++
    "  -H 'Authorization: Bearer YOUR_TOKEN' \\\n" ++
    "  -d '\x7b\"name\":\"John Doe\",\"email\":\"john@example.com\"\x7d'"),
  ("PUT with body",
    "curl -X PUT https://api.example.com/users/42 \\\n  -H 'Content-Type: application/json' \\\n" ++
    "  -d '\x7b\"name\":\"Jane Doe\"\x7d'"),
  ("Basic auth",
    "curl https://api.example.com/secure \\\n  -u username:password"),
  ("Form data",
    "curl -X POST https://api.example.com/login \\\n" ++
    "  -H 'Content-Type: application/x-www-form-urlencoded' \\\n" ++
    "  -d 'username=john&password=secret'")]

def builtIn : Samples := builtInStrings.map fun s => (.ofString s.1, .ofString s.2)

/-- Why the content of a file gives no samples. -/
inductive Fault where
  | notAMapping (path : Path)
  | badCommand (label : Yaml.Atom)
  | longLabel
  deriving DecidableEq, Repr

def Fault.message : Fault → String
  | notAMapping path => "samples file must be a non-empty YAML mapping: " ++ path.text
  | badCommand label => "sample " ++ label.shown ++ " must be a non-empty string"
  | longLabel => Yaml.Error.digitLimit ""

/-- A text with something in it. -/
def command? : Yaml.Value → Option Text
  | .atom (.str t) => if isBlankText t then none else some t
  | _ => none

/-- Adds the members of a mapping one after the other. -/
def addMembers (samples : Samples) : List (Yaml.Atom × Yaml.Value) → Except Fault Samples
  | [] => .ok samples
  | (label, v) :: rest =>
    if label.isLong then .error .longLabel
    else match command? v with
      | some c => addMembers (samples.put label.label c) rest
      | none => .error (.badCommand label)

/-- The samples of a decoded file. -/
def ofContent (path : Path) : Yaml.Content → Except Fault Samples
  | .mapping (m :: rest) => addMembers [] (m :: rest)
  | _ => .error (.notAMapping path)

/-- Why a file gives no samples. -/
inductive Error where
  | unreadable (e : Files.ReadError)
  | yaml (e : Yaml.Error)
  | fault (f : Fault)

/-- The message of an error, if it has one of its own. -/
def Error.message? : Error → Option String
  | unreadable e => some e.message
  | yaml e => e.message?
  | fault f => some f.message

/-- Whether the error is told to the person at the command line. -/
def Error.isReported : Error → Bool
  | yaml e => e.isOfValue
  | _ => true

/-- The samples of a text that was read from a path. -/
def ofText (path : Path) (text : String) : Except Error Samples :=
  match Yaml.Content.ofText text with
  | .error e => .error (.yaml e)
  | .ok c => match ofContent path c with
    | .ok s => .ok s
    | .error f => .error (.fault f)

/-- The samples of a file, or the built-in ones. -/
def load (files : Files) : Option Path → Except Error Samples
  | none => .ok builtIn
  | some path => match files.read path with
    | .ok text => ofText path text
    | .error e => .error (.unreadable e)

/-- A label that is not there, and those that are. -/
structure Unknown where
  label : Text
  known : List Text
  deriving DecidableEq, Repr

def Unknown.message (u : Unknown) : String :=
  "unknown sample " ++ u.label.quoted ++
    " (available: " ++ ", ".intercalate (u.known.map Text.quoted) ++ ")"

def command (samples : Samples) (label : Text) : Except Unknown Text :=
  match samples.get? label with
  | some c => .ok c
  | none => .error ⟨label, Entries.keys samples⟩

end Samples

end CurlSnippet
