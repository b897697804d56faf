import CurlSnippet.Command.Draft
import CurlSnippet.Words

/-!
Reading a curl call. The words after the keyword fall into parts, each a flag with its argument, a
positional word or an unknown flag; the parts are applied to a draft from left to right.
-/

namespace CurlSnippet

/-- Why a line gives no request. -/
inductive CommandError where
  | notACommand
  | missingUrl
  | invalid (issues : List Issue)
  deriving DecidableEq, Repr

namespace CommandError

def message : CommandError → String
  | notACommand => "input is empty or does not start with 'curl'"
  | missingUrl => "no URL found in the curl command"
  | invalid issues => "\n".intercalate (issues.map fun i => i.fault.message)

end CommandError

namespace Command

/-- A part of a call. -/
inductive Part where
  | flag (f : Flag) (arg : String)
  | positional (word : String)
  | ignored (word : String)
  deriving DecidableEq, Repr

def isDashed (word : String) : Bool := word.toList.head? == some '-'

/-- The part of a word that is no known flag. -/
def plainPart (word : String) : Part :=
  if isDashed word then .ignored word else .positional word

/-- The parts of the words after the keyword. A flag takes the next word for its argument whatever
it looks like, and an empty one at the end of the line. -/
def parts : List String → List Part
  | [] => []
  | [w] => match Flag.ofName? w with
    | some f => [.flag f ""]
    | none => [plainPart w]
  | w :: a :: rest => match Flag.ofName? w with
    | some f =>
      if f.takesArgument then .flag f a :: parts rest else .flag f "" :: parts (a :: rest)
    | none => plainPart w :: parts (a :: rest)

/-- The first positional word that is not empty is the url. -/
def applyPart (d : Draft) : Part → Draft
  | .flag f arg => d.apply f arg
  | .positional w => if d.url = "" then { d with url := w } else d
  | .ignored _ => d

def draft (ps : List Part) : Draft := ps.foldl applyPart .empty

def keyword : String := "curl"

/-- The request that the words of a line call for. -/
def ofWords (words : List String) : Except CommandError Request :=
  match words with
  | [] => .error .notACommand
  | w :: rest =>
    if lower w ≠ keyword then .error .notACommand
    else
      let d := draft (parts rest)
      if d.url = "" then .error .missingUrl
      else match d.finish with
        | .ok r => .ok r
        | .error issues => .error (.invalid issues)

/-- The request that a line calls for. -/
def read (line : String) : Except CommandError Request := ofWords (Words.split line)

end Command

end CurlSnippet
