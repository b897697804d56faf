import CurlSnippet.Files
import CurlSnippet.Settings.EnvFile
import CurlSnippet.Target

/-!
The settings of a run: three variables, each taken from the process if it is set there and otherwise
from one file of variables.
-/

namespace CurlSnippet

structure Settings where
  target : Target
  samples : Option Path
  logLevel : String
  deriving DecidableEq, Repr

namespace Settings

/-- Why there are no settings. -/
inductive Error where
  | undecodable (fault : Utf8.Fault)
  | badVariable (fault : EnvFile.Fault)
  | unknownTarget (unknown : Target.Unknown)
  deriving DecidableEq, Repr

def Error.message : Error → String
  | undecodable f => f.message
  | badVariable f => f.message
  | unknownTarget u => u.message

def targetVariable : String := "CURL_TRANSPILER_TARGET"

def samplesVariable : String := "CURL_TRANSPILER_SAMPLES"

def logLevelVariable : String := "CURL_TRANSPILER_LOG_LEVEL"

def fileName : String := ".env"

/-- The file of variables that counts: the one asked for, else that of the project, else the nearest
from the working directory upwards. Where the one asked for is no file, or a folder has the name in
the project, none is looked for in its place. -/
def source (files : Files) (envFile : Option String) : Option Bytes :=
  match envFile with
  | some name => match files.find (.ofString name) with
    | .file bytes => some bytes
    | _ => none
  | none => match files.inProject fileName with
    | .file bytes => some bytes
    | .missing => files.upward.findSome? (·.get? fileName)
    | _ => none

/-- The settings that variables make; an empty value counts as none. -/
def ofVariables (env : Entries String String) : Except Error Settings :=
  let value (name : String) : String := (env.get? name).getD ""
  let target := trim (value targetVariable)
  let samples := trim (value samplesVariable)
  let level := value logLevelVariable
  let settings (t : Target) : Settings := {
    target := t
    samples := if samples = "" then none else some (.ofString samples)
    logLevel := upper (trim (if level = "" then "WARNING" else level)) }
  if target = "" then .ok (settings .fallback)
  else match Target.ofName target with
    | .ok t => .ok (settings t)
    | .error u => .error (.unknownTarget u)

/-- The settings of a process with these variables. -/
def load (process : Entries String String) (files : Files) (envFile : Option String) :
    Except Error Settings :=
  match source files envFile with
  | none => ofVariables process
  | some bytes => match Files.textOf bytes with
    | .error f => .error (.undecodable f)
    | .ok text => match EnvFile.merge process text with
      | .ok env => ofVariables env
      | .error f => .error (.badVariable f)

end Settings

end CurlSnippet
