import CurlSnippet.Run

/-!
The program on the command line. Every file that the words, the variables or the settings may mean
is read beforehand, so that the run itself only looks at bytes.
-/

namespace CurlSnippet.Main

def bytes? (path : String) : IO (Option Bytes) := do
  try return some (← IO.FS.readBinFile path).toList catch _ => return none

def contents (paths : List Path) : IO (List (Path × Bytes)) :=
  paths.filterMapM fun p => do return (← bytes? p.text).map (p, ·)

def environment (names : List String) : IO (Entries String String) :=
  names.filterMapM fun name => do return (← IO.getEnv name).map (name, ·)

/-- The file of variables in each directory from the working directory up to the root. -/
def settingsPaths (depth : Nat) : List Path :=
  (List.range (depth + 1)).map fun n => ⟨"", List.replicate n ".." ++ [Settings.fileName]⟩

/-- The paths that a word of the command line may name. -/
def wordPaths (word : String) : List Path :=
  match Arguments.assignment word.toList with
  | (_, some value) => [.ofString word, .ofString (String.ofList value.text)]
  | (_, none) => [.ofString word]

/-- Everything on standard input. -/
partial def readAll (stream : IO.FS.Stream) (before : String) : IO String := do
  let line ← stream.getLine
  if line.isEmpty then return before else readAll stream (before ++ line)

/-- The session around a command line, with nothing on standard input. -/
def session (words : List String) : IO Session := do
  let depth := ((← IO.currentDir).toString.toList.filter (· == '/')).length
  let project := (← bytes? ((← IO.appDir).toString ++ "/" ++ Settings.fileName)).toList.map
    (Settings.fileName, ·)
  let ofSettings ← contents (settingsPaths depth)
  let references := (project.map (·.2) ++ ofSettings.map (·.2)).flatMap fun bytes =>
    match Utf8.decode bytes with
    | .ok text => EnvFile.references text.toList
    | .error _ => []
  let env ← environment ([Settings.targetVariable, Settings.samplesVariable,
    Settings.logLevelVariable] ++ references)
  let samples := match Settings.load env (.ofContents depth project ofSettings) none with
    | .ok s => s.samples.toList
    | .error _ => []
  let named ← contents (words.flatMap wordPaths ++ samples)
  return ⟨env, .ofContents depth project (ofSettings ++ named), ""⟩

/-- Whether a run with these words waits for standard input. -/
def awaitsInput (n : Session) (words : List String) : Bool :=
  match Settings.load n.environment n.files none with
  | .error _ => false
  | .ok s => match Order.ofLine s n.files words with
    | .error _ => false
    | .ok o => o.awaitsInput

end CurlSnippet.Main

open CurlSnippet in
def main (words : List String) : IO UInt32 := do
  let n ← Main.session words
  let input ← if Main.awaitsInput n words then Main.readAll (← IO.getStdin) "" else pure ""
  match Session.run { n with input := input } .utf8 words with
  | .ok text =>
    (← IO.getStdout).putStr (text.toString?.getD "")
    return 0
  | .error f =>
    IO.eprintln (f.report?.getD "the run broke off")
    return f.status.toUInt32
