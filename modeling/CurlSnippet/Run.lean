import CurlSnippet.Command.OfText
import CurlSnippet.Convert
import CurlSnippet.LogLevel
import CurlSnippet.Order
import CurlSnippet.Samples

/-!
A whole run, from what a session brings to what it prints. A failure with a report ends the run with
that message; one without breaks it off.
-/

namespace CurlSnippet

/-- What a session brings: variables, files, and the text on standard input. -/
structure Session where
  environment : Entries String String
  files : Files
  input : String
  deriving DecidableEq, Repr

/-- What a run stands on: the code points that standard output takes, and for what the stack of the
interpreter is deep enough. Writing code for a nested body needs a deep one, and so does loading a
nested file of samples. -/
structure Host where
  takes : CodePoint → Bool
  writes : Request → Target → Bool
  loads : String → Bool

namespace Host

/-- A host with such a standard output and with a stack that never ends. -/
def ofOutput (takes : CodePoint → Bool) : Host := ⟨takes, fun _ _ => true, fun _ => true⟩

/-- Standard output in UTF-8 takes every character and no lone surrogate. -/
def utf8 : Host := ofOutput fun p => p.char?.isSome

end Host

/-- Why a run fails. -/
inductive Failure where
  | settings (e : Settings.Error)
  | misuse (m : Misuse)
  | logLevel (f : LogLevel.Fault)
  | unreadable (e : Files.ReadError)
  | samples (e : Samples.Error)
  | unknownSample (u : Samples.Unknown)
  | refused
  | unparsed (e : CommandError)
  | invalid (issues : List Issue)
  | emptyInput
  | exhausted
  | unprintable

namespace Failure

/-- The message for the person at the command line, if the failure has one. -/
def report? : Failure → Option String
  | settings e => some ("invalid configuration: " ++ e.message)
  | misuse m => some m.message
  | samples e => if e.isReported then e.message?.map ("cannot load samples: " ++ ·) else none
  | unknownSample u => some u.message
  | refused => some Conversion.refusal
  | unparsed e => some (Conversion.refusal ++ " (" ++ e.message ++ ")")
  | emptyInput => some "empty input (pass a curl command, --file, --sample or stdin)"
  | logLevel _ | unreadable _ | invalid _ | exhausted | unprintable => none

/-- The exit status: two for a command line that makes no sense, else one. -/
def status : Failure → Nat
  | misuse _ => 2
  | _ => 1

end Failure

namespace Host

/-- Whether the samples of a file, if it can be read, can be loaded. -/
def loadsFrom (h : Host) (files : Files) (path : Option Path) : Bool :=
  path.all fun p => match files.read p with
    | .ok text => h.loads text
    | .error _ => true

def code (h : Host) (r : Request) (t : Target) : Except Failure Text :=
  if h.writes r t then .ok (r.code t) else .error .exhausted

/-- Text as it is printed, if standard output takes all of it. -/
def printed (h : Host) (t : Text) : Except Failure Text :=
  if t.all h.takes then .ok (t ++ [.scalar '\n']) else .error .unprintable

end Host

namespace Session

/-- The samples of the file that an order names, else of the one in the settings, else the built-in
ones. -/
def samples (n : Session) (h : Host) (s : Settings) (o : Order) : Except Failure Samples :=
  let path := o.samples.or s.samples
  if h.loadsFrom n.files path then (Samples.load n.files path).mapError .samples
  else .error .exhausted

def sample (n : Session) (h : Host) (s : Settings) (o : Order) (label : String) :
    Except Failure Text := do
  (Samples.command (← n.samples h s o) (.ofString label)).mapError .unknownSample

/-- The line that an order works on. Only a sample can hold a lone surrogate. -/
def line (n : Session) (h : Host) (s : Settings) (o : Order) : Except Failure Text :=
  match o.source with
  | .sample label => n.sample h s o label
  | .file path => ((n.files.read path).map .ofString).mapError .unreadable
  | .operand line => .ok (.ofString line)
  | .input => .ok (.ofString (Files.unified n.input))

/-- The request of a line; broken text in it has no report, whatever other refusals come to. -/
def request (refusal : CommandError → Failure) (line : Text) : Except Failure Request :=
  match Command.ofText line with
  | .ok r => .ok r
  | .error (.invalid issues) => .error (.invalid issues)
  | .error e => .error (refusal e)

/-- The code for every target, each under its label. -/
def blocks (codes : List (Target × Text)) : Text :=
  List.intercalate (Text.ofString "\n\n") (codes.map fun c =>
    Text.ofString ("===== " ++ c.1.label ++ " =====\n") ++ c.2)

def codeForAll (h : Host) (line : Text) : Except Failure Text := do
  let r ← request (fun _ => .refused) line
  let codes ← Target.all.mapM fun t => (h.code r t).map (t, ·)
  return blocks codes

/-- The conversion of a line for a target; see `Conversion.ofLine`. -/
def conversion (h : Host) (line : Text) (t : Target) : Except Failure Conversion :=
  if isBlankText line then .ok ⟨[], ""⟩
  else match Command.ofText line with
    | .ok r => (h.code r t).map (⟨·, ""⟩)
    | .error (.invalid issues) => .error (.invalid issues)
    | .error _ => .ok ⟨[], Conversion.refusal⟩

def codeFor (h : Host) (line : Text) (t : Target) : Except Failure Text := do
  let c ← conversion h line t
  if c.error ≠ "" then .error .refused
  else if !c.succeeded then .error .emptyInput
  else .ok c.output

/-- The request of a line as JSON. -/
def requestText (line : Text) : Except Failure Text :=
  (request .unparsed line).map fun r => r.toJson.pretty 2

/-- What an order makes of a line. -/
def made (h : Host) (o : Order) (line : Text) : Except Failure Text :=
  match o.action with
  | .parse => requestText line
  | _ => if o.all then codeForAll h line else codeFor h line o.target

/-- What an order prints, without the line feed at the end. -/
def answer (n : Session) (h : Host) (s : Settings) (o : Order) : Except Failure Text :=
  match o.action with
  | .convert | .parse => n.line h s o >>= made h o
  | .samples =>
    if o.sample ≠ "" then n.sample h s o o.sample
    else (n.samples h s o).map fun samples => .lines samples.keys
  | .targets => .ok (.lines (Target.all.map fun t => Text.ofString (t.name ++ "\t" ++ t.label)))

/-- What a run with these words prints. Help is not written out. -/
def run (n : Session) (h : Host) (words : List String) : Except Failure Text :=
  match Settings.load n.environment n.files none with
  | .error e => .error (.settings e)
  | .ok s => match Order.ofLine s n.files words with
    | .error .help => .ok []
    | .error (.misuse m) => .error (.misuse m)
    | .error (.tooLong p) => .error (.unreadable (.tooLong p))
    | .ok o => match LogLevel.fault? o.logLevel with
      | some f => .error (.logLevel f)
      | none => n.answer h s o >>= h.printed

end Session

end CurlSnippet
