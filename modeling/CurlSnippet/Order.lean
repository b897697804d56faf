import CurlSnippet.Arguments
import CurlSnippet.Settings

/-!
What a command line asks for. The first plain word names one of four actions, and the words after it
are read against the options of that action.
-/

namespace CurlSnippet

inductive Action where
  | convert
  | parse
  | samples
  | targets
  deriving DecidableEq, Repr

/-- The options that take no value. -/
inductive Toggle where
  | help
  | all
  deriving DecidableEq, Repr

/-- The options that take a value: two existing files, the label of a sample, and a target. -/
inductive Item where
  | file
  | samples
  | sample
  | target
  deriving DecidableEq, Repr

namespace Action

open Arguments

def all : List Action := [convert, parse, samples, targets]

def name : Action → String
  | convert => "convert"
  | parse => "parse"
  | samples => "samples"
  | targets => "targets"

def ofName? (name : String) : Option Action := all.find? (·.name = name)

def helpNames {φ ν : Type} (help : φ) : List (String × Opt φ ν) :=
  [("-h", .flag help), ("--help", .flag help)]

/-- The options of an action, in the order in which they are tried. -/
def options : Action → List (String × Opt Toggle Item)
  | convert => [("--file", .valued .file), ("--sample", .valued .sample),
      ("--samples", .valued .samples), ("--target", .valued .target), ("--all", .flag .all)]
  | parse => [("--file", .valued .file)]
  | samples => [("--samples", .valued .samples), ("--show", .valued .sample)]
  | targets => []

/-- The first two actions take a line as their operand. -/
def operand : Action → Operand
  | convert | parse => .one
  | samples | targets => .none

def grammar (a : Action) : Grammar Toggle Item := ⟨helpNames .help ++ a.options, a.operand⟩

/-- What stands before the action: a level of logging. -/
def preamble : Grammar Unit Unit := ⟨helpNames () ++ [("--log-level", .valued ())], .rest⟩

end Action

/-- Why a command line asks for nothing. -/
inductive Misuse where
  | fault (f : Arguments.Fault)
  | noSuchPath (label path : String)
  | unknownTarget (label : String) (unknown : Target.Unknown)
  | unknownAction (word : String)
  | noAction
  | unused (words : List String)
  deriving DecidableEq, Repr

def Misuse.message : Misuse → String
  | fault f => f.message
  | noSuchPath label path => "argument " ++ label ++ ": path not found: " ++ path
  | unknownTarget label unknown => "argument " ++ label ++ ": " ++ unknown.message
  | unknownAction word => "argument cmd: invalid choice: " ++ quoted word ++ " (choose from " ++
      ", ".intercalate (Action.all.map fun a => quoted a.name) ++ ")"
  | noAction => "the following arguments are required: cmd"
  | unused words => "unrecognized arguments: " ++ " ".intercalate words

/-- Why reading a command line ends early: someone asks for help, does not make sense, or names a
file whose name is too long to be looked up. -/
inductive Stop where
  | help
  | misuse (m : Misuse)
  | tooLong (p : Path)
  deriving DecidableEq, Repr

/-- An action with what its options and its operand say; an empty text says nothing. -/
structure Order where
  action : Action
  logLevel : String
  target : Target
  line : String
  file : Option Path
  sample : String
  samples : Option Path
  all : Bool
  deriving DecidableEq, Repr

/-- Where the line to work on comes from. -/
inductive Source where
  | sample (label : String)
  | file (path : Path)
  | operand (line : String)
  | input
  deriving DecidableEq, Repr

namespace Order

open Arguments

/-- A sample goes before a file, a file before the operand, and standard input comes last. -/
def source (o : Order) : Source :=
  if o.sample ≠ "" then .sample o.sample
  else match o.file with
    | some path => .file path
    | none => if o.line ≠ "" then .operand o.line else .input

/-- Whether the order waits for standard input. -/
def awaitsInput (o : Order) : Bool := o.action.operand = .one && o.source = .input

/-- An order without options or operand. -/
def plain (s : Settings) (logLevel : String) (a : Action) : Order :=
  ⟨a, logLevel, s.target, "", none, "", none, false⟩

/-- The path of a file that is there. -/
def existing (files : Files) (label text : String) : Except Stop Path :=
  let p := Path.ofString text
  match files.find p with
  | .file _ | .folder => .ok p
  | .missing | .notAFolder => .error (.misuse (.noSuchPath label text))
  | .tooLong => .error (.tooLong p)

/-- The order with one more part of the line taken into account. -/
def take (files : Files) (o : Order) : Part Toggle Item → Except Stop Order
  | .flag .help => .error .help
  | .flag .all => .ok { o with all := true }
  | .operand line _ => .ok { o with line := line }
  | .valued item text =>
    let label := o.action.grammar.label (.valued item)
    match item with
    | .sample => .ok { o with sample := text }
    | .file => (existing files label text).map fun p => { o with file := some p }
    | .samples => (existing files label text).map fun p => { o with samples := some p }
    | .target => match Target.ofName text with
      | .ok t => .ok { o with target := t }
      | .error u => .error (.misuse (.unknownTarget label u))

/-- The order with the words after its action taken into account, and the words of no use. -/
def extend (files : Files) (o : Order) (words : List String) : Except Stop (Order × List String) :=
  let r := o.action.grammar.read words
  match r.parts.foldlM (take files) o, r.fault with
  | .error s, _ => .error s
  | .ok _, some f => .error (.misuse (.fault f))
  | .ok o, none => .ok (o, r.extra)

/-- The order that the parts of a whole line give, if one of them is an action. -/
def ofParts? (s : Settings) (files : Files) (logLevel : String) :
    List (Part Unit Unit) → Except Stop (Option (Order × List String))
  | [] => .ok none
  | .flag _ :: _ => .error .help
  | .valued _ level :: rest => ofParts? s files level rest
  | .operand word rest :: _ => match Action.ofName? word with
    | some a => (extend files (plain s logLevel a) rest).map some
    | none => .error (.misuse (.unknownAction word))

/-- The order that a command line gives. -/
def ofLine (s : Settings) (files : Files) (words : List String) : Except Stop Order :=
  let r := Action.preamble.read words
  match ofParts? s files s.logLevel r.parts, r.fault with
  | .error stop, _ => .error stop
  | .ok _, some f => .error (.misuse (.fault f))
  | .ok none, none => .error (.misuse .noAction)
  | .ok (some (o, unused)), none =>
    match r.extra ++ unused with
    | [] => .ok o
    | words => .error (.misuse (.unused words))

end Order

end CurlSnippet
