import CurlSnippet.Arguments.Form

/-!
Reading a command line. Its words fall into parts, each an option with its value or the operand, and
words that belong to nothing. Parts before a fault stand, so that what they ask for comes first.
-/

namespace CurlSnippet.Arguments

inductive Part (φ ν : Type) where
  | flag (f : φ)
  | valued (v : ν) (text : String)
  | operand (word : String) (rest : List String)
  deriving DecidableEq, Repr

/-- What one word with an option in it says: its parts, an option that waits for the next word, and
letters without meaning. -/
structure Said (φ ν : Type) where
  parts : List (Part φ ν)
  waiting : Option ν
  extra : List String
  deriving DecidableEq, Repr

/-- An option without text attached. -/
def Said.ofOpt {φ ν : Type} : Opt φ ν → Said φ ν
  | .flag f => ⟨[.flag f], none, []⟩
  | .valued v => ⟨[], some v, []⟩

def Said.after {φ ν : Type} (f : φ) (s : Said φ ν) : Said φ ν :=
  { s with parts := .flag f :: s.parts }

/-- What a command line says, up to a fault if there is one. -/
structure Reading (φ ν : Type) where
  parts : List (Part φ ν)
  extra : List String
  fault : Option Fault
  deriving DecidableEq, Repr

namespace Reading

variable {φ ν : Type}

def empty : Reading φ ν := ⟨[], [], none⟩

def stop (f : Fault) : Reading φ ν := ⟨[], [], some f⟩

def withParts (ps : List (Part φ ν)) (r : Reading φ ν) : Reading φ ν :=
  { r with parts := ps ++ r.parts }

def withExtra (ws : List String) (r : Reading φ ν) : Reading φ ν :=
  { r with extra := ws ++ r.extra }

end Reading

namespace Grammar

variable {φ ν : Type} [DecidableEq φ] [DecidableEq ν] (g : Grammar φ ν)

/-- What an option with text attached says. A value takes the whole text; behind a letter that takes
none, further letters may follow. -/
def said (o : Opt φ ν) (isLetter assigned : Bool) (text : List Char) :
    Except Fault (Said φ ν) :=
  match o, text with
  | .valued v, _ => .ok ⟨[.valued v (String.ofList text)], none, []⟩
  | .flag _, [] => .error (.unusedValue (g.label o) "")
  | .flag f, c :: rest =>
    if !isLetter || assigned || c = '-' then
      .error (.unusedValue (g.label o) (String.ofList text))
    else match g.names.lookup (String.ofList ['-', c]), rest with
      | none, _ => .ok ⟨[.flag f], none, [String.ofList ('-' :: text)]⟩
      | some next, [] => .ok (.after f (.ofOpt next))
      | some next, '=' :: value => (said next true true value).map (.after f)
      | some next, d :: more => (said next true false (d :: more)).map (.after f)

def saidBy (o : Opt φ ν) (isLetter : Bool) : Option Attached → Except Fault (Said φ ν)
  | none => .ok (.ofOpt o)
  | some a => g.said o isLetter a.assigned a.text

/-- Reads words from left to right; `free` says that no operand has been met. The separator next to
a single operand belongs to it. -/
def scan (free : Bool) : List (Word φ ν) → Reading φ ν
  | [] => .empty
  | ⟨w, .unknown⟩ :: rest => (scan free rest).withExtra [w]
  | ⟨w, .separator⟩ :: rest => match free, g.operand, rest with
    | true, .one, _ => scan free rest
    | true, .rest, _ :: _ => ⟨[.operand w (rest.map (·.text))], [], none⟩
    | _, _, _ => (scan free rest).withExtra [w]
  | ⟨w, .plain⟩ :: rest => match free, g.operand with
    | true, .rest => ⟨[.operand w (rest.map (·.text))], [], none⟩
    | true, .one => match rest with
      | ⟨_, .separator⟩ :: rest => (scan false rest).withParts [.operand w []]
      | rest => (scan false rest).withParts [.operand w []]
    | _, _ => (scan free rest).withExtra [w]
  | ⟨_, .option o isLetter attached⟩ :: rest => match g.saidBy o isLetter attached with
    | .error f => .stop f
    | .ok ⟨parts, none, extra⟩ => ((scan free rest).withParts parts).withExtra extra
    | .ok ⟨parts, some v, extra⟩ => match rest with
      | ⟨value, .plain⟩ :: rest =>
        ((scan free rest).withParts (parts ++ [.valued v value])).withExtra extra
      | _ => .stop (.missingValue (g.label (.valued v)))

/-- What the words of a command line say. -/
def read (line : List String) : Reading φ ν :=
  match g.words line with
  | .ok ws => g.scan true ws
  | .error f => .stop f

end Grammar

end CurlSnippet.Arguments
