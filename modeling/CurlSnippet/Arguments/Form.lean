import CurlSnippet.Letter.Digit
import CurlSnippet.Quoted
import CurlSnippet.Search

/-!
The form of a word on a command line. A word with a dash in front may mean an option: by its whole
name, by the beginning of one long name only, or by a letter with more text behind it. All words
after a pair of dashes are plain.
-/

namespace CurlSnippet.Arguments

/-- An option either says all by itself or takes a value. -/
inductive Opt (φ ν : Type) where
  | flag (f : φ)
  | valued (v : ν)
  deriving DecidableEq, Repr

/-- What a command takes besides options: nothing, one word, or a word with all that follows it. -/
inductive Operand where
  | none
  | one
  | rest
  deriving DecidableEq, Repr

/-- The options of a command by name, with one dash before a letter and two before a word. -/
structure Grammar (φ ν : Type) where
  names : List (String × Opt φ ν)
  operand : Operand

/-- Why a command line cannot be read. -/
inductive Fault where
  | ambiguous (word : String) (names : List String)
  | missingValue (label : String)
  | unusedValue (label value : String)
  deriving DecidableEq, Repr

def Fault.message : Fault → String
  | ambiguous word names =>
    "ambiguous option: " ++ word ++ " could match " ++ ", ".intercalate names
  | missingValue label => "argument " ++ label ++ ": expected one argument"
  | unusedValue label value =>
    "argument " ++ label ++ ": ignored explicit argument " ++ quoted value

/-- Text in the same word as an option's name: after an equals sign, or right behind a letter. -/
structure Attached where
  assigned : Bool
  text : List Char
  deriving DecidableEq, Repr

inductive Form (φ ν : Type) where
  | plain
  | separator
  | option (o : Opt φ ν) (isLetter : Bool) (attached : Option Attached)
  | unknown
  deriving DecidableEq, Repr

/-- A word with its form. -/
structure Word (φ ν : Type) where
  text : String
  form : Form φ ν
  deriving DecidableEq, Repr

/-- A dash and digits, perhaps with a point before the last of them; a line feed may follow. -/
def isNegativeNumber : List Char → Bool
  | '-' :: cs =>
    let number := if cs.getLast? = some '\n' then cs.dropLast else cs
    let whole := number.takeWhile Letter.isDigit
    match number.dropWhile Letter.isDigit with
    | [] => !whole.isEmpty
    | '.' :: fraction => !fraction.isEmpty && fraction.all Letter.isDigit
    | _ => false
  | _ => false

/-- The name in a word and the value after its first equals sign. -/
def assignment (w : List Char) : List Char × Option Attached :=
  match Search.cut? (· == '=') w with
  | some (name, value) => (name, some ⟨true, value⟩)
  | none => (w, none)

/-- Whether a name has one dash. -/
def isLetterName : List Char → Bool
  | '-' :: '-' :: _ => false
  | _ => true

namespace Grammar

variable {φ ν : Type} (g : Grammar φ ν)

/-- The options that a word may mean though it is no whole name. -/
def candidates (w : List Char) : List (String × Form φ ν) :=
  if isLetterName w then
    g.names.filterMap fun n =>
      if n.1.toList = w.take 2 then some (n.1, .option n.2 true (some ⟨false, w.drop 2⟩)) else none
  else
    let (name, value) := assignment w
    g.names.filterMap fun n =>
      if name.isPrefixOf n.1.toList then some (n.1, .option n.2 false value) else none

def form (word : String) : Except Fault (Form φ ν) :=
  let w := word.toList
  if w.head? ≠ some '-' ∨ w.length = 1 then .ok .plain
  else
    let (name, value) := assignment w
    match g.names.lookup (String.ofList name) with
    | some o => .ok (.option o (isLetterName name) value)
    | none => match g.candidates w with
      | [] => .ok (if isNegativeNumber w || w.contains ' ' then .plain else .unknown)
      | [c] => .ok c.2
      | cs => .error (.ambiguous word (cs.map (·.1)))

theorem form_eq_plain {word : String} (h : word.toList.head? ≠ some '-') :
    g.form word = .ok .plain := by
  simp [form, h]

/-- The words of a line with their forms. -/
def words : List String → Except Fault (List (Word φ ν))
  | [] => .ok []
  | w :: rest =>
    if w = "--" then .ok (⟨w, .separator⟩ :: rest.map (⟨·, .plain⟩))
    else match g.form w, words rest with
      | .ok f, .ok ws => .ok (⟨w, f⟩ :: ws)
      | .error e, _ | _, .error e => .error e

/-- The names of an option, as messages give them. -/
def label [DecidableEq φ] [DecidableEq ν] (o : Opt φ ν) : String :=
  "/".intercalate ((g.names.filter (·.2 = o)).map (·.1))

end Grammar

end CurlSnippet.Arguments
