import CurlSnippet.Letter.CaseTable
import CurlSnippet.Letter.ClassTable
import CurlSnippet.Text

/-!
Upper and lower case of any text. A letter may become several, and a capital sigma becomes the
final form of the small letter where a word ends.
-/

namespace CurlSnippet.Letter

def inRanges (ranges : List (Nat × Nat)) (c : Char) : Bool :=
  ranges.any fun r => r.1 ≤ c.toNat && c.toNat ≤ r.2

def CaseRange.holds (r : CaseRange) (n : Nat) : Bool :=
  r.first ≤ n && n ≤ r.last && (n - r.first) % r.step == 0

/-- The other case of a letter outside ASCII, by the two tables. -/
def otherCase (ranges : List CaseRange) (sequences : List (Nat × List Nat)) (c : Char) :
    List Char :=
  match sequences.find? fun s => s.1 == c.toNat with
  | some s => s.2.map Char.ofNat
  | none => match ranges.find? fun r => r.holds c.toNat with
    | some r => [Char.ofNat (c.toNat + r.distance).toNat]
    | none => [c]

def upperChar (c : Char) : List Char :=
  if c.toNat < 128 then [c.toUpper] else otherCase upperRanges upperSequences c

def lowerChar (c : Char) : List Char :=
  if c.toNat < 128 then [c.toLower] else otherCase lowerRanges lowerSequences c

def isIgnorable (c : Char) : Bool := inRanges ignorableRanges c

def isCased (c : Char) : Bool := c.isAlpha || inRanges casedRanges c

/-- Whether a letter with case comes first, apart from characters that are passed over. -/
def startsCased (cs : List Char) : Bool :=
  match cs.dropWhile isIgnorable with
  | [] => false
  | c :: _ => isCased c

/-- Lower case of what follows the given characters, of which the last comes first. -/
def lowerAfter : List Char → List Char → List Char
  | _, [] => []
  | before, c :: rest =>
    (if c = 'Σ' then [if startsCased before && !startsCased rest then 'ς' else 'σ']
      else lowerChar c) ++ lowerAfter (c :: before) rest

def upper (cs : List Char) : List Char := cs.flatMap upperChar

def lower (cs : List Char) : List Char := lowerAfter [] cs

/-- Lower case of a text after a run of characters, of which the last comes first. A surrogate has
no case and ends the run. -/
def lowerPoints (run : List Char) : Text → Text
  | [] => .ofChars (lower run.reverse)
  | .scalar c :: rest => lowerPoints (c :: run) rest
  | .surrogate o :: rest => .ofChars (lower run.reverse) ++ .surrogate o :: lowerPoints [] rest

end CurlSnippet.Letter

namespace CurlSnippet

def upper (s : String) : String := String.ofList (Letter.upper s.toList)

def lower (s : String) : String := String.ofList (Letter.lower s.toList)

def Text.lower (t : Text) : Text := Letter.lowerPoints [] t

end CurlSnippet
