import CurlSnippet.Decimal.Shortest
import CurlSnippet.Entries
import CurlSnippet.Text

/-!
JSON values. Whole numbers and numbers with a fraction or an exponent are kept apart, an object
keeps its members in order, and a string may hold lone surrogates.
-/

namespace CurlSnippet

inductive Json where
  | null
  | bool (b : Bool)
  | int (n : Int)
  | float (x : Binary64)
  | str (t : Text)
  | arr (items : List Json)
  | obj (members : List (Text × Json))
  deriving Repr

namespace Json

def ofString (s : String) : Json := str (Text.ofString s)

def ofOption {α : Type} (f : α → Json) : Option α → Json
  | none => null
  | some a => f a

/-- The value of a member of an object. -/
def member? (key : String) : Json → Option Json
  | obj members => Entries.get? members (Text.ofString key)
  | _ => none

/-- An object whose keys are ordinary strings. -/
def ofMembers (members : List (String × Json)) : Json :=
  obj (members.map fun p => (Text.ofString p.1, p.2))

/-- The digits of a whole number after its sign. -/
def spellInt (n : Int) : List Char :=
  if n < 0 then '-' :: Nat.toDigits 10 n.natAbs else Nat.toDigits 10 n.natAbs

/-- The written form of a value that holds no other value and no text; empty for the others. -/
def spellAtom : Json → List Char
  | null => ['n', 'u', 'l', 'l']
  | bool true => ['t', 'r', 'u', 'e']
  | bool false => ['f', 'a', 'l', 's', 'e']
  | int n => spellInt n
  | float x => x.spell .standard
  | _ => []

end Json

end CurlSnippet
