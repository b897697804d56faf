import CurlSnippet.Base64
import CurlSnippet.Yaml.Kind
import CurlSnippet.Yaml.Number
import CurlSnippet.Yaml.Plain

/-!
The values of scalars, which are what the keys of a mapping can be. Whole numbers, truth values and
floating-point numbers of one value are one key, and so are two timestamps of one moment.
-/

namespace CurlSnippet.Yaml

/-- The value of a scalar. What is no number comes from the node at a place in the table, unless it
is the one that YAML names. -/
inductive Atom where
  | null
  | bool (b : Bool)
  | int (n : Int)
  | finite (x : Binary64)
  | infinite (negative : Bool)
  | nan (source : Option Nat)
  | bytes (bs : List UInt8)
  | timestamp (t : Timestamp)
  | str (t : Text)
  deriving DecidableEq, Repr

namespace Atom

/-- Whether the value is a whole number of more digits than are ever written. -/
def isLong : Atom → Bool
  | int n => Nat.pow 10 Json.maxIntDigits ≤ n.natAbs
  | _ => false

/-- The usual text of the value, in quotes if it is a text itself. -/
def spelled : Atom → String
  | null => "None"
  | bool b => if b then "True" else "False"
  | int n => String.ofList (Json.spellInt n)
  | finite x => String.ofList (x.spell .standard)
  | infinite negative => if negative then "-inf" else "inf"
  | nan _ => "nan"
  | bytes bs => String.ofList (Quoted.byteChars bs)
  | timestamp t => t.text
  | str t => t.quoted

def label : Atom → Text
  | str t => t
  | a => .ofString a.spelled

/-- The value as messages show it. -/
def shown : Atom → String
  | timestamp t => t.shown
  | a => a.spelled

def number? : Atom → Option (Int ⊕ Binary64)
  | bool b => some (.inl (if b then 1 else 0))
  | int n => some (.inl n)
  | finite x => some (.inr x)
  | _ => none

/-- Whether two values are one key. -/
def sameKey (a b : Atom) : Bool :=
  match a.number?, b.number? with
  | some (.inl m), some (.inl n) => m == n
  | some (.inl m), some (.inr y) => y.equalsInt m
  | some (.inr x), some (.inl n) => x.equalsInt n
  | some (.inr x), some (.inr y) => x == y || (x.isZero && y.isZero)
  | _, _ => match a, b with
    | timestamp s, timestamp t => s.sameMoment t
    | a, b => a == b

def ofReal (source : Nat) : Real → Atom
  | .finite x => finite x
  | .infinite negative => infinite negative
  | .nan => nan none
  | .undefined => nan (some source)

/-- The truth value of a word, in any case. -/
def truth (t : Text) : Except Error Atom :=
  let w := t.lower
  if ["yes", "true", "on"].any (w = .ofString ·) then .ok (.bool true)
  else if ["no", "false", "off"].any (w = .ofString ·) then .ok (.bool false)
  else .error (.truth w)

def ofBase64 (t : Text) : Except Error Atom := do
  let cs ← Error.ofOption t.chars?
  if cs.all (·.toNat < 128) then return .bytes (← Error.ofOption (Base64.decode? cs))
  else .error .malformed

def moment (t : Text) : Except Error Atom :=
  match t.chars?.bind fun cs => Timestamp.ofChars? false (Plain.dropFeed cs) with
  | none => .error .notATimestamp
  | some t => match t.check with
    | .ok t => .ok (.timestamp t)
    | .error fault => .error (.timestamp fault)

/-- The value that a text spells as a scalar of a kind, at a place in the table. -/
def ofText (source : Nat) (kind : Kind) (t : Text) : Except Error Atom :=
  match kind with
  | .null => .ok .null
  | .bool => truth t
  | .int => (Number.int t).map .int
  | .float => (Number.float t).map (ofReal source)
  | .binary => ofBase64 t
  | .timestamp => moment t
  | .str => .ok (.str t)
  | _ => .error .malformed

end Atom

end CurlSnippet.Yaml
