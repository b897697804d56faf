/-!
Text that may hold lone surrogates. A JSON string or a quoted YAML scalar can name one by an escape,
so decoded strings and everything printed from them are lists of code points; all other text is an
ordinary `String`.
`ofString` embeds strings and `toString?` recognises its image.
-/

namespace CurlSnippet

/-- A Unicode scalar value, or the surrogate at the given offset from U+D800. -/
inductive CodePoint where
  | scalar (c : Char)
  | surrogate (offset : Fin 0x800)
  deriving DecidableEq, Repr

namespace CodePoint

def toNat : CodePoint → Nat
  | scalar c => c.toNat
  | surrogate o => 0xD800 + o

def char? : CodePoint → Option Char
  | scalar c => some c
  | surrogate _ => none

/-- The code point of a number below 0x110000. -/
def ofNat (n : Nat) : CodePoint :=
  if h : 0xD800 ≤ n ∧ n < 0xE000 then surrogate ⟨n - 0xD800, by omega⟩
  else scalar (Char.ofNat n)

end CodePoint

abbrev Text := List CodePoint

namespace Text

def ofChars (cs : List Char) : Text := cs.map .scalar

def ofString (s : String) : Text := ofChars s.toList

def chars? (t : Text) : Option (List Char) := t.mapM CodePoint.char?

/-- The same text as a string, if it holds no surrogate. -/
def toString? (t : Text) : Option String := (chars? t).map String.ofList

/-- Lines with a line feed between each two. -/
def lines (ls : List Text) : Text := List.intercalate [.scalar '\n'] ls

theorem chars?_ofChars (cs : List Char) : chars? (ofChars cs) = some cs := by
  induction cs with
  | nil => rfl
  | cons c cs ih =>
    simp only [chars?, ofChars] at ih
    simp [chars?, ofChars, CodePoint.char?, ih]

@[simp] theorem toString?_ofString (s : String) : toString? (ofString s) = some s := by
  simp [toString?, ofString, chars?_ofChars]

end Text

end CurlSnippet
