import CurlSnippet.Hex

/-!
The UTF-8 bytes of a text, and the text of bytes. Reading stops at the first bytes that stand for no
character, and says which they are.
-/

namespace CurlSnippet

abbrev Bytes := List UInt8

def utf8 (cs : List Char) : Bytes := cs.flatMap String.utf8EncodeChar

@[simp] theorem utf8_nil : utf8 [] = [] := rfl

namespace Utf8

/-- Why bytes stand for no character. -/
inductive Reason where
  | start
  | continuation
  | ending
  deriving DecidableEq, Repr

def Reason.message : Reason → String
  | start => "invalid start byte"
  | continuation => "invalid continuation byte"
  | ending => "unexpected end of data"

/-- The first bytes of a text that stand for no character, and where they begin. -/
structure Fault where
  position : Nat
  bytes : Bytes
  reason : Reason
  deriving DecidableEq, Repr

def Fault.message (f : Fault) : String :=
  let number (n : Nat) : String := String.ofList (Nat.toDigits 10 n)
  let place := match f.bytes with
    | [b] => "byte 0x" ++ String.ofList (Hex.digits 2 b.toNat) ++ " in position " ++
        number f.position
    | bytes => "bytes in position " ++ number f.position ++ "-" ++
        number (f.position + bytes.length - 1)
  "'utf-8' codec can't decode " ++ place ++ ": " ++ f.reason.message

/-- Where the reader stands: between characters, or inside one. There it keeps the bytes taken and
the value that they have so far, how many bytes come after the next, and the bounds of the next. -/
inductive Mode where
  | start
  | inside (taken : Bytes) (value more low high : Nat)
  deriving DecidableEq, Repr

/-- The mode after the first of several bytes. The bounds of the second leave out what has a shorter
form, the surrogates, and what is above the last code point. -/
def opening? (b : UInt8) : Option Mode :=
  let n := b.toNat
  if n < 0xC2 then none
  else if n < 0xE0 then some (.inside [b] (n - 0xC0) 0 0x80 0xBF)
  else if n < 0xF0 then
    some (.inside [b] (n - 0xE0) 1 (if n = 0xE0 then 0xA0 else 0x80) (if n = 0xED then 0x9F else 0xBF))
  else if n < 0xF5 then
    some (.inside [b] (n - 0xF0) 2 (if n = 0xF0 then 0x90 else 0x80) (if n = 0xF4 then 0x8F else 0xBF))
  else none

/-- The characters of bytes, of which those of the character at hand begin at a position. -/
def scan (position : Nat) : Mode → Bytes → Except Fault (List Char)
  | .start, [] => .ok []
  | .inside taken _ _ _ _, [] => .error ⟨position, taken, .ending⟩
  | .start, b :: rest =>
    if b.toNat < 0x80 then (scan (position + 1) .start rest).map (Char.ofNat b.toNat :: ·)
    else match opening? b with
      | some mode => scan position mode rest
      | none => .error ⟨position, [b], .start⟩
  | .inside taken value more low high, b :: rest =>
    if b.toNat < low ∨ high < b.toNat then .error ⟨position, taken, .continuation⟩
    else
      let value := value * 64 + (b.toNat - 0x80)
      match more with
      | 0 => (scan (position + taken.length + 1) .start rest).map (Char.ofNat value :: ·)
      | more + 1 => scan position (.inside (taken ++ [b]) value more 0x80 0xBF) rest

def encode (s : String) : Bytes := utf8 s.toList

def decode (bytes : Bytes) : Except Fault String := (scan 0 .start bytes).map String.ofList

end Utf8

end CurlSnippet
