import CurlSnippet.Utf8

/-!
Base64 with the standard alphabet and padding, over bytes. It is written without line breaks; in
reading, characters outside the alphabet count for nothing.
-/

namespace CurlSnippet.Base64

/-- The character of a number below 64. -/
def digit (n : Nat) : Char :=
  if n < 26 then Char.ofNat ('A'.toNat + n)
  else if n < 52 then Char.ofNat ('a'.toNat + (n - 26))
  else if n < 62 then Char.ofNat ('0'.toNat + (n - 52))
  else if n = 62 then '+'
  else '/'

/-- Three bytes become four digits; the rest of one or two is filled up. -/
def encode : List UInt8 → List Char
  | a :: b :: c :: rest =>
    let n := a.toNat * 65536 + b.toNat * 256 + c.toNat
    digit (n / 262144) :: digit (n / 4096 % 64) :: digit (n / 64 % 64) :: digit (n % 64) ::
      encode rest
  | [a, b] =>
    let n := a.toNat * 1024 + b.toNat * 4
    [digit (n / 4096), digit (n / 64 % 64), digit (n % 64), '=']
  | [a] =>
    let n := a.toNat * 16
    [digit (n / 64), digit (n % 64), '=', '=']
  | [] => []

/-- The number of a digit. -/
def value? (c : Char) : Option Nat :=
  if 'A' ≤ c ∧ c ≤ 'Z' then some (c.toNat - 'A'.toNat)
  else if 'a' ≤ c ∧ c ≤ 'z' then some (c.toNat - 'a'.toNat + 26)
  else if c.isDigit then some (c.toNat - '0'.toNat + 52)
  else if c = '+' then some 62
  else if c = '/' then some 63
  else none

/-- Reads on at a place in a group of four digits, with the bits that are left there from the digit
before, and the padding since then. The padding that fills up a group ends the text; the text must
not end inside a group without it. The bytes read so far come newest first. -/
def decodeFrom (bytes : List UInt8) (place bits padding : Nat) : List Char → Option (List UInt8)
  | [] => if place = 0 then some bytes.reverse else none
  | c :: rest =>
    if c = '=' then
      if place < 2 then decodeFrom bytes place bits padding rest
      else if place + padding + 1 < 4 then decodeFrom bytes place bits (padding + 1) rest
      else some bytes.reverse
    else match value? c with
      | none => decodeFrom bytes place bits padding rest
      | some v =>
        if place = 0 then decodeFrom bytes 1 v 0 rest
        else
          let n := bits * 64 + v
          let left := Nat.pow 2 (6 - 2 * place)
          decodeFrom (UInt8.ofNat (n / left) :: bytes) ((place + 1) % 4) (n % left) 0 rest

def decode? (cs : List Char) : Option (List UInt8) := decodeFrom [] 0 0 0 cs

end CurlSnippet.Base64
