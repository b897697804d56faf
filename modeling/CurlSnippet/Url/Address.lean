import CurlSnippet.Hex
import CurlSnippet.Search

/-!
Address literals between brackets: an IPv6 address with an optional zone, or an address of a later
version. An IPv6 address is eight groups, one run of them may be left out, and the last two may be
written as an IPv4 address.
-/

namespace CurlSnippet.Url.Address

/-- A number up to 255 without a leading zero. -/
def isOctet (cs : List Char) : Bool :=
  !cs.isEmpty && cs.length ≤ 3 && cs.all Char.isDigit && (cs.length == 1 || cs.head? != some '0') &&
    Nat.ofDigitChars 10 cs 0 ≤ 255

def isIPv4 (cs : List Char) : Bool :=
  let octets := Search.parts '.' cs
  octets.length == 4 && octets.all isOctet

/-- Up to four hexadecimal digits. -/
def isGroup (cs : List Char) : Bool := !cs.isEmpty && cs.length ≤ 4 && cs.all Hex.isDigit

/-- The groups with an IPv4 ending written as two groups. -/
def groups? (cs : List Char) : Option (List (List Char)) :=
  let ps := Search.parts ':' cs
  if ps.length < 3 then none
  else match ps.getLast? with
    | some last =>
      if last.contains '.' then
        if isIPv4 last then some (ps.dropLast ++ [['0'], ['0']]) else none
      else some ps
    | none => none

/-- Whether groups on one side of a gap are all written. At the very end of the address the gap
shows as one more empty group, which then has to be the only one. -/
def isSide (gs : List (List Char)) : Bool := gs == [[]] || gs.all isGroup

/-- The number of groups written on one side of a gap. -/
def sideLength (gs : List (List Char)) : Nat := if gs == [[]] then 0 else gs.length

def isIPv6 (cs : List Char) : Bool :=
  match groups? cs with
  | none => false
  | some gs =>
    let inner := gs.drop 1 |>.dropLast
    match inner.idxOf? [] with
    | none => gs.length == 8 && gs.all isGroup
    | some i =>
      let high := gs.take (i + 1)
      let low := gs.drop (i + 2)
      isSide high && isSide low && sideLength high + sideLength low ≤ 7

/-- An IPv6 address, with a zone after a percent sign or without one. -/
def isZonedIPv6 (cs : List Char) : Bool :=
  !cs.contains '/' && match Search.cut? (· == '%') cs with
    | none => isIPv6 cs
    | some (address, zone) => !zone.isEmpty && !zone.contains '%' && isIPv6 address

/-- The letter v, a hexadecimal version, a point and anything after it. -/
def isFuture (cs : List Char) : Bool :=
  match cs with
  | 'v' :: rest => match Search.cut? (· == '.') rest with
    | some (version, address) => !version.isEmpty && version.all Hex.isDigit && !address.isEmpty
    | none => false
  | _ => false

def isLiteral (cs : List Char) : Bool :=
  if cs.head? == some 'v' then isFuture cs else isZonedIPv6 cs

end CurlSnippet.Url.Address
