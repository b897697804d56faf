import CurlSnippet.Url.Address

/-!
The authority of a URL: user information, host and port. Brackets have to enclose the whole host.
-/

namespace CurlSnippet.Url

/-- The characters whose compatibility form holds a delimiter of the authority. -/
def lookalikes : List (Nat × Nat) := [
  (0x2047, 0x2049), (0x2100, 0x2101), (0x2105, 0x2106), (0x2A74, 0x2A74), (0xFE13, 0xFE13),
  (0xFE16, 0xFE16), (0xFE55, 0xFE56), (0xFE5F, 0xFE5F), (0xFE6B, 0xFE6B), (0xFF03, 0xFF03),
  (0xFF0F, 0xFF0F), (0xFF1A, 0xFF1A), (0xFF1F, 0xFF20)]

def isLookalike (c : Char) : Bool := lookalikes.any fun r => r.1 ≤ c.toNat && c.toNat ≤ r.2

/-- The parts of an authority; the host without its brackets, the port empty when absent. -/
structure Authority where
  userInfo : Option (List Char)
  host : List Char
  port : List Char
  deriving DecidableEq, Repr

namespace Authority

/-- User information ends at the last at sign. -/
def cutUserInfo (cs : List Char) : Option (List Char) × List Char :=
  match Search.cutLast? (· == '@') cs with
  | some (user, rest) => (some user, rest)
  | none => (none, cs)

/-- The text before the first mark and after it, all of it before without a mark. -/
def cutOr (mark : Char) (cs : List Char) : List Char × List Char :=
  (Search.cut? (· == mark) cs).getD (cs, [])

/-- Whether a host in brackets is an address and its brackets stand where they may: nothing before
the first, and only a port after the second. -/
def bracketsFit (hostPort : List Char) : Bool :=
  match Search.cut? (· == '[') hostPort with
  | some (before, inner) =>
    let (host, rest) := cutOr ']' inner
    before.isEmpty && (rest.isEmpty || rest.head? == some ':') && Address.isLiteral host
  | none => Address.isLiteral (cutOr ':' hostPort).1

def hostAndPort (hostPort : List Char) : List Char × List Char :=
  match Search.cut? (· == '[') hostPort with
  | some (_, inner) =>
    let (host, rest) := cutOr ']' inner
    (host, (cutOr ':' rest).2)
  | none => cutOr ':' hostPort

def ofChars? (cs : List Char) : Option Authority :=
  let (user, hostPort) := cutUserInfo cs
  let opens := cs.contains '['
  if cs.any isLookalike || opens != cs.contains ']' || (opens && !bracketsFit hostPort) then none
  else
    let (host, port) := hostAndPort hostPort
    some ⟨user, host, port⟩

/-- The longest port that is read. -/
def maxPortDigits : Nat := 4300

/-- The number of the port, the given one when the port is empty. -/
def portNumber? (a : Authority) (default : Nat) : Option Nat :=
  if a.port.isEmpty then some default
  else if a.port.all Char.isDigit && a.port.length ≤ maxPortDigits then
    let n := Nat.ofDigitChars 10 a.port 0
    if n ≤ 65535 then some n else none
  else none

end Authority

end CurlSnippet.Url
