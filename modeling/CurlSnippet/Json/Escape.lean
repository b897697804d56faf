import CurlSnippet.Hex
import CurlSnippet.Text

/-!
The inside of a JSON string. Writing escapes the quote, the backslash and the control characters
below U+0020; reading takes any escape, and two units written as escapes one after the other are
one character when they form a surrogate pair.
-/

namespace CurlSnippet.Json

/-- Four hexadecimal digits in lower case. -/
def hex4 (n : Nat) : List Char :=
  [Hex.digit (n / 4096 % 16), Hex.digit (n / 256 % 16), Hex.digit (n / 16 % 16), Hex.digit (n % 16)]

/-- The escape of a character that cannot stand in a string as it is. -/
def escapeChar? (c : Char) : Option (List Char) :=
  if c = '"' then some ['\\', '"']
  else if c = '\\' then some ['\\', '\\']
  else if c = '\n' then some ['\\', 'n']
  else if c = '\r' then some ['\\', 'r']
  else if c = '\t' then some ['\\', 't']
  else if c = '\x08' then some ['\\', 'b']
  else if c = '\x0c' then some ['\\', 'f']
  else if c.toNat < 32 then some ('\\' :: 'u' :: hex4 c.toNat)
  else none

def escape : CodePoint → Text
  | .scalar c => match escapeChar? c with
    | some e => Text.ofChars e
    | none => [.scalar c]
  | .surrogate o => [.surrogate o]

/-- A string between its quotes. -/
def quoted (t : Text) : Text := .scalar '"' :: (t.flatMap escape ++ [.scalar '"'])

/-- What a string spells at one place: a code point, or a unit by its number. -/
inductive Spelled where
  | point (c : CodePoint)
  | unit (u : Fin 0x10000)
  deriving DecidableEq, Repr

def isHighUnit (u : Nat) : Bool := 0xD800 ≤ u && u < 0xDC00

def isLowUnit (u : Nat) : Bool := 0xDC00 ≤ u && u < 0xE000

def ofPair (high low : Nat) : Char :=
  Char.ofNat (0x10000 + (high - 0xD800) * 0x400 + (low - 0xDC00))

/-- Joins each high unit with a low unit that follows it directly. -/
def pairUnits : List Spelled → Text
  | [] => []
  | .point c :: rest => c :: pairUnits rest
  | .unit u :: .unit v :: rest =>
    if isHighUnit u && isLowUnit v then .scalar (ofPair u v) :: pairUnits rest
    else .ofNat u :: pairUnits (.unit v :: rest)
  | .unit u :: rest => .ofNat u :: pairUnits rest

/-- The character that a one-letter escape stands for. -/
def unescapeChar? (c : Char) : Option Char :=
  if c = '"' ∨ c = '\\' ∨ c = '/' then some c
  else if c = 'b' then some '\x08'
  else if c = 'f' then some '\x0c'
  else if c = 'n' then some '\n'
  else if c = 'r' then some '\r'
  else if c = 't' then some '\t'
  else none

/-- Where the reader of a string stands: between spelled places, after a backslash, or inside a
numbered escape with that many digits to come. -/
inductive StringMode where
  | plain
  | escaped
  | unit (missing : Nat) (value : Nat)
  deriving DecidableEq, Repr

/-- Reads a string after its opening quote, and gives what follows its closing quote. -/
def readSpelled : StringMode → Text → Option (List Spelled × Text)
  | _, [] => none
  | .plain, p :: rest => match p with
    | .surrogate _ => (readSpelled .plain rest).map fun r => (.point p :: r.1, r.2)
    | .scalar c =>
      if c = '"' then some ([], rest)
      else if c = '\\' then readSpelled .escaped rest
      else if c.toNat < 32 then none
      else (readSpelled .plain rest).map fun r => (.point p :: r.1, r.2)
  | .escaped, p :: rest => match p with
    | .surrogate _ => none
    | .scalar c =>
      if c = 'u' then readSpelled (.unit 4 0) rest
      else match unescapeChar? c with
        | some d => (readSpelled .plain rest).map fun r => (.point (.scalar d) :: r.1, r.2)
        | none => none
  | .unit missing value, p :: rest => match p.char?.bind Hex.value? with
    | none => none
    | some d =>
      let value := value * 16 + d
      if missing ≤ 1 then
        (readSpelled .plain rest).map fun r => (.unit (Fin.ofNat _ value) :: r.1, r.2)
      else readSpelled (.unit (missing - 1) value) rest

/-- Reads a string after its opening quote, and gives the text and what follows it. -/
def readString (t : Text) : Option (Text × Text) :=
  (readSpelled .plain t).map fun r => (pairUnits r.1, r.2)

theorem readSpelled_length {m : StringMode} {t rest : Text} {s : List Spelled}
    (h : readSpelled m t = some (s, rest)) : rest.length < t.length := by
  induction t generalizing m s with
  | nil => cases m <;> simp [readSpelled] at h
  | cons p t ih =>
    have step : ∀ {m' : StringMode} {f : List Spelled → List Spelled},
        (readSpelled m' t).map (fun r => (f r.1, r.2)) = some (s, rest) →
          rest.length < (p :: t).length := by
      intro m' f hm
      obtain ⟨⟨s', rest'⟩, h', heq⟩ := Option.map_eq_some_iff.1 hm
      simp only [Prod.mk.injEq] at heq
      have := ih (heq.2 ▸ h')
      simp only [List.length_cons]
      omega
    have direct : ∀ {m' : StringMode}, readSpelled m' t = some (s, rest) →
        rest.length < (p :: t).length := fun h' => by
      have := ih h'
      simp only [List.length_cons]
      omega
    cases m <;> simp only [readSpelled] at h <;> repeat' split at h
    all_goals first
      | exact step h
      | exact direct h
      | (simp only [Option.some.injEq, Prod.mk.injEq] at h; simp [h.2])
      | simp at h

theorem readString_length {t u rest : Text} (h : readString t = some (u, rest)) :
    rest.length < t.length := by
  obtain ⟨⟨s, rest'⟩, h', heq⟩ := Option.map_eq_some_iff.1 h
  simp only [Prod.mk.injEq] at heq
  exact readSpelled_length (heq.2 ▸ h')

end CurlSnippet.Json
