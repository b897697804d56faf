import CurlSnippet.Json.Escape
import CurlSnippet.Json.Number

/-!
The tokens of a JSON text. White space between tokens is the space, the tab, the line feed and the
carriage return, and nothing else.
-/

namespace CurlSnippet.Json

inductive Token where
  | arrOpen
  | arrClose
  | objOpen
  | objClose
  | comma
  | colon
  | text (t : Text)
  | atom (v : Json)

namespace Token

def isSpace (p : CodePoint) : Bool :=
  p == .scalar ' ' || p == .scalar '\t' || p == .scalar '\n' || p == .scalar '\r'

/-- What follows a given word. -/
def afterWord? : List Char → Text → Option Text
  | [], t => some t
  | c :: cs, p :: t => if p = .scalar c then afterWord? cs t else none
  | _ :: _, [] => none

def isNumberPoint : CodePoint → Bool
  | .scalar c => isNumberChar c
  | .surrogate _ => false

/-- The number at the start of the text: the longest run of characters that numbers are made of
has to be one. -/
def numberToken? (t : Text) : Option (Token × Text) := do
  let cs ← Text.chars? (t.takeWhile isNumberPoint)
  let v ← number? cs
  return (.atom v, t.dropWhile isNumberPoint)

def wordToken? (w : List Char) (v : Json) (t : Text) : Option (Token × Text) :=
  (afterWord? w t).map fun rest => (.atom v, rest)

/-- The token at the start of a text, and what follows it. -/
def next? : Text → Option (Token × Text)
  | [] => none
  | .surrogate _ :: _ => none
  | .scalar c :: rest =>
    if c = '[' then some (.arrOpen, rest)
    else if c = ']' then some (.arrClose, rest)
    else if c = '\x7b' then some (.objOpen, rest)
    else if c = '\x7d' then some (.objClose, rest)
    else if c = ',' then some (.comma, rest)
    else if c = ':' then some (.colon, rest)
    else if c = '"' then (readString rest).map fun r => (.text r.1, r.2)
    else if c = 'n' then wordToken? ['u', 'l', 'l'] .null rest
    else if c = 't' then wordToken? ['r', 'u', 'e'] (.bool true) rest
    else if c = 'f' then wordToken? ['a', 'l', 's', 'e'] (.bool false) rest
    else numberToken? (.scalar c :: rest)

theorem afterWord?_length {w : List Char} {t rest : Text} (h : afterWord? w t = some rest) :
    rest.length ≤ t.length := by
  induction w generalizing t with
  | nil => simp_all [afterWord?]
  | cons c cs ih =>
    cases t with
    | nil => simp [afterWord?] at h
    | cons p t =>
      simp only [afterWord?] at h
      split at h
      · have := ih h
        simp only [List.length_cons]
        omega
      · simp at h

theorem wordToken?_length {w : List Char} {v : Json} {t rest : Text} {k : Token}
    (h : wordToken? w v t = some (k, rest)) : rest.length ≤ t.length := by
  obtain ⟨rest', h', heq⟩ := Option.map_eq_some_iff.1 h
  simp only [Prod.mk.injEq] at heq
  exact afterWord?_length (heq.2 ▸ h')

theorem number?_nil : number? [] = none := rfl

theorem numberToken?_length {t rest : Text} {k : Token}
    (h : numberToken? t = some (k, rest)) : rest.length < t.length := by
  simp only [numberToken?, Option.bind_eq_bind, Option.bind_eq_some_iff, pure, Option.some.injEq,
    Prod.mk.injEq] at h
  obtain ⟨cs, hcs, v, hv, -, rfl⟩ := h
  cases t with
  | nil =>
    simp only [List.takeWhile_nil, Text.chars?, List.mapM_nil, pure, Option.some.injEq] at hcs
    simp [← hcs, number?_nil] at hv
  | cons p t =>
    by_cases hp : isNumberPoint p
    · simp only [List.dropWhile_cons, hp, if_true, List.length_cons]
      have := (List.dropWhile_suffix isNumberPoint (l := t)).length_le
      omega
    · simp only [List.takeWhile_cons, hp, Bool.false_eq_true, if_false, Text.chars?, List.mapM_nil,
        pure, Option.some.injEq] at hcs
      simp [← hcs, number?_nil] at hv

theorem next?_length {t rest : Text} {k : Token} (h : next? t = some (k, rest)) :
    rest.length < t.length := by
  cases t with
  | nil => simp [next?] at h
  | cons p t =>
    cases p with
    | surrogate o => simp [next?] at h
    | scalar c =>
      simp only [next?] at h
      repeat' split at h
      all_goals first
        | (simp only [Option.some.injEq, Prod.mk.injEq] at h; simp [h.2])
        | (have hlen := wordToken?_length h; simp only [List.length_cons]; omega)
        | exact numberToken?_length h
        | (obtain ⟨⟨u, r⟩, h', heq⟩ := Option.map_eq_some_iff.1 h
           simp only [Prod.mk.injEq] at heq
           have hlen := readString_length (heq.2 ▸ h')
           simp only [List.length_cons]
           omega)

/-- All tokens of a text, or none if some part of it is not a token. -/
def scan (t : Text) : Option (List Token) :=
  match t with
  | [] => some []
  | p :: rest =>
    if isSpace p then scan rest
    else match _h : next? (p :: rest) with
      | none => none
      | some (k, rest') => (scan rest').map (k :: ·)
termination_by t.length
decreasing_by
  · simp
  · exact next?_length (by assumption)

end Token

end CurlSnippet.Json
