import CurlSnippet.Proofs.Passing
import CurlSnippet.Proofs.StringSpelling
import Mathlib.Tactic.ByContra

/-!
Source text as it is read: literals whole, all else character by character. A reader that meets the
pieces of a snippet finds every literal to end where its piece ends, whatever the literal says, so
that the lexemes of a snippet are those of its pieces, one after the other.
-/

namespace CurlSnippet

namespace Source

inductive Lexeme where
  /-- A character outside every literal. -/
  | code (p : CodePoint)
  /-- A double-quoted literal, by what stands between its quotes. -/
  | quoted (inside : Text)
  /-- A literal between backquotes. -/
  | raw (inside : Text)
  deriving DecidableEq, Repr

/-- Where a reader stands; inside a literal, with what it has passed of it, newest first. -/
inductive Mode where
  | code
  | quoted (before : Text)
  | escaped (before : Text)
  | raw (before : Text)

/-- The lexemes of a text, or none if a literal is not closed. Backquotes open a literal only in
some languages. -/
def read (backquotes : Bool) : Mode → Text → Option (List Lexeme)
  | .code, [] => some []
  | _, [] => none
  | .code, p :: rest =>
    if p = .scalar '"' then read backquotes (.quoted []) rest
    else if backquotes ∧ p = .scalar '\x60' then read backquotes (.raw []) rest
    else (read backquotes .code rest).map (.code p :: ·)
  | .quoted before, p :: rest =>
    if p = .scalar '"' then (read backquotes .code rest).map (.quoted before.reverse :: ·)
    else if p = .scalar '\\' then read backquotes (.escaped (p :: before)) rest
    else read backquotes (.quoted (p :: before)) rest
  | .escaped before, p :: rest => read backquotes (.quoted (p :: before)) rest
  | .raw before, p :: rest =>
    if p = .scalar '\x60' then (read backquotes .code rest).map (.raw before.reverse :: ·)
    else read backquotes (.raw (p :: before)) rest

/-- The characters that end a line in one of the languages. -/
def endsLine (p : CodePoint) : Bool :=
  p == .scalar '\n' || p == .scalar '\r' || p == .scalar '\u2028' || p == .scalar '\u2029'

/-- The text that stands between double quotes by its escapes, those that mean the same in every
language here; none if it holds anything else that needs an escape. -/
def denoted? : Json.StringMode → Text → Option Text
  | .plain, [] => some []
  | _, [] => none
  | .plain, p :: rest =>
    if p = .scalar '\\' then denoted? .escaped rest
    else if p = .scalar '"' ∨ endsLine p then none
    else (denoted? .plain rest).map (p :: ·)
  | .escaped, p :: rest =>
    if p = .scalar 'u' then denoted? (.unit 4 0) rest
    else match p.char?.bind Json.letter? with
      | some c => (denoted? .plain rest).map (.scalar c :: ·)
      | none => none
  | .unit missing value, p :: rest => match p.char?.bind Hex.value? with
    | none => none
    | some d =>
      let value := value * 16 + d
      if missing ≤ 1 then
        if 0xD800 ≤ value ∧ value < 0xE000 then none
        else (denoted? .plain rest).map (.scalar (Char.ofNat value) :: ·)
      else denoted? (.unit (missing - 1) value) rest

namespace Lexeme

/-- The lexeme as it stands in the text. -/
def text : Lexeme → Text
  | code p => [p]
  | quoted inside => .scalar '"' :: (inside ++ [.scalar '"'])
  | raw inside => .scalar '\x60' :: (inside ++ [.scalar '\x60'])

/-- The text that a literal denotes. Raw literals drop carriage returns. -/
def denoted? : Lexeme → Option Text
  | code _ => none
  | quoted inside => Source.denoted? .plain inside
  | raw inside => some (inside.filter (· != .scalar '\r'))

/-- A double-quoted literal stands on one line. -/
def staysOnLine : Lexeme → Bool
  | quoted inside => !inside.any endsLine
  | _ => true

end Lexeme

/-- Lexemes as they stand, one after the other. -/
def text (ls : List Lexeme) : Text := ls.flatMap Lexeme.text

/-- The text is read as these lexemes, whatever follows. -/
abbrev Reads (b : Bool) : Text → List Lexeme → Prop := Passes (read b .code)

/-- What follows a text that is read to its end does not change how it is read. -/
theorem read_append {b : Bool} {m : Mode} {t : Text} {ls : List Lexeme} (h : read b m t = some ls)
    (rest : Text) : read b m (t ++ rest) = (read b .code rest).map (ls ++ ·) := by
  induction t generalizing m ls with
  | nil =>
    cases m with
    | code =>
      obtain rfl := Option.some.inj h
      simp
    | _ => cases h
  | cons p t ih =>
    have hmap : ∀ {m' : Mode} {l : Lexeme}, (read b m' t).map (l :: ·) = some ls →
        (read b m' (t ++ rest)).map (l :: ·) = (read b .code rest).map (ls ++ ·) := by
      intro m' l hm
      obtain ⟨ms, hms, rfl⟩ := Option.map_eq_some_iff.mp hm
      rw [ih hms, Option.map_map]
      rfl
    cases m with
    | code =>
      simp only [read, List.cons_append] at h ⊢
      split_ifs at h ⊢
      · exact ih h
      · exact ih h
      · exact hmap h
    | quoted before =>
      simp only [read, List.cons_append] at h ⊢
      split_ifs at h ⊢
      · exact hmap h
      · exact ih h
      · exact ih h
    | escaped before => exact ih h
    | raw before =>
      simp only [read, List.cons_append] at h ⊢
      split_ifs at h ⊢
      · exact hmap h
      · exact ih h

theorem reads_of_read {b : Bool} {t : Text} {ls : List Lexeme} (h : read b .code t = some ls) :
    Reads b t ls :=
  read_append h

/-- What a reader has passed of the text it stands in. -/
def Mode.text : Mode → Text
  | code => []
  | quoted before | escaped before => .scalar '"' :: before.reverse
  | raw before => .scalar '\x60' :: before.reverse

/-- The lexemes of a text are all of it. -/
theorem text_of_read {b : Bool} {m : Mode} {t : Text} {ls : List Lexeme}
    (h : read b m t = some ls) : text ls = m.text ++ t := by
  induction t generalizing m ls with
  | nil =>
    cases m with
    | code =>
      obtain rfl := Option.some.inj h
      rfl
    | _ => cases h
  | cons p t ih =>
    have hmap : ∀ {l : Lexeme}, (read b .code t).map (l :: ·) = some ls →
        text ls = l.text ++ t := by
      intro l hl
      obtain ⟨ms, hms, rfl⟩ := Option.map_eq_some_iff.mp hl
      exact congrArg (l.text ++ ·) (ih hms)
    cases m with
    | code =>
      simp only [read] at h
      split_ifs at h with hquote hraw
      · rw [ih h, hquote]
        rfl
      · rw [ih h, hraw.2]
        rfl
      · exact hmap h
    | quoted before =>
      simp only [read] at h
      split_ifs at h with hquote hslash
      · rw [hmap h, hquote]
        simp [Lexeme.text, Mode.text]
      · rw [ih h]
        simp [Mode.text]
      · rw [ih h]
        simp [Mode.text]
    | escaped before =>
      rw [ih h]
      simp [Mode.text]
    | raw before =>
      simp only [read] at h
      split_ifs at h with hquote
      · rw [hmap h, hquote]
        simp [Lexeme.text, Mode.text]
      · rw [ih h]
        simp [Mode.text]

/-- An escape leaves the reader inside its literal. -/
theorem read_written {b : Bool} {p : CodePoint} {e : Text} (h : Json.Written p e)
    (before rest : Text) :
    read b (.quoted before) (e ++ rest) = read b (.quoted (e.reverse ++ before)) rest := by
  cases h with
  | surrogate o => rfl
  | plain hquote hslash _ => simp [read, hquote, hslash]
  | letter _ => simp [read, Text.ofChars]
  | @number c _ =>
    have hquote (n : Nat) := Json.digit_mod_ne n (c := '"') rfl
    have hslash (n : Nat) := Json.digit_mod_ne n (c := '\\') rfl
    simp [read, Text.ofChars, Json.hex4, hquote, hslash]

theorem read_quoted {b : Bool} {f : CodePoint → Text} (hf : ∀ p, Json.Written p (f p))
    (before t rest : Text) :
    read b (.quoted before) (t.flatMap f ++ .scalar '"' :: rest) =
      (read b .code rest).map (.quoted (before.reverse ++ t.flatMap f) :: ·) := by
  induction t generalizing before with
  | nil => simp [read]
  | cons p t ih =>
    rw [List.flatMap_cons, List.append_assoc, read_written (hf p), ih]
    simp

theorem reads_quote (b : Bool) (t : Text) :
    Reads b (quote t) [.quoted (t.flatMap escapeInLiteral)] := by
  intro rest
  have hread := read_quoted (b := b) Json.written_escapeInLiteral [] t rest
  simp only [quote, List.cons_append, List.append_assoc, List.nil_append]
  rw [read, if_pos rfl, hread]
  rfl

theorem denoted?_hex4 {c : Char} (hc : c.toNat < 0xD800) (rest : Text) :
    denoted? (.unit 4 0) (Text.ofChars (Json.hex4 c.toNat) ++ rest) =
      (denoted? .plain rest).map (.scalar c :: ·) := by
  have hvalue := Json.hex4_value (n := c.toNat) (by omega)
  have hlow : ¬ 0xD800 ≤ c.toNat := by omega
  simp [Json.hex4, Text.ofChars, denoted?, CodePoint.char?, Json.value?_digit_mod, hvalue, hlow,
    Char.ofNat_toNat]

theorem denoted?_written {p : CodePoint} {e : Text} (h : Json.Written p e)
    (hline : ∀ q ∈ e, endsLine q = false) (rest : Text) :
    denoted? .plain (e ++ rest) = (denoted? .plain rest).map (p :: ·) := by
  cases h with
  | surrogate o => rfl
  | @plain c hquote hslash _ =>
    have hc := hline (.scalar c) List.mem_cons_self
    simp [denoted?, hquote, hslash, hc]
  | @letter c d h =>
    have hu := (Json.unescapeChar?_of_letter? h).2
    simp [denoted?, Text.ofChars, CodePoint.char?, hu, h]
  | @number c h =>
    rw [← denoted?_hex4 h]
    simp [denoted?, Text.ofChars]

theorem endsLine_cases {p : CodePoint} (h : endsLine p = true) :
    p = .scalar '\n' ∨ p = .scalar '\r' ∨ p = .scalar '\u2028' ∨ p = .scalar '\u2029' := by
  simpa [endsLine, or_assoc] using h

/-- No escape holds the end of a line. -/
theorem endsLine_of_mem_escapeInLiteral {p q : CodePoint} (h : q ∈ escapeInLiteral p) :
    endsLine q = false := by
  by_contra hends
  have hq := endsLine_cases (Bool.not_eq_false _ ▸ hends)
  have hwritten := Json.written_escapeInLiteral p
  generalize he : escapeInLiteral p = e at h hwritten
  cases hwritten with
  | surrogate o =>
    obtain rfl := List.mem_singleton.mp h
    simp at hq
  | @plain c _ _ hctl =>
    obtain rfl := List.mem_singleton.mp h
    rcases hq with hq | hq | hq | hq
    all_goals obtain rfl := CodePoint.scalar.inj hq
    · exact absurd hctl (by decide)
    · exact absurd hctl (by decide)
    · exact absurd he (by decide)
    · exact absurd he (by decide)
  | @letter c d hletter =>
    have hmem : q = .scalar '\\' ∨ q = .scalar c := by simpa [Text.ofChars] using h
    rcases hmem with rfl | rfl
    · simp at hq
    · rcases hq with hq | hq | hq | hq
      all_goals obtain rfl := CodePoint.scalar.inj hq
      all_goals cases hletter
  | @number c _ =>
    have hdigit (n : Nat) : q ≠ .scalar (Hex.digit (n % 16)) := by
      rintro rfl
      rcases hq with hq | hq | hq | hq
      all_goals exact Json.digit_mod_ne n rfl (CodePoint.scalar.inj hq)
    have hmem : q = .scalar '\\' ∨ q = .scalar 'u' := by
      simpa [Text.ofChars, Json.hex4, hdigit] using h
    rcases hmem with rfl | rfl
    · simp at hq
    · simp at hq

theorem denoted?_quote (t : Text) : denoted? .plain (t.flatMap escapeInLiteral) = some t := by
  induction t with
  | nil => rfl
  | cons p t ih =>
    rw [List.flatMap_cons, denoted?_written (Json.written_escapeInLiteral p)
      (fun q hq => endsLine_of_mem_escapeInLiteral hq), ih]
    rfl

end Source

end CurlSnippet
