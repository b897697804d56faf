import CurlSnippet.Proofs.PrintedValues

/-!
Literals in double quotes. A literal is the JSON string of a text, with the two line separators by
their numbers afterwards; every code point of the text is spelled in it by itself or by an escape
that has one meaning in all languages here, so the literal is on one line, ends at its own quote and
is read back as the text.
-/

namespace CurlSnippet

namespace Source

/-- What stands between the quotes of a literal of a text. -/
structure Spells (inside t : Text) : Prop where
  /-- Every code point is written in one of its ways, one after the other. So a backslash begins an
  escape or is the letter of one, and a double quote is the letter of an escape. -/
  written : ∃ parts, inside = parts.flatten ∧ List.Forall₂ Json.Written t parts
  unbroken : ∀ p ∈ inside, 32 ≤ p.toNat ∧ p.toNat ≠ 0x2028 ∧ p.toNat ≠ 0x2029
  denoted : denoted? .plain inside = some t
  /-- As a JSON string it is read up to its own quote. -/
  json : ∀ rest, Json.readString (inside ++ .scalar '"' :: rest) = some (t, rest)
  /-- In source text it is one lexeme. -/
  lexeme : ∀ b rest, read b (.quoted []) (inside ++ .scalar '"' :: rest) =
    (read b .code rest).map (.quoted inside :: ·)

end Source

namespace Json

theorem le_toNat_of_letter? {c d : Char} (h : letter? c = some d) : 32 ≤ c.toNat := by
  apply forall_letter _ _ _ _ _ _ _ h
  all_goals decide

theorem le_toNat_digit (n : Nat) : 32 ≤ (Hex.digit (n % 16)).toNat := by
  have hall : ∀ k < 16, 32 ≤ (Hex.digit k).toNat := by decide
  exact hall (n % 16) (Nat.mod_lt n (by decide))

/-- No way to write a code point has a control character. -/
theorem le_toNat_of_mem_written {p q : CodePoint} {e : Text} (h : Written p e) (hq : q ∈ e) :
    32 ≤ q.toNat := by
  cases h with
  | surrogate o =>
    obtain rfl := List.mem_singleton.mp hq
    simp only [CodePoint.toNat]
    omega
  | plain _ _ hctl =>
    obtain rfl := List.mem_singleton.mp hq
    exact hctl
  | @letter c d h =>
    have hcases : q = .scalar '\\' ∨ q = .scalar c := by simpa [Text.ofChars] using hq
    rcases hcases with rfl | rfl
    · decide
    · exact le_toNat_of_letter? h
  | @number c _ =>
    simp only [Text.ofChars, hex4, List.map_cons, List.map_nil, List.mem_cons, List.not_mem_nil,
      or_false] at hq
    rcases hq with rfl | rfl | rfl | rfl | rfl | rfl
    · decide
    · decide
    · exact le_toNat_digit _
    · exact le_toNat_digit _
    · exact le_toNat_digit _
    · exact le_toNat_digit _

end Json

namespace Source

theorem toNat_ne_of_not_endsLine {p : CodePoint} (h : endsLine p = false) :
    p.toNat ≠ 0x2028 ∧ p.toNat ≠ 0x2029 := by
  cases p with
  | surrogate o =>
    simp only [CodePoint.toNat]
    omega
  | scalar c =>
    simp only [endsLine, Bool.or_eq_false_iff, beq_eq_false_iff_ne, ne_eq,
      CodePoint.scalar.injEq] at h
    obtain ⟨⟨-, hline⟩, hparagraph⟩ := h
    constructor
    · exact fun heq => hline (Char.toNat_inj.mp heq)
    · exact fun heq => hparagraph (Char.toNat_inj.mp heq)

theorem spells_flatMap (t : Text) : Spells (t.flatMap escapeInLiteral) t where
  written := by
    refine ⟨t.map escapeInLiteral, List.flatMap_def, ?_⟩
    rw [List.forall₂_map_right_iff]
    exact List.forall₂_same.mpr fun p _ => Json.written_escapeInLiteral p
  unbroken p hp := by
    obtain ⟨q, -, hq⟩ := List.mem_flatMap.mp hp
    exact ⟨Json.le_toNat_of_mem_written (Json.written_escapeInLiteral q) hq,
      toNat_ne_of_not_endsLine (endsLine_of_mem_escapeInLiteral hq)⟩
  denoted := denoted?_quote t
  json rest := Json.readString_flatMap Json.written_escapeInLiteral t rest
  lexeme b rest := by
    have h := read_quoted (b := b) Json.written_escapeInLiteral [] t rest
    rwa [List.reverse_nil, List.nil_append] at h

end Source

/-- A literal is made in two steps: the JSON string of the text, and then the line separators in it by
their numbers, also where one stands behind a backslash. What comes out stands in double quotes and
spells the text between them, and two texts have two literals. -/
theorem quote_spells :
    (∀ t, quote t = (Json.quoted t).escapeSeparators ∧
      ∃ inside, quote t = .scalar '"' :: (inside ++ [.scalar '"']) ∧ Source.Spells inside t) ∧
    Function.Injective quote := by
  have hspells (t : Text) :
      ∃ inside, quote t = .scalar '"' :: (inside ++ [.scalar '"']) ∧ Source.Spells inside t :=
    ⟨t.flatMap escapeInLiteral, rfl, Source.spells_flatMap t⟩
  refine ⟨fun t => ⟨Json.quote_eq t, hspells t⟩, fun t u heq => ?_⟩
  obtain ⟨inside, ht, hinside⟩ := hspells t
  obtain ⟨other, hu, hother⟩ := hspells u
  rw [ht, hu] at heq
  obtain rfl : inside = other := List.append_cancel_right (List.cons.inj heq).2
  exact Option.some.inj (hinside.denoted.symm.trans hother.denoted)

/-- A backslash, a line separator, a quote and a character of two bytes. -/
example : quote (.ofString "\\\u2028\"é") = .ofString "\"\\\\\\u2028\\\"é\"" := by decide

end CurlSnippet
