import CurlSnippet.Snippet.Basic
import Mathlib.Tactic.SplitIfs

/-!
Strings between quotes are read back. A code point is written as it stands, by a letter or by its
number, and each of these is read as the code point whatever follows it; a number is safe because
the numbers so written are no surrogates, so that no two of them are joined into one.
-/

namespace CurlSnippet

namespace Json

/-- The characters that are written by a letter, the same in JSON and in every language here. -/
def letter? (c : Char) : Option Char :=
  if c = '"' ∨ c = '\\' then some c
  else if c = 'n' then some '\n'
  else if c = 'r' then some '\r'
  else if c = 't' then some '\t'
  else if c = 'b' then some '\x08'
  else if c = 'f' then some '\x0c'
  else none

/-- The ways to write a code point in a string. -/
inductive Written : CodePoint → Text → Prop
  | surrogate (o : Fin 0x800) : Written (.surrogate o) [.surrogate o]
  | plain {c : Char} (hquote : c ≠ '"') (hslash : c ≠ '\\') (hctl : 32 ≤ c.toNat) :
      Written (.scalar c) [.scalar c]
  | letter {c d : Char} (h : letter? c = some d) : Written (.scalar d) (Text.ofChars ['\\', c])
  | number {c : Char} (h : c.toNat < 0xD800) :
      Written (.scalar c) (Text.ofChars ('\\' :: 'u' :: hex4 c.toNat))

theorem written_escape (p : CodePoint) : Written p (escape p) := by
  cases p with
  | surrogate o => exact .surrogate o
  | scalar c =>
    simp only [escape, escapeChar?]
    split_ifs with hquote hslash hlf hcr htab hback hfeed hctl
    · subst hquote
      exact .letter rfl
    · subst hslash
      exact .letter rfl
    · subst hlf
      exact .letter rfl
    · subst hcr
      exact .letter rfl
    · subst htab
      exact .letter rfl
    · subst hback
      exact .letter rfl
    · subst hfeed
      exact .letter rfl
    · exact .number (by omega)
    · exact .plain hquote hslash (Nat.not_lt.mp hctl)

theorem written_escapeInLiteral (p : CodePoint) : Written p (escapeInLiteral p) := by
  cases p with
  | surrogate o => exact .surrogate o
  | scalar c =>
    simp only [escapeInLiteral]
    split_ifs with h
    · apply Written.number
      rcases h with rfl | rfl
      · decide
      · decide
    · exact written_escape (.scalar c)

theorem value?_digit : ∀ n < 16, Hex.value? (Hex.digit n) = some n := by
  decide

theorem value?_digit_mod (n : Nat) : Hex.value? (Hex.digit (n % 16)) = some (n % 16) :=
  value?_digit (n % 16) (Nat.mod_lt n (by decide))

theorem digit_mod_ne (n : Nat) {c : Char} (hc : Hex.value? c = none) : Hex.digit (n % 16) ≠ c := by
  rintro rfl
  rw [value?_digit_mod] at hc
  cases hc

/-- Four digits say a number below 65536. -/
theorem hex4_value {n : Nat} (hn : n < 0x10000) :
    ((n / 4096 % 16 * 16 + n / 256 % 16) * 16 + n / 16 % 16) * 16 + n % 16 = n := by
  omega

/-- What holds of the seven letters and of what they stand for. -/
theorem forall_letter {P : Char → Char → Prop} (hquote : P '"' '"') (hslash : P '\\' '\\')
    (hn : P 'n' '\n') (hr : P 'r' '\r') (ht : P 't' '\t') (hb : P 'b' '\x08') (hf : P 'f' '\x0c')
    {c d : Char} (h : letter? c = some d) : P c d := by
  unfold letter? at h
  split_ifs at h with hsame hcn hcr hct hcb hcf
  all_goals obtain rfl := Option.some.inj h
  · rcases hsame with rfl | rfl
    · exact hquote
    · exact hslash
  · exact hcn ▸ hn
  · exact hcr ▸ hr
  · exact hct ▸ ht
  · exact hcb ▸ hb
  · exact hcf ▸ hf

theorem unescapeChar?_of_letter? {c d : Char} (h : letter? c = some d) :
    unescapeChar? c = some d ∧ c ≠ 'u' := by
  apply forall_letter _ _ _ _ _ _ _ h
  all_goals exact ⟨rfl, by decide⟩

theorem readSpelled_hex4 {n : Nat} (hn : n < 0x10000) (rest : Text) :
    readSpelled (.unit 4 0) (Text.ofChars (hex4 n) ++ rest) =
      (readSpelled .plain rest).map fun r => (.unit (Fin.ofNat _ n) :: r.1, r.2) := by
  simp [hex4, Text.ofChars, readSpelled, CodePoint.char?, value?_digit_mod, hex4_value hn]

theorem isHighUnit_iff {u : Nat} : isHighUnit u = true ↔ 0xD800 ≤ u ∧ u < 0xDC00 := by
  rw [isHighUnit, Bool.and_eq_true, decide_eq_true_eq, decide_eq_true_eq]

theorem isLowUnit_iff {u : Nat} : isLowUnit u = true ↔ 0xDC00 ≤ u ∧ u < 0xE000 := by
  rw [isLowUnit, Bool.and_eq_true, decide_eq_true_eq, decide_eq_true_eq]

/-- Whether the first place is the second unit of a pair. -/
def beginsLow : List Spelled → Bool
  | .unit u :: _ => isLowUnit u
  | _ => false

/-- A unit that forms no pair with the next place stands for itself. -/
theorem pairUnits_unpaired {u : Fin 0x10000} {l : List Spelled}
    (h : (isHighUnit u && beginsLow l) = false) :
    pairUnits (.unit u :: l) = .ofNat u :: pairUnits l := by
  match l with
  | [] => rfl
  | .point _ :: _ => rfl
  | .unit v :: l =>
    rw [beginsLow] at h
    rw [pairUnits, h]
    rfl

theorem pairUnits_of_not_high {u : Fin 0x10000} (hu : ¬ isHighUnit u = true) (l : List Spelled) :
    pairUnits (.unit u :: l) = .ofNat u :: pairUnits l := by
  rw [Bool.not_eq_true] at hu
  exact pairUnits_unpaired (by rw [hu, Bool.false_and])

/-- What is written is one place of a string, and that place is the code point. -/
theorem readSpelled_written {p : CodePoint} {e : Text} (h : Written p e) :
    ∃ s, (∀ l, pairUnits (s :: l) = p :: pairUnits l) ∧
      ∀ rest, readSpelled .plain (e ++ rest) =
        (readSpelled .plain rest).map fun r => (s :: r.1, r.2) := by
  cases h with
  | surrogate o => exact ⟨.point (.surrogate o), fun _ => rfl, fun _ => rfl⟩
  | @plain c hquote hslash hctl =>
    refine ⟨.point (.scalar c), fun _ => rfl, fun rest => ?_⟩
    simp [readSpelled, hquote, hslash, Nat.not_lt.mpr hctl]
  | @letter c d h =>
    obtain ⟨hd, hu⟩ := unescapeChar?_of_letter? h
    refine ⟨.point (.scalar d), fun _ => rfl, fun rest => ?_⟩
    simp [Text.ofChars, readSpelled, hu, hd]
  | @number c h =>
    have hunit : (Fin.ofNat 0x10000 c.toNat).val = c.toNat := Nat.mod_eq_of_lt (by omega)
    have hnothigh : ¬ isHighUnit (Fin.ofNat 0x10000 c.toNat) = true := by
      rw [hunit, isHighUnit_iff]
      omega
    have hpoint : CodePoint.ofNat (Fin.ofNat 0x10000 c.toNat) = .scalar c := by
      rw [hunit, CodePoint.ofNat, dif_neg (by omega), Char.ofNat_toNat]
    refine ⟨.unit (Fin.ofNat _ c.toNat), fun l => ?_, fun rest => ?_⟩
    · rw [pairUnits_of_not_high hnothigh, hpoint]
    · rw [← readSpelled_hex4 (by omega)]
      simp [Text.ofChars, readSpelled]

/-- A string is read back up to its closing quote, whatever follows. -/
theorem readString_flatMap {f : CodePoint → Text} (hf : ∀ p, Written p (f p)) (t rest : Text) :
    readString (t.flatMap f ++ .scalar '"' :: rest) = some (t, rest) := by
  have hread : ∃ l, pairUnits l = t ∧
      readSpelled .plain (t.flatMap f ++ .scalar '"' :: rest) = some (l, rest) := by
    induction t with
    | nil => exact ⟨[], rfl, rfl⟩
    | cons p t ih =>
      obtain ⟨l, hl, hrest⟩ := ih
      obtain ⟨s, hs, hspell⟩ := readSpelled_written (hf p)
      refine ⟨s :: l, by rw [hs, hl], ?_⟩
      rw [List.flatMap_cons, List.append_assoc, hspell, hrest]
      rfl
  obtain ⟨l, hl, hspelled⟩ := hread
  rw [readString, hspelled, Option.map_some, hl]

end Json

end CurlSnippet
