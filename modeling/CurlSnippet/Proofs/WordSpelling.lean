import CurlSnippet.Proofs.Trimming
import CurlSnippet.Words
import Mathlib.Tactic.SplitIfs

/-!
Words written as a line are the words that the line is split into. A written word holds no line
feed, and its first and last characters are not white space; so a written line is neither trimmed
nor joined with another. The reader leaves each of the three spellings of a word exactly at its own
end, and takes back what was escaped.
-/

namespace CurlSnippet.Words

open Blank

/-- What may stand between a written word and the end of its line. -/
def EndsWord (rest : List Char) : Prop := rest = [] ∨ ∃ r, rest = ' ' :: r

theorem scan_blank_space (rest : List Char) : scan .blank (' ' :: rest) = scan .blank rest := rfl

theorem EndsWord.isBlank {rest : List Char} (h : EndsWord rest) :
    ∀ c ∈ rest.head?, isBlank c = true := by
  rcases h with rfl | ⟨r, rfl⟩
  · exact nofun
  · rintro c hc
    obtain rfl := Option.some.inj hc
    rfl

/-- A bare word ends at white space or with the line. -/
theorem scan_bare_append (word w rest : List Char) (hw : w.any isBlank = false)
    (hrest : ∀ c ∈ rest.head?, isBlank c = true) :
    scan (.bare word) (w ++ rest) = (word.reverse ++ w) :: scan .blank rest := by
  induction w generalizing word with
  | nil =>
    cases rest with
    | nil => simp [scan]
    | cons c rest =>
      have hc : isBlank c = true := hrest c rfl
      simp [scan, hc]
  | cons c w ih =>
    rw [List.any_cons, Bool.or_eq_false_iff] at hw
    simp [scan, hw.1, ih (c :: word) hw.2]

theorem scan_single_append (word w rest : List Char) (hw : '\'' ∉ w) :
    scan (.single word) (w ++ '\'' :: rest) = (word.reverse ++ w) :: scan .blank rest := by
  induction w generalizing word with
  | nil => simp [scan]
  | cons c w ih =>
    rw [List.mem_cons, not_or] at hw
    simp [scan, Ne.symm hw.1, ih (c :: word) hw.2]

/-- The spelling of a character inside double quotes adds that character to the word. -/
theorem scan_double_escapeChar (word : List Char) (c : Char) (rest : List Char) :
    scan (.double word) (escapeChar c ++ rest) = scan (.double (c :: word)) rest := by
  unfold escapeChar
  split_ifs with h1 h2 h3 h4 h5
  all_goals simp_all [scan, unescape]

theorem scan_double_append (word w rest : List Char) :
    scan (.double word) (w.flatMap escapeChar ++ '"' :: rest) =
      (word.reverse ++ w) :: scan .blank rest := by
  induction w generalizing word with
  | nil => simp [scan]
  | cons c w ih =>
    rw [List.flatMap_cons, List.append_assoc, scan_double_escapeChar, ih]
    simp

/-- From between words, a written word is read as the word, and the reader stands between words
again. -/
theorem scan_quoteWord (w rest : List Char) (hrest : EndsWord rest) :
    scan .blank (quoteWord w ++ rest) = w :: scan .blank rest := by
  unfold quoteWord
  split_ifs with hbare hsingle
  · -- A bare word begins with neither a blank nor a quote, so it opens as bare.
    cases w with
    | nil => simp [needsQuotes] at hbare
    | cons c w =>
      simp only [needsQuotes, List.any_cons, Bool.not_eq_true', Bool.or_eq_false_iff,
        beq_eq_false_iff_ne] at hbare
      obtain ⟨⟨hsq, hdq⟩, hblank, hw⟩ := hbare
      simp only [List.cons_append, scan, hblank, hsq, hdq, if_false, Bool.false_eq_true]
      exact scan_bare_append [c] w rest hw hrest.isBlank
  · have hw : '\'' ∉ w := by
      intro hmem
      simp only [needsDoubleQuotes, Bool.not_eq_true', List.any_eq_false] at hsingle
      simpa using hsingle _ hmem
    rw [List.cons_append, List.append_assoc]
    exact scan_single_append [] w rest hw
  · rw [List.cons_append, List.append_assoc]
    exact scan_double_append [] w rest

/-- Splitting a joined line, apart from trimming and joining continued lines. -/
theorem scan_joinChars (ws : List (List Char)) : scan .blank (joinChars ws) = ws := by
  unfold joinChars
  induction ws with
  | nil => rfl
  | cons w ws ih =>
    cases ws with
    | nil =>
      have h := scan_quoteWord w [] (Or.inl rfl)
      rw [List.append_nil] at h
      rw [List.map_cons, List.map_nil, List.intercalate_singleton, h]
      rfl
    | cons v ws =>
      rw [List.map_cons, List.map_cons, List.intercalate_cons_cons, List.append_assoc,
        List.singleton_append, scan_quoteWord w _ (Or.inr ⟨_, rfl⟩), scan_blank_space]
      rw [List.map_cons] at ih
      rw [ih]

/-- Without a backslash before a line end there are no lines to join. -/
theorem joinLines_of_not_infix {cs : List Char} (hfeed : ¬ ['\\', '\n'] <:+: cs)
    (hreturn : ¬ ['\\', '\r', '\n'] <:+: cs) : joinLines cs = cs := by
  fun_induction joinLines cs with
  | case1 rest => exact absurd (List.prefix_append ['\\', '\n'] rest).isInfix hfeed
  | case2 rest => exact absurd (List.prefix_append ['\\', '\r', '\n'] rest).isInfix hreturn
  | case3 c rest _ _ ih =>
    have htail : rest <:+: c :: rest := (List.suffix_cons c rest).isInfix
    rw [ih (fun h => hfeed (h.trans htail)) fun h => hreturn (h.trans htail)]
  | case4 => rfl

theorem line_feed_not_mem_escapeChar (c : Char) : '\n' ∉ escapeChar c := by
  unfold escapeChar
  split_ifs with h1 h2 h3 h4 h5
  all_goals simp_all [Ne.symm]

theorem isBlank_line_feed : isBlank '\n' = true := rfl

theorem isBlank_of_bare {w : List Char} (h : needsQuotes w = false) {c : Char} (hc : c ∈ w) :
    isBlank c = false := by
  have hw : w.any isBlank = false := by
    cases w with
    | nil => rfl
    | cons d w => exact (Bool.or_eq_false_iff.mp h).2
  simpa using List.any_eq_false.mp hw c hc

theorem line_feed_not_mem_quoteWord (w : List Char) : '\n' ∉ quoteWord w := by
  unfold quoteWord
  split_ifs with hbare hsingle
  · intro hmem
    have hblank := isBlank_of_bare (by simpa using hbare) hmem
    rw [isBlank_line_feed] at hblank
    simp at hblank
  · intro hmem
    have hw : '\n' ∈ w := by simpa using hmem
    simp only [needsDoubleQuotes, Bool.not_eq_true', List.any_eq_false] at hsingle
    simpa using hsingle _ hw
  · have hescaped : '\n' ∉ w.flatMap escapeChar := by
      intro hmem
      obtain ⟨c, -, hc⟩ := List.mem_flatMap.mp hmem
      exact line_feed_not_mem_escapeChar c hc
    simpa using hescaped

theorem line_feed_not_mem_joinChars (ws : List (List Char)) : '\n' ∉ joinChars ws := by
  unfold joinChars
  induction ws with
  | nil => simp
  | cons w ws ih =>
    cases ws with
    | nil => simpa using line_feed_not_mem_quoteWord w
    | cons v ws =>
      rw [List.map_cons, List.map_cons, List.intercalate_cons_cons, ← List.map_cons]
      simpa using ⟨line_feed_not_mem_quoteWord w, ih⟩

theorem quoteWord_ne_nil (w : List Char) : quoteWord w ≠ [] := by
  unfold quoteWord
  split_ifs with hbare
  · rintro rfl
    simp [needsQuotes] at hbare
  · simp
  · simp

theorem tight_quoteWord (w : List Char) : Tight (quoteWord w) := by
  unfold quoteWord
  split_ifs with hbare
  · have hw : needsQuotes w = false := by simpa using hbare
    exact ⟨fun c hc => isBlank_of_bare hw (List.mem_of_mem_head? hc),
      fun c hc => isBlank_of_bare hw (List.mem_of_mem_getLast? hc)⟩
  · exact tight_enclosed '\'' rfl w
  · exact tight_enclosed '"' rfl (w.flatMap escapeChar)

theorem joinChars_ne_nil (w : List Char) (ws : List (List Char)) : joinChars (w :: ws) ≠ [] := by
  cases ws <;> simp [joinChars, quoteWord_ne_nil]

theorem tight_joinChars (ws : List (List Char)) : Tight (joinChars ws) := by
  induction ws with
  | nil => simp [joinChars, Tight]
  | cons w ws ih =>
    cases ws with
    | nil => simpa [joinChars] using tight_quoteWord w
    | cons v ws =>
      have heq : joinChars (w :: v :: ws) = quoteWord w ++ [' '] ++ joinChars (v :: ws) := by
        simp [joinChars]
      rw [heq]
      exact (tight_quoteWord w).append ih (quoteWord_ne_nil w) (joinChars_ne_nil v ws) [' ']

theorem splitChars_joinChars (ws : List (List Char)) : splitChars (joinChars ws) = ws := by
  have hline {cs : List Char} (hmem : '\n' ∈ cs) : ¬ cs <:+: joinChars ws := fun h =>
    line_feed_not_mem_joinChars ws (h.subset hmem)
  rw [splitChars, trim_eq_self (tight_joinChars ws),
    joinLines_of_not_infix (hline (by simp)) (hline (by simp)), scan_joinChars]

/-- Any words are read back from the line that they are written as, whatever characters they
hold. -/
theorem split_join (ws : List String) : split (join ws) = ws := by
  rw [split, join, String.toList_ofList, splitChars_joinChars, List.map_map]
  have hid : String.ofList ∘ String.toList = id := funext fun _ => String.ofList_toList
  rw [hid, List.map_id]

end CurlSnippet.Words
