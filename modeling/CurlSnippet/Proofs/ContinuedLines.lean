import CurlSnippet.Proofs.WordLayout

/-!
Continued lines. A backslash before a line end is as good as a space wherever anything but white
space comes after it. At the end of a text the line end is trimmed off before lines are joined, so
that its backslash is left and is read with what stands before it. Nothing of that shows in two
places only: where the backslash makes a pair with another one, and where another continued line
stands before it.
-/

namespace CurlSnippet.Words

open Blank

/-- A backslash with the line end behind it. -/
inductive Continuation where
  | feed
  | returnFeed

def Continuation.text : Continuation → List Char
  | feed => ['\\', '\n']
  | returnFeed => ['\\', '\r', '\n']

section Join

theorem joinLines_continuation (k : Continuation) (v : List Char) :
    joinLines (k.text ++ v) = ' ' :: joinLines v := by
  cases k with
  | feed => rfl
  | returnFeed => rfl

/-- Lines are joined on both sides of a place behind which no line end stands. -/
theorem joinLines_append (u : List Char) {v : List Char}
    (hv : ∀ c ∈ v.head?, c ≠ '\n' ∧ c ≠ '\r') :
    joinLines (u ++ v) = joinLines u ++ joinLines v := by
  fun_induction joinLines u with
  | case1 rest ih => exact congrArg (List.cons ' ') ih
  | case2 rest ih => exact congrArg (List.cons ' ') ih
  | case3 c rest hfeed hreturn ih =>
    -- A line end that the backslash `c` would hide would have to begin in `v`.
    rw [List.cons_append, joinLines.eq_3, ih, List.cons_append]
    · intro more hc heq
      cases rest with
      | nil => exact (hv '\n' (congrArg List.head? heq)).1 rfl
      | cons d rest =>
        obtain ⟨rfl, -⟩ := List.cons.inj heq
        exact hfeed rest hc rfl
    · intro more hc heq
      rcases rest with _ | ⟨d, _ | ⟨e, rest⟩⟩
      · exact (hv '\r' (congrArg List.head? heq)).2 rfl
      · exact (hv '\n' (congrArg List.head? (List.cons.inj heq).2)).1 rfl
      · obtain ⟨hd, htail⟩ := List.cons.inj heq
        exact hreturn rest hc (by rw [hd, (List.cons.inj htail).1])
  | case4 => rfl

end Join

section Trim

theorem joinLines_blanks {w : List Char} (hw : ∀ c ∈ w, isBlank c = true) : joinLines w = w := by
  have hslash : '\\' ∉ w := fun hmem => by cases hw _ hmem
  exact joinLines_of_not_infix (fun h => hslash (h.subset List.mem_cons_self))
    fun h => hslash (h.subset List.mem_cons_self)

/-- White space in front is passed over, so only what stands at the end has to be trimmed. -/
theorem splitChars_eq (cs : List Char) : splitChars cs = scan .blank (joinLines (trimRight cs)) := by
  obtain ⟨blanks, rest, rfl, hblanks, hrest⟩ := exists_run isBlank cs
  have htrim : trimLeft (blanks ++ rest) = rest := (span_append hblanks hrest).2
  rw [splitChars, Blank.trim, htrim]
  cases rest with
  | nil =>
    have hnil := trimRight_append_blanks [] hblanks
    rw [List.nil_append] at hnil
    rw [List.append_nil, hnil]
  | cons c rest =>
    have hc : isBlank c = false := hrest c rfl
    have hfirst : ∀ d ∈ (trimRight (c :: rest)).head?, d ≠ '\n' ∧ d ≠ '\r' := by
      intro d hd
      obtain ⟨w, heq, -⟩ := exists_trimRight (c :: rest)
      have hmem : d ∈ (c :: rest).head? := by
        rw [heq, List.head?_append, Option.mem_def.mp hd]
        rfl
      obtain rfl := Option.some.inj hmem
      exact ⟨(ne_of_kind (p := isBlank) rfl hc).symm, (ne_of_kind (p := isBlank) rfl hc).symm⟩
    rw [trimRight_append_of_exists blanks ⟨c, List.mem_cons_self, hc⟩, joinLines_append _ hfirst,
      joinLines_blanks hblanks]
    exact (scan_gap ⟨blanks, hblanks⟩ _).symm

end Trim

section Standing

/-- Where the reader stands after one more character. -/
def step : Mode → Char → Mode
  | .blank, c =>
    if isBlank c then .blank
    else if c = '\'' then .single []
    else if c = '"' then .double []
    else .bare [c]
  | .bare w, c => if isBlank c then .blank else .bare (c :: w)
  | .single w, c => if c = '\'' then .blank else .single (c :: w)
  | .double w, c =>
    if c = '"' then .blank
    else if c = '\\' then .escape w
    else .double (c :: w)
  | .escape w, c => .double (unescape c :: w)

/-- Where the reader stands behind a text whose continued lines are joined. -/
def standing (u : List Char) : Mode := (joinLines u).foldl step .blank

theorem exists_word (m : Mode) (c : Char) :
    ∃ ws, ∀ rest, scan m (c :: rest) = ws ++ scan (step m c) rest := by
  cases m with
  | blank =>
    refine ⟨[], fun rest => ?_⟩
    rw [scan, step]
    split_ifs <;> rfl
  | bare w =>
    by_cases hc : isBlank c = true
    · exact ⟨[w.reverse], fun rest => by rw [scan, step, if_pos hc, if_pos hc]; rfl⟩
    · exact ⟨[], fun rest => by rw [scan, step, if_neg hc, if_neg hc]; rfl⟩
  | single w =>
    by_cases hc : c = '\''
    · exact ⟨[w.reverse], fun rest => by rw [scan, step, if_pos hc, if_pos hc]; rfl⟩
    · exact ⟨[], fun rest => by rw [scan, step, if_neg hc, if_neg hc]; rfl⟩
  | double w =>
    by_cases hc : c = '"'
    · exact ⟨[w.reverse], fun rest => by rw [scan, step, if_pos hc, if_pos hc]; rfl⟩
    · refine ⟨[], fun rest => ?_⟩
      rw [scan, step, if_neg hc, if_neg hc]
      split_ifs <;> rfl
  | escape w => exact ⟨[], fun rest => rfl⟩

/-- The words of a text followed by another are those it ends, and those that are read on from
where it leaves the reader. -/
theorem exists_words (m : Mode) (cs : List Char) :
    ∃ ws, ∀ rest, scan m (cs ++ rest) = ws ++ scan (cs.foldl step m) rest := by
  induction cs generalizing m with
  | nil => exact ⟨[], fun _ => rfl⟩
  | cons c cs ih =>
    obtain ⟨ws, hws⟩ := exists_word m c
    obtain ⟨more, hmore⟩ := ih (step m c)
    refine ⟨ws ++ more, fun rest => ?_⟩
    rw [List.cons_append, hws, hmore, List.foldl_cons, List.append_assoc]

/-- What comes of two ends of a text differs exactly if it differs from where the reader stands. -/
theorem scan_append_inj (m : Mode) (cs : List Char) {rest more : List Char} :
    scan m (cs ++ rest) = scan m (cs ++ more) ↔
      scan (cs.foldl step m) rest = scan (cs.foldl step m) more := by
  obtain ⟨ws, hws⟩ := exists_words m cs
  rw [hws, hws, List.append_cancel_left_eq]

theorem scan_double_blanks (w : List Char) {g : List Char} (hg : ∀ c ∈ g, isBlank c = true)
    (rest : List Char) : scan (.double w) (g ++ rest) = scan (.double (g.reverse ++ w)) rest := by
  induction g generalizing w with
  | nil => rfl
  | cons c g ih =>
    obtain ⟨hc, hrest⟩ := List.forall_mem_cons.mp hg
    rw [List.cons_append, scan, if_neg (ne_of_kind hc rfl), if_neg (ne_of_kind hc rfl), ih _ hrest,
      List.reverse_cons, List.append_assoc, List.singleton_append]

theorem unescape_blank {c : Char} (hc : isBlank c = true) : unescape c = c := by
  have hletter : ∀ d, isBlank d = false → c ≠ d := fun _ => ne_of_kind hc
  rw [unescape, if_neg (hletter 'n' rfl), if_neg (hletter 't' rfl), if_neg (hletter 'r' rfl)]

/-- What is read of a backslash at the end of a text, perhaps behind white space. -/
theorem scan_blanks_slash (m : Mode) {g : List Char} (hg : ∀ c ∈ g, isBlank c = true) :
    scan m (g ++ ['\\']) = match m with
      | .blank => [['\\']]
      | .bare w => if g = [] then [w.reverse ++ ['\\']] else [w.reverse, ['\\']]
      | .single w | .double w | .escape w => [w.reverse ++ (g ++ ['\\'])] := by
  cases m with
  | blank => exact scan_gap ⟨g, hg⟩ ['\\']
  | bare w =>
    cases g with
    | nil => simp [scan, isBlank]
    | cons c g =>
      obtain ⟨hc, hrest⟩ := List.forall_mem_cons.mp hg
      rw [List.cons_append, scan, if_pos hc, scan_gap ⟨g, hrest⟩]
      rfl
  | single w =>
    apply scan_single_end
    intro hmem
    rcases List.mem_append.mp hmem with h | h
    · cases hg _ h
    · cases List.mem_singleton.mp h
  | double w =>
    rw [scan_double_blanks w hg]
    simp [scan]
  | escape w =>
    cases g with
    | nil => simp [scan, unescape]
    | cons c g =>
      obtain ⟨hc, hrest⟩ := List.forall_mem_cons.mp hg
      rw [List.cons_append, scan, unescape_blank hc, scan_double_blanks _ hrest]
      simp [scan]

/-- At the end of a text a backslash shows, unless it makes a pair with another one. -/
theorem scan_slash_eq_end (m : Mode) {g : List Char} (hg : ∀ c ∈ g, isBlank c = true) :
    scan m (g ++ ['\\']) = scan m [] ↔ g = [] ∧ ∃ w, m = .escape w := by
  rw [scan_blanks_slash m hg]
  cases m with
  | blank => simp [scan]
  | bare w =>
    dsimp only
    split_ifs <;> simp [scan]
  | single w => simp [scan]
  | double w => simp [scan]
  | escape w => simp [scan]

/-- White space in front of a backslash shows, unless the reader stands between words. -/
theorem scan_space_slash_eq (m : Mode) {g : List Char} (hg : ∀ c ∈ g, isBlank c = true) :
    scan m (' ' :: (g ++ ['\\'])) = scan m ['\\'] ↔ m = .blank := by
  have hspace : ∀ c ∈ ' ' :: g, isBlank c = true := List.forall_mem_cons.mpr ⟨rfl, hg⟩
  have hslash := scan_blanks_slash m (g := []) nofun
  rw [List.nil_append] at hslash
  rw [← List.cons_append, scan_blanks_slash m hspace, hslash]
  cases m with
  | blank => simp
  | bare w => simp
  | single w => simp
  | double w => simp
  | escape w => simp

end Standing

section Ends

variable {u : List Char}

theorem trimRight_slash (u : List Char) {w : List Char} (hw : ∀ c ∈ w, isBlank c = true) :
    trimRight (u ++ '\\' :: w) = u ++ ['\\'] := by
  have hslash : trimRight (u ++ ['\\']) = u ++ ['\\'] :=
    trimRight_append_of_exists u ⟨'\\', List.mem_cons_self, rfl⟩
  rw [List.append_cons, trimRight_append_blanks _ hw, hslash]

/-- Of a continued line at the end of a text only the backslash is left. -/
theorem trimRight_continuation (u : List Char) (k : Continuation) {w : List Char}
    (hw : ∀ c ∈ w, isBlank c = true) : trimRight (u ++ k.text ++ w) = u ++ ['\\'] := by
  have hfeed : ∀ c ∈ '\n' :: w, isBlank c = true := List.forall_mem_cons.mpr ⟨rfl, hw⟩
  rw [List.append_assoc]
  cases k with
  | feed => exact trimRight_slash u hfeed
  | returnFeed => exact trimRight_slash u (List.forall_mem_cons.mpr ⟨rfl, hfeed⟩)

theorem joinLines_append_continuation (u : List Char) (k : Continuation) (v : List Char) :
    joinLines (u ++ k.text ++ v) = joinLines u ++ ' ' :: joinLines v := by
  have hslash : ∀ c ∈ (k.text ++ v).head?, c ≠ '\n' ∧ c ≠ '\r' := by
    intro c hc
    obtain rfl : '\\' = c := by
      cases k with
      | feed => exact Option.some.inj hc
      | returnFeed => exact Option.some.inj hc
    decide
  rw [List.append_assoc, joinLines_append u hslash, joinLines_continuation]

theorem joinLines_append_space (u v : List Char) :
    joinLines (u ++ ' ' :: v) = joinLines u ++ ' ' :: joinLines v := by
  have hspace : ∀ c ∈ (' ' :: v).head?, c ≠ '\n' ∧ c ≠ '\r' := by
    intro c hc
    obtain rfl := Option.some.inj hc
    decide
  rw [joinLines_append u hspace]
  rfl

/-- A text ends with a continued line, or what is trimmed off its end is no part of one. -/
theorem joinLines_end (u : List Char) :
    (∃ front k w, u = front ++ Continuation.text k ++ w ∧ ∀ c ∈ w, isBlank c = true) ∨
      ∃ w, u = trimRight u ++ w ∧ (∀ c ∈ w, isBlank c = true) ∧
        joinLines u = joinLines (trimRight u) ++ w := by
  obtain ⟨w, hu, hw⟩ := exists_trimRight u
  rcases List.eq_nil_or_concat (trimRight u) with hnil | ⟨front, d, hfront⟩
  · refine .inr ⟨w, hu, hw, ?_⟩
    rw [hnil, List.nil_append] at hu
    rw [hnil, hu, joinLines_blanks hw]
    rfl
  · rw [List.concat_eq_append] at hfront
    have hd : isBlank d = false :=
      not_isBlank_getLast_trimRight u d (by rw [hfront, List.getLast?_concat]; rfl)
    have hend : ∀ tail : List Char, ∀ c ∈ (d :: tail).head?, c ≠ '\n' ∧ c ≠ '\r' := by
      intro tail c hc
      obtain rfl := Option.some.inj hc
      exact ⟨(ne_of_kind (p := isBlank) rfl hd).symm, (ne_of_kind (p := isBlank) rfl hd).symm⟩
    by_cases hline : ∃ k more, d :: w = Continuation.text k ++ more
    · obtain ⟨k, more, hmore⟩ := hline
      have hsuffix : more <:+ w := by
        cases k with
        | feed => exact ⟨['\n'], (List.cons.inj hmore).2.symm⟩
        | returnFeed => exact ⟨['\r', '\n'], (List.cons.inj hmore).2.symm⟩
      refine .inl ⟨front, k, more, ?_, fun c hc => hw c (hsuffix.mem hc)⟩
      rw [hu, hfront, ← List.append_cons, hmore, List.append_assoc]
    · refine .inr ⟨w, hu, hw, ?_⟩
      have hlast : joinLines [d] = [d] := joinLines.eq_3 d [] nofun nofun
      have hjoin : joinLines (d :: w) = d :: w := by
        rw [joinLines.eq_3, joinLines_blanks hw]
        · rintro more rfl rfl
          exact hline ⟨.feed, more, rfl⟩
        · rintro more rfl rfl
          exact hline ⟨.returnFeed, more, rfl⟩
      rw [hfront, joinLines_append front (hend []), hlast]
      rw [hfront, ← List.append_cons] at hu
      rw [hu, joinLines_append front (hend w), hjoin, List.append_cons]

theorem ne_escape_of_step {m : Mode} {c : Char} (hc : isBlank c = true) (w : List Char) :
    step m c ≠ .escape w := by
  have hslash : c ≠ '\\' := ne_of_kind hc rfl
  cases m with
  | blank => simp [step, hc]
  | bare v => simp [step, hc]
  | single v =>
    rw [step]
    split_ifs <;> simp
  | double v =>
    rw [step, if_neg hslash]
    split_ifs <;> simp
  | escape v => simp [step]

/-- Behind white space the reader does not wait for the second half of a pair. -/
theorem ne_escape_of_blanks {g : List Char} (hg : ∀ c ∈ g, isBlank c = true) (hne : g ≠ [])
    (m : Mode) (w : List Char) : g.foldl step m ≠ .escape w := by
  rcases List.eq_nil_or_concat g with rfl | ⟨front, c, rfl⟩
  · exact absurd rfl hne
  · rw [List.concat_eq_append] at hg ⊢
    rw [List.foldl_append]
    exact ne_escape_of_step (hg c (by simp)) w

/-- What hides a backslash at the end of a text: another one with which it makes a pair, or, between
words, a continued line, of which a backslash would be left all the same. -/
inductive Hides (u : List Char) : Prop
  | pair {word : List Char} (h : standing u = .escape word)
  | continued {front w : List Char} {k : Continuation} (hu : u = front ++ k.text ++ w)
      (hw : ∀ c ∈ w, isBlank c = true) (h : standing front = .blank)

/-- Behind a continued line a backslash is hidden exactly between words. -/
theorem splitChars_slash_continued (u : List Char) (k : Continuation) {w : List Char}
    (hw : ∀ c ∈ w, isBlank c = true) :
    splitChars (u ++ k.text ++ w ++ ['\\']) = splitChars (u ++ k.text ++ w) ↔
      standing u = .blank := by
  have hslash : joinLines (u ++ ['\\']) = joinLines u ++ ['\\'] :=
    joinLines_append u (by simp)
  have hend : joinLines (w ++ ['\\']) = w ++ ['\\'] := by
    rw [joinLines_append w (by simp), joinLines_blanks hw]
    rfl
  rw [splitChars_eq, splitChars_eq, trimRight_slash _ (by simp), trimRight_continuation u k hw,
    hslash, List.append_assoc _ w, joinLines_append_continuation, hend, scan_append_inj,
    scan_space_slash_eq _ hw]
  rfl

/-- Elsewhere it is hidden exactly directly behind another one that waits for it. -/
theorem splitChars_slash_open {w : List Char} (hw : ∀ c ∈ w, isBlank c = true)
    (hjoin : joinLines u = joinLines (trimRight u) ++ w) :
    splitChars (u ++ ['\\']) = splitChars u ↔
      w = [] ∧ ∃ word, standing (trimRight u) = .escape word := by
  have hslash : joinLines (u ++ ['\\']) = joinLines (trimRight u) ++ (w ++ ['\\']) := by
    rw [joinLines_append u (by simp), hjoin, List.append_assoc]
    rfl
  have hend : scan .blank (joinLines (trimRight u)) =
      scan .blank (joinLines (trimRight u) ++ []) := by rw [List.append_nil]
  rw [splitChars_eq, splitChars_eq, trimRight_slash _ (by simp), hslash, hend, scan_append_inj,
    scan_slash_eq_end _ hw]
  rfl

theorem splitChars_slash_iff (u : List Char) :
    splitChars (u ++ ['\\']) = splitChars u ↔ Hides u := by
  constructor
  · intro heq
    rcases joinLines_end u with ⟨front, k, w, rfl, hw⟩ | ⟨w, hu, hw, hjoin⟩
    · exact .continued rfl hw ((splitChars_slash_continued front k hw).mp heq)
    · obtain ⟨rfl, word, h⟩ := (splitChars_slash_open hw hjoin).mp heq
      rw [List.append_nil] at hu
      rw [← hu] at h
      exact .pair h
  · rintro (⟨h⟩ | ⟨rfl, hw, h⟩)
    · rcases joinLines_end u with ⟨front, k, w, rfl, hw⟩ | ⟨w, hu, hw, hjoin⟩
      · have hspace : ∀ c ∈ ' ' :: w, isBlank c = true := List.forall_mem_cons.mpr ⟨rfl, hw⟩
        rw [standing, joinLines_append_continuation, joinLines_blanks hw, List.foldl_append] at h
        exact absurd h (ne_escape_of_blanks hspace (List.cons_ne_nil _ _) _ _)
      · have hnil : w = [] := by
          by_contra hne
          rw [standing, hjoin, List.foldl_append] at h
          exact ne_escape_of_blanks hw hne _ _ h
        subst hnil
        rw [List.append_nil] at hu
        exact (splitChars_slash_open hw hjoin).mpr ⟨rfl, _, hu ▸ h⟩
    · exact (splitChars_slash_continued _ _ hw).mpr h

end Ends

section Split

theorem splitChars_continuation (u : List Char) (k : Continuation) (v : List Char) :
    splitChars (u ++ k.text ++ v) =
      if v.all isBlank then splitChars (u ++ ['\\']) else splitChars (u ++ ' ' :: v) := by
  split_ifs with hv
  · rw [List.all_eq_true] at hv
    rw [splitChars_eq, splitChars_eq, trimRight_continuation u k hv, trimRight_slash u (by simp)]
  · have hsome : ∃ c ∈ v, isBlank c = false := by simpa using hv
    have hspaced : ∃ c ∈ ' ' :: v, isBlank c = false := by
      obtain ⟨c, hc, hblank⟩ := hsome
      exact ⟨c, List.mem_cons_of_mem _ hc, hblank⟩
    have hspace : trimRight (' ' :: v) = ' ' :: trimRight v := trimRight_append_of_exists [' '] hsome
    rw [splitChars_eq, splitChars_eq, trimRight_append_of_exists _ hsome,
      trimRight_append_of_exists u hspaced, hspace, joinLines_append_continuation,
      joinLines_append_space]

theorem splitChars_space {v : List Char} (hv : ∀ c ∈ v, isBlank c = true) (u : List Char) :
    splitChars (u ++ ' ' :: v) = splitChars u := by
  have hspace : ∀ c ∈ ' ' :: v, isBlank c = true := List.forall_mem_cons.mpr ⟨rfl, hv⟩
  rw [splitChars_eq, splitChars_eq, trimRight_append_blanks u hspace]

/-- A continued line is split as with a space for the backslash and the line end, if anything but
white space comes after them; at the end of the text it is split as with the backslash alone, which
is the same exactly if something before it hides the backslash. -/
theorem split_continuation (before after : String) (k : Continuation) :
    let line := before ++ String.ofList k.text ++ after
    let spaced := before ++ " " ++ after
    split line = (if isBlankString after then split (before ++ "\\") else split spaced) ∧
      (split line = split spaced ↔ isBlankString after = false ∨ Hides before.toList) := by
  intro line spaced
  have hline : split line = if isBlankString after then split (before ++ "\\") else split spaced := by
    simp only [split, line, spaced, isBlankString, String.toList_append, String.toList_ofList,
      splitChars_continuation]
    split_ifs <;> simp
  refine ⟨hline, ?_⟩
  cases hafter : isBlankString after with
  | false => simp [hline, hafter]
  | true =>
    have hv : ∀ c ∈ after.toList, isBlank c = true := List.all_eq_true.mp hafter
    have hslash : split (before ++ "\\") = split spaced ↔
        splitChars (before.toList ++ ['\\']) = splitChars before.toList := by
      have hspaced : spaced.toList = before.toList ++ ' ' :: after.toList := by simp [spaced]
      rw [split, split, hspaced, splitChars_space hv, String.toList_append,
        List.map_inj_right fun _ _ => String.ofList_inj.mp]
      rfl
    rw [hline, if_pos hafter, hslash, splitChars_slash_iff]
    simp

/-- The line end of the last line is trimmed off, and the backslash is left for a word. -/
theorem split_continuation_trimmed :
    split "curl http://h \\\n" = ["curl", "http://h", "\\"] ∧
      split "curl http://h  " = ["curl", "http://h"] := by
  decide +kernel

end Split

end CurlSnippet.Words
