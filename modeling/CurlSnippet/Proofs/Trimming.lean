import CurlSnippet.Blank
import Mathlib.Data.List.TakeWhile

/-!
Trimming. A trimmed text has no white space at its ends, and such a text is not changed by trimming;
so trimming twice is trimming once. What is trimmed off at the end is white space, and anything else
stays with all before it.
-/

namespace CurlSnippet

namespace Blank

/-- A text that trimming leaves alone: it is empty, or has no white space at its ends. -/
def Tight (cs : List Char) : Prop :=
  (∀ c ∈ cs.head?, isBlank c = false) ∧ ∀ c ∈ cs.getLast?, isBlank c = false

theorem trim_eq_self {cs : List Char} (h : Tight cs) : trim cs = cs := by
  have hleft : trimLeft cs = cs := by
    cases cs with
    | nil => rfl
    | cons c rest =>
      have hc : isBlank c = false := h.1 c rfl
      simp [trimLeft, hc]
  have hright : trimRight cs = cs := by
    rcases List.eq_nil_or_concat cs with rfl | ⟨front, c, rfl⟩
    · rfl
    · have hc : isBlank c = false := h.2 c (by simp)
      simp [trimRight, hc]
  rw [trim, hleft, hright]

theorem Tight.append {front back : List Char} (hfront : Tight front) (hback : Tight back)
    (hf : front ≠ []) (hb : back ≠ []) (middle : List Char) :
    Tight (front ++ middle ++ back) := by
  constructor
  · intro c hc
    apply hfront.1 c
    cases front with
    | nil => exact absurd rfl hf
    | cons d front => simpa using hc
  · intro c hc
    apply hback.2 c
    rcases List.eq_nil_or_concat back with rfl | ⟨back, d, rfl⟩
    · exact absurd rfl hb
    · simpa using hc

theorem tight_enclosed (q : Char) (hq : isBlank q = false) (w : List Char) :
    Tight (q :: (w ++ [q])) := by
  constructor
  · intro c hc
    obtain rfl : q = c := by simpa using hc
    exact hq
  · intro c hc
    rw [← List.cons_append, List.getLast?_append] at hc
    obtain rfl : q = c := by simpa using hc
    exact hq

theorem trim_isPrefix_trimLeft (cs : List Char) : trim cs <+: trimLeft cs := by
  rw [← List.reverse_suffix, trim, trimRight, List.reverse_reverse]
  exact List.dropWhile_suffix _

theorem mem_of_mem_trim {cs : List Char} {c : Char} (h : c ∈ trim cs) : c ∈ cs :=
  (List.dropWhile_suffix _).mem ((trim_isPrefix_trimLeft cs).mem h)

theorem isBlank_of_mem_head?_dropWhile {cs : List Char} {c : Char}
    (h : c ∈ (cs.dropWhile isBlank).head?) : isBlank c = false := by
  have hnot := List.head?_dropWhile_not isBlank cs
  rw [h] at hnot
  exact hnot

theorem not_isBlank_getLast_trimRight (u : List Char) :
    ∀ c ∈ (trimRight u).getLast?, isBlank c = false := by
  intro c hc
  rw [trimRight, List.getLast?_reverse] at hc
  exact isBlank_of_mem_head?_dropWhile hc

theorem tight_trim (cs : List Char) : Tight (trim cs) := by
  constructor
  · intro c hc
    obtain ⟨rest, hrest⟩ := trim_isPrefix_trimLeft cs
    have hhead : c ∈ (trimLeft cs).head? := by
      rw [← hrest, List.head?_append, Option.mem_def.mp hc]
      rfl
    exact isBlank_of_mem_head?_dropWhile hhead
  · exact not_isBlank_getLast_trimRight (trimLeft cs)

theorem trim_trim (cs : List Char) : trim (trim cs) = trim cs := trim_eq_self (tight_trim cs)

/-- Trimming leaves nothing exactly of white space. -/
theorem trim_eq_nil_iff (cs : List Char) : trim cs = [] ↔ cs.all isBlank = true := by
  have hright : trim cs = [] ↔ ∀ c ∈ trimLeft cs, isBlank c = true := by
    rw [trim, trimRight, List.reverse_eq_nil_iff, List.dropWhile_eq_nil_iff]
    simp
  rw [hright, List.all_eq_true]
  constructor
  · intro h c hc
    rw [← List.takeWhile_append_dropWhile (p := isBlank) (l := cs), List.mem_append] at hc
    rcases hc with hc | hc
    · exact List.mem_takeWhile_imp hc
    · exact h c hc
  · exact fun h c hc => h c ((List.dropWhile_suffix _).mem hc)

theorem head?_trim {c : Char} (hc : isBlank c = false) (cs : List Char) :
    (trim (c :: cs)).head? = some c := by
  have hleft : trimLeft (c :: cs) = c :: cs := List.dropWhile_cons_of_neg (by simp [hc])
  obtain ⟨rest, hrest⟩ := trim_isPrefix_trimLeft (c :: cs)
  rw [hleft] at hrest
  cases htrim : trim (c :: cs) with
  | nil =>
    have hall := (trim_eq_nil_iff (c :: cs)).mp htrim
    rw [List.all_cons, hc] at hall
    cases hall
  | cons d ds =>
    rw [htrim, List.cons_append] at hrest
    rw [List.head?_cons, (List.cons.inj hrest).1]

theorem trimRight_append_blanks (u : List Char) {w : List Char}
    (hw : ∀ c ∈ w, isBlank c = true) : trimRight (u ++ w) = trimRight u := by
  have hreverse : ∀ c ∈ w.reverse, isBlank c = true := fun c hc => hw c (List.mem_reverse.mp hc)
  rw [trimRight, List.reverse_append, List.dropWhile_append_of_pos hreverse, trimRight]

theorem trimRight_append_of_exists (u : List Char) {v : List Char}
    (hv : ∃ c ∈ v, isBlank c = false) : trimRight (u ++ v) = u ++ trimRight v := by
  obtain ⟨c, hc, hblank⟩ := hv
  have hne : v.reverse.dropWhile isBlank ≠ [] := by
    intro hnil
    have hall := List.dropWhile_eq_nil_iff.mp hnil c (List.mem_reverse.mpr hc)
    rw [hblank] at hall
    cases hall
  rw [trimRight, List.reverse_append, List.dropWhile_append,
    if_neg (by rwa [List.isEmpty_iff]), List.reverse_append, List.reverse_reverse, trimRight]

theorem exists_trimRight (u : List Char) :
    ∃ w, u = trimRight u ++ w ∧ ∀ c ∈ w, isBlank c = true := by
  refine ⟨(u.reverse.takeWhile isBlank).reverse, ?_, ?_⟩
  · rw [trimRight, ← List.reverse_append, List.takeWhile_append_dropWhile, List.reverse_reverse]
  · exact fun c hc => List.mem_takeWhile_imp (List.mem_reverse.mp hc)

theorem trim_blanks_append {w : List Char} (hw : ∀ c ∈ w, isBlank c = true) (cs : List Char) :
    trim (w ++ cs) = trim cs := by
  rw [trim, trimLeft, List.dropWhile_append_of_pos hw, ← trimLeft, ← trim]

theorem trim_append_blanks (cs : List Char) {w : List Char} (hw : ∀ c ∈ w, isBlank c = true) :
    trim (cs ++ w) = trim cs := by
  by_cases hblank : cs.all isBlank = true
  · have hall : (cs ++ w).all isBlank = true := by
      rw [List.all_append, hblank, Bool.true_and, List.all_eq_true]
      exact hw
    rw [(trim_eq_nil_iff _).mpr hall, (trim_eq_nil_iff _).mpr hblank]
  · have hne : cs.dropWhile isBlank ≠ [] := by
      rwa [ne_eq, List.dropWhile_eq_nil_iff, ← List.all_eq_true]
    rw [trim, trimLeft, List.dropWhile_append, if_neg (by rwa [List.isEmpty_iff]),
      trimRight_append_blanks _ hw, ← trimLeft, ← trim]

end Blank

/-- White space that is put around a string is trimmed off again. -/
theorem trim_padded {before after : String} (hbefore : isBlankString before = true)
    (hafter : isBlankString after = true) (s : String) :
    trim (before ++ s ++ after) = trim s := by
  rw [trim, String.toList_append, String.toList_append,
    Blank.trim_append_blanks _ (List.all_eq_true.mp hafter),
    Blank.trim_blanks_append (List.all_eq_true.mp hbefore), ← trim]

theorem trim_trim (s : String) : trim (trim s) = trim s := by
  rw [trim, trim, String.toList_ofList, Blank.trim_trim]

theorem trim_eq_empty_iff (s : String) : trim s = "" ↔ isBlankString s = true := by
  rw [isBlankString, ← Blank.trim_eq_nil_iff, trim, String.ofList_eq_empty_iff]

end CurlSnippet
