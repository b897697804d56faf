import CurlSnippet.Proofs.SourceLiterals
import Mathlib.Data.List.Basic

/-!
Finding program text in source, and the expression that follows it. Words are looked for outside the
literals only. A part of the source is searched on its own when no word can reach over its end, and
an expression ends at a character outside all brackets.
-/

namespace CurlSnippet.Source

/-- What follows the characters of a word, if the lexemes begin with them outside every literal. -/
def after? : List Char → List Lexeme → Option (List Lexeme)
  | [], ls => some ls
  | _ :: _, [] => none
  | c :: cs, l :: ls => if l = .code (.scalar c) then after? cs ls else none

/-- Every place where one of the words stands, with what follows it. -/
def found (words : List String) : List Lexeme → List (String × List Lexeme)
  | [] => []
  | l :: ls =>
    words.filterMap (fun w => (after? w.toList (l :: ls)).map fun rest => (w, rest)) ++
      found words ls

def isOpening (p : CodePoint) : Bool :=
  p == .scalar '(' || p == .scalar '[' || p == .scalar '\x7b'

def isClosing (p : CodePoint) : Bool :=
  p == .scalar ')' || p == .scalar ']' || p == .scalar '\x7d'

/-- The brackets that are open after a character. -/
def depthAfter (depth : Nat) (p : CodePoint) : Nat :=
  if isOpening p then depth + 1 else if isClosing p then depth - 1 else depth

/-- The lexemes up to a character that stands outside all brackets and literals. -/
def expression (stop : Char) : Nat → List Lexeme → List Lexeme
  | _, [] => []
  | depth, .code p :: ls =>
    if depth = 0 ∧ p = .scalar stop then []
    else .code p :: expression stop (depthAfter depth p) ls
  | depth, l :: ls => l :: expression stop depth ls

/-- No word can go on with the lexemes, whatever of it stands before them. -/
def Breaks (words : List String) (rest : List Lexeme) : Prop :=
  ∀ l ∈ rest.head?, ∀ w ∈ words, ∀ c ∈ w.toList.tail, l ≠ .code (.scalar c)

theorem after?_append_of_breaks {cs : List Char} {ls rest : List Lexeme}
    (h : ∀ l ∈ rest.head?, ∀ c ∈ cs, l ≠ .code (.scalar c)) :
    after? cs (ls ++ rest) = (after? cs ls).map (· ++ rest) := by
  induction cs generalizing ls with
  | nil => rfl
  | cons c cs ih =>
    cases ls with
    | nil =>
      cases rest with
      | nil => rfl
      | cons l rest => exact if_neg (h l rfl c List.mem_cons_self)
    | cons l ls =>
      have hrest : ∀ l ∈ rest.head?, ∀ d ∈ cs, l ≠ .code (.scalar d) :=
        fun l hl d hd => h l hl d (List.mem_cons_of_mem c hd)
      simp only [List.cons_append, after?]
      split_ifs
      · exact ih hrest
      · rfl

theorem after?_cons_append {cs : List Char} {l : Lexeme} {ls rest : List Lexeme}
    (h : ∀ x ∈ rest.head?, ∀ c ∈ cs.tail, x ≠ .code (.scalar c)) :
    after? cs (l :: ls ++ rest) = (after? cs (l :: ls)).map (· ++ rest) := by
  cases cs with
  | nil => rfl
  | cons c cs =>
    simp only [List.cons_append, after?]
    split_ifs
    · exact after?_append_of_breaks h
    · rfl

/-- Where no word reaches over the end of a part, the part is searched on its own. -/
theorem found_append {words : List String} {rest : List Lexeme} (h : Breaks words rest)
    (ls : List Lexeme) :
    found words (ls ++ rest) =
      (found words ls).map (fun x => (x.1, x.2 ++ rest)) ++ found words rest := by
  induction ls with
  | nil => rfl
  | cons l ls ih =>
    have hhead : ∀ w ∈ words, (after? w.toList (l :: ls ++ rest)).map (fun r => (w, r)) =
        ((after? w.toList (l :: ls)).map fun r => (w, r)).map fun x => (x.1, x.2 ++ rest) := by
      intro w hw
      rw [after?_cons_append (fun x hx c hc => h x hx w hw c hc), Option.map_map, Option.map_map]
      rfl
    rw [List.cons_append, found, ih, found, List.map_append, List.append_assoc,
      List.map_filterMap]
    congr 1
    exact List.filterMap_congr hhead

/-- A word is not found where one of its characters does not stand. -/
theorem after?_eq_none {cs : List Char} {c : Char} (hc : c ∈ cs) {ls : List Lexeme}
    (h : .code (.scalar c) ∉ ls) : after? cs ls = none := by
  induction cs generalizing ls with
  | nil => cases hc
  | cons d cs ih =>
    cases ls with
    | nil => rfl
    | cons l ls =>
      rw [List.mem_cons, not_or] at h
      rw [after?]
      split_ifs with hl
      · rcases List.mem_cons.mp hc with rfl | hc
        · exact absurd hl.symm h.1
        · exact ih hc h.2
      · rfl

theorem found_eq_nil {words : List String} {ls : List Lexeme}
    (h : ∀ w ∈ words, ∃ c ∈ w.toList, .code (.scalar c) ∉ ls) : found words ls = [] := by
  induction ls with
  | nil => rfl
  | cons l ls ih =>
    have hrest : ∀ w ∈ words, ∃ c ∈ w.toList, .code (.scalar c) ∉ ls := by
      intro w hw
      obtain ⟨c, hc, hnot⟩ := h w hw
      exact ⟨c, hc, fun hmem => hnot (List.mem_cons_of_mem l hmem)⟩
    have hhead : words.filterMap
        (fun w => (after? w.toList (l :: ls)).map fun r => (w, r)) = [] := by
      rw [List.filterMap_eq_nil_iff]
      intro w hw
      obtain ⟨c, hc, hnot⟩ := h w hw
      rw [after?_eq_none hc hnot]
      rfl
    rw [found, hhead, ih hrest]
    rfl

end CurlSnippet.Source
