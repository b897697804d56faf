/-!
Cutting a text at a character, once or everywhere, and looking for a text inside another.
-/

namespace CurlSnippet.Search

/-- What stands before and after the first element of the given kind. -/
def cut? {α : Type} (p : α → Bool) : List α → Option (List α × List α)
  | [] => none
  | c :: rest => if p c then some ([], rest) else (cut? p rest).map fun r => (c :: r.1, r.2)

/-- What stands before and after the last character of the given kind. -/
def cutLast? (p : Char → Bool) (cs : List Char) : Option (List Char × List Char) :=
  (cut? p cs.reverse).map fun r => (r.2.reverse, r.1.reverse)

/-- The parts between the marks, at least one. -/
def parts {α : Type} [DecidableEq α] (mark : α) : List α → List (List α)
  | [] => [[]]
  | c :: rest =>
    if c = mark then [] :: parts mark rest
    else match parts mark rest with
      | [] => [[c]]
      | p :: ps => (c :: p) :: ps

/-- Whether the first text stands somewhere in the second. -/
def occursIn (w : List Char) : List Char → Bool
  | [] => w.isEmpty
  | c :: rest => w.isPrefixOf (c :: rest) || occursIn w rest

theorem cut?_eq_some {p : Char → Bool} {cs before after : List Char}
    (h : cut? p cs = some (before, after)) :
    ∃ c, cs = before ++ c :: after ∧ p c ∧ ∀ d ∈ before, ¬ p d := by
  induction cs generalizing before with
  | nil => simp [cut?] at h
  | cons c rest ih =>
    simp only [cut?] at h
    split at h
    · next hc =>
      simp only [Option.some.injEq, Prod.mk.injEq] at h
      obtain ⟨rfl, rfl⟩ := h
      exact ⟨c, rfl, hc, by simp⟩
    · next hc =>
      obtain ⟨⟨b, a⟩, h', heq⟩ := Option.map_eq_some_iff.1 h
      simp only [Prod.mk.injEq] at heq
      obtain ⟨rfl, rfl⟩ := heq
      obtain ⟨d, rfl, hd, hb⟩ := ih h'
      refine ⟨d, rfl, hd, fun x hx => ?_⟩
      rcases List.mem_cons.1 hx with rfl | hx
      · exact hc
      · exact hb x hx

theorem cut?_eq_none {p : Char → Bool} {cs : List Char} :
    cut? p cs = none ↔ ∀ c ∈ cs, ¬ p c := by
  induction cs with
  | nil => simp [cut?]
  | cons c rest ih => by_cases hc : p c <;> simp_all [cut?]

theorem cut?_append {p : Char → Bool} {before : List Char} {c : Char}
    (hbefore : ∀ d ∈ before, ¬ p d) (hc : p c) (after : List Char) :
    cut? p (before ++ c :: after) = some (before, after) := by
  induction before with
  | nil => simp [cut?, hc]
  | cons d before ih =>
    obtain ⟨hd, hrest⟩ := List.forall_mem_cons.1 hbefore
    simp [cut?, hd, ih hrest]

theorem cut?_mark_eq_none {mark : Char} {cs : List Char} :
    cut? (· == mark) cs = none ↔ mark ∉ cs := by
  rw [cut?_eq_none]
  constructor
  · intro h hmark
    exact h mark hmark (beq_self_eq_true mark)
  · rintro h c hc heq
    rw [eq_of_beq heq] at hc
    exact h hc

theorem cut?_mark_eq_some {mark : Char} {cs before after : List Char} :
    cut? (· == mark) cs = some (before, after) ↔ cs = before ++ mark :: after ∧ mark ∉ before := by
  constructor
  · intro h
    obtain ⟨c, rfl, hc, hbefore⟩ := cut?_eq_some h
    obtain rfl := eq_of_beq hc
    exact ⟨rfl, fun hmark => hbefore c hmark hc⟩
  · rintro ⟨rfl, h⟩
    have hbefore : ∀ d ∈ before, ¬ (d == mark) = true := by
      intro d hd heq
      rw [eq_of_beq heq] at hd
      exact h hd
    exact cut?_append hbefore (beq_self_eq_true mark) after

theorem cutLast?_mark_eq_none {mark : Char} {cs : List Char} :
    cutLast? (· == mark) cs = none ↔ mark ∉ cs := by
  rw [cutLast?, Option.map_eq_none_iff, cut?_mark_eq_none, List.mem_reverse]

theorem cutLast?_mark_eq_some {mark : Char} {cs before after : List Char} :
    cutLast? (· == mark) cs = some (before, after) ↔
      cs = before ++ mark :: after ∧ mark ∉ after := by
  have hreverse : cutLast? (· == mark) cs = some (before, after) ↔
      cut? (· == mark) cs.reverse = some (after.reverse, before.reverse) := by
    rw [cutLast?, Option.map_eq_some_iff]
    constructor
    · rintro ⟨⟨front, back⟩, hcut, heq⟩
      obtain ⟨rfl, rfl⟩ := Prod.mk.inj heq
      simpa using hcut
    · intro hcut
      exact ⟨_, hcut, by simp⟩
  rw [hreverse, cut?_mark_eq_some, List.mem_reverse, List.reverse_eq_iff]
  simp

end CurlSnippet.Search
