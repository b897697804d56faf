import Mathlib.Data.List.TakeWhile

/-!
Runs. A list begins with a run of elements of one kind, which stops at the first element of another
kind; there is one such run, however it is found.
-/

namespace CurlSnippet

variable {α : Type} {p : α → Bool}

/-- An element of a kind is none that is not. -/
theorem ne_of_kind {a b : α} (ha : p a = true) (hb : p b = false) : a ≠ b := by
  rintro rfl
  rw [ha] at hb
  cases hb

theorem not_mem_of_kind {a : α} {l : List α} (ha : p a = true) (hl : l.any p = false) : a ∉ l := by
  intro h
  rw [List.any_eq_false] at hl
  exact hl a h ha

/-- A run of one kind stops where the next element is of another. -/
theorem span_append {run rest : List α} (hrun : ∀ a ∈ run, p a = true)
    (hrest : ∀ a ∈ rest.head?, p a = false) :
    (run ++ rest).takeWhile p = run ∧ (run ++ rest).dropWhile p = rest := by
  rw [List.takeWhile_append_of_pos hrun, List.dropWhile_append_of_pos hrun]
  cases rest with
  | nil => simp
  | cons a rest =>
    have ha : p a = false := hrest a rfl
    simp [ha]

theorem exists_run (p : α → Bool) (l : List α) : ∃ run rest, l = run ++ rest ∧
    (∀ a ∈ run, p a = true) ∧ ∀ a ∈ rest.head?, p a = false := by
  refine ⟨l.takeWhile p, l.dropWhile p, List.takeWhile_append_dropWhile.symm,
    fun _ => List.mem_takeWhile_imp, fun a ha => ?_⟩
  have hnot := List.head?_dropWhile_not p l
  rw [Option.mem_def.mp ha] at hnot
  simpa using hnot

theorem append_inj_of_run {run rest run' rest' : List α} (h : run ++ rest = run' ++ rest')
    (hrun : ∀ a ∈ run, p a = true) (hrest : ∀ a ∈ rest.head?, p a = false)
    (hrun' : ∀ a ∈ run', p a = true) (hrest' : ∀ a ∈ rest'.head?, p a = false) :
    run = run' ∧ rest = rest' := by
  obtain ⟨htake, hdrop⟩ := span_append hrun hrest
  obtain ⟨htake', hdrop'⟩ := span_append hrun' hrest'
  rw [h] at htake hdrop
  exact ⟨htake.symm.trans htake', hdrop.symm.trans hdrop'⟩

end CurlSnippet
