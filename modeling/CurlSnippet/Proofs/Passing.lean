/-!
Readers that go through a list piece by piece. A piece is passed when what it gives does not depend
on what follows it; some pieces are passed only where something ends them, a number or a word that
could go on. Marks are the pieces that end these.
-/

namespace CurlSnippet

variable {α β : Type} {f : List α → Option (List β)} {p : α → Bool}

/-- The list does not begin with an element of the kind. -/
def Stops (p : α → Bool) (t : List α) : Prop := ∀ a ∈ t.head?, p a = false

/-- The reader passes the piece with these results, whatever follows. -/
def Passes (f : List α → Option (List β)) (t : List α) (ks : List β) : Prop :=
  ∀ rest, f (t ++ rest) = (f rest).map (ks ++ ·)

/-- The reader passes the piece with these results where the kind ends. -/
def PassesBefore (f : List α → Option (List β)) (p : α → Bool) (t : List α) (ks : List β) : Prop :=
  ∀ rest, Stops p rest → f (t ++ rest) = (f rest).map (ks ++ ·)

/-- A mark is passed everywhere and ends the kind before it. -/
structure Mark (f : List α → Option (List β)) (p : α → Bool) (t : List α) (ks : List β) :
    Prop where
  passes : Passes f t ks
  stops : ∃ a ∈ t.head?, p a = false

theorem passes_nil : Passes f [] [] := by
  intro rest
  simp

theorem Passes.before {t : List α} {ks : List β} (h : Passes f t ks) : PassesBefore f p t ks :=
  fun rest _ => h rest

theorem map_append_append (o : Option (List β)) (ks ls : List β) :
    (o.map (ls ++ ·)).map (ks ++ ·) = o.map (ks ++ ls ++ ·) := by
  rw [Option.map_map]
  congr 1
  funext ms
  exact (List.append_assoc ks ls ms).symm

theorem Passes.append {t u : List α} {ks ls : List β} (ht : Passes f t ks) (hu : Passes f u ls) :
    Passes f (t ++ u) (ks ++ ls) := by
  intro rest
  rw [List.append_assoc, ht, hu, map_append_append]

theorem Passes.append_before {t u : List α} {ks ls : List β} (ht : Passes f t ks)
    (hu : PassesBefore f p u ls) : PassesBefore f p (t ++ u) (ks ++ ls) := by
  intro rest hrest
  rw [List.append_assoc, ht, hu rest hrest, map_append_append]

theorem Mark.append {t u : List α} {ks ls : List β} (ht : Mark f p t ks) (hu : Passes f u ls) :
    Mark f p (t ++ u) (ks ++ ls) := by
  obtain ⟨a, ha, hstop⟩ := ht.stops
  refine ⟨ht.passes.append hu, a, ?_, hstop⟩
  rw [List.head?_append, Option.mem_def.mp ha]
  rfl

theorem Mark.stops_append {t : List α} {ks : List β} (h : Mark f p t ks) (rest : List α) :
    Stops p (t ++ rest) := by
  obtain ⟨a, ha, hstop⟩ := h.stops
  intro b hb
  rw [List.head?_append, Option.mem_def.mp ha] at hb
  obtain rfl := Option.some.inj hb
  exact hstop

theorem PassesBefore.append_mark {t u : List α} {ks ls : List β} (ht : PassesBefore f p t ks)
    (hu : Mark f p u ls) : Passes f (t ++ u) (ks ++ ls) := by
  intro rest
  rw [List.append_assoc, ht _ (hu.stops_append rest), hu.passes, map_append_append]

/-- A list that is passed up to its end has been read. -/
theorem PassesBefore.read {t : List α} {ks : List β} (h : PassesBefore f p t ks)
    (hnil : f [] = some []) : f t = some ks := by
  have hend := h [] (by simp [Stops])
  rwa [List.append_nil, hnil, Option.map_some, List.append_nil] at hend

end CurlSnippet
