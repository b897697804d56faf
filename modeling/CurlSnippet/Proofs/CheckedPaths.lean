import CurlSnippet.Order
import CurlSnippet.Proofs.Results
import CurlSnippet.Proofs.Utf8Reading

/-!
Paths on a command line. They are looked up while the line is read, so the file of an order is there
and all that can be wrong with it is what it holds. A path at which reading stops for no misuse is
too long to be looked up.
-/

namespace CurlSnippet

namespace Files

/-- A path leads to a file or a folder. -/
def Holds (files : Files) (p : Path) : Prop :=
  files.find p = .folder ∨ ∃ bytes, files.find p = .file bytes

/-- A path leads to what cannot be read as a text: a folder, or a file of other bytes. -/
def Textless (files : Files) (p : Path) : Prop :=
  files.find p = .folder ∨ ∃ bytes, files.find p = .file bytes ∧ Utf8.Garbled bytes

theorem textless_iff {files : Files} {p : Path} (h : files.Holds p) :
    files.Textless p ↔ ∃ e, files.read p = .error e := by
  rw [Textless, read]
  rcases h with hfolder | ⟨bytes, hbytes⟩
  · simp [hfolder]
  · simp only [hbytes, reduceCtorEq, Found.file.injEq, exists_eq_left', false_or,
      ← textOf_eq_error_iff]
    cases textOf bytes <;> simp [Except.mapError]

end Files

namespace Order

/-- An order takes its line from no file but one that is there. -/
def FileHeld (files : Files) (o : Order) : Prop := ∀ p ∈ o.file, files.Holds p

/-- If reading stops for a path, that is too long to be looked up. -/
def StopHeld (files : Files) (stop : Stop) : Prop :=
  ∀ p, stop = .tooLong p → files.find p = .tooLong

section Reading

variable {files : Files} {o : Order}

theorem stopHeld_misuse (m : Misuse) : StopHeld files (.misuse m) := by
  intro p h
  cases h

theorem stopHeld_help : StopHeld files .help := by
  intro p h
  cases h

theorem ends_existing (files : Files) (label text : String) :
    Except.Ends files.Holds (StopHeld files) (existing files label text) := by
  rw [existing]
  split
  · next bytes hfind => exact .ok (.inr ⟨bytes, hfind⟩)
  · next hfind => exact .ok (.inl hfind)
  · exact .error (stopHeld_misuse _)
  · exact .error (stopHeld_misuse _)
  · next hfind =>
    refine .error fun p h => ?_
    obtain rfl := Stop.tooLong.inj h
    exact hfind

/-- A part with a path is taken into account only once the path has been looked up. -/
theorem ends_take (o : Order) (part : Arguments.Part Toggle Item) (ho : o.FileHeld files) :
    Except.Ends (FileHeld files) (StopHeld files) (take files o part) := by
  cases part with
  | flag f =>
    cases f with
    | help => exact .error stopHeld_help
    | all => exact .ok ho
  | operand line rest => exact .ok ho
  | valued item text =>
    cases item with
    | sample => exact .ok ho
    | file =>
      rw [take, Except.ends_map]
      refine (ends_existing files _ text).imp fun p hp q hq => ?_
      obtain rfl := Option.some.inj hq
      exact hp
    | samples =>
      rw [take, Except.ends_map]
      exact (ends_existing files _ text).imp fun _ _ => ho
    | target =>
      rw [take]
      split
      · exact .ok ho
      · exact .error (stopHeld_misuse _)

theorem ends_extend (words : List String) (ho : o.FileHeld files) :
    Except.Ends (fun r => r.1.FileHeld files) (StopHeld files) (extend files o words) := by
  have hfold := Except.ends_foldlM ends_take (o.action.grammar.read words).parts ho
  rw [extend]
  split
  · next stop hstop =>
    rw [hstop, Except.ends_error_iff] at hfold
    exact .error hfold
  · exact .error (stopHeld_misuse _)
  · next o' ho' _ =>
    rw [ho', Except.ends_ok_iff] at hfold
    exact .ok hfold

theorem ends_ofParts (s : Settings) (files : Files) (level : String)
    (parts : List (Arguments.Part Unit Unit)) :
    Except.Ends (fun found => ∀ r ∈ found, r.1.FileHeld files) (StopHeld files)
      (ofParts? s files level parts) := by
  induction parts generalizing level with
  | nil =>
    refine .ok fun r hr => ?_
    cases hr
  | cons part rest ih =>
    cases part with
    | flag f => exact .error stopHeld_help
    | valued v text => exact ih text
    | operand word words =>
      rw [ofParts?]
      split
      · next a _ =>
        have hplain : (plain s level a).FileHeld files := by
          intro p hp
          cases hp
        rw [Except.ends_map]
        refine (ends_extend words hplain).imp fun r hr found hfound => ?_
        obtain rfl := Option.some.inj hfound
        exact hr
      · exact .error (stopHeld_misuse _)

/-- The file of the order that a line makes is there, and a path at which its reading stops is too
long to be looked up. -/
theorem ends_ofLine (s : Settings) (files : Files) (words : List String) :
    Except.Ends (FileHeld files) (StopHeld files) (ofLine s files words) := by
  have hparts := ends_ofParts s files s.logLevel (Action.preamble.read words).parts
  rw [ofLine]
  split
  · next stop hstop =>
    rw [hstop, Except.ends_error_iff] at hparts
    exact .error hparts
  · exact .error (stopHeld_misuse _)
  · exact .error (stopHeld_misuse _)
  · next o unused hfound _ =>
    rw [hfound, Except.ends_ok_iff] at hparts
    split
    · exact .ok (hparts _ rfl)
    · exact .error (stopHeld_misuse _)

end Reading

end Order

end CurlSnippet
