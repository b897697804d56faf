import CurlSnippet.Proofs.CommandMeaning
import CurlSnippet.Proofs.SnippetLexemes

/-!
The ways of asking for code agree. A line is blank, or refused, or the call of a request, and all
ways of asking answer by that: for one target, for all of them, or for the request itself. A
request that has been read passes the checks of requests, and its code is never empty.
-/

namespace CurlSnippet

namespace Text

theorem lines_ne_nil {t : Text} (ht : t ≠ []) (ts : List Text) : lines (t :: ts) ≠ [] := by
  rw [Source.lines_cons]
  exact fun h => ht (List.append_eq_nil_iff.mp h).1

end Text

/-- A snippet begins with program text. -/
theorem Request.code_ne_nil (r : Request) (t : Target) : r.code t ≠ [] := by
  have hfirst : ∃ s l rest, r.snippet t = (.code s :: l) :: rest ∧ Text.ofString s ≠ [] := by
    cases t with
    | fetch => exact ⟨_, _, _, rfl, by decide⟩
    | axios => exact ⟨_, _, _, rfl, by decide⟩
    | requests => exact ⟨_, _, _, rfl, by decide⟩
    | go => exact ⟨_, _, _, rfl, by decide⟩
    | node =>
      rw [Request.snippet, Snippet.node]
      cases Url.endpoint? r.url with
      | none => exact ⟨_, _, _, rfl, by decide⟩
      | some e => exact ⟨_, _, _, rfl, by decide⟩
  obtain ⟨s, l, rest, heq, hs⟩ := hfirst
  rw [Request.code, heq]
  exact Text.lines_ne_nil (fun h => hs (List.append_eq_nil_iff.mp h).1) _

theorem Words.split_blank {line : String} (h : trim line = "") : Words.split line = [] := by
  rw [trim_eq_empty_iff, isBlankString, ← Blank.trim_eq_nil_iff] at h
  rw [Words.split, Words.splitChars, h]
  rfl

namespace Command

/-- Words give a request, or one of two refusals. -/
theorem ofWords_cases (ws : List String) : (∃ r, ofWords ws = .ok r) ∨
    ofWords ws = .error .notACommand ∨ ofWords ws = .error .missingUrl := by
  cases ws with
  | nil => exact .inr (.inl rfl)
  | cons w rest =>
    by_cases hw : lower w = keyword
    · rcases ofWords_parts hw rest with ⟨-, herror⟩ | ⟨-, r, hr, -⟩
      · exact .inr (.inr herror)
      · exact .inl ⟨r, hr⟩
    · exact .inr (.inl (if_pos hw))

end Command

namespace Conversion

/-- What a line comes to. -/
inductive Outcome where
  | blank
  | refused (e : CommandError)
  | request (r : Request)

/-- All ways of asking for the code of a line answer by the outcome. -/
def Answers (line : String) (t : Target) : Outcome → Prop
  | .blank => trim line = "" ∧ ofLine line t = ⟨[], ""⟩ ∧
      Command.read line = .error .notACommand ∧ allOfLine line = .error .notACommand
  | .refused e => trim line ≠ "" ∧ (e = .notACommand ∨ e = .missingUrl) ∧
      Command.ofWords (Words.split line) = .error e ∧ ofLine line t = ⟨[], refusal⟩ ∧
      Command.read line = .error e ∧ allOfLine line = .error e
  | .request r => Command.ofWords (Words.split line) = .ok r ∧ Command.read line = .ok r ∧
      ofLine line t = ⟨r.code t, ""⟩ ∧ r.code t ≠ [] ∧
      ∃ codes, allOfLine line = .ok codes ∧ codes.map Prod.fst = Target.all ∧
        codes.lookup t = some (r.code t)

section Outcomes

variable {line : String} {t : Target}

theorem answers_blank (h : trim line = "") : Answers line t .blank := by
  have hread : Command.read line = .error .notACommand := by
    rw [Command.read, Words.split_blank h]
    rfl
  refine ⟨h, ?_, hread, ?_⟩
  · rw [ofLine, if_pos ((trim_eq_empty_iff line).mp h)]
  · rw [allOfLine, hread]

theorem answers_refused {e : CommandError} (h : trim line ≠ "")
    (he : e = .notACommand ∨ e = .missingUrl) (hread : Command.read line = .error e) :
    Answers line t (.refused e) := by
  refine ⟨h, he, hread, ?_, hread, ?_⟩
  · rw [ofLine, if_neg (fun hblank => h ((trim_eq_empty_iff line).mpr hblank)), hread]
  · rw [allOfLine, hread]

theorem answers_request {r : Request} (h : trim line ≠ "") (hread : Command.read line = .ok r) :
    Answers line t (.request r) := by
  refine ⟨hread, hread, ?_, r.code_ne_nil t, Target.all.map fun t => (t, r.code t), ?_, ?_, ?_⟩
  · rw [ofLine, if_neg (fun hblank => h ((trim_eq_empty_iff line).mpr hblank)), hread]
  · rw [allOfLine, hread]
  · rfl
  · cases t <;> rfl

theorem exists_answers (line : String) (t : Target) : ∃ o, Answers line t o := by
  by_cases h : trim line = ""
  · exact ⟨.blank, answers_blank h⟩
  · rcases Command.ofWords_cases (Words.split line) with ⟨r, hr⟩ | he | he
    · exact ⟨.request r, answers_request h hr⟩
    · exact ⟨.refused .notACommand, answers_refused h (.inl rfl) he⟩
    · exact ⟨.refused .missingUrl, answers_refused h (.inr rfl) he⟩

/-- What a line comes to is seen from the answers. -/
theorem Answers.unique {o p : Outcome} (ho : Answers line t o) (hp : Answers line t p) : o = p := by
  cases o with
  | blank =>
    cases p with
    | blank => rfl
    | refused e => exact absurd ho.1 hp.1
    | request r => cases ho.2.2.1.symm.trans hp.2.1
  | refused e =>
    cases p with
    | blank => exact absurd hp.1 ho.1
    | refused f =>
      obtain rfl := Except.error.inj (ho.2.2.1.symm.trans hp.2.2.1)
      rfl
    | request r => cases ho.2.2.1.symm.trans hp.1
  | request r =>
    cases p with
    | blank => cases hp.2.2.1.symm.trans ho.2.1
    | refused e => cases ho.1.symm.trans hp.2.2.1
    | request s =>
      obtain rfl := Except.ok.inj (ho.1.symm.trans hp.1)
      rfl

end Outcomes

/-- Every line comes to exactly one outcome, by which all ways of asking answer; and no words, from
whatever line, give a request that its own checks refuse. -/
theorem outcome_of_line (line : String) (t : Target) :
    (∃! o, Answers line t o) ∧
      ∀ ws issues, Command.ofWords ws ≠ .error (.invalid issues) := by
  constructor
  · obtain ⟨o, ho⟩ := exists_answers line t
    exact ⟨o, ho, fun p hp => hp.unique ho⟩
  · intro ws issues h
    rcases Command.ofWords_cases ws with ⟨r, hr⟩ | he | he
    · cases hr.symm.trans h
    · cases he.symm.trans h
    · cases he.symm.trans h

end Conversion

end CurlSnippet
