import CurlSnippet.Proofs.JsonReading
import CurlSnippet.Proofs.Runs
import CurlSnippet.Request.Content

/-!
How a body that decodes begins. The first token of a JSON text says whether the value is an object
or an array: in brackets, the reader can only end with a value in brackets, and outside of them
nothing can follow a value. No token begins with white space, of JSON or any other, so the first
character of a body that decodes, white space apart, is the bracket of its value or no bracket.
-/

namespace CurlSnippet

namespace Json

/-- Whether the value is an array or an object. -/
def isContainer : Json → Bool
  | arr _ => true
  | obj _ => true
  | _ => false

theorem Atomic.isContainer {v : Json} (h : Atomic v) : v.isContainer = false := by
  obtain ⟨-, htokens⟩ := h
  cases v with
  | null | bool _ | int _ | float _ | str _ => rfl
  | arr items | obj members =>
    rw [tokens] at htokens
    cases htokens

/-- Whether the token opens an array or an object. -/
def Token.opens : Token → Bool
  | .arrOpen => true
  | .objOpen => true
  | _ => false

namespace Reader

/-- The phase belongs to a value in brackets. -/
def BracketPhase : Phase → Prop
  | .value => False
  | .after v => v.isContainer = true
  | _ => True

/-- A bracket is open, or all that has been read is a value in brackets. -/
def InBrackets (r : Reader) : Prop := r.stack ≠ [] ∨ BracketPhase r.phase

/-- Once in brackets, the reader stays there until they are closed, and then it has their value. -/
theorem inBrackets_step {r r' : Reader} {k : Token} (hr : r.InBrackets) (h : r.step k = some r') :
    r'.InBrackets := by
  obtain ⟨stack, phase⟩ := r
  cases phase with
  | value =>
    cases stack with
    | nil => exact (hr.resolve_left (absurd rfl)).elim
    | cons f stack =>
      cases k with
      | atom _ | text _ | arrOpen | objOpen =>
        obtain rfl := Option.some.inj h
        exact .inl (List.cons_ne_nil f stack)
      | arrClose | objClose | comma | colon => cases h
  | firstItem =>
    cases k with
    | arrClose =>
      obtain rfl := Option.some.inj h
      exact .inr rfl
    | atom _ | text _ | arrOpen | objOpen =>
      obtain rfl := Option.some.inj h
      exact .inl (List.cons_ne_nil _ stack)
    | objClose | comma | colon => cases h
  | firstKey =>
    cases k with
    | objClose =>
      obtain rfl := Option.some.inj h
      exact .inr rfl
    | text key =>
      obtain rfl := Option.some.inj h
      exact .inr trivial
    | _ => cases h
  | nextKey before =>
    cases k with
    | text key =>
      obtain rfl := Option.some.inj h
      exact .inr trivial
    | _ => cases h
  | colon before key =>
    cases k with
    | colon =>
      obtain rfl := Option.some.inj h
      exact .inl (List.cons_ne_nil _ stack)
    | _ => cases h
  | after v =>
    cases stack with
    | nil => cases k <;> cases h
    | cons f stack =>
      cases f with
      | item before =>
        cases k with
        | comma =>
          obtain rfl := Option.some.inj h
          exact .inl (List.cons_ne_nil _ stack)
        | arrClose =>
          obtain rfl := Option.some.inj h
          exact .inr rfl
        | _ => cases h
      | member before key =>
        cases k with
        | comma =>
          obtain rfl := Option.some.inj h
          exact .inr trivial
        | objClose =>
          obtain rfl := Option.some.inj h
          exact .inr rfl
        | _ => cases h

theorem inBrackets_run {ks : List Token} {r r' : Reader} (hr : r.InBrackets)
    (h : r.run ks = some r') : r'.InBrackets := by
  induction ks generalizing r with
  | nil =>
    obtain rfl := Option.some.inj h
    exact hr
  | cons k ks ih =>
    rw [run_cons] at h
    obtain ⟨mid, hstep, hrun⟩ := Option.bind_eq_some_iff.mp h
    exact ih (inBrackets_step hr hstep) hrun

theorem InBrackets.result? {r : Reader} (hr : r.InBrackets) {v : Json} (h : r.result? = some v) :
    v.isContainer = true := by
  obtain ⟨stack, phase⟩ := r
  cases stack with
  | cons f stack => cases h
  | nil =>
    cases phase with
    | after w =>
      obtain rfl := Option.some.inj h
      exact hr.resolve_left (absurd rfl)
    | _ => cases h

/-- Nothing can follow a value that is not in brackets. -/
theorem result?_after {w v : Json} {ks : List Token}
    (h : (run ⟨[], .after w⟩ ks).bind Reader.result? = some v) : v = w := by
  cases ks with
  | nil => exact (Option.some.inj h).symm
  | cons k ks => cases k <;> cases h

end Reader

/-- The first token says whether the value is one in brackets. -/
theorem isContainer_of_tokens {k : Token} {ks : List Token} {v : Json}
    (hk : k.Sound fun _ => True) (h : ofTokens? (k :: ks) = some v) :
    v.isContainer = k.opens := by
  -- the reader after an opening bracket, wherever the other tokens take it
  have hbracket {r : Reader} (hr : r.InBrackets) (hrun : (r.run ks).bind Reader.result? = some v) :
      v.isContainer = true := by
    obtain ⟨last, hlast, hresult⟩ := Option.bind_eq_some_iff.mp hrun
    exact (Reader.inBrackets_run hr hlast).result? hresult
  cases k with
  | atom w =>
    obtain rfl := Reader.result?_after (w := w) h
    exact hk.isContainer
  | text t =>
    obtain rfl := Reader.result?_after (w := .str t) h
    rfl
  | arrOpen => exact hbracket (r := ⟨[], .firstItem⟩) (.inr trivial) h
  | objOpen => exact hbracket (r := ⟨[], .firstKey⟩) (.inr trivial) h
  | arrClose | objClose | comma | colon => cases h

section Scan

/-- A token that opens a container is its bracket. -/
theorem opens_next? {c : Char} {t rest : Text} {k : Token}
    (h : Token.next? (.scalar c :: t) = some (k, rest)) : k.opens = (c == '\x7b' || c == '[') := by
  rw [Token.next?] at h
  split_ifs at h
  -- six brackets and marks, a string, three words, and the numbers
  iterate 6
    · subst c
      obtain ⟨rfl, -⟩ := Prod.mk.inj (Option.some.inj h)
      rfl
  · subst c
    obtain ⟨r, -, heq⟩ := Option.map_eq_some_iff.mp h
    obtain rfl : .text r.1 = k := congrArg Prod.fst heq
    rfl
  iterate 3
    · subst c
      obtain rfl := eq_atom_of_wordToken? h
      rfl
  · obtain ⟨v, -, rfl⟩ := exists_atom_of_numberToken? h
    simp_all [Token.opens]

theorem isBlank_of_number {c : Char} (h : isNumberChar c = true) : isBlank c = false := by
  simp only [isNumberChar, Bool.or_eq_true, beq_iff_eq] at h
  obtain ((((hdigit | rfl) | rfl) | rfl) | rfl) | rfl := h
  · have hrange : 48 ≤ c.toNat ∧ c.toNat ≤ 57 := Char.isDigit_iff_toNat.mp hdigit
    simp [isBlank]
    omega
  all_goals rfl

/-- No token begins with white space. -/
theorem next?_blank {c : Char} (hc : isBlank c = true) (t : Text) :
    Token.next? (.scalar c :: t) = none := by
  have hnumber : Token.isNumberPoint (.scalar c) = false := by
    cases hc' : isNumberChar c with
    | false => exact hc'
    | true => rw [isBlank_of_number hc'] at hc; cases hc
  rw [Token.next?]
  split_ifs
  iterate 10
    · subst c
      cases hc
  · rw [Token.numberToken?, List.takeWhile_cons_of_neg (by simp [hnumber])]
    rfl

/-- White space before a text is skipped, or else the text has no tokens. -/
theorem scan_blanks {blanks : List Char} (hblanks : ∀ c ∈ blanks, isBlank c = true) {t : Text}
    {ks : List Token} (h : Token.scan (Text.ofChars blanks ++ t) = some ks) :
    Token.scan t = some ks := by
  induction blanks with
  | nil => exact h
  | cons c blanks ih =>
    obtain ⟨hc, hrest⟩ := List.forall_mem_cons.mp hblanks
    rw [Text.ofChars, List.map_cons, List.cons_append, Token.scan] at h
    split_ifs at h
    · exact ih hrest h
    · rw [next?_blank hc] at h
      cases h

theorem isSpace_of_not_blank {c : Char} (hc : isBlank c = false) :
    Token.isSpace (.scalar c) = false := by
  rw [Bool.eq_false_iff]
  intro hspace
  simp only [Token.isSpace, Bool.or_eq_true, beq_iff_eq, CodePoint.scalar.injEq] at hspace
  obtain ((rfl | rfl) | rfl) | rfl := hspace <;> cases hc

/-- The first token of a text that does not begin with white space. -/
theorem scan_token {c : Char} (hc : isBlank c = false) {t : Text} {ks : List Token}
    (h : Token.scan (.scalar c :: t) = some ks) :
    ∃ k rest more, Token.next? (.scalar c :: t) = some (k, rest) ∧ ks = k :: more := by
  rw [Token.scan, if_neg (by simp [isSpace_of_not_blank hc])] at h
  split at h
  · cases h
  · next k rest hnext =>
    obtain ⟨more, -, rfl⟩ := Option.map_eq_some_iff.mp h
    exact ⟨k, rest, more, hnext, rfl⟩

end Scan

end Json

namespace Content

/-- The character that counts is the one behind the white space. -/
theorem opensContainer_run {body : String} {blanks rest : List Char}
    (hbody : body.toList = blanks ++ rest) (hblanks : ∀ d ∈ blanks, isBlank d = true)
    (hrest : ∀ d ∈ rest.head?, isBlank d = false) :
    opensContainer body = rest.head?.any fun c => c == '\x7b' || c == '[' := by
  rw [opensContainer, Blank.trimLeft, hbody, (span_append hblanks hrest).2]
  cases rest with
  | nil => rfl
  | cons c rest => rfl

/-- The body goes on with an opening bracket after its white space. -/
def Opens (body : String) : Prop :=
  ∃ blanks c rest, body.toList = blanks ++ c :: rest ∧ (∀ d ∈ blanks, isBlank d = true) ∧
    (c = '\x7b' ∨ c = '[')

theorem opensContainer_iff (body : String) : opensContainer body = true ↔ Opens body := by
  constructor
  · intro h
    obtain ⟨blanks, rest, hbody, hblanks, hrest⟩ := exists_run isBlank body.toList
    rw [opensContainer_run hbody hblanks hrest] at h
    cases rest with
    | nil => cases h
    | cons c rest =>
      refine ⟨blanks, c, rest, hbody, hblanks, ?_⟩
      simpa using h
  · rintro ⟨blanks, c, rest, hbody, hblanks, hc⟩
    have hrest : ∀ d ∈ (c :: rest).head?, isBlank d = false := by
      rintro d hd
      obtain rfl := Option.some.inj hd
      rcases hc with rfl | rfl <;> rfl
    rw [opensContainer_run hbody hblanks hrest]
    simpa using hc

/-- A body that decodes begins with an opening bracket exactly if its value is an object or an
array, whatever white space stands before it. -/
theorem opensContainer_eq {body : String} {v : Json}
    (h : Json.decode? (Text.ofString body) = some v) : opensContainer body = v.isContainer := by
  obtain ⟨ks, hscan, hread⟩ := Option.bind_eq_some_iff.mp h
  obtain ⟨blanks, rest, hbody, hblanks, hrest⟩ := exists_run isBlank body.toList
  have hsound : ∀ k ∈ ks, k.Sound fun _ => True := Json.sound_scan (fun _ _ => trivial) hscan
  rw [Text.ofString, hbody, Text.ofChars, List.map_append] at hscan
  have hscan := Json.scan_blanks hblanks hscan
  rw [opensContainer_run hbody hblanks hrest]
  cases rest with
  | nil =>
    rw [List.map_nil, Json.Token.scan] at hscan
    obtain rfl := Option.some.inj hscan
    cases hread
  | cons c rest =>
    obtain ⟨k, after, more, hnext, rfl⟩ := Json.scan_token (hrest c rfl) hscan
    rw [Json.isContainer_of_tokens (hsound k List.mem_cons_self) hread, Json.opens_next? hnext]
    rfl

end Content

end CurlSnippet
