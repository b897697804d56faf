import CurlSnippet.Proofs.LiteralLevels
import CurlSnippet.Proofs.NativeBodies
import CurlSnippet.Proofs.SnippetWriting

/-!
Where the literals of bodies stand. A snippet writes the literal of a body at the level of the line
on which it begins, so the literal is the one of the outermost level moved in by the indentation of
that line, and its closing bracket stands below the beginning of the line.
-/

namespace CurlSnippet

/-- Where a snippet has the literal of a body: its names, its indentation and its level, and what
stands around it on the lines where it begins and ends. -/
structure LiteralPlace where
  names : Spelling
  indent : Nat
  level : Nat
  opening : String
  closing : String

namespace LiteralPlace

/-- The indentation of the line where the literal begins. -/
def width (p : LiteralPlace) : Nat := p.indent * p.level

/-- The lines of the literal with what stands around it. -/
def block (p : LiteralPlace) (literal : Text) : Text :=
  Text.blanks p.width ++ Text.ofString p.opening ++ literal ++ Text.ofString p.closing

/-- The code has the literal on lines of its own, among other lines. -/
def Embeds (p : LiteralPlace) (literal code : Text) : Prop :=
  ∃ before after, code = Text.lines (before ++ p.block literal :: after)

end LiteralPlace

namespace Target

/-- The place for the literal of a body. There is none in Go, where every body is a string. -/
def literalPlace? : Target → Option LiteralPlace
  | .fetch => some ⟨.lowerCase, 2, 1, "body: JSON.stringify(", "),"⟩
  | .axios => some ⟨.lowerCase, 2, 1, "data: ", ","⟩
  | .requests => some ⟨.capitalized, 4, 0, "payload = ", ""⟩
  | .node => some ⟨.lowerCase, 2, 0, "const postData = JSON.stringify(", ");"⟩
  | .go => none

theorem onLine_literalPlace {t : Target} {p : LiteralPlace} (h : t.literalPlace? = some p) :
    p.names.OnLine := by
  cases t with
  | fetch | axios | node =>
    cases h
    exact Spelling.onLine_lowerCase
  | requests =>
    cases h
    exact Spelling.onLine_capitalized
  | go => cases h

end Target

namespace Line

theorem text_parts (first last : String) (l : Line) :
    Line.text (.ofParts [[.code first], l, [.code last]]) =
      Text.ofString first ++ Line.text l ++ Text.ofString last := by
  simp [Line.ofParts, Line.text, Piece.text]

theorem text_call (first last : String) (l : Line) :
    Line.text (.ofParts [[.code first], .ofParts [["JSON.stringify("], l, [")"]], [.code last]]) =
      (Text.ofString first ++ Text.ofString "JSON.stringify(") ++ Line.text l ++
        (Text.ofString ")" ++ Text.ofString last) := by
  rw [text_parts, text_parts]
  simp only [List.append_assoc]

end Line

namespace Request

variable {r : Request} {body : String} {v : Json} {t : Target} {p : LiteralPlace}

/-- A line of a snippet stands between others in the code, also where it has a literal of many
lines. -/
theorem embeds_of_mem {literal : Text} {l : Line} (hl : l ∈ r.snippet t)
    (htext : Line.text l = p.block literal) : p.Embeds literal (r.code t) := by
  obtain ⟨before, after, hsnippet⟩ := List.append_of_mem hl
  refine ⟨before.map Line.text, after.map Line.text, ?_⟩
  rw [code, Snippet.text, hsnippet, List.map_append, List.map_cons, htext]

/-- The code for a target with a place for literals has the literal of the body there. -/
theorem embeds_literalAt (hbody : r.body = some body) (hvalue : r.jsonBody? body = some v)
    (hp : t.literalPlace? = some p) (ht : t = .node → (Url.endpoint? r.url).isSome = true) :
    p.Embeds (Line.text (literalAt p.names p.indent p.level v)) (r.code t) := by
  cases t with
  | fetch =>
    cases hp
    refine embeds_of_mem (l := .ofParts [["  body: "], r.bodyLine body .fetch, [","]]) ?_ ?_
    · simp [snippet, Snippet.fetch, Snippet.Fetch.options, Snippet.ofBlocks, Snippet.optional,
        hbody, bodyLine]
    · rw [bodyLine_native hvalue, Target.nativeLine, Line.text_call]
      rfl
  | axios =>
    cases hp
    refine embeds_of_mem (l := .ofParts [["  data: "], r.bodyLine body .axios, [","]]) ?_ ?_
    · simp [snippet, Snippet.axios, Snippet.Axios.config, Snippet.ofBlocks, Snippet.optional,
        hbody, bodyLine]
    · rw [bodyLine_native hvalue, Target.nativeLine, Line.text_parts]
      rfl
  | requests =>
    cases hp
    refine embeds_of_mem (l := .ofParts [["payload = "], literalAt .capitalized 4 0 v]) ?_ ?_
    · simp [snippet, Snippet.requests, Snippet.Requests.bodyBinding, Snippet.ofBlocks,
        Snippet.optional, hbody, hvalue]
    · simp [LiteralPlace.block, LiteralPlace.width, Text.blanks, Line.ofParts, Line.text,
        Piece.text, Text.ofString, Text.ofChars]
  | node =>
    cases hp
    obtain ⟨e, he⟩ := Option.isSome_iff_exists.mp (ht rfl)
    refine embeds_of_mem (l := .ofParts [["const postData = "], r.bodyLine body .node, [";"]])
      ?_ ?_
    · simp [snippet, Snippet.node, he, Snippet.Node.withEndpoint, Snippet.ofBlocks,
        Snippet.optional, hbody, bodyLine]
    · rw [bodyLine_native hvalue, Target.nativeLine, Line.text_call]
      rfl
  | go => cases hp

end Request

namespace Json

/-- A decoded value has a literal at every level. The literal at a deeper level is the shifted one
exactly if there is nothing to shift by or no name that it holds is spelled with a line feed; then
its lines keep their indentation relative to each other. Its closing bracket stands on the
indentation of its level, whatever the names. So it does in every snippet with the literal, where it
is below the beginning of the line on which the literal begins. -/
theorem literal_at_level {b : Text} {v : Json} (h : decode? b = some v) :
    (∀ (names : Spelling) (indent k l : Nat), ∃ lit deeper,
      (Value.ofJson v).literalAt names indent k = .ok lit ∧
      (Value.ofJson v).literalAt names indent (k + l : Nat) = .ok deeper ∧
      (Line.text deeper = Text.shifted (indent * l) (Line.text lit) ↔
        indent * l = 0 ∨ names.lineFeeds v = 0) ∧
      (indent * l = 0 ∨ names.lineFeeds v = 0 →
        Text.IndentedBy (indent * l) (Line.text lit) (Line.text deeper)) ∧
      ∀ c, v.bracket? = some c → Text.ClosesAt (indent * (k + l)) c (Line.text deeper)) ∧
    ∀ (r : Request) (body : String) (t : Target) (p : LiteralPlace), r.body = some body →
      r.jsonBody? body = some v → t.literalPlace? = some p →
      (t = .node → (Url.endpoint? r.url).isSome = true) → ∃ top lit,
        (Value.ofJson v).literalAt p.names p.indent 0 = .ok top ∧
        (Value.ofJson v).literalAt p.names p.indent p.level = .ok lit ∧
        p.Embeds (Line.text lit) (r.code t) ∧
        Line.text lit = Text.shifted p.width (Line.text top) ∧
        Text.IndentedBy p.width (Line.text top) (Line.text lit) ∧
        ∀ c, v.bracket? = some c → Text.ClosesAt p.width c (Line.text lit) := by
  have hv := regular_of_decode? h
  have hwritten (names : Spelling) (indent level : Int) :
      (Value.ofJson v).literalAt names indent level = .ok (literalAt names indent level v) := by
    rw [Value.literalAt, Value.written_ofJson hv.short]
    rfl
  refine ⟨fun names indent k l => ?_, fun r body t p hbody hvalue hp ht => ?_⟩
  · have hshift := shift_literalAt hv names indent k l
    exact ⟨_, _, hwritten names indent k, hwritten names indent (k + l : Nat),
      hshift.eq_shifted_iff, hshift.indentedBy,
      fun c hc => closesAt_literalAt hc names indent (k + l)⟩
  · have hshift := shift_literalAt hv p.names p.indent 0 p.level
    rw [Nat.zero_add] at hshift
    have hfeeds := Spelling.lineFeeds_eq_zero (Target.onLine_literalPlace hp) v
    exact ⟨_, _, hwritten p.names p.indent 0, hwritten p.names p.indent p.level,
      Request.embeds_literalAt hbody hvalue hp ht, hshift.eq_shifted (.inr hfeeds),
      hshift.indentedBy (.inr hfeeds), fun c hc => closesAt_literalAt hc p.names p.indent p.level⟩

/-- An object with a line feed in a key, in names of which only one that it does not hold has one,
and as the data of a call. -/
theorem literal_at_level_nested :
    let body := "\x7b\"k\\n\": [null, \x7b\x7d]\x7d"
    let v : Json := .obj [(Text.ofString "k\n", .arr [.null, .obj []])]
    let names : Spelling := ⟨"nil", "yes", "n\no"⟩
    let r : Request := ⟨"http://h", "POST", [], some body, none, true, false, by decide, by decide⟩
    decode? (Text.ofString body) = some v ∧ names.lineFeeds v = 0 ∧ v.bracket? = some '\x7d' ∧
      (∃ lit deeper, (Value.ofJson v).literalAt names 3 1 = .ok lit ∧
        (Value.ofJson v).literalAt names 3 3 = .ok deeper ∧
        Line.text deeper = Text.shifted 6 (Line.text lit) ∧
        Text.IndentedBy 6 (Line.text lit) (Line.text deeper) ∧
        Text.ClosesAt 9 '\x7d' (Line.text deeper)) ∧
      r.jsonBody? body = some v ∧ ∃ p, Target.axios.literalPlace? = some p ∧ ∃ top lit,
        (Value.ofJson v).literalAt p.names p.indent 0 = .ok top ∧
        p.Embeds (Line.text lit) (r.code .axios) ∧
        Line.text lit = Text.shifted p.width (Line.text top) ∧
        Text.ClosesAt p.width '\x7d' (Line.text lit) := by
  intro body v names r
  have h : decode? (Text.ofString "\x7b\"k\\n\": [null, \x7b\x7d]\x7d") = some v := by
    with_unfolding_all rfl
  have hfeeds : names.lineFeeds v = 0 := by decide
  have hvalue : r.jsonBody? body = some v := (if_pos rfl).trans h
  obtain ⟨lit, deeper, hlit, hdeeper, htext, hlines, hcloses⟩ :=
    (literal_at_level h).1 names 3 1 2
  obtain ⟨top, placed, htop, -, hembeds, hplaced, -, hend⟩ :=
    (literal_at_level h).2 r body .axios _ rfl hvalue rfl (by decide)
  exact ⟨h, hfeeds, rfl,
    ⟨lit, deeper, hlit, hdeeper, htext.mpr (.inr hfeeds), hlines (.inr hfeeds), hcloses _ rfl⟩,
    hvalue, _, rfl, top, placed, htop, hembeds, hplaced, hend _ rfl⟩

/-- A name over two lines has its second line at the margin, at every level. -/
theorem literal_at_level_split :
    let names : Spelling := ⟨"a\nb", "true", "false"⟩
    let v : Json := .arr [.null]
    decode? (Text.ofString "[null]") = some v ∧ ∃ lit deeper,
      (Value.ofJson v).literalAt names 2 0 = .ok lit ∧
      (Value.ofJson v).literalAt names 2 1 = .ok deeper ∧
      Line.text deeper = Text.ofString "[\n    a\nb\n  ]" ∧
      Line.text deeper ≠ Text.shifted (2 * 1) (Line.text lit) := by
  intro names v
  refine ⟨by with_unfolding_all rfl, literalAt names 2 0 v, literalAt names 2 1 v, rfl, rfl, ?_, ?_⟩
  · decide +kernel
  · decide +kernel

end Json

end CurlSnippet
