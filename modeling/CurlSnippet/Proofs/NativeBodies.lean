import CurlSnippet.Proofs.BodyIdentity

/-!
Bodies that are sent as values. Whether a body is JSON is guessed from its first character after
white space, and then it is decoded; the guess is right for every body that decodes to an object or
an array, whatever the headers say. So a call with such a body has code with the literal of its
value, and no target writes the body as a string.
-/

namespace CurlSnippet

open Source

namespace Target

/-- The expression of a value: the literal of the language, or the JSON text of the value in Go. -/
def nativeLine (v : Json) : Target → Line
  | .fetch => .ofParts [["JSON.stringify("], literalAt .lowerCase 2 1 v, [")"]]
  | .axios => literalAt .lowerCase 2 1 v
  | .requests => literalAt .capitalized 4 0 v
  | .go => [Snippet.Go.textPiece (v.pretty 2)]
  | .node => .ofParts [["JSON.stringify("], literalAt .lowerCase 2 0 v, [")"]]

/-- A literal in brackets is no string. -/
theorem soleText?_container {names : Spelling} {indent level : Int} {v : Json}
    (hv : v.isContainer = true) :
    soleText? (ofLine false (literalAt names indent level v)) = none := by
  cases v with
  | arr items =>
    cases items with
    | nil => rfl
    | cons v items => rfl
  | obj members =>
    cases members with
    | nil => rfl
    | cons m members => rfl
  | null | bool _ | int _ | float _ | str _ => cases hv

/-- Only in Go the expression of an object or an array is a string, and there it is the JSON text of
the value. -/
theorem soleText?_nativeLine (t : Target) {v : Json} (hv : v.isContainer = true) :
    soleText? (ofLine t.backquotes (t.nativeLine v)) =
      if t = .go then some (v.pretty 2) else none := by
  cases t with
  | axios | requests => exact soleText?_container hv
  | fetch | node => rfl
  | go =>
    obtain ⟨l, hl, hdenoted⟩ := denoted?_textPiece (v.pretty 2)
    exact (congrArg soleText? hl).trans hdenoted

/-- The one place for a body has the expression of the value: as the target writes values, read back
as the value, and no string unless it holds the JSON text of the value. -/
def NativeIn (t : Target) (v : Json) (ls : List Lexeme) : Prop :=
  ∃ rest more, found t.bodyWords ls = ((t.bodyForm true).opener, rest) :: more ∧
    more.map Prod.fst = (t.bodyForm true).use.toList ∧
    let e := expression t.bodyStop 0 rest
    e = ofLine t.backquotes (t.nativeLine v) ∧ t.bodyValue? e = some v ∧
      soleText? e = if t = .go then some (v.pretty 2) else none

end Target

namespace Content

/-- A body that decodes to an object or an array counts as JSON with any headers. -/
theorem isJson_of_decode {body : String} {v : Json}
    (hbody : Json.decode? (Text.ofString body) = some v) (hv : v.isContainer = true)
    (headers : Entries String String) : isJson headers (some body) = true := by
  rw [isJson, Option.any_some, opensContainer_eq hbody, hv, Bool.or_true]

end Content

namespace Request

variable {r : Request} {body : String} {v : Json}

theorem bodyLine_native (h : r.jsonBody? body = some v) (t : Target) :
    r.bodyLine body t = t.nativeLine v := by
  cases t <;> simp only [bodyLine, Target.nativeLine, Snippet.Fetch.bodyPieces,
    Snippet.Axios.dataPieces, Snippet.Go.bodyPiece, Snippet.Node.dataPieces, h]

/-- A body that is sent as a value has its expression in the lines of a snippet. -/
theorem nativeIn_lines {t : Target} (h : t = .node → (Url.endpoint? r.url).isSome = true)
    (hbody : r.body = some body) (hvalue : r.jsonBody? body = some v)
    (hv : v.isContainer = true) : t.NativeIn v (ofLines t.backquotes (r.snippet t)) := by
  have hshows := shows_snippet t r h
  have hexpression := expression_bodyLine t r body
  have hcarries := hexpression.carries
  rw [Carries, hvalue] at hcarries
  rw [Shows, bodyUses, hbody] at hshows
  dsimp only at hshows
  rw [hvalue] at hshows
  obtain ⟨more, after, hfound, huses⟩ := hshows
  refine ⟨_, after, hfound, huses, ?_⟩
  rw [expression_of_level hexpression.level]
  have hline := bodyLine_native hvalue t
  refine ⟨by rw [hline], hcarries, ?_⟩
  rw [hline, Target.soleText?_nativeLine t hv]

/-- A body that decodes to an object or an array counts as JSON whatever the headers are. So a
request of a call with such a body is one for JSON, and where its URL can be taken apart or need not
be, every target writes the value of the body as it writes values, and not the body as a string. -/
theorem native_in_code (hbody : Json.decode? (Text.ofString body) = some v)
    (hv : v.isContainer = true) :
    (∀ headers, Content.isJson headers (some body) = true) ∧
    ∀ (ws : List String) (r : Request), Command.ofWords ws = .ok r → r.body = some body →
      r.isJson = true ∧ ∀ t : Target, (t = .node → (Url.endpoint? r.url).isSome = true) →
        ∃ ls, Source.read t.backquotes .code (r.code t) = some ls ∧
          t.NativeIn v (.code (.scalar '\n') :: ls) := by
  refine ⟨Content.isJson_of_decode hbody hv, fun ws r hr hgiven => ?_⟩
  have hjson : r.isJson = true := by
    rw [(classified_of_ofWords hr).isJson, hgiven]
    exact Content.isJson_of_decode hbody hv r.headers
  refine ⟨hjson, fun t ht => ?_⟩
  have hvalue : r.jsonBody? body = some v := by rw [jsonBody?, if_pos hjson, hbody]
  obtain ⟨ls, hread, hlines, -⟩ := r.read_code t
  refine ⟨ls, hread, ?_⟩
  rw [hlines]
  exact nativeIn_lines ht hgiven hvalue hv

/-- A list behind white space, in a call that says that its body is plain text. -/
theorem native_in_code_labelled :
    let ws := ["curl", "http://h", "-H", "Content-Type: text/plain", "-d", " \n[1]"]
    let v : Json := .arr [.int 1]
    Json.decode? (Text.ofString " \n[1]") = some v ∧ v.isContainer = true ∧
      ∃ r, Command.ofWords ws = .ok r ∧ r.body = some " \n[1]" ∧
        (Url.endpoint? r.url).isSome = true ∧ r.isJson = true ∧
        ∃ ls, Source.read false .code (r.code .node) = some ls ∧
          Target.node.NativeIn v (.code (.scalar '\n') :: ls) := by
  intro ws v
  let r : Request := ⟨"http://h", "POST", [("Content-Type", "text/plain")], some " \n[1]", none,
    true, false, by decide, by decide⟩
  have hbody : Json.decode? (Text.ofString " \n[1]") = some v := by with_unfolding_all rfl
  have hr : Command.ofWords ws = .ok r := rfl
  have hendpoint : (Url.endpoint? r.url).isSome = true := by decide +kernel
  obtain ⟨hjson, hcode⟩ := (native_in_code hbody rfl).2 ws r hr rfl
  exact ⟨hbody, rfl, r, hr, rfl, hendpoint, hjson, hcode .node fun _ => hendpoint⟩

end Request

end CurlSnippet
