import CurlSnippet.Proofs.LiteralCharacters
import CurlSnippet.Proofs.SnippetShape

/-!
Which characters outside printable ASCII a snippet has. They stand in its literals as the request
has them, but for control characters, which are always escaped: a NUL never occurs, a byte order
mark occurs where the request has one, and a surrogate where it comes with a body that is sent as
a value.
-/

namespace CurlSnippet

namespace Request

/-- What the expression of a body says. -/
def bodySaid (r : Request) (body : String) : List Text :=
  match r.jsonBody? body with
  | some v => v.texts
  | none => [Text.ofString body]

/-- What the literals of a snippet say, in their order. -/
def said (r : Request) : Target → List Text
  | .fetch =>
    Text.ofString r.url :: (if r.method = "GET" then [] else [Text.ofString r.method]) ++
      (Snippet.Fetch.headers r).flatMap headerSaid ++ r.body.toList.flatMap r.bodySaid
  | .axios =>
    [Text.ofString (lower r.method), Text.ofString r.url] ++ r.auth.toList.flatMap authSaid ++
      r.headers.flatMap headerSaid ++ r.body.toList.flatMap r.bodySaid
  | .requests =>
    r.headers.flatMap headerSaid ++ r.body.toList.flatMap r.bodySaid ++
      Text.ofString r.url ::
        (if r.method ∈ Snippet.Requests.helpers then [] else [Text.ofString r.method]) ++
      r.auth.toList.flatMap authSaid
  | .go =>
    Text.ofString r.url :: r.body.toList.flatMap r.bodySaid ++ Text.ofString r.method ::
      r.headers.flatMap headerSaid ++ r.auth.toList.flatMap authSaid
  | .node => match Url.endpoint? r.url with
    | none => [Text.ofString r.url]
    | some e =>
      r.body.toList.flatMap r.bodySaid ++ Text.ofString e.host :: Text.ofString e.path ::
        Text.ofString r.method ::
        (Snippet.Node.headers r).flatMap (fun h => Text.ofString h.1 :: h.2.said)
where
  headerSaid (h : String × String) : List Text := [Text.ofString h.1, Text.ofString h.2]
  authSaid (a : Credentials) : List Text := [Text.ofString a.user, Text.ofString a.password]

end Request

/-- The characters of the lines are those of what they say. -/
def HoldsLines (p : CodePoint) (s : Snippet) (ts : List Text) : Prop :=
  Holds p (Line.text s.flatten) ts

section Snippets

variable {p : CodePoint}

theorem fit_helper : ∀ m ∈ Snippet.Requests.helpers, (lower m).toList.all isProgramChar = true := by
  decide +kernel

/-- A line from its parts. -/
theorem holds_part {l : Line} {parts : List Line} {ts us : List Text}
    (hl : Holds p (Line.text l) ts) (hparts : Holds p (Line.text (.ofParts parts)) us) :
    Holds p (Line.text (.ofParts (l :: parts))) (ts ++ us) := by
  rw [Line.ofParts, List.flatten_cons, Json.text_append]
  exact hl.append hparts

theorem holds_lastPart {l : Line} {ts : List Text} (hl : Holds p (Line.text l) ts) :
    Holds p (Line.text (.ofParts [l])) ts := by
  rwa [Line.ofParts, List.flatten_singleton]

theorem HoldsLines.append {s u : Snippet} {ts us : List Text} (hs : HoldsLines p s ts)
    (hu : HoldsLines p u us) : HoldsLines p (s ++ u) (ts ++ us) := by
  rw [HoldsLines, List.flatten_append, Json.text_append]
  exact Holds.append hs hu

theorem holds_block {s : Snippet} {rest : List Snippet} {ts us : List Text}
    (hs : HoldsLines p s ts) (hrest : HoldsLines p (Snippet.ofBlocks rest) us) :
    HoldsLines p (Snippet.ofBlocks (s :: rest)) (ts ++ us) :=
  hs.append hrest

theorem holdsLines_line {l : Line} {ts : List Text} (h : Holds p (Line.text l) ts) :
    HoldsLines p [l] ts := by
  rwa [HoldsLines, List.flatten_singleton]

/-- A line with an empty line after it. -/
theorem holds_gap {l : Line} {ts : List Text} (h : Holds p (Line.text l) ts) :
    HoldsLines p [l, []] ts := by
  have hall := (holdsLines_line h).append (holdsLines_line (p := p) (l := []) holds_nil)
  rwa [List.append_nil] at hall

theorem holds_map {α : Type} {xs : List α} {line : α → Line} {f : α → List Text}
    (h : ∀ x ∈ xs, Holds p (Line.text (line x)) (f x)) :
    HoldsLines p (xs.map line) (xs.flatMap f) := by
  induction xs with
  | nil => exact holds_nil
  | cons x xs ih =>
    obtain ⟨hx, hrest⟩ := List.forall_mem_cons.mp h
    have hall := hx.append (ih hrest)
    rwa [← Json.text_append] at hall

theorem holds_optional {α : Type} {a : Option α} {lines : α → Snippet} {f : α → List Text}
    (h : ∀ x ∈ a, HoldsLines p (lines x) (f x)) :
    HoldsLines p (Snippet.optional a lines) (a.toList.flatMap f) := by
  cases a with
  | none => exact holds_nil
  | some x =>
    rw [Option.toList_some, List.flatMap_singleton]
    exact h x rfl

theorem flatten_text (s : Snippet) : Line.text s.flatten = s.flatMap Line.text := by
  rw [Line.text, List.flatten_eq_flatMap, List.flatMap_assoc]
  rfl

/-- Lines have the characters of their text, but for the line feeds between them. -/
theorem mem_snippet_text (s : Snippet) (hp : p.isAlien = true) :
    p ∈ s.text ↔ p ∈ Line.text s.flatten := by
  have hfeed : p ≠ .scalar '\n' := by
    rintro rfl
    cases hp
  rw [flatten_text]
  cases s with
  | nil => rfl
  | cons l s =>
    rw [Snippet.text, List.map_cons, Source.lines_cons, List.flatMap_cons, List.mem_append,
      List.mem_append, List.flatMap_map, List.mem_flatMap, List.mem_flatMap]
    simp only [List.mem_cons, hfeed, false_or]

section Templates

variable (hp : p.isAlien = true)
include hp

theorem holds_fit {s : Snippet} (h : s.flatten.all Piece.isFit = true) :
    HoldsLines p s (s.flatten.flatMap Piece.said) :=
  holds_line hp h

/-- Program text in front of other blocks. -/
theorem holds_after {s : Snippet} {rest : List Snippet} {ts : List Text}
    (hs : s.flatten.all (fun q => q.isFit && q.said.isEmpty) = true)
    (hrest : HoldsLines p (Snippet.ofBlocks rest) ts) :
    HoldsLines p (Snippet.ofBlocks (s :: rest)) ts :=
  holds_block (holds_code hp hs) hrest

/-- Program text behind other blocks. -/
theorem holds_end {s : Snippet} (hs : s.flatten.all (fun q => q.isFit && q.said.isEmpty) = true) :
    HoldsLines p (Snippet.ofBlocks [s]) [] :=
  holds_after hp hs holds_nil

theorem holds_headerLine (indent : Int) (h : String × String) :
    Holds p (Line.text [spaces indent, .string h.1, ": ", .string h.2, ","])
      (Request.said.headerSaid h) := by
  have hall := (holds_spaces hp indent).append <|
    holds_line hp (l := [.string h.1, ": ", .string h.2, ","]) rfl
  exact hall

theorem holds_headerBlock (headers : List (String × String)) :
    HoldsLines p (Snippet.headerBlock headers) (headers.flatMap Request.said.headerSaid) := by
  rw [Snippet.headerBlock]
  split_ifs with h
  · rw [List.isEmpty_iff.mp h]
    exact holds_nil
  · have hlines : HoldsLines p (Snippet.headerLines (Snippet.tab 2 2) headers)
        (headers.flatMap Request.said.headerSaid) :=
      holds_map fun h _ => holds_headerLine hp _ h
    have hall := holds_after hp (s := [["  headers: \x7b"]]) rfl <|
      holds_block hlines (holds_end hp (s := [["  \x7d,"]]) rfl)
    rwa [List.append_nil] at hall

/-- A body between program text, as a value or as the text that it is. -/
theorem holds_body {r : Request} {body : String} {native : Json → Line}
    (h : ∀ v, Json.Regular v → Holds p (Line.text (native v)) v.texts) :
    Holds p (Line.text (match r.jsonBody? body with
      | some v => native v
      | none => [.string body])) (r.bodySaid body) := by
  rw [Request.bodySaid]
  cases hv : r.jsonBody? body with
  | none => exact holds_line hp (l := [.string body]) rfl
  | some v => exact h v (Source.regular_jsonBody? hv)

theorem holds_parts {first last : String} {l : Line} {ts : List Text}
    (hfirst : first.toList.all isProgramChar = true) (hl : Holds p (Line.text l) ts)
    (hlast : last.toList.all isProgramChar = true) :
    Holds p (Line.text (.ofParts [[.code first], l, [.code last]])) ts := by
  have hlastPart : Holds p (Line.text [.code last]) [] := (holds_plain hp _ hlast).append holds_nil
  have hfirstPart : Holds p (Line.text [.code first]) [] :=
    (holds_plain hp _ hfirst).append holds_nil
  have hall := holds_part hfirstPart (holds_part hl (holds_lastPart hlastPart))
  rwa [List.append_nil] at hall

theorem holds_fetch (r : Request) : HoldsLines p (Snippet.fetch r) (r.said .fetch) := by
  have hmethod : HoldsLines p
      (if r.method = "GET" then [] else [["  method: ", .string r.method, ","]])
      (if r.method = "GET" then [] else [Text.ofString r.method]) := by
    split_ifs
    · exact holds_nil
    · exact holds_fit hp (s := [["  method: ", .string r.method, ","]]) rfl
  have hpieces (body : String) :
      Holds p (Line.text (Snippet.Fetch.bodyPieces r body)) (r.bodySaid body) :=
    holds_body hp fun v hv => holds_parts hp rfl (holds_literalAt hp (.inl rfl) hv 2 1) rfl
  have hbody : HoldsLines p
      (Snippet.optional r.body fun b =>
        [.ofParts [["  body: "], Snippet.Fetch.bodyPieces r b, [","]]])
      (r.body.toList.flatMap r.bodySaid) :=
    holds_optional fun b _ => holdsLines_line (holds_parts hp rfl (hpieces b) rfl)
  have hurl : HoldsLines p [["const response = await fetch(", .string r.url, ", \x7b"]]
      [Text.ofString r.url] :=
    holds_fit hp rfl
  have hoptions : HoldsLines p (Snippet.Fetch.options r) _ :=
    holds_block hmethod <| holds_block (holds_headerBlock hp _) <| holds_block hbody holds_nil
  have hall : HoldsLines p (Snippet.fetch r) _ :=
    holds_block hurl (holds_block hoptions (holds_end hp rfl))
  simpa only [Request.said, List.append_nil, List.append_assoc, List.cons_append, List.nil_append]
    using hall

theorem holds_axios (r : Request) : HoldsLines p (Snippet.axios r) (r.said .axios) := by
  have hpieces (body : String) :
      Holds p (Line.text (Snippet.Axios.dataPieces r body)) (r.bodySaid body) :=
    holds_body hp fun v hv => holds_literalAt hp (.inl rfl) hv 2 1
  have hbody : HoldsLines p
      (Snippet.optional r.body fun b =>
        [.ofParts [["  data: "], Snippet.Axios.dataPieces r b, [","]]])
      (r.body.toList.flatMap r.bodySaid) :=
    holds_optional fun b _ => holdsLines_line (holds_parts hp rfl (hpieces b) rfl)
  have hurl : HoldsLines p
      [["  method: ", .string (lower r.method), ","], ["  url: ", .string r.url, ","]]
      [Text.ofString (lower r.method), Text.ofString r.url] :=
    holds_fit hp rfl
  have hauth : HoldsLines p (Snippet.optional r.auth fun a => [
      ["  auth: \x7b"],
      ["    username: ", .string a.user, ","],
      ["    password: ", .string a.password, ","],
      ["  \x7d,"]]) (r.auth.toList.flatMap Request.said.authSaid) :=
    holds_optional fun _ _ => holds_fit hp rfl
  have hconfig : HoldsLines p (Snippet.Axios.config r) _ :=
    holds_block hurl <| holds_block hauth <| holds_block (holds_headerBlock hp _) <|
      holds_block hbody holds_nil
  have hall : HoldsLines p (Snippet.axios r) _ :=
    holds_after hp rfl (holds_block hconfig (holds_end hp rfl))
  simpa only [Request.said, List.append_nil, List.append_assoc, List.cons_append, List.nil_append]
    using hall

theorem holds_callee (r : Request) : Holds p (Line.text (Snippet.Requests.callee r))
    (if r.method ∈ Snippet.Requests.helpers then [] else [Text.ofString r.method]) := by
  rw [Snippet.Requests.callee]
  split_ifs with h
  · exact (holds_plain hp "response = requests.".toList rfl).append <|
      (holds_plain hp _ (fit_helper r.method h)).append (holds_code hp (l := ["(url"]) rfl)
  · exact holds_line hp (l := ["response = requests.request(", .string r.method, ", url"]) rfl

theorem holds_arguments (r : Request) : Holds p (Line.text (Snippet.Requests.arguments r))
    (r.auth.toList.flatMap Request.said.authSaid) := by
  have hheaders : Holds p (Line.text (Snippet.Requests.headerArgument r)) [] := by
    rw [Snippet.Requests.headerArgument]
    split_ifs
    · exact holds_nil
    · exact holds_code hp (l := [", headers=headers"]) rfl
  have hauth : Holds p (Line.text (Snippet.Requests.authArgument r))
      (r.auth.toList.flatMap Request.said.authSaid) := by
    rw [Snippet.Requests.authArgument]
    cases r.auth with
    | none => exact holds_nil
    | some a =>
      exact holds_line hp
        (l := [", auth=(", .string a.user, ", ", .string a.password, ")"]) rfl
  have hbody : Holds p (Line.text (Snippet.Requests.bodyArgument r)) [] := by
    rw [Snippet.Requests.bodyArgument]
    cases r.body with
    | none => exact holds_nil
    | some body =>
      dsimp only
      split_ifs
      · exact holds_code hp (l := [", json=payload"]) rfl
      · exact holds_code hp (l := [", data=data"]) rfl
  have hall := holds_part hheaders (holds_part hauth (holds_lastPart hbody))
  rwa [List.append_nil] at hall

theorem holds_requests (r : Request) : HoldsLines p (Snippet.requests r) (r.said .requests) := by
  have hheaders : HoldsLines p (Snippet.Requests.headerBinding r)
      (r.headers.flatMap Request.said.headerSaid) := by
    rw [Snippet.Requests.headerBinding]
    split_ifs with h
    · rw [List.isEmpty_iff.mp h]
      exact holds_nil
    · have hlines : HoldsLines p (Snippet.headerLines (Snippet.tab 4 1) r.headers)
          (r.headers.flatMap Request.said.headerSaid) :=
        holds_map fun h _ => holds_headerLine hp _ h
      have hall := holds_after hp (s := [["headers = \x7b"]]) rfl <|
        holds_block hlines (holds_end hp (s := [["\x7d"], []]) rfl)
      rwa [List.append_nil] at hall
  have hbody : HoldsLines p (Snippet.Requests.bodyBinding r)
      (r.body.toList.flatMap r.bodySaid) := by
    apply holds_optional
    intro body _
    rw [Request.bodySaid]
    cases hv : r.jsonBody? body with
    | none => exact holds_fit hp (s := [["data = ", .string body], []]) rfl
    | some v =>
      have hliteral := holds_literalAt hp (.inr rfl) (Source.regular_jsonBody? hv) 4 0
      have hline : Holds p (Line.text (.ofParts [["payload = "], literalAt .capitalized 4 0 v]))
          v.texts :=
        holds_part (holds_code hp (l := ["payload = "]) rfl) (holds_lastPart hliteral)
      exact holds_gap hline
  have hurl : HoldsLines p [["url = ", .string r.url], []] [Text.ofString r.url] :=
    holds_fit hp rfl
  have hcall : Holds p (Line.text (Snippet.Requests.call r)) _ :=
    holds_part (holds_callee hp r) <| holds_part (holds_arguments hp r) <|
      holds_lastPart (holds_code hp (l := [")"]) rfl)
  have hall : HoldsLines p (Snippet.requests r) _ :=
    holds_after hp rfl <| holds_block hheaders <| holds_block hbody <| hurl.append <|
      (holdsLines_line hcall).append (holds_end hp (s := [["print(response.json())"]]) rfl)
  simpa only [Request.said, List.append_nil, List.append_assoc, List.cons_append, List.nil_append]
    using hall

theorem holds_textPiece {t : Text} {ts : List Text} (h : Holds p t ts) :
    Holds p (Snippet.Go.textPiece t).text ts := by
  rw [Snippet.Go.textPiece]
  split_ifs
  · have hsaid : Said p [t] ↔ p ∈ t := by
      simp only [Said, List.mem_singleton, exists_eq_left]
      exact and_iff_right_of_imp fun hmem => (h.mp hmem).1
    exact ((holds_quote hp t).trans hsaid).trans h
  · have hbackquote : Holds p (Text.ofChars ['\x60']) [] := holds_plain hp _ rfl
    have hall := hbackquote.append (h.append hbackquote)
    rw [List.append_nil] at hall
    exact hall

theorem holds_newRequest (r : Request) : HoldsLines p (Snippet.Go.newRequest r)
    (r.body.toList.flatMap r.bodySaid ++ [Text.ofString r.method]) := by
  have hpiece (body : String) : Holds p (Snippet.Go.bodyPiece r body).text (r.bodySaid body) := by
    rw [Snippet.Go.bodyPiece, Request.bodySaid]
    cases hv : r.jsonBody? body with
    | none => exact holds_quote hp _
    | some v => exact holds_textPiece hp (holds_printAt hp 2 (Source.regular_jsonBody? hv) 0)
  rw [Snippet.Go.newRequest]
  cases r.body with
  | none =>
    exact holds_fit hp
      (s := [["\treq, err := http.NewRequest(", .string r.method, ", url, nil)"]]) rfl
  | some body =>
    have hline : Holds p
        (Line.text ["\tbody := strings.NewReader(", Snippet.Go.bodyPiece r body, ")"])
        (r.bodySaid body ++ []) :=
      (holds_plain hp "\tbody := strings.NewReader(".toList rfl).append <|
        (hpiece body).append (holds_code hp (l := [")"]) rfl)
    rw [List.append_nil] at hline
    rw [Option.toList_some, List.flatMap_singleton]
    exact (holdsLines_line hline).append <| holds_fit hp
      (s := [["\treq, err := http.NewRequest(", .string r.method, ", url, body)"]]) rfl

theorem holds_go (r : Request) : HoldsLines p (Snippet.go r) (r.said .go) := by
  have himports : HoldsLines p (Snippet.Go.imports r) [] := by
    have hstrings : HoldsLines p
        (Snippet.optional r.body fun _ => [["\t\"strings\""]]) [] := by
      cases r.body with
      | none => exact holds_nil
      | some body => exact holds_code hp rfl
    exact holds_after hp rfl (holds_block hstrings (holds_end hp rfl))
  have hurl : HoldsLines p [["func main() \x7b"], ["\turl := ", .string r.url], []]
      [Text.ofString r.url] :=
    holds_fit hp rfl
  have hset : HoldsLines p
      (r.headers.map fun h => ["\treq.Header.Set(", .string h.1, ", ", .string h.2, ")"])
      (r.headers.flatMap Request.said.headerSaid) :=
    holds_map fun h _ =>
      holds_line hp (l := ["\treq.Header.Set(", .string h.1, ", ", .string h.2, ")"]) rfl
  have hauth : HoldsLines p (Snippet.optional r.auth fun a =>
      [["\treq.SetBasicAuth(", .string a.user, ", ", .string a.password, ")"]])
      (r.auth.toList.flatMap Request.said.authSaid) :=
    holds_optional fun _ _ => holds_fit hp rfl
  have hgap : HoldsLines p (if r.headers.isEmpty && r.auth.isNone then [] else [[]]) [] := by
    split_ifs
    · exact holds_nil
    · exact holds_nil
  have hheaders : HoldsLines p (Snippet.Go.headers r) _ :=
    holds_block hset (holds_block hauth (holds_block hgap holds_nil))
  have hcheck : Snippet.Go.check.flatten.all (fun q => q.isFit && q.said.isEmpty) = true := rfl
  have hall : HoldsLines p (Snippet.go r) _ :=
    holds_after hp rfl <| holds_block himports <| holds_block hurl <|
      holds_block (holds_newRequest hp r) <| holds_after hp hcheck <| holds_after hp rfl <|
      holds_block hheaders <| holds_after hp rfl <| holds_after hp hcheck <|
      holds_after hp rfl <| holds_after hp hcheck (holds_end hp rfl)
  simpa only [Request.said, List.append_nil, List.append_assoc, List.cons_append, List.nil_append]
    using hall

theorem holds_headerOptions (r : Request) : HoldsLines p (Snippet.Node.headerOptions r)
    ((Snippet.Node.headers r).flatMap fun h => Text.ofString h.1 :: h.2.said) := by
  have hline : ∀ h ∈ Snippet.Node.headers r,
      Holds p (Line.text ["    ", .string h.1, ": ", h.2, ","])
        (Text.ofString h.1 :: h.2.said) := by
    rintro ⟨name, value⟩ hh
    rcases Source.headerValue_cases hh with ⟨s, rfl⟩ | rfl
    · exact holds_line hp (l := ["    ", .string name, ": ", .string s, ","]) rfl
    · exact holds_line hp
        (l := ["    ", .string name, ": ", "Buffer.byteLength(postData)", ","]) rfl
  rw [Snippet.Node.headerOptions]
  split_ifs with h
  · rw [List.isEmpty_iff.mp h]
    exact holds_nil
  · have hall := holds_after hp (s := [["  headers: \x7b"]]) rfl <|
      holds_block (holds_map hline) (holds_end hp (s := [["  \x7d,"]]) rfl)
    rwa [List.append_nil] at hall

theorem holds_port (e : Endpoint) : HoldsLines p (if e.hasUnusualPort then
    [["  port: ", String.ofList (Nat.toDigits 10 e.port), ","]] else []) [] := by
  split_ifs
  · have hdigits : (Nat.toDigits 10 e.port).all isProgramChar = true := by
      rw [List.all_eq_true]
      intro c hc
      have hdigit := (Json.digits_toDigits e.port).all c hc
      exact Json.isProgramChar_numberChar (by simp [Json.isNumberChar, hdigit])
    have hnumber : Holds p (Piece.text (String.ofList (Nat.toDigits 10 e.port))) [] := by
      rw [Piece.text, Text.ofString, String.toList_ofList]
      exact holds_plain hp _ hdigits
    exact holdsLines_line <| (holds_plain hp "  port: ".toList rfl).append <|
      hnumber.append (holds_code hp (l := [","]) rfl)
  · exact holds_nil

theorem holds_withEndpoint (r : Request) (e : Endpoint) :
    HoldsLines p (Snippet.Node.withEndpoint r e) (r.body.toList.flatMap r.bodySaid ++
      Text.ofString e.host :: Text.ofString e.path :: Text.ofString r.method ::
        (Snippet.Node.headers r).flatMap (fun h => Text.ofString h.1 :: h.2.said)) := by
  have hrequire : HoldsLines p
      [["const ", e.protocol.name, " = require('", e.protocol.name, "');"], []] [] := by
    cases e.protocol
    · exact holds_code hp rfl
    · exact holds_code hp rfl
  have hpieces (body : String) :
      Holds p (Line.text (Snippet.Node.dataPieces r body)) (r.bodySaid body) :=
    holds_body hp fun v hv => holds_parts hp rfl (holds_literalAt hp (.inl rfl) hv 2 0) rfl
  have hpost : HoldsLines p (Snippet.optional r.body fun b =>
      [.ofParts [["const postData = "], Snippet.Node.dataPieces r b, [";"]], []])
      (r.body.toList.flatMap r.bodySaid) :=
    holds_optional fun b _ => holds_gap (holds_parts hp rfl (hpieces b) rfl)
  have hhost : HoldsLines p [["const options = \x7b"], ["  hostname: ", .string e.host, ","]]
      [Text.ofString e.host] :=
    holds_fit hp rfl
  have hmethod : HoldsLines p
      [["  path: ", .string e.path, ","], ["  method: ", .string r.method, ","]]
      [Text.ofString e.path, Text.ofString r.method] :=
    holds_fit hp rfl
  have hoptions : HoldsLines p (Snippet.Node.options r e) _ :=
    holds_block hhost <| holds_block (holds_port hp e) <| holds_block hmethod <|
      holds_block (holds_headerOptions hp r) (holds_end hp rfl)
  have hcall : HoldsLines p (Snippet.Node.call e) [] := by
    rw [Snippet.Node.call]
    cases e.protocol
    · exact holds_code hp rfl
    · exact holds_code hp rfl
  have hwrite : HoldsLines p
      (Snippet.optional r.body fun _ => [["req.write(postData);"]]) [] := by
    cases r.body with
    | none => exact holds_nil
    | some body => exact holds_code hp rfl
  have hall : HoldsLines p (Snippet.Node.withEndpoint r e) _ :=
    holds_block hrequire <| holds_block hpost <| holds_block hoptions <| holds_after hp rfl <|
      holds_block hcall <| holds_block hwrite (holds_end hp rfl)
  simpa only [List.append_nil, List.append_assoc, List.cons_append, List.nil_append] using hall

theorem holds_node (r : Request) : HoldsLines p (Snippet.node r) (r.said .node) := by
  rw [Snippet.node, Request.said]
  cases Url.endpoint? r.url with
  | none => exact holds_fit hp (s := Snippet.Node.skeleton r.url) rfl
  | some e => exact holds_withEndpoint hp r e

theorem holds_snippet (r : Request) (t : Target) : HoldsLines p (r.snippet t) (r.said t) := by
  cases t with
  | fetch => exact holds_fetch hp r
  | axios => exact holds_axios hp r
  | requests => exact holds_requests hp r
  | go => exact holds_go hp r
  | node => exact holds_node hp r

end Templates

end Snippets

namespace Request

theorem mem_code (r : Request) (t : Target) {p : CodePoint} (hp : p.isAlien = true) :
    p ∈ r.code t ↔ Said p (r.said t) := by
  rw [code, mem_snippet_text _ hp]
  exact holds_snippet hp r t

section Surrogates

variable {o : Fin 0x800}

theorem surrogate_not_mem_ofString (s : String) : .surrogate o ∉ Text.ofString s := by
  intro h
  obtain ⟨c, -, hc⟩ := List.mem_map.mp h
  cases hc

/-- A surrogate in what the expression of a body says comes with a value. -/
theorem surrogate_in_body (r : Request) :
    (∃ s ∈ r.body.toList.flatMap r.bodySaid, .surrogate o ∈ s) ↔
      ∃ b ∈ r.body, ∃ v, r.jsonBody? b = some v ∧ ∃ s ∈ v.texts, .surrogate o ∈ s := by
  have hbody (b : String) : (∃ s ∈ r.bodySaid b, .surrogate o ∈ s) ↔
      ∃ v, r.jsonBody? b = some v ∧ ∃ s ∈ v.texts, .surrogate o ∈ s := by
    rw [bodySaid]
    cases r.jsonBody? b with
    | none => simp [surrogate_not_mem_ofString]
    | some v => simp
  simp only [List.mem_flatMap, Option.mem_toList, ← hbody]
  constructor
  · rintro ⟨s, ⟨b, hb, hs⟩, ho⟩
    exact ⟨b, hb, s, hs, ho⟩
  · rintro ⟨b, hb, s, hs, ho⟩
    exact ⟨s, ⟨b, hb, hs⟩, ho⟩

theorem surrogate_not_in_strings {ts : List Text} (h : ∀ s ∈ ts, ∃ u, s = Text.ofString u) :
    ¬ ∃ s ∈ ts, .surrogate o ∈ s := by
  rintro ⟨s, hs, ho⟩
  obtain ⟨u, rfl⟩ := h s hs
  exact surrogate_not_mem_ofString u ho

theorem surrogate_not_in_headers (headers : List (String × String)) :
    ¬ ∃ s ∈ headers.flatMap said.headerSaid, .surrogate o ∈ s := by
  apply surrogate_not_in_strings
  intro s hs
  obtain ⟨h, -, hs⟩ := List.mem_flatMap.mp hs
  simp only [said.headerSaid, List.mem_cons, List.not_mem_nil, or_false] at hs
  rcases hs with rfl | rfl
  · exact ⟨_, rfl⟩
  · exact ⟨_, rfl⟩

theorem surrogate_not_in_auth (r : Request) :
    ¬ ∃ s ∈ r.auth.toList.flatMap said.authSaid, .surrogate o ∈ s := by
  apply surrogate_not_in_strings
  intro s hs
  obtain ⟨a, -, hs⟩ := List.mem_flatMap.mp hs
  simp only [said.authSaid, List.mem_cons, List.not_mem_nil, or_false] at hs
  rcases hs with rfl | rfl
  · exact ⟨_, rfl⟩
  · exact ⟨_, rfl⟩

theorem surrogate_not_in_headerValues (r : Request) : ¬ ∃ s ∈ (Snippet.Node.headers r).flatMap
    (fun h => Text.ofString h.1 :: h.2.said), .surrogate o ∈ s := by
  apply surrogate_not_in_strings
  intro s hs
  obtain ⟨⟨name, value⟩, hh, hs⟩ := List.mem_flatMap.mp hs
  rcases Source.headerValue_cases hh with ⟨u, rfl⟩ | rfl
  · simp only [Piece.string, Piece.said, List.mem_cons, List.not_mem_nil, or_false] at hs
    rcases hs with rfl | rfl
    · exact ⟨_, rfl⟩
    · exact ⟨_, rfl⟩
  · exact ⟨name, List.mem_singleton.mp hs⟩

/-- Only what the expression of a body says can have a surrogate. -/
theorem surrogate_in_said (r : Request) (t : Target) :
    (∃ s ∈ r.said t, .surrogate o ∈ s) ↔ (t = .node → (Url.endpoint? r.url).isSome = true) ∧
      ∃ s ∈ r.body.toList.flatMap r.bodySaid, .surrogate o ∈ s := by
  have hmethod {c : Prop} [Decidable c] :
      ¬ ∃ s ∈ (if c then [] else [Text.ofString r.method]), .surrogate o ∈ s := by
    apply surrogate_not_in_strings
    split_ifs
    · exact nofun
    · exact fun s hs => ⟨r.method, List.mem_singleton.mp hs⟩
  cases t with
  | node =>
    rw [said]
    cases Url.endpoint? r.url with
    | none => simp [surrogate_not_mem_ofString]
    | some e =>
      simp only [List.mem_append, List.mem_cons, or_and_right, exists_or, exists_eq_left,
        surrogate_not_mem_ofString, surrogate_not_in_headerValues, or_false, Option.isSome_some,
        forall_const, true_and]
  | _ =>
    simp only [said, List.mem_append, List.mem_cons, List.not_mem_nil, or_and_right, exists_or,
      exists_eq_left, surrogate_not_mem_ofString, surrogate_not_in_headers, surrogate_not_in_auth,
      hmethod, false_or, or_false, reduceCtorEq, false_implies, true_and]

end Surrogates

/-- A snippet has a surrogate exactly where a body that is sent as a value has one in a string or a
key. It has no NUL, and a byte order mark exactly where the request has one. -/
theorem unreadable_in_code (r : Request) (t : Target) :
    (∀ o, .surrogate o ∈ r.code t ↔ (t = .node → (Url.endpoint? r.url).isSome = true) ∧
      ∃ b ∈ r.body, ∃ v, r.jsonBody? b = some v ∧ ∃ s ∈ v.texts, .surrogate o ∈ s) ∧
    .scalar '\x00' ∉ r.code t ∧
    (.scalar '\ufeff' ∈ r.code t ↔ ∃ s ∈ r.said t, .scalar '\ufeff' ∈ s) := by
  refine ⟨fun o => ?_, ?_, ?_⟩
  · rw [mem_code r t rfl, Said, surrogate_in_said, surrogate_in_body]
    exact and_iff_right rfl
  · rw [mem_code r t (by decide)]
    rintro ⟨hctl, -⟩
    exact absurd hctl (by decide)
  · rw [mem_code r t (by decide)]
    exact and_iff_right (by decide)

/-- An escape in a body that is sent as a value leaves a surrogate in the snippet, and a byte order
mark in a URL leaves one in a Go program. -/
theorem unreadable_in_code_commands :
    (∃ r, Command.read "curl http://h -d '[\"\\ud800\"]'" = .ok r ∧
      .surrogate 0 ∈ r.code .fetch) ∧
    ∃ r, Command.read "curl http://h/\ufeff" = .ok r ∧ .scalar '\ufeff' ∈ r.code .go := by
  let escaped : Request :=
    ⟨"http://h", "POST", [], some "[\"\\ud800\"]", none, true, false, by decide, by decide⟩
  let marked : Request :=
    ⟨"http://h/\ufeff", "GET", [], none, none, false, false, by decide, by decide⟩
  have hvalue : escaped.jsonBody? "[\"\\ud800\"]" = some (.arr [.str [.surrogate 0]]) := by
    with_unfolding_all rfl
  have hbody : ∃ s ∈ escaped.body.toList.flatMap escaped.bodySaid, .surrogate 0 ∈ s :=
    escaped.surrogate_in_body.mpr
      ⟨_, rfl, _, hvalue, _, List.mem_cons_self, List.mem_cons_self⟩
  have hsurrogate : .surrogate 0 ∈ escaped.code .fetch :=
    (escaped.mem_code .fetch rfl).mpr ⟨rfl, (escaped.surrogate_in_said .fetch).mpr ⟨nofun, hbody⟩⟩
  have hmark : .scalar '\ufeff' ∈ marked.code .go :=
    (marked.mem_code .go (by decide)).mpr ⟨by decide, _, List.mem_cons_self, by decide⟩
  exact ⟨⟨escaped, rfl, hsurrogate⟩, marked, rfl, hmark⟩

end Request

end CurlSnippet
