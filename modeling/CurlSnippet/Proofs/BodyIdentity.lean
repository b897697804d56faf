import CurlSnippet.Proofs.BodyOpening
import CurlSnippet.Proofs.CommandMeaning
import CurlSnippet.Proofs.SnippetBody

/-!
Bodies that a snippet tells apart. Of two requests that differ in nothing but their bodies, the
snippets have the same expression for the body if they are the same text. That expression is read
back to the text of the body or to its value, so what is left is a body that is sent as text against
one that is sent as a value. Four targets write these two differently; in the object that is passed
to axios, a string is written as the text with the same characters.
-/

namespace CurlSnippet

open Source

namespace Request

/-- The value that the body is sent as, if it is sent as one. -/
def value? (r : Request) : Option Json := r.body.bind r.jsonBody?

theorem value?_eq {r : Request} {b : String} (hb : r.body = some b) :
    r.value? = r.jsonBody? b := by
  rw [value?, hb, Option.bind_some]

/-- The requests agree on everything but the body. -/
structure SameBesidesBody (r s : Request) : Prop where
  url : r.url = s.url
  method : r.method = s.method
  headers : r.headers = s.headers
  auth : r.auth = s.auth

/-- One body is sent as the string of the other, which is sent as text. -/
def Mistakable (r s : Request) : Prop :=
  ∃ u, r.value? = some (Json.ofString u) ∧ s.body = some u ∧ s.value? = none

/-- The request is classified by its headers and its body, as the requests of calls are. -/
structure Classified (r : Request) : Prop where
  isJson : r.isJson = Content.isJson r.headers r.body
  isForm : r.isForm = Content.isForm r.headers

theorem classified_of_ofWords {ws : List String} {r : Request} (h : Command.ofWords ws = .ok r) :
    Classified r := by
  obtain ⟨w, rest, rfl, hr⟩ := Command.describes_of_ofWords h
  exact ⟨hr.isJson, hr.isForm⟩

theorem SameBesidesBody.symm {r s : Request} (h : SameBesidesBody r s) : SameBesidesBody s r :=
  ⟨h.url.symm, h.method.symm, h.headers.symm, h.auth.symm⟩

theorem SameBesidesBody.eq {r s : Request} (h : SameBesidesBody r s) (hr : Classified r)
    (hs : Classified s) (hbody : r.body = s.body) : r = s := by
  obtain ⟨hurl, hmethod, hheaders, hauth⟩ := h
  have hjson : r.isJson = s.isJson := by rw [hr.isJson, hs.isJson, hheaders, hbody]
  have hform : r.isForm = s.isForm := by rw [hr.isForm, hs.isForm, hheaders]
  cases r
  cases s
  simp_all

section Congruence

variable {r s : Request} {b c : String}

theorem bodyLine_of_value {v : Json} (hr : r.jsonBody? b = some v) (hs : s.jsonBody? c = some v)
    (t : Target) : r.bodyLine b t = s.bodyLine c t := by
  cases t <;> simp only [bodyLine, Snippet.Fetch.bodyPieces, Snippet.Axios.dataPieces,
    Snippet.Go.bodyPiece, Snippet.Node.dataPieces, hr, hs]

/-- A binding of a body is its name and its expression. -/
theorem bodyBinding_congr (hb : r.body = some b) (hc : s.body = some c)
    (hline : r.bodyLine b .requests = s.bodyLine c .requests)
    (hname : (r.jsonBody? b).isSome = (s.jsonBody? c).isSome) :
    Snippet.Requests.bodyBinding r = Snippet.Requests.bodyBinding s := by
  rw [bodyLine, bodyLine] at hline
  rw [Snippet.Requests.bodyBinding, Snippet.Requests.bodyBinding, hb, hc]
  cases hr : r.jsonBody? b with
  | none =>
    cases hs : s.jsonBody? c with
    | none => simp_all [Snippet.optional]
    | some w =>
      rw [hr, hs] at hname
      cases hname
  | some v =>
    cases hs : s.jsonBody? c with
    | none =>
      rw [hr, hs] at hname
      cases hname
    | some w => simp_all [Snippet.optional]

/-- A snippet depends on its body through the expression of the body, and in one language through
the name that it is bound to. -/
theorem snippet_congr (h : SameBesidesBody r s) {t : Target} (hb : r.body = some b)
    (hc : s.body = some c) (hline : r.bodyLine b t = s.bodyLine c t)
    (hname : t = .requests → (r.jsonBody? b).isSome = (s.jsonBody? c).isSome) :
    r.snippet t = s.snippet t := by
  obtain ⟨hurl, hmethod, hheaders, hauth⟩ := h
  cases t with
  | fetch =>
    have hpieces : Snippet.Fetch.bodyPieces r b = Snippet.Fetch.bodyPieces s c := hline
    simp only [snippet, Snippet.fetch, Snippet.Fetch.options, Snippet.Fetch.headers,
      Snippet.optional, hb, hc, hpieces, hurl, hmethod, hheaders, hauth]
  | axios =>
    have hpieces : Snippet.Axios.dataPieces r b = Snippet.Axios.dataPieces s c := hline
    simp only [snippet, Snippet.axios, Snippet.Axios.config, Snippet.optional, hb, hc, hpieces,
      hurl, hmethod, hheaders, hauth]
  | requests =>
    have hname := hname rfl
    have hbinding := bodyBinding_congr hb hc hline hname
    simp only [snippet, Snippet.requests, Snippet.Requests.headerBinding, hbinding,
      Snippet.Requests.call, Snippet.Requests.callee, Snippet.Requests.arguments,
      Snippet.Requests.headerArgument, Snippet.Requests.authArgument,
      Snippet.Requests.bodyArgument, hb, hc, hname, hurl, hmethod, hheaders, hauth]
  | go =>
    have hpiece : Snippet.Go.bodyPiece r b = Snippet.Go.bodyPiece s c := List.singleton_inj.mp hline
    simp only [snippet, Snippet.go, Snippet.Go.imports, Snippet.Go.newRequest, Snippet.Go.headers,
      Snippet.optional, hb, hc, hpiece, hurl, hmethod, hheaders, hauth]
  | node =>
    have hpieces : Snippet.Node.dataPieces r b = Snippet.Node.dataPieces s c := hline
    simp only [snippet, Snippet.node, Snippet.Node.withEndpoint, Snippet.Node.options,
      Snippet.Node.headerOptions, Snippet.Node.headers, Snippet.optional, Option.map_some, hb, hc,
      hpieces, hurl, hmethod, hheaders, hauth]

/-- Bodies with the same value have the same code. -/
theorem code_of_value (h : SameBesidesBody r s) {v : Json} (hr : r.value? = some v)
    (hs : s.value? = some v) (t : Target) : r.code t = s.code t := by
  obtain ⟨b, hb, hr⟩ := Option.bind_eq_some_iff.mp hr
  obtain ⟨c, hc, hs⟩ := Option.bind_eq_some_iff.mp hs
  have hname : (r.jsonBody? b).isSome = (s.jsonBody? c).isSome := by rw [hr, hs]
  rw [code, snippet_congr h hb hc (bodyLine_of_value hr hs t) fun _ => hname, code]

/-- A string that is passed to axios as a value is written as the text with the same characters. -/
theorem code_of_mistakable (h : SameBesidesBody r s) (hrs : Mistakable r s) :
    r.code .axios = s.code .axios := by
  obtain ⟨u, hr, hc, hs⟩ := hrs
  obtain ⟨b, hb, hr⟩ := Option.bind_eq_some_iff.mp hr
  rw [value?_eq hc] at hs
  have hline : r.bodyLine b .axios = s.bodyLine u .axios := by
    rw [bodyLine, bodyLine, Snippet.Axios.dataPieces, Snippet.Axios.dataPieces, hr, hs]
    rfl
  rw [code, snippet_congr h hb hc hline (by simp), code]

end Congruence

section Expression

variable {t : Target} {r s : Request} {b c : String}

/-- In the same lines two bodies have the same place and the same expression. -/
theorem exists_expression {ls : List Lexeme} (hr : r.BodyIn t b ls) (hs : s.BodyIn t c ls) :
    (t.bodyForm (r.jsonBody? b).isSome).opener = (t.bodyForm (s.jsonBody? c).isSome).opener ∧
      ∃ e, r.Carries t b e ∧ s.Carries t c e := by
  obtain ⟨rest, more, hfound, -, hb⟩ := hr
  obtain ⟨rest', more', hfound', -, hc⟩ := hs
  obtain ⟨hplace, -⟩ := List.cons.inj (hfound.symm.trans hfound')
  obtain ⟨hopener, rfl⟩ := Prod.mk.inj hplace
  exact ⟨hopener, _, hb, hc⟩

theorem value_eq_of_carries {v w : Json} {e : List Lexeme} (hr : r.jsonBody? b = some v)
    (hs : s.jsonBody? c = some w) (hb : r.Carries t b e) (hc : s.Carries t c e) : v = w := by
  rw [Carries, hr] at hb
  rw [Carries, hs] at hc
  exact Option.some.inj (hb.symm.trans hc)

theorem text_eq_of_carries {e : List Lexeme} (hr : r.jsonBody? b = none)
    (hs : s.jsonBody? c = none) (hb : r.Carries t b e) (hc : s.Carries t c e) : b = c := by
  rw [Carries, hr] at hb
  rw [Carries, hs] at hc
  obtain ⟨l, rfl, -, hdenoted⟩ := hb
  obtain ⟨m, heq, -, hdenoted'⟩ := hc
  obtain rfl := List.singleton_inj.mp heq
  have htext := Option.some.inj (hdenoted.symm.trans hdenoted')
  have hstring := congrArg Text.toString? htext
  rw [Text.toString?_ofString, Text.toString?_ofString] at hstring
  exact Option.some.inj hstring

/-- With the same headers, bodies that decode to the same value are sent as it, or neither is. -/
theorem jsonBody?_of_same {v : Json} (h : SameBesidesBody r s) (hr : Classified r)
    (hs : Classified s) (hb : r.body = some b) (hc : s.body = some c)
    (hvalue : r.jsonBody? b = some v) (hdecode : Json.decode? (Text.ofString c) = some v) :
    s.jsonBody? c = some v := by
  rw [jsonBody?] at hvalue
  split_ifs at hvalue with hjson
  -- the headers agree, so only the openings of the bodies could classify the requests differently
  have hopens : Content.opensContainer b = Content.opensContainer c := by
    rw [Content.opensContainer_eq hvalue, Content.opensContainer_eq hdecode]
  have hsame : s.isJson = r.isJson := by
    rw [hr.isJson, hs.isJson, hb, hc, ← h.headers, Content.isJson, Content.isJson, Option.any_some,
      Option.any_some, hopens]
  rw [jsonBody?, hsame, if_pos hjson, hdecode]

/-- The expression of a text has a value only where the text itself has it, or in the object that is
passed to axios; there it is the string with that text. -/
theorem string_of_carries {v : Json} {e : List Lexeme} (hvalue : r.jsonBody? b = some v)
    (htext : s.jsonBody? c = none) (hdecode : Json.decode? (Text.ofString c) ≠ some v)
    (hopener : (t.bodyForm (r.jsonBody? b).isSome).opener =
      (t.bodyForm (s.jsonBody? c).isSome).opener)
    (hb : r.Carries t b e) (hc : s.Carries t c e) : t = .axios ∧ v = Json.ofString c := by
  rw [Carries, hvalue] at hb
  rw [Carries, htext] at hc
  dsimp only at hb hc
  obtain ⟨l, rfl, hquote, hdenoted⟩ := hc
  -- a call has program text before its argument, and a literal on its own has none
  have hargument : Target.argument? [l] = none := by
    cases l with
    | code p => cases hdenoted
    | quoted inside | raw inside => rfl
  cases t with
  | fetch | node =>
    rw [Target.bodyValue?, hargument] at hb
    cases hb
  | axios =>
    have hone : text [l] = quote (Text.ofString c) := by
      rw [text, List.flatMap_singleton, hquote]
    have hstring := Json.decode?_literalAt (.str (Text.ofString c)) 2 1
    rw [literalAt, Line.text, List.flatMap_singleton, Piece.text] at hstring
    rw [Target.bodyValue?, hone, hstring] at hb
    exact ⟨rfl, (Option.some.inj hb).symm⟩
  | requests =>
    rw [hvalue, htext] at hopener
    have hnames : "\npayload = " = "\ndata = " := hopener
    exact absurd hnames (by decide)
  | go =>
    rw [Target.bodyValue?, Target.soleText?, hdenoted, Option.bind_some] at hb
    exact absurd hb hdecode

end Expression

/-- A body that is sent as a value and one that is sent as text can only be mistaken for each other
in the object that is passed to axios. -/
theorem mistakable_of_bodyIn {t : Target} {r s : Request} {b c : String} {v : Json}
    {ls : List Lexeme} (h : SameBesidesBody r s) (hr : Classified r) (hs : Classified s)
    (hb : r.body = some b) (hc : s.body = some c) (hvalue : r.jsonBody? b = some v)
    (htext : s.jsonBody? c = none) (hrs : r.BodyIn t b ls) (hsr : s.BodyIn t c ls) :
    t = .axios ∧ Mistakable r s := by
  obtain ⟨hopener, e, hcarries, hcarries'⟩ := exists_expression hrs hsr
  have hdecode : Json.decode? (Text.ofString c) ≠ some v := by
    intro hsame
    cases htext.symm.trans (jsonBody?_of_same h hr hs hb hc hvalue hsame)
  obtain ⟨ht, rfl⟩ := string_of_carries hvalue htext hdecode hopener hcarries hcarries'
  exact ⟨ht, c, (value?_eq hb).trans hvalue, hc, (value?_eq hc).trans htext⟩

/-- In the same lines, bodies are the same, or have the same value, or can be mistaken. -/
theorem same_of_bodyIn {t : Target} {r s : Request} {b c : String} {ls : List Lexeme}
    (h : SameBesidesBody r s) (hr : Classified r) (hs : Classified s) (hb : r.body = some b)
    (hc : s.body = some c) (hrs : r.BodyIn t b ls) (hsr : s.BodyIn t c ls) :
    b = c ∨ (∃ v, r.value? = some v ∧ s.value? = some v) ∨
      t = .axios ∧ (Mistakable r s ∨ Mistakable s r) := by
  obtain ⟨-, e, hcarries, hcarries'⟩ := exists_expression hrs hsr
  cases hv : r.jsonBody? b with
  | none =>
    cases hw : s.jsonBody? c with
    | none => exact .inl (text_eq_of_carries hv hw hcarries hcarries')
    | some w =>
      obtain ⟨ht, hmistakable⟩ := mistakable_of_bodyIn h.symm hs hr hc hb hw hv hsr hrs
      exact .inr (.inr ⟨ht, .inr hmistakable⟩)
  | some v =>
    cases hw : s.jsonBody? c with
    | none =>
      obtain ⟨ht, hmistakable⟩ := mistakable_of_bodyIn h hr hs hb hc hv hw hrs hsr
      exact .inr (.inr ⟨ht, .inl hmistakable⟩)
    | some w =>
      obtain rfl := value_eq_of_carries hv hw hcarries hcarries'
      exact .inr (.inl ⟨v, (value?_eq hb).trans hv, (value?_eq hc).trans hw⟩)

/-- Calls that agree on everything but the body have the same code exactly if the body is the same,
or both bodies are sent as the same value, or the code is for axios and the one body is sent as the
string that the other is. -/
theorem code_eq_iff {ws vs : List String} {r s : Request} (hr : Command.ofWords ws = .ok r)
    (hs : Command.ofWords vs = .ok s) (h : SameBesidesBody r s) (t : Target)
    (ht : t = .node → (Url.endpoint? r.url).isSome = true) :
    r.code t = s.code t ↔ r.body = s.body ∨ (∃ v, r.value? = some v ∧ s.value? = some v) ∨
      t = .axios ∧ (Mistakable r s ∨ Mistakable s r) := by
  have hr := classified_of_ofWords hr
  have hs := classified_of_ofWords hs
  constructor
  · intro hcode
    obtain ⟨ls, hread, hlines, -⟩ := r.read_code t
    obtain ⟨ms, hread', hlines', -⟩ := s.read_code t
    rw [← hcode, hread] at hread'
    obtain rfl := Option.some.inj hread'
    have hplace := body_in_lines t r ht
    have hplace' := body_in_lines t s (h.url ▸ ht)
    rw [← hlines] at hplace
    rw [← hlines'] at hplace'
    cases hb : r.body with
    | none =>
      rw [hb] at hplace
      cases hc : s.body with
      | none => exact .inl rfl
      | some c =>
        rw [hc] at hplace'
        obtain ⟨rest, more, hfound, -⟩ := hplace'
        cases hplace.symm.trans hfound
    | some b =>
      rw [hb] at hplace
      cases hc : s.body with
      | none =>
        rw [hc] at hplace'
        obtain ⟨rest, more, hfound, -⟩ := hplace
        cases hplace'.symm.trans hfound
      | some c =>
        rw [hc] at hplace'
        rw [Option.some.injEq]
        exact same_of_bodyIn h hr hs hb hc hplace hplace'
  · rintro (hbody | ⟨v, hv, hw⟩ | ⟨rfl, hrs | hsr⟩)
    · rw [h.eq hr hs hbody]
    · exact code_of_value h hv hw t
    · exact code_of_mistakable h hrs
    · exact (code_of_mistakable h.symm hsr).symm

/-- White space in a list makes no difference to the transport call. -/
theorem code_eq_iff_spaced :
    ∃ r s, Command.ofWords ["curl", "http://h", "-d", "[1]"] = .ok r ∧
      Command.ofWords ["curl", "http://h", "-d", " [ 1 ]"] = .ok s ∧ SameBesidesBody r s ∧
      (Url.endpoint? r.url).isSome = true ∧ r.body ≠ s.body ∧ r.code .node = s.code .node := by
  let r : Request :=
    ⟨"http://h", "POST", [], some "[1]", none, true, false, by decide, by decide⟩
  let s : Request :=
    ⟨"http://h", "POST", [], some " [ 1 ]", none, true, false, by decide, by decide⟩
  have hr : Command.ofWords ["curl", "http://h", "-d", "[1]"] = .ok r := rfl
  have hs : Command.ofWords ["curl", "http://h", "-d", " [ 1 ]"] = .ok s := rfl
  have h : SameBesidesBody r s := ⟨rfl, rfl, rfl, rfl⟩
  have hendpoint : (Url.endpoint? r.url).isSome = true := by decide +kernel
  have hvalue : r.value? = some (.arr [.int 1]) := by with_unfolding_all rfl
  have hvalue' : s.value? = some (.arr [.int 1]) := by with_unfolding_all rfl
  have hcode := code_eq_iff hr hs h .node fun _ => hendpoint
  exact ⟨r, s, hr, hs, h, hendpoint, by decide, hcode.mpr (.inr (.inl ⟨_, hvalue, hvalue'⟩))⟩

/-- A quoted word and the word itself, which is no JSON text, have the same code for axios. -/
theorem code_eq_iff_quoted :
    ∃ r s, Command.ofWords ["curl", "http://h", "-H", "Content-Type: application/json", "-d",
        "\"abc\""] = .ok r ∧
      Command.ofWords ["curl", "http://h", "-H", "Content-Type: application/json", "-d",
        "abc"] = .ok s ∧
      SameBesidesBody r s ∧ (Url.endpoint? r.url).isSome = true ∧
      r.code .axios = s.code .axios ∧ r.body = some "\"abc\"" ∧ s.body = some "abc" ∧
      Json.decode? (Text.ofString "abc") = none := by
  let headers := [("Content-Type", "application/json")]
  let r : Request :=
    ⟨"http://h", "POST", headers, some "\"abc\"", none, true, false, by decide, by decide⟩
  let s : Request :=
    ⟨"http://h", "POST", headers, some "abc", none, true, false, by decide, by decide⟩
  have h : SameBesidesBody r s := ⟨rfl, rfl, rfl, rfl⟩
  have hendpoint : (Url.endpoint? r.url).isSome = true := by decide +kernel
  have hvalue : r.value? = some (Json.ofString "abc") := by with_unfolding_all rfl
  have hdecode : Json.decode? (Text.ofString "abc") = none := by with_unfolding_all rfl
  have htext : s.value? = none := by with_unfolding_all rfl
  exact ⟨r, s, rfl, rfl, h, hendpoint, code_of_mistakable h ⟨"abc", hvalue, rfl, htext⟩, rfl, rfl,
    hdecode⟩

end Request

end CurlSnippet
