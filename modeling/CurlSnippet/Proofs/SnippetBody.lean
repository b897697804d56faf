import CurlSnippet.Proofs.BodyExpression
import CurlSnippet.Proofs.SnippetShape

/-!
The body in a snippet. Every target has one place for a body, found by the program text before it,
and it is there exactly when there is a body. What follows is the expression of the body, and a body
that has been bound to a name is passed on once.
-/

namespace CurlSnippet

open Source

/-- The program text before the expression of a body, and that by which a body that has been bound
to a name is passed on. -/
structure BodyForm where
  opener : String
  use : Option String

def BodyForm.words (f : BodyForm) : List String := f.opener :: f.use.toList

namespace Target

/-- How a snippet carries a body that is sent as a value, or as text. -/
def bodyForm (native : Bool) : Target → BodyForm
  | .fetch => ⟨"\n  body: ", none⟩
  | .axios => ⟨"\n  data: ", none⟩
  | .requests =>
    if native then ⟨"\npayload = ", some ", json=payload"⟩ else ⟨"\ndata = ", some ", data=data"⟩
  | .go => ⟨"\n\tbody := strings.NewReader(", some ", url, body)"⟩
  | .node => ⟨"\nconst postData = ", some "\nreq.write(postData"⟩

/-- All program text that has to do with a body. -/
def bodyWords : Target → List String
  | .requests => (bodyForm true .requests).words ++ (bodyForm false .requests).words
  | t => (t.bodyForm true).words

end Target

/-- There is one place for a body in the lexemes, with the expression of the body, and after it the
body is passed on once if it has been bound to a name. -/
def Request.BodyIn (t : Target) (r : Request) (body : String) (ls : List Lexeme) : Prop :=
  let form := t.bodyForm (r.jsonBody? body).isSome
  ∃ rest more, found t.bodyWords ls = (form.opener, rest) :: more ∧
    more.map Prod.fst = form.use.toList ∧ r.Carries t body (expression t.bodyStop 0 rest)

namespace Source

/-- The words that are found in the lines. -/
def wordsIn (words : List String) (b : Bool) (s : Snippet) : List String :=
  (found words (ofLines b s)).map Prod.fst

/-- No word goes on over the end of a line, and each has one of the letters that values lack. -/
def Searchable (words : List String) : Prop :=
  ∀ w ∈ words, '\n' ∉ w.toList.tail ∧ ('d' ∈ w.toList ∨ 'p' ∈ w.toList)

theorem searchable_bodyWords (t : Target) : Searchable t.bodyWords := by
  rw [Searchable]
  cases t
  all_goals decide

theorem breaks_lines {words : List String} (hwords : Searchable words) (b : Bool) (s : Snippet) :
    Breaks words (ofLines b s) := by
  intro l hl w hw c hc heq
  cases s with
  | nil => cases hl
  | cons m s =>
    obtain rfl := Option.some.inj hl
    obtain rfl := CodePoint.scalar.inj (Lexeme.code.inj heq)
    exact (hwords w hw).1 hc

/-- Lines are searched on their own. -/
theorem found_lines_append {words : List String} (hwords : Searchable words) (b : Bool)
    (s u : Snippet) :
    found words (ofLines b (s ++ u)) =
      (found words (ofLines b s)).map (fun x => (x.1, x.2 ++ ofLines b u)) ++
        found words (ofLines b u) := by
  have hlines : ofLines b (s ++ u) = ofLines b s ++ ofLines b u := List.flatMap_append
  rw [hlines, found_append (breaks_lines hwords b u)]

theorem wordsIn_append {words : List String} (hwords : Searchable words) (b : Bool)
    (s u : Snippet) : wordsIn words b (s ++ u) = wordsIn words b s ++ wordsIn words b u := by
  rw [wordsIn, found_lines_append hwords, List.map_append, List.map_map]
  rfl

section Blocks

variable {words : List String} {b : Bool}

/-- A block without any of the words. -/
theorem silent_block (hwords : Searchable words) {s : Snippet} {rest : List Snippet}
    {found : List String} (h : wordsIn words b s = [])
    (hrest : wordsIn words b (Snippet.ofBlocks rest) = found) :
    wordsIn words b (Snippet.ofBlocks (s :: rest)) = found := by
  have happend := wordsIn_append hwords b s (Snippet.ofBlocks rest)
  rwa [h, hrest] at happend

theorem silent_map (hwords : Searchable words) {α : Type} {xs : List α} {line : α → Line}
    (h : ∀ x ∈ xs, wordsIn words b [line x] = []) : wordsIn words b (xs.map line) = [] := by
  induction xs with
  | nil => rfl
  | cons x xs ih =>
    obtain ⟨hx, hrest⟩ := List.forall_mem_cons.mp h
    have happend := wordsIn_append hwords b [line x] (xs.map line)
    rw [hx, ih hrest] at happend
    exact happend

theorem silent_optional {α : Type} {a : Option α} {lines : α → Snippet}
    (h : ∀ x ∈ a, wordsIn words b (lines x) = []) :
    wordsIn words b (Snippet.optional a lines) = [] := by
  cases a with
  | none => rfl
  | some x => exact h x rfl

/-- The lines have one place for a body, the expression there ends, and after it come the words. -/
def Bears (words : List String) (b : Bool) (opener : String) (stop : Char) (e : List Lexeme)
    (uses : List String) (s : Snippet) : Prop :=
  ∃ more after, found words (ofLines b s) =
      (opener, e ++ .code (.scalar stop) :: more) :: after ∧ after.map Prod.fst = uses

variable {opener : String} {stop : Char} {e : List Lexeme} {uses : List String}

theorem Bears.append (hwords : Searchable words) {s u : Snippet}
    (h : Bears words b opener stop e uses s) {more : List String} (hu : wordsIn words b u = more) :
    Bears words b opener stop e (uses ++ more) (s ++ u) := by
  obtain ⟨rest, after, hfound, rfl⟩ := h
  subst hu
  refine ⟨rest ++ ofLines b u,
    after.map (fun x => (x.1, x.2 ++ ofLines b u)) ++ found words (ofLines b u), ?_, ?_⟩
  · rw [found_lines_append hwords, hfound]
    simp
  · rw [List.map_append, List.map_map]
    rfl

theorem Bears.after (hwords : Searchable words) {s : Snippet} {rest : List Snippet}
    (hs : wordsIn words b s = []) (h : Bears words b opener stop e uses (Snippet.ofBlocks rest)) :
    Bears words b opener stop e uses (Snippet.ofBlocks (s :: rest)) := by
  obtain ⟨more, after, hfound, huses⟩ := h
  have hlines := found_lines_append hwords b s (Snippet.ofBlocks rest)
  rw [List.map_eq_nil_iff.mp hs, hfound] at hlines
  exact ⟨more, after, hlines, huses⟩

/-- A line that opens the place for a body; nothing in the expression is taken for a word. -/
theorem bears_lines (hwords : Searchable words) {s : Snippet} {first tail : List Lexeme}
    (hs : ofLines b s = first ++ (e ++ .code (.scalar stop) :: tail))
    (hopen : ∀ rest, found words (first ++ rest) = (opener, rest) :: found words rest)
    (he : Quiet e) (htail : Quiet (.code (.scalar stop) :: tail)) :
    Bears words b opener stop e [] s := by
  have hquiet := found_of_quiet (fun w hw => (hwords w hw).2) (he.append htail)
  refine ⟨tail, [], ?_, rfl⟩
  rw [hs, hopen, hquiet]

end Blocks

theorem ExpressionOf.bodyIn {t : Target} {r : Request} {body : String} {e : List Lexeme}
    (h : ExpressionOf t r body e)
    (hbears : Bears t.bodyWords t.backquotes (t.bodyForm (r.jsonBody? body).isSome).opener
      t.bodyStop e (t.bodyForm (r.jsonBody? body).isSome).use.toList (r.snippet t)) :
    r.BodyIn t body (ofLines t.backquotes (r.snippet t)) := by
  obtain ⟨more, after, hfound, huses⟩ := hbears
  refine ⟨_, after, hfound, huses, ?_⟩
  rw [expression_of_level h.level]
  exact h.carries

theorem ofLines_parts (b : Bool) (first last : String) (l : Line) :
    ofLines b [Line.ofParts [[.code first], l, [.code last]]] =
      (.code (.scalar '\n') :: ofPiece b (.code first)) ++
        (ofLine b l ++ ofPiece b (.code last)) := by
  simp [ofLines, ofLine, Line.ofParts]

end Source

namespace Request

/-- What is found of a body in the lines: nothing but the uses without one, and with one the place
of its expression, and the uses after it. -/
def Shows (t : Target) (r : Request) (uses : List String) (s : Snippet) : Prop :=
  match r.body with
  | none => wordsIn t.bodyWords t.backquotes s = uses
  | some body =>
    Bears t.bodyWords t.backquotes (t.bodyForm (r.jsonBody? body).isSome).opener t.bodyStop
      (ofLine t.backquotes (r.bodyLine body t)) uses s

/-- The uses of the body that there are. -/
def bodyUses (t : Target) (r : Request) : List String :=
  match r.body with
  | none => []
  | some body => (t.bodyForm (r.jsonBody? body).isSome).use.toList

theorem bodyUses_eq_nil {t : Target} (h : ∀ native, (t.bodyForm native).use = none)
    (r : Request) : bodyUses t r = [] := by
  rw [bodyUses]
  cases r.body with
  | none => rfl
  | some body =>
    dsimp only
    rw [h]
    rfl

section Blocks

variable {t : Target} {r : Request} {uses : List String}

theorem shows_optional {lines : String → Snippet}
    (h : ∀ body, Bears t.bodyWords t.backquotes (t.bodyForm (r.jsonBody? body).isSome).opener
      t.bodyStop (ofLine t.backquotes (r.bodyLine body t)) [] (lines body)) :
    Shows t r [] (Snippet.optional r.body lines) := by
  rw [Shows]
  cases r.body with
  | none => rfl
  | some body => exact h body

theorem Shows.append {s u : Snippet} {more : List String} (h : Shows t r uses s)
    (hu : wordsIn t.bodyWords t.backquotes u = more) : Shows t r (uses ++ more) (s ++ u) := by
  have hwords := searchable_bodyWords t
  rw [Shows] at h ⊢
  cases hbody : r.body with
  | none =>
    rw [hbody] at h
    dsimp only at h ⊢
    rw [wordsIn_append hwords, h, hu]
  | some body =>
    rw [hbody] at h
    exact h.append hwords hu

theorem Shows.block {s : Snippet} {rest : List Snippet} {more : List String}
    (h : Shows t r uses s)
    (hrest : wordsIn t.bodyWords t.backquotes (Snippet.ofBlocks rest) = more) :
    Shows t r (uses ++ more) (Snippet.ofBlocks (s :: rest)) :=
  h.append hrest

theorem Shows.after {s : Snippet} {rest : List Snippet}
    (hs : wordsIn t.bodyWords t.backquotes s = []) (h : Shows t r uses (Snippet.ofBlocks rest)) :
    Shows t r uses (Snippet.ofBlocks (s :: rest)) := by
  have hwords := searchable_bodyWords t
  rw [Shows] at h ⊢
  cases hbody : r.body with
  | none =>
    rw [hbody] at h
    exact silent_block hwords hs h
  | some body =>
    rw [hbody] at h
    exact h.after hwords hs

end Blocks

theorem silent_headerBlock {t : Target} {headers : List (String × String)}
    (hfirst : wordsIn t.bodyWords t.backquotes [["  headers: \x7b"]] = [])
    (hline : ∀ h : String × String, wordsIn t.bodyWords t.backquotes
      [[Snippet.tab 2 2, .string h.1, ": ", .string h.2, ","]] = [])
    (hlast : wordsIn t.bodyWords t.backquotes [["  \x7d,"]] = []) :
    wordsIn t.bodyWords t.backquotes (Snippet.headerBlock headers) = [] := by
  have hwords := searchable_bodyWords t
  rw [Snippet.headerBlock]
  split_ifs
  · rfl
  · have hlines : wordsIn t.bodyWords t.backquotes
        (Snippet.headerLines (Snippet.tab 2 2) headers) = [] :=
      silent_map hwords fun h _ => hline h
    exact silent_block hwords hfirst (silent_block hwords hlines (silent_block hwords hlast rfl))

theorem shows_fetch (r : Request) : Shows .fetch r [] (Snippet.fetch r) := by
  have hwords := searchable_bodyWords .fetch
  have hmethod : wordsIn (Target.bodyWords .fetch) false
      (if r.method = "GET" then [] else [["  method: ", .string r.method, ","]]) = [] := by
    split_ifs
    · rfl
    · rfl
  have hbody : Shows .fetch r [] (Snippet.optional r.body fun b =>
      [.ofParts [["  body: "], Snippet.Fetch.bodyPieces r b, [","]]]) :=
    shows_optional fun body => bears_lines hwords (ofLines_parts false _ _ _) (fun _ => rfl)
      (expression_bodyLine .fetch r body).quiet rfl
  have hoptions : Shows .fetch r [] (Snippet.Fetch.options r) :=
    .after hmethod <| .after (silent_headerBlock rfl (fun _ => rfl) rfl) <| hbody.block rfl
  exact .after rfl <| hoptions.block rfl

theorem shows_axios (r : Request) : Shows .axios r [] (Snippet.axios r) := by
  have hwords := searchable_bodyWords .axios
  have hauth : wordsIn (Target.bodyWords .axios) false (Snippet.optional r.auth fun a => [
      ["  auth: \x7b"],
      ["    username: ", .string a.user, ","],
      ["    password: ", .string a.password, ","],
      ["  \x7d,"]]) = [] := silent_optional fun _ _ => rfl
  have hbody : Shows .axios r [] (Snippet.optional r.body fun b =>
      [.ofParts [["  data: "], Snippet.Axios.dataPieces r b, [","]]]) :=
    shows_optional fun body => bears_lines hwords (ofLines_parts false _ _ _) (fun _ => rfl)
      (expression_bodyLine .axios r body).quiet rfl
  have hconfig : Shows .axios r [] (Snippet.Axios.config r) :=
    .after rfl <| .after hauth <| .after (silent_headerBlock rfl (fun _ => rfl) rfl) <|
      hbody.block rfl
  exact .after rfl <| hconfig.block rfl

section Call

theorem breaks_of_head {words : List String} {c : Char} {ls : List Lexeme}
    (h : ls.head? = some (.code (.scalar c))) (hc : ∀ w ∈ words, c ∉ w.toList.tail) :
    Breaks words ls := by
  intro l hl w hw d hd heq
  obtain rfl := Option.some.inj (h.symm.trans hl)
  obtain rfl := CodePoint.scalar.inj (Lexeme.code.inj heq)
  exact hc w hw hd

/-- An argument of the call, with the comma before it or left out, and the words in it. -/
structure Argument (l : Line) (uses : List String) : Prop where
  head : ofLine false l = [] ∨ (ofLine false l).head? = some (.code (.scalar ','))
  words : (found (Target.bodyWords .requests) (ofLine false l)).map Prod.fst = uses

/-- An argument is searched on its own, as no word goes on with a comma. -/
theorem Argument.found_append {l : Line} {uses more : List String} {rest : List Lexeme}
    (h : Argument l uses)
    (hrest : Breaks (Target.bodyWords .requests) rest ∧
      (found (Target.bodyWords .requests) rest).map Prod.fst = more) :
    Breaks (Target.bodyWords .requests) (ofLine false l ++ rest) ∧
      (found (Target.bodyWords .requests) (ofLine false l ++ rest)).map Prod.fst =
        uses ++ more := by
  have hcomma : ∀ w ∈ Target.bodyWords .requests, ',' ∉ w.toList.tail := by decide
  constructor
  · rcases h.head with hnil | hhead
    · rw [hnil]
      exact hrest.1
    · apply breaks_of_head _ hcomma
      rw [List.head?_append, hhead]
      rfl
  · rw [Source.found_append hrest.1, List.map_append, List.map_map, hrest.2]
    exact congrArg (· ++ more) h.words

theorem found_helper : ∀ m ∈ Snippet.Requests.helpers, found (Target.bodyWords .requests)
    (.code (.scalar '\n') :: ofLine false ["response = requests.", lower m, "(url"]) = [] := by
  decide +kernel

theorem found_callee (r : Request) : found (Target.bodyWords .requests)
    (.code (.scalar '\n') :: ofLine false (Snippet.Requests.callee r)) = [] := by
  rw [Snippet.Requests.callee]
  split_ifs with h
  · exact found_helper r.method h
  · rfl

theorem argument_header (r : Request) : Argument (Snippet.Requests.headerArgument r) [] := by
  rw [Snippet.Requests.headerArgument]
  split_ifs
  · exact ⟨.inl rfl, rfl⟩
  · exact ⟨.inr rfl, rfl⟩

theorem argument_auth (r : Request) : Argument (Snippet.Requests.authArgument r) [] := by
  rw [Snippet.Requests.authArgument]
  cases r.auth with
  | none => exact ⟨.inl rfl, rfl⟩
  | some a => exact ⟨.inr rfl, rfl⟩

theorem argument_body (r : Request) :
    Argument (Snippet.Requests.bodyArgument r) (bodyUses .requests r) := by
  rw [Snippet.Requests.bodyArgument, bodyUses]
  cases r.body with
  | none => exact ⟨.inl rfl, rfl⟩
  | some body =>
    dsimp only
    cases r.jsonBody? body with
    | none => exact ⟨.inr rfl, rfl⟩
    | some v => exact ⟨.inr rfl, rfl⟩

/-- The call passes on the body by the name to which it has been bound. -/
theorem wordsIn_call (r : Request) :
    wordsIn (Target.bodyWords .requests) false [Snippet.Requests.call r] =
      bodyUses .requests r := by
  have hend : Breaks (Target.bodyWords .requests) (ofLine false [")"]) ∧
      (found (Target.bodyWords .requests) (ofLine false [")"])).map Prod.fst = [] :=
    ⟨breaks_of_head (c := ')') rfl (by decide), rfl⟩
  obtain ⟨hbreaks, hwords⟩ := (argument_header r).found_append <|
    (argument_auth r).found_append <| (argument_body r).found_append hend
  have hline : ofLines false [Snippet.Requests.call r] =
      (.code (.scalar '\n') :: ofLine false (Snippet.Requests.callee r)) ++
        (ofLine false (Snippet.Requests.headerArgument r) ++
          (ofLine false (Snippet.Requests.authArgument r) ++
            (ofLine false (Snippet.Requests.bodyArgument r) ++ ofLine false [")"]))) := by
    simp [ofLines, ofLine, Line.ofParts, Snippet.Requests.call, Snippet.Requests.arguments]
  rw [wordsIn, hline, Source.found_append hbreaks, found_callee]
  exact hwords.trans (List.append_nil _)

theorem shows_requests (r : Request) :
    Shows .requests r (bodyUses .requests r) (Snippet.requests r) := by
  have hwords := searchable_bodyWords .requests
  have hheaders : wordsIn (Target.bodyWords .requests) false
      (Snippet.Requests.headerBinding r) = [] := by
    rw [Snippet.Requests.headerBinding]
    split_ifs
    · rfl
    · have hlines : wordsIn (Target.bodyWords .requests) false
          (Snippet.headerLines (Snippet.tab 4 1) r.headers) = [] :=
        silent_map hwords fun _ _ => rfl
      exact silent_block hwords rfl (silent_block hwords hlines (silent_block hwords rfl rfl))
  have hbody : Shows .requests r [] (Snippet.Requests.bodyBinding r) := by
    apply shows_optional
    intro body
    have hquiet := (expression_bodyLine .requests r body).quiet
    rw [bodyLine] at hquiet ⊢
    cases hv : r.jsonBody? body with
    | none =>
      rw [hv] at hquiet
      have hlines : ofLines false [["data = ", .string body], []] =
          (.code (.scalar '\n') :: ofPiece false (.code "data = ")) ++
            (ofLine false [.string body] ++ [.code (.scalar '\n')]) := rfl
      exact bears_lines hwords hlines (fun _ => rfl) hquiet rfl
    | some v =>
      rw [hv] at hquiet
      have hlines : ofLines false [.ofParts [["payload = "], literalAt .capitalized 4 0 v], []] =
          (.code (.scalar '\n') :: ofPiece false (.code "payload = ")) ++
            (ofLine false (literalAt .capitalized 4 0 v) ++ [.code (.scalar '\n')]) := by
        simp [ofLines, ofLine, Line.ofParts]
      exact bears_lines hwords hlines (fun _ => rfl) hquiet rfl
  have hurl : wordsIn (Target.bodyWords .requests) false [["url = ", .string r.url], []] = [] := rfl
  have hprint : wordsIn (Target.bodyWords .requests) false [["print(response.json())"]] = [] := rfl
  have hend : wordsIn (Target.bodyWords .requests) false
      (.ofBlocks [[["url = ", .string r.url], []], [Snippet.Requests.call r],
        [["print(response.json())"]]]) = bodyUses .requests r := by
    have hcall := wordsIn_append hwords false [Snippet.Requests.call r] [["print(response.json())"]]
    rw [wordsIn_call, hprint, List.append_nil] at hcall
    exact silent_block hwords hurl hcall
  exact .after rfl <| .after hheaders <| hbody.block hend

end Call

theorem shows_newRequest (r : Request) :
    Shows .go r (bodyUses .go r) (Snippet.Go.newRequest r) := by
  have hwords := searchable_bodyWords .go
  rw [Shows, bodyUses, Snippet.Go.newRequest]
  cases r.body with
  | none => rfl
  | some body =>
    have hlines :=
      ofLines_parts true "\tbody := strings.NewReader(" ")" [Snippet.Go.bodyPiece r body]
    have hbody : Bears (Target.bodyWords .go) true "\n\tbody := strings.NewReader(" ')'
        (ofLine true [Snippet.Go.bodyPiece r body]) []
        [["\tbody := strings.NewReader(", Snippet.Go.bodyPiece r body, ")"]] :=
      bears_lines hwords hlines (fun _ => rfl) (expression_bodyLine .go r body).quiet rfl
    have huse : wordsIn (Target.bodyWords .go) true
        [["\treq, err := http.NewRequest(", .string r.method, ", url, body)"]] =
          [", url, body)"] := rfl
    exact hbody.append hwords huse

theorem shows_go (r : Request) : Shows .go r (bodyUses .go r) (Snippet.go r) := by
  have hwords := searchable_bodyWords .go
  have himports : wordsIn (Target.bodyWords .go) true (Snippet.Go.imports r) = [] :=
    silent_block hwords rfl <| silent_block hwords (silent_optional fun _ _ => rfl) <|
      silent_block hwords rfl rfl
  have hheaders : wordsIn (Target.bodyWords .go) true (Snippet.Go.headers r) = [] := by
    have hend : wordsIn (Target.bodyWords .go) true
        (if r.headers.isEmpty && r.auth.isNone then [] else [[]]) = [] := by
      split_ifs
      · rfl
      · rfl
    exact silent_block hwords (silent_map hwords fun _ _ => rfl) <|
      silent_block hwords (silent_optional fun _ _ => rfl) <| silent_block hwords hend rfl
  have hnew := shows_newRequest r
  have hall : Shows .go r (bodyUses .go r ++ []) (Snippet.go r) :=
    .after rfl <| .after himports <| .after rfl <| hnew.block <| silent_block hwords rfl <|
      silent_block hwords rfl <| silent_block hwords hheaders <| silent_block hwords rfl <|
      silent_block hwords rfl <| silent_block hwords rfl <| silent_block hwords rfl <|
      silent_block hwords rfl rfl
  rwa [List.append_nil] at hall

/-- A header is written with its name, and a value that is no word. -/
theorem wordsIn_nodeHeaders (r : Request) :
    wordsIn (Target.bodyWords .node) false (Snippet.Node.headerOptions r) = [] := by
  have hwords := searchable_bodyWords .node
  have hline : ∀ h ∈ Snippet.Node.headers r,
      wordsIn (Target.bodyWords .node) false [["    ", .string h.1, ": ", h.2, ","]] = [] := by
    intro h hh
    rcases headerValue_cases hh with ⟨s, hvalue⟩ | hvalue
    · rw [hvalue]
      rfl
    · rw [hvalue]
      rfl
  rw [Snippet.Node.headerOptions]
  split_ifs
  · rfl
  · exact silent_block hwords rfl <| silent_block hwords (silent_map hwords hline) <|
      silent_block hwords rfl rfl

theorem wordsIn_port (n : Nat) : wordsIn (Target.bodyWords .node) false
    [["  port: ", String.ofList (Nat.toDigits 10 n), ","]] = [] := by
  have hdigits := ofPiece_plain false (plain_toDigits n)
  have hlines : ofLines false [["  port: ", String.ofList (Nat.toDigits 10 n), ","]] =
      (.code (.scalar '\n') :: ofPiece false (.code "  port: ")) ++
        ((Nat.toDigits 10 n).map (fun c => .code (.scalar c)) ++ ofPiece false (.code ",")) := by
    rw [← hdigits]
    simp [ofLines, ofLine]
  have ha : Lexeme.code (.scalar 'a') ∉
      ofLines false [["  port: ", String.ofList (Nat.toDigits 10 n), ","]] := by
    rw [hlines, List.mem_append, List.mem_append, not_or, not_or, List.mem_map]
    refine ⟨by decide, ?_, by decide⟩
    rintro ⟨c, hc, heq⟩
    obtain rfl := CodePoint.scalar.inj (Lexeme.code.inj heq)
    exact absurd ((Json.digits_toDigits n).all _ hc) (by decide)
  rw [wordsIn, found_eq_nil]
  · rfl
  · intro w hw
    refine ⟨'a', ?_, ha⟩
    revert w
    decide

theorem shows_withEndpoint (r : Request) (e : Endpoint) :
    Shows .node r (bodyUses .node r) (Snippet.Node.withEndpoint r e) := by
  have hwords := searchable_bodyWords .node
  have hrequire : wordsIn (Target.bodyWords .node) false
      [["const ", e.protocol.name, " = require('", e.protocol.name, "');"], []] = [] := by
    cases e.protocol
    · rfl
    · rfl
  have hpost : Shows .node r [] (Snippet.optional r.body fun b =>
      [.ofParts [["const postData = "], Snippet.Node.dataPieces r b, [";"]], []]) := by
    apply shows_optional
    intro body
    have hlines : ofLines false
        [.ofParts [["const postData = "], Snippet.Node.dataPieces r body, [";"]], []] =
        (.code (.scalar '\n') :: ofPiece false (.code "const postData = ")) ++
          (ofLine false (Snippet.Node.dataPieces r body) ++
            (ofPiece false (.code ";") ++ [.code (.scalar '\n')])) := by
      simp [ofLines, ofLine, Line.ofParts]
    exact bears_lines hwords hlines (fun _ => rfl) (expression_bodyLine .node r body).quiet rfl
  have hport : wordsIn (Target.bodyWords .node) false (if e.hasUnusualPort then
      [["  port: ", String.ofList (Nat.toDigits 10 e.port), ","]] else []) = [] := by
    split_ifs
    · exact wordsIn_port e.port
    · rfl
  have hoptions : wordsIn (Target.bodyWords .node) false (Snippet.Node.options r e) = [] :=
    silent_block hwords rfl <| silent_block hwords hport <| silent_block hwords rfl <|
      silent_block hwords (wordsIn_nodeHeaders r) <| silent_block hwords rfl rfl
  have hcall : wordsIn (Target.bodyWords .node) false (Snippet.Node.call e) = [] := by
    rw [Snippet.Node.call]
    cases e.protocol
    · decide +kernel
    · decide +kernel
  have hwrite : wordsIn (Target.bodyWords .node) false
      (.ofBlocks [Snippet.optional r.body fun _ => [["req.write(postData);"]], [["req.end();"]]]) =
        bodyUses .node r := by
    rw [bodyUses]
    cases r.body with
    | none => rfl
    | some body => rfl
  exact .after hrequire <| hpost.block <| silent_block hwords hoptions <|
    silent_block hwords rfl <| silent_block hwords hcall hwrite

theorem shows_snippet (t : Target) (r : Request)
    (h : t = .node → (Url.endpoint? r.url).isSome = true) :
    Shows t r (bodyUses t r) (r.snippet t) := by
  cases t with
  | fetch =>
    rw [bodyUses_eq_nil fun _ => rfl]
    exact shows_fetch r
  | axios =>
    rw [bodyUses_eq_nil fun _ => rfl]
    exact shows_axios r
  | requests => exact shows_requests r
  | go => exact shows_go r
  | node =>
    obtain ⟨e, he⟩ := Option.isSome_iff_exists.mp (h rfl)
    rw [Request.snippet, Snippet.node, he]
    exact shows_withEndpoint r e

/-- The lines of a snippet have a place for a body exactly when there is a body. -/
theorem body_in_lines (t : Target) (r : Request)
    (h : t = .node → (Url.endpoint? r.url).isSome = true) :
    match r.body with
    | none => found t.bodyWords (ofLines t.backquotes (r.snippet t)) = []
    | some body => r.BodyIn t body (ofLines t.backquotes (r.snippet t)) := by
  have hshows := shows_snippet t r h
  rw [Shows, bodyUses] at hshows
  cases hbody : r.body with
  | none =>
    rw [hbody] at hshows
    exact List.map_eq_nil_iff.mp hshows
  | some body =>
    rw [hbody] at hshows
    exact (expression_bodyLine t r body).bodyIn hshows

/-- Where the URL can be taken apart or need not be, a snippet has a place for a body exactly when
there is a body, and its expression there stands for the body. -/
theorem body_in_code (t : Target) (r : Request)
    (h : t = .node → (Url.endpoint? r.url).isSome = true) :
    ∃ ls, Source.read t.backquotes .code (r.code t) = some ls ∧
      match r.body with
      | none => found t.bodyWords (.code (.scalar '\n') :: ls) = []
      | some body => r.BodyIn t body (.code (.scalar '\n') :: ls) := by
  obtain ⟨ls, hread, hlines, -⟩ := r.read_code t
  refine ⟨ls, hread, ?_⟩
  rw [hlines]
  exact body_in_lines t r h

/-- A nested value with names, sent by the transport call. -/
theorem body_in_code_transport :
    let body := "[null, \x7b\"x\": true\x7d]"
    let r : Request :=
      ⟨"https://a/b", "PUT", [], some body, none, true, false, by decide, by decide⟩
    (Url.endpoint? r.url).isSome = true ∧
      ∃ ls, Source.read false .code (r.code .node) = some ls ∧
        r.BodyIn .node body (.code (.scalar '\n') :: ls) := by
  intro body r
  have hendpoint : (Url.endpoint? r.url).isSome = true := by decide +kernel
  exact ⟨hendpoint, body_in_code .node r fun _ => hendpoint⟩

end Request

end CurlSnippet
