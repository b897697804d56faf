import CurlSnippet.Proofs.SnippetLexemes

/-!
Nothing that a request says becomes program text. Outside its literals a snippet is made of fixed
texts, and which of them are taken depends on the shape of the request alone: requests of one shape
give snippets that are equal once the literals are blotted out.
-/

namespace CurlSnippet

namespace Json

mutual

/-- The value without the contents of its strings and keys. -/
def erase : Json → Json
  | str _ => str []
  | arr items => arr (eraseItems items)
  | obj members => obj (eraseMembers members)
  | v => v

def eraseItems : List Json → List Json
  | [] => []
  | v :: rest => erase v :: eraseItems rest

def eraseMembers : List (Text × Json) → List (Text × Json)
  | [] => []
  | (_, v) :: rest => ([], erase v) :: eraseMembers rest

end

end Json

/-- What the program text of a snippet may depend on: how many headers there are, whether there are
credentials and a body, whether the body is sent as a value and as which tree, the method if it has
a function of its own, and for a transport call the protocol and the port. -/
structure Request.SameShape (t : Target) (r s : Request) : Prop where
  headers : r.headers.length = s.headers.length
  auth : r.auth.isSome = s.auth.isSome
  body : (r.body.map fun b => (r.jsonBody? b).map Json.erase) =
    s.body.map fun b => (s.jsonBody? b).map Json.erase
  method : r.method = s.method ∨
    r.method ∉ Snippet.Requests.helpers ∧ s.method ∉ Snippet.Requests.helpers
  endpoint : t = .node → ((Url.endpoint? r.url).map fun e => (e.protocol, e.port)) =
    (Url.endpoint? s.url).map fun e => (e.protocol, e.port)

namespace Source

/-- A character of program text, or the place of a literal. -/
def Lexeme.blot : Lexeme → Option CodePoint
  | code p => some p
  | _ => none

/-- The text with every literal blotted out. -/
def blot (ls : List Lexeme) : List (Option CodePoint) := ls.map Lexeme.blot

end Source

/-- The program text of a piece; none for a literal. -/
def Piece.outline : Piece → Option String
  | code s => some s
  | _ => none

def Line.outline (l : Line) : List (Option String) := l.map Piece.outline

def Snippet.outline (s : Snippet) : List (List (Option String)) := s.map Line.outline

namespace Source

theorem blot_piece {b : Bool} {p q : Piece} (h : p.outline = q.outline) :
    blot (ofPiece b p) = blot (ofPiece b q) := by
  cases p with
  | code s =>
    cases q with
    | code u =>
      obtain rfl := Option.some.inj h
      rfl
    | _ => cases h
  | literal t =>
    cases q with
    | code u => cases h
    | _ => rfl
  | raw t =>
    cases q with
    | code u => cases h
    | _ => rfl

theorem blot_line {b : Bool} {l m : Line} (h : l.outline = m.outline) :
    blot (ofLine b l) = blot (ofLine b m) := by
  induction l generalizing m with
  | nil =>
    obtain rfl := List.map_eq_nil_iff.mp h.symm
    rfl
  | cons p l ih =>
    cases m with
    | nil => cases h
    | cons q m =>
      obtain ⟨hp, hl⟩ := List.cons.inj h
      have hhead := blot_piece (b := b) hp
      have htail := ih hl
      simp only [blot, ofLine, List.flatMap_cons, List.map_append] at hhead htail ⊢
      rw [hhead, htail]

/-- Snippets with one outline are the same outside their literals. -/
theorem blot_lines {b : Bool} {s t : Snippet} (h : s.outline = t.outline) :
    blot (ofLines b s) = blot (ofLines b t) := by
  induction s generalizing t with
  | nil =>
    obtain rfl := List.map_eq_nil_iff.mp h.symm
    rfl
  | cons l s ih =>
    cases t with
    | nil => cases h
    | cons m t =>
      obtain ⟨hl, hs⟩ := List.cons.inj h
      have hhead := blot_line (b := b) hl
      have htail := ih hs
      simp only [blot, ofLines, List.flatMap_cons, List.map_append, List.map_cons] at hhead htail ⊢
      rw [hhead, htail]

end Source

theorem outline_block {s u : Snippet} {ss us : List Snippet} (h : s.outline = u.outline)
    (hrest : (Snippet.ofBlocks ss).outline = (Snippet.ofBlocks us).outline) :
    (Snippet.ofBlocks (s :: ss)).outline = (Snippet.ofBlocks (u :: us)).outline := by
  simp only [Snippet.outline, Snippet.ofBlocks, List.flatten_cons, List.map_append] at h hrest ⊢
  rw [h, hrest]

theorem outline_cons {p q : Piece} {l m : Line} (hp : p.outline = q.outline)
    (h : l.outline = m.outline) : Line.outline (p :: l) = Line.outline (q :: m) :=
  congrArg₂ List.cons hp h

theorem outline_append {l m l' m' : Line} (h : l.outline = l'.outline)
    (h' : m.outline = m'.outline) : Line.outline (l ++ m) = Line.outline (l' ++ m') := by
  simp only [Line.outline, List.map_append] at h h' ⊢
  rw [h, h']

/-- The literals of values that differ in strings and keys alone have one outline. -/
theorem outline_rules (names : Spelling) (indent : Int) :
    LiteralRules names indent
      (fun level v l => Line.outline l = Line.outline (literalAt names indent level v.erase))
      (fun level vs l =>
        Line.outline l = Line.outline (literalItems names indent level (Json.eraseItems vs)))
      (fun level ms l => Line.outline l =
        Line.outline (literalMembers names indent level (Json.eraseMembers ms))) where
  null _ := rfl
  yes _ := rfl
  no _ := rfl
  int _ _ _ := rfl
  float _ _ _ := rfl
  str _ _ := rfl
  emptyArr _ := rfl
  emptyObj _ := rfl
  arr level _ _ _ h := by
    rw [Json.erase, Json.eraseItems, literalAt_arr]
    exact outline_cons rfl (outline_append h rfl)
  obj level m _ _ h := by
    rw [Json.erase, Json.eraseMembers, literalAt_obj]
    exact outline_cons rfl (outline_append h rfl)
  item level _ _ h := outline_cons rfl h
  moreItems level _ _ _ _ _ hv hrest := by
    rw [Json.eraseItems, Json.eraseItems, literalItems_cons]
    exact outline_cons rfl (outline_append hv (outline_cons rfl hrest))
  member level k _ _ h := outline_cons rfl (outline_cons rfl (outline_cons rfl h))
  moreMembers level k _ n _ _ _ hv hrest := by
    rw [Json.eraseMembers, Json.eraseMembers, literalMembers_cons]
    exact outline_cons rfl <| outline_cons rfl <| outline_cons rfl <|
      outline_append hv (outline_cons rfl hrest)

/-- Values of one shape have literals of one outline. -/
theorem outline_literalAt {v w : Json} (hv : Json.Regular v) (hw : Json.Regular w)
    (h : v.erase = w.erase) (names : Spelling) (indent level : Int) :
    Line.outline (literalAt names indent level v) =
      Line.outline (literalAt names indent level w) := by
  rw [(outline_rules names indent).literalAt hv level, h,
    (outline_rules names indent).literalAt hw level]

theorem outline_map {α β : Type} {xs : List α} {ys : List β} {f : α → Line} {g : β → Line}
    (hlen : xs.length = ys.length) (h : ∀ x y, (f x).outline = (g y).outline) :
    Snippet.outline (xs.map f) = Snippet.outline (ys.map g) := by
  induction xs generalizing ys with
  | nil =>
    obtain rfl := List.length_eq_zero_iff.mp hlen.symm
    rfl
  | cons x xs ih =>
    cases ys with
    | nil => cases hlen
    | cons y ys =>
      have hrest : xs.length = ys.length := Nat.succ.inj hlen
      have htail := ih hrest
      exact congrArg₂ List.cons (h x y) htail

theorem isSome_cases {α β : Type} {a : Option α} {b : Option β} (h : a.isSome = b.isSome) :
    (a = none ∧ b = none) ∨ ∃ x y, a = some x ∧ b = some y := by
  cases a with
  | none =>
    cases b with
    | none => exact .inl ⟨rfl, rfl⟩
    | some y => cases h
  | some x =>
    cases b with
    | none => cases h
    | some y => exact .inr ⟨x, y, rfl, rfl⟩

theorem outline_optional {α β : Type} {a : Option α} {b : Option β} {f : α → Snippet}
    {g : β → Snippet} (hsome : a.isSome = b.isSome)
    (h : ∀ x ∈ a, ∀ y ∈ b, (f x).outline = (g y).outline) :
    (Snippet.optional a f).outline = (Snippet.optional b g).outline := by
  rcases isSome_cases hsome with ⟨rfl, rfl⟩ | ⟨x, y, rfl, rfl⟩
  · rfl
  · exact h x rfl y rfl

theorem outline_line {l m : Line} (h : l.outline = m.outline) :
    Snippet.outline [l] = Snippet.outline [m] :=
  congrArg₂ List.cons h rfl

theorem outline_parts {first last : String} {l m : Line} (h : l.outline = m.outline) :
    Line.outline (Line.ofParts [[.code first], l, [.code last]]) =
      Line.outline (Line.ofParts [[.code first], m, [.code last]]) := by
  simp only [Line.ofParts, List.flatten_cons]
  exact outline_append rfl (outline_append h rfl)

theorem isEmpty_eq_of_length {α β : Type} {xs : List α} {ys : List β}
    (h : xs.length = ys.length) : xs.isEmpty = ys.isEmpty := by
  cases xs with
  | nil =>
    obtain rfl := List.length_eq_zero_iff.mp h.symm
    rfl
  | cons x xs =>
    cases ys with
    | nil => cases h
    | cons y ys => rfl

theorem length_toList_map {α β γ δ : Type} {a : Option α} {b : Option β} {f : α → γ} {g : β → δ}
    (h : a.isSome = b.isSome) : (a.map f).toList.length = (b.map g).toList.length := by
  rcases isSome_cases h with ⟨rfl, rfl⟩ | ⟨x, y, rfl, rfl⟩
  · rfl
  · rfl

theorem outline_headerBlock {hs gs : List (String × String)} (h : hs.length = gs.length) :
    (Snippet.headerBlock hs).outline = (Snippet.headerBlock gs).outline := by
  rw [Snippet.headerBlock, Snippet.headerBlock, isEmpty_eq_of_length h]
  split_ifs
  · rfl
  · exact outline_block rfl (outline_block (outline_map h fun _ _ => rfl) rfl)

namespace Request.SameShape

variable {t : Target} {r s : Request}

theorem isSome_body (h : SameShape t r s) : r.body.isSome = s.body.isSome := by
  have hbody := congrArg Option.isSome h.body
  rwa [Option.isSome_map, Option.isSome_map] at hbody

theorem tree (h : SameShape t r s) {b c : String} (hb : b ∈ r.body) (hc : c ∈ s.body) :
    (r.jsonBody? b).map Json.erase = (s.jsonBody? c).map Json.erase := by
  have hbody := h.body
  rw [Option.mem_def.mp hb, Option.mem_def.mp hc] at hbody
  exact Option.some.inj hbody

/-- The two requests send a body as text both, or as values of one shape. -/
theorem tree_cases (h : SameShape t r s) {b c : String} (hb : b ∈ r.body) (hc : c ∈ s.body) :
    (r.jsonBody? b = none ∧ s.jsonBody? c = none) ∨
      ∃ v w, r.jsonBody? b = some v ∧ s.jsonBody? c = some w ∧ v.erase = w.erase := by
  have htree := h.tree hb hc
  have hsome := congrArg Option.isSome htree
  rw [Option.isSome_map, Option.isSome_map] at hsome
  rcases isSome_cases hsome with hnone | ⟨v, w, hv, hw⟩
  · exact .inl hnone
  · rw [hv, hw] at htree
    exact .inr ⟨v, w, hv, hw, Option.some.inj htree⟩

/-- A body of one shape in the two requests, as values or as texts. -/
theorem outline_body (h : SameShape t r s) {b c : String} (hb : b ∈ r.body) (hc : c ∈ s.body)
    {native : Json → Line}
    (hnative : ∀ v w, Json.Regular v → Json.Regular w → v.erase = w.erase →
      (native v).outline = (native w).outline) :
    Line.outline (match r.jsonBody? b with
      | some v => native v
      | none => [.string b]) =
    Line.outline (match s.jsonBody? c with
      | some v => native v
      | none => [.string c]) := by
  rcases h.tree_cases hb hc with ⟨hv, hw⟩ | ⟨v, w, hv, hw, heq⟩
  · rw [hv, hw]
    rfl
  · rw [hv, hw]
    exact hnative v w (Source.regular_jsonBody? hv) (Source.regular_jsonBody? hw) heq

theorem method_eq_get (h : SameShape t r s) : r.method = "GET" ↔ s.method = "GET" := by
  rcases h.method with heq | ⟨hr, hs⟩
  · rw [heq]
  · constructor
    · intro hget
      exact absurd (by rw [hget]; decide) hr
    · intro hget
      exact absurd (by rw [hget]; decide) hs

theorem outline_fetch (h : SameShape t r s) :
    (Snippet.fetch r).outline = (Snippet.fetch s).outline := by
  have hmethod : Snippet.outline
        (if r.method = "GET" then [] else [["  method: ", .string r.method, ","]]) =
      Snippet.outline
        (if s.method = "GET" then [] else [["  method: ", .string s.method, ","]]) := by
    simp only [h.method_eq_get]
    split_ifs
    · rfl
    · rfl
  have hheaders : (Snippet.Fetch.headers r).length = (Snippet.Fetch.headers s).length := by
    rw [Snippet.Fetch.headers, Snippet.Fetch.headers, List.length_append, List.length_append,
      h.headers, length_toList_map h.auth]
  have hbody : Snippet.outline (Snippet.optional r.body fun b =>
        [.ofParts [["  body: "], Snippet.Fetch.bodyPieces r b, [","]]]) =
      Snippet.outline (Snippet.optional s.body fun b =>
        [.ofParts [["  body: "], Snippet.Fetch.bodyPieces s b, [","]]]) :=
    outline_optional h.isSome_body fun b hb c hc => outline_line <| outline_parts <|
      h.outline_body hb hc fun v w hv hw heq => outline_parts (outline_literalAt hv hw heq _ _ _)
  have hoptions : (Snippet.Fetch.options r).outline = (Snippet.Fetch.options s).outline :=
    outline_block hmethod (outline_block (outline_headerBlock hheaders) (outline_block hbody rfl))
  exact outline_block rfl (outline_block hoptions rfl)

theorem outline_axios (h : SameShape t r s) :
    (Snippet.axios r).outline = (Snippet.axios s).outline := by
  have hbody : Snippet.outline (Snippet.optional r.body fun b =>
        [.ofParts [["  data: "], Snippet.Axios.dataPieces r b, [","]]]) =
      Snippet.outline (Snippet.optional s.body fun b =>
        [.ofParts [["  data: "], Snippet.Axios.dataPieces s b, [","]]]) :=
    outline_optional h.isSome_body fun b hb c hc => outline_line <| outline_parts <|
      h.outline_body hb hc fun v w hv hw heq => outline_literalAt hv hw heq _ _ _
  have hconfig : (Snippet.Axios.config r).outline = (Snippet.Axios.config s).outline :=
    outline_block rfl <| outline_block (outline_optional h.auth fun _ _ _ _ => rfl) <|
      outline_block (outline_headerBlock h.headers) (outline_block hbody rfl)
  exact outline_block rfl (outline_block hconfig rfl)

theorem outline_callee (h : SameShape t r s) :
    (Snippet.Requests.callee r).outline = (Snippet.Requests.callee s).outline := by
  rw [Snippet.Requests.callee, Snippet.Requests.callee]
  rcases h.method with heq | ⟨hr, hs⟩
  · rw [heq]
  · rw [if_neg hr, if_neg hs]
    rfl

theorem outline_authArgument (h : SameShape t r s) :
    (Snippet.Requests.authArgument r).outline = (Snippet.Requests.authArgument s).outline := by
  rw [Snippet.Requests.authArgument, Snippet.Requests.authArgument]
  rcases isSome_cases h.auth with ⟨hr, hs⟩ | ⟨a, a', hr, hs⟩
  · rw [hr, hs]
  · rw [hr, hs]
    rfl

theorem outline_bodyArgument (h : SameShape t r s) :
    (Snippet.Requests.bodyArgument r).outline = (Snippet.Requests.bodyArgument s).outline := by
  rw [Snippet.Requests.bodyArgument, Snippet.Requests.bodyArgument]
  rcases isSome_cases h.isSome_body with ⟨hr, hs⟩ | ⟨b, c, hr, hs⟩
  · rw [hr, hs]
  · have hnative := congrArg Option.isSome (h.tree hr hs)
    rw [Option.isSome_map, Option.isSome_map] at hnative
    simp only [hr, hs, hnative]

theorem outline_call (h : SameShape t r s) :
    (Snippet.Requests.call r).outline = (Snippet.Requests.call s).outline := by
  have hheaders : (Snippet.Requests.headerArgument r).outline =
      (Snippet.Requests.headerArgument s).outline := by
    rw [Snippet.Requests.headerArgument, Snippet.Requests.headerArgument,
      isEmpty_eq_of_length h.headers]
  have harguments : (Snippet.Requests.arguments r).outline =
      (Snippet.Requests.arguments s).outline := by
    rw [Snippet.Requests.arguments, Snippet.Requests.arguments]
    simp only [Line.ofParts, List.flatten_cons]
    exact outline_append hheaders <| outline_append h.outline_authArgument <|
      outline_append h.outline_bodyArgument rfl
  rw [Snippet.Requests.call, Snippet.Requests.call]
  simp only [Line.ofParts, List.flatten_cons]
  exact outline_append h.outline_callee (outline_append harguments rfl)

theorem outline_requests (h : SameShape t r s) :
    (Snippet.requests r).outline = (Snippet.requests s).outline := by
  have hheaders : (Snippet.Requests.headerBinding r).outline =
      (Snippet.Requests.headerBinding s).outline := by
    rw [Snippet.Requests.headerBinding, Snippet.Requests.headerBinding,
      isEmpty_eq_of_length h.headers]
    split_ifs
    · rfl
    · exact outline_block rfl (outline_block (outline_map h.headers fun _ _ => rfl) rfl)
  have hbody : (Snippet.Requests.bodyBinding r).outline =
      (Snippet.Requests.bodyBinding s).outline := by
    apply outline_optional h.isSome_body
    intro b hb c hc
    rcases h.tree_cases hb hc with ⟨hv, hw⟩ | ⟨v, w, hv, hw, heq⟩
    · simp only [hv, hw]
      rfl
    · have hliteral := outline_literalAt (Source.regular_jsonBody? hv)
        (Source.regular_jsonBody? hw) heq .capitalized 4 0
      simp only [hv, hw]
      exact congrArg₂ List.cons (outline_append rfl (outline_append hliteral rfl)) rfl
  have hend : Snippet.outline [["url = ", .string r.url], [], Snippet.Requests.call r,
        ["print(response.json())"]] =
      Snippet.outline [["url = ", .string s.url], [], Snippet.Requests.call s,
        ["print(response.json())"]] :=
    congrArg₂ List.cons rfl (congrArg₂ List.cons rfl (congrArg₂ List.cons h.outline_call rfl))
  exact outline_block rfl (outline_block hheaders (outline_block hbody (outline_block hend rfl)))

theorem outline_textPiece (t : Text) : (Snippet.Go.textPiece t).outline = none := by
  rw [Snippet.Go.textPiece]
  split_ifs
  · rfl
  · rfl

theorem outline_bodyPiece (r : Request) (body : String) :
    (Snippet.Go.bodyPiece r body).outline = none := by
  rw [Snippet.Go.bodyPiece]
  cases r.jsonBody? body with
  | none => rfl
  | some v => exact outline_textPiece _

theorem outline_go (h : SameShape t r s) : (Snippet.go r).outline = (Snippet.go s).outline := by
  have himports : (Snippet.Go.imports r).outline = (Snippet.Go.imports s).outline :=
    outline_block rfl <| outline_block (outline_optional h.isSome_body fun _ _ _ _ => rfl) rfl
  have hrequest : (Snippet.Go.newRequest r).outline = (Snippet.Go.newRequest s).outline := by
    rw [Snippet.Go.newRequest, Snippet.Go.newRequest]
    rcases isSome_cases h.isSome_body with ⟨hr, hs⟩ | ⟨b, c, hr, hs⟩
    · simp only [hr, hs]
      rfl
    · have hpiece : (Snippet.Go.bodyPiece r b).outline = (Snippet.Go.bodyPiece s c).outline := by
        rw [outline_bodyPiece, outline_bodyPiece]
      simp only [hr, hs]
      exact congrArg₂ List.cons (outline_cons rfl (outline_cons hpiece rfl)) rfl
  have hend : Snippet.outline (if r.headers.isEmpty && r.auth.isNone then [] else [[]]) =
      Snippet.outline (if s.headers.isEmpty && s.auth.isNone then [] else [[]]) := by
    rw [isEmpty_eq_of_length h.headers, ← Option.not_isSome, ← Option.not_isSome, h.auth]
  have hheaders : (Snippet.Go.headers r).outline = (Snippet.Go.headers s).outline :=
    outline_block (outline_map h.headers fun _ _ => rfl) <|
      outline_block (outline_optional h.auth fun _ _ _ _ => rfl) (outline_block hend rfl)
  exact outline_block rfl <| outline_block himports <| outline_block rfl <|
    outline_block hrequest <| outline_block rfl <| outline_block rfl <| outline_block hheaders rfl

/-- The values of the headers of a transport call are literals, but for the length of a body. -/
theorem outline_headerValues (h : SameShape t r s) :
    (Snippet.Node.headers r).map (fun x => x.2.outline) =
      (Snippet.Node.headers s).map fun x => x.2.outline := by
  have hwritten (hs : List (String × String)) :
      (hs.map fun x => (x.1, Piece.string x.2)).map (fun x => x.2.outline) =
        List.replicate hs.length none := by
    rw [List.map_map]
    exact List.map_const'
  have hlength (b : Option String) :
      ((b.map fun _ => ("Content-Length", Piece.code "Buffer.byteLength(postData)")).toList.map
        fun x => x.2.outline) = if b.isSome then [some "Buffer.byteLength(postData)"] else [] := by
    cases b
    · rfl
    · rfl
  have hauth (a : Option Credentials) :
      ((a.map fun a => ("Authorization", Piece.string a.header)).toList.map
        fun x => x.2.outline) = if a.isSome then [none] else [] := by
    cases a
    · rfl
    · rfl
  simp only [Snippet.Node.headers, List.map_append]
  rw [hwritten, hwritten, hlength, hlength, hauth, hauth, h.headers, h.isSome_body, h.auth]

theorem outline_headerOptions (h : SameShape t r s) :
    (Snippet.Node.headerOptions r).outline = (Snippet.Node.headerOptions s).outline := by
  have hvalues := h.outline_headerValues
  have hlen := congrArg List.length hvalues
  rw [List.length_map, List.length_map] at hlen
  have hlines (q : Request) :
      Snippet.outline
          ((Snippet.Node.headers q).map fun x => ["    ", .string x.1, ": ", x.2, ","]) =
        ((Snippet.Node.headers q).map fun x => x.2.outline).map fun o =>
          [some "    ", none, some ": ", o, some ","] := by
    rw [Snippet.outline, List.map_map, List.map_map]
    rfl
  have hall := (hlines r).trans ((congrArg _ hvalues).trans (hlines s).symm)
  rw [Snippet.Node.headerOptions, Snippet.Node.headerOptions, isEmpty_eq_of_length hlen]
  split_ifs
  · rfl
  · exact outline_block rfl (outline_block hall rfl)

theorem outline_withEndpoint (h : SameShape t r s) {e f : Endpoint}
    (hprotocol : e.protocol = f.protocol) (hport : e.port = f.port) :
    (Snippet.Node.withEndpoint r e).outline = (Snippet.Node.withEndpoint s f).outline := by
  have hpost : Snippet.outline (Snippet.optional r.body fun b =>
        [.ofParts [["const postData = "], Snippet.Node.dataPieces r b, [";"]], []]) =
      Snippet.outline (Snippet.optional s.body fun b =>
        [.ofParts [["const postData = "], Snippet.Node.dataPieces s b, [";"]], []]) :=
    outline_optional h.isSome_body fun b hb c hc =>
      congrArg₂ List.cons (outline_parts (h.outline_body hb hc fun v w hv hw heq =>
        outline_parts (outline_literalAt hv hw heq _ _ _))) rfl
  have hunusual : Snippet.outline (if e.hasUnusualPort then
        [["  port: ", String.ofList (Nat.toDigits 10 e.port), ","]] else []) =
      Snippet.outline (if f.hasUnusualPort then
        [["  port: ", String.ofList (Nat.toDigits 10 f.port), ","]] else []) := by
    rw [Endpoint.hasUnusualPort, Endpoint.hasUnusualPort, hprotocol, hport]
  have hoptions : (Snippet.Node.options r e).outline = (Snippet.Node.options s f).outline :=
    outline_block rfl <| outline_block hunusual <| outline_block rfl <|
      outline_block h.outline_headerOptions rfl
  rw [Snippet.Node.withEndpoint, Snippet.Node.withEndpoint, Snippet.Node.call, Snippet.Node.call,
    hprotocol]
  exact outline_block rfl <| outline_block hpost <| outline_block hoptions <| outline_block rfl <|
    outline_block rfl <| outline_block (outline_optional h.isSome_body fun _ _ _ _ => rfl) rfl

theorem outline_node (h : SameShape .node r s) :
    (Snippet.node r).outline = (Snippet.node s).outline := by
  have hendpoint := h.endpoint rfl
  have hsome := congrArg Option.isSome hendpoint
  rw [Option.isSome_map, Option.isSome_map] at hsome
  rw [Snippet.node, Snippet.node]
  rcases isSome_cases hsome with ⟨hr, hs⟩ | ⟨e, f, hr, hs⟩
  · simp only [hr, hs]
    rfl
  · rw [hr, hs] at hendpoint
    obtain ⟨hprotocol, hport⟩ := Prod.mk.inj (Option.some.inj hendpoint)
    simp only [hr, hs]
    exact h.outline_withEndpoint hprotocol hport

theorem outline_snippet (h : SameShape t r s) : (r.snippet t).outline = (s.snippet t).outline := by
  cases t with
  | fetch => exact h.outline_fetch
  | axios => exact h.outline_axios
  | requests => exact h.outline_requests
  | go => exact h.outline_go
  | node => exact h.outline_node

end Request.SameShape

theorem Request.exists_cons (r : Request) (t : Target) : ∃ l rest, r.snippet t = l :: rest := by
  cases t with
  | fetch => exact ⟨_, _, rfl⟩
  | axios => exact ⟨_, _, rfl⟩
  | requests => exact ⟨_, _, rfl⟩
  | go => exact ⟨_, _, rfl⟩
  | node =>
    cases he : Url.endpoint? r.url with
    | none =>
      rw [Request.snippet, Snippet.node, he]
      exact ⟨_, _, rfl⟩
    | some e =>
      rw [Request.snippet, Snippet.node, he]
      exact ⟨_, _, rfl⟩

/-- A snippet is read to its end, and its lexemes are those of its lines. -/
theorem Request.read_code (r : Request) (t : Target) :
    ∃ ls, Source.read t.backquotes .code (r.code t) = some ls ∧
      .code (.scalar '\n') :: ls = Source.ofLines t.backquotes (r.snippet t) ∧
      ∀ x ∈ ls, x.staysOnLine = true := by
  have hclosed := Source.closed_snippet r t
  obtain ⟨l, rest, hcons⟩ := r.exists_cons t
  rw [Request.code, hcons]
  rw [hcons] at hclosed
  exact Source.read_snippet hclosed

/-- Every snippet is read to its end by the rules of its language for literals, and no literal in
double quotes reaches over the end of a line. Requests of one shape give the same text once every
literal is blotted out. -/
theorem Request.code_outside_literals (t : Target) (r : Request) :
    ∃ ls, Source.read t.backquotes .code (r.code t) = some ls ∧
      (∀ inside, .quoted inside ∈ ls → ∀ p ∈ inside, Source.endsLine p = false) ∧
      ∀ s, SameShape t r s → ∃ ms, Source.read t.backquotes .code (s.code t) = some ms ∧
        Source.blot ls = Source.blot ms := by
  obtain ⟨ls, hread, hlines, hstays⟩ := r.read_code t
  refine ⟨ls, hread, ?_, ?_⟩
  · intro inside hinside p hp
    have hstay := hstays _ hinside
    rw [Source.Lexeme.staysOnLine, Bool.not_eq_true', List.any_eq_false] at hstay
    exact Bool.eq_false_iff.mpr (hstay p hp)
  · intro s hs
    obtain ⟨ms, hreads, hlines', -⟩ := s.read_code t
    have hblot := Source.blot_lines (b := t.backquotes) hs.outline_snippet
    rw [← hlines, ← hlines'] at hblot
    exact ⟨ms, hreads, (List.cons.inj hblot).2⟩

/-- Quotes, backslashes, backquotes and line ends in every part, against plain letters. -/
theorem Request.code_outside_literals_hostile :
    let plain : Request :=
      ⟨"http://a", "POST", [("b", "c")], some "d", some ⟨"e", "f"⟩, false, false,
        by decide, by decide⟩
    let hostile : Request :=
      ⟨"\"); exit(", "POST", [("\n\"", "\\")], some "\x60\r\u2028\"", some ⟨"\\\"", "\u2029"⟩,
        false, true, by decide, by decide⟩
    SameShape .go plain hostile ∧
      ∃ ls ms, Source.read true .code (plain.code .go) = some ls ∧
        Source.read true .code (hostile.code .go) = some ms ∧ Source.blot ls = Source.blot ms := by
  intro plain hostile
  have hshape : SameShape .go plain hostile := ⟨rfl, rfl, rfl, .inl rfl, nofun⟩
  obtain ⟨ls, hread, -, hsame⟩ := code_outside_literals .go plain
  obtain ⟨ms, hreads, hblot⟩ := hsame hostile hshape
  exact ⟨hshape, ls, ms, hread, hreads, hblot⟩

end CurlSnippet
