import CurlSnippet.Convert
import CurlSnippet.Proofs.LiteralRules
import CurlSnippet.Proofs.SourceLiterals

/-!
The lexemes of a snippet. Every piece of a snippet closes the literals it opens, so that no literal
reaches into the next piece; a snippet is then read to its end, and its lexemes are those of its
lines with a line feed between each two.
-/

namespace CurlSnippet

/-- Whether backquotes open literals in the language of a target. -/
def Target.backquotes : Target → Bool
  | .go => true
  | _ => false

namespace Source

def ofPiece (b : Bool) : Piece → List Lexeme
  | .code s => (read b .code (Text.ofString s)).getD []
  | .literal t => [.quoted (t.flatMap escapeInLiteral)]
  | .raw t => [.raw t]

def ofLine (b : Bool) (l : Line) : List Lexeme := l.flatMap (ofPiece b)

/-- The lexemes of lines, with a line feed before each. -/
def ofLines (b : Bool) (s : Snippet) : List Lexeme :=
  s.flatMap fun l => .code (.scalar '\n') :: ofLine b l

/-- Whether a piece closes the literals it opens and keeps the double-quoted ones on a line. -/
def closes (b : Bool) : Piece → Bool
  | .code s => match read b .code (Text.ofString s) with
    | some ls => ls.all Lexeme.staysOnLine
    | none => false
  | .literal _ => true
  | .raw t => b && !t.contains (.scalar '\x60')

def ClosedLine (b : Bool) (l : Line) : Prop := l.all (closes b) = true

def Closed (b : Bool) (s : Snippet) : Prop := s.all (fun l => l.all (closes b)) = true

theorem read_raw {b : Bool} (before t rest : Text) (ht : .scalar '\x60' ∉ t) :
    read b (.raw before) (t ++ .scalar '\x60' :: rest) =
      (read b .code rest).map (.raw (before.reverse ++ t) :: ·) := by
  induction t generalizing before with
  | nil => simp [read]
  | cons p t ih =>
    rw [List.mem_cons, not_or] at ht
    rw [List.cons_append, read, if_neg (Ne.symm ht.1), ih _ ht.2]
    simp

theorem reads_piece {b : Bool} {p : Piece} (h : closes b p = true) :
    Reads b p.text (ofPiece b p) := by
  cases p with
  | code s =>
    apply reads_of_read
    rw [closes] at h
    rw [ofPiece, Piece.text]
    cases hread : read b .code (Text.ofString s) with
    | none =>
      rw [hread] at h
      cases h
    | some ls => rfl
  | literal t => exact reads_quote b t
  | raw t =>
    rw [closes, Bool.and_eq_true, Bool.not_eq_true', List.contains_eq_mem,
      decide_eq_false_iff_not] at h
    obtain ⟨rfl, ht⟩ := h
    intro rest
    have hraw := read_raw (b := true) [] t rest ht
    simp only [Piece.text, List.cons_append, List.append_assoc, List.nil_append]
    simp [read, hraw, ofPiece]

theorem staysOnLine_piece {b : Bool} {p : Piece} (h : closes b p = true) :
    ∀ l ∈ ofPiece b p, l.staysOnLine = true := by
  cases p with
  | code s =>
    rw [closes] at h
    rw [ofPiece]
    cases hread : read b .code (Text.ofString s) with
    | none =>
      rw [hread] at h
      cases h
    | some ls =>
      rw [hread] at h
      exact List.all_eq_true.mp h
  | literal t =>
    intro l hl
    obtain rfl := List.mem_singleton.mp hl
    rw [Lexeme.staysOnLine, Bool.not_eq_true', List.any_eq_false]
    intro q hq
    obtain ⟨p, -, hp⟩ := List.mem_flatMap.mp hq
    rw [endsLine_of_mem_escapeInLiteral hp]
    exact Bool.false_ne_true
  | raw t =>
    intro l hl
    obtain rfl := List.mem_singleton.mp hl
    rfl

theorem reads_line {b : Bool} {l : Line} (h : ClosedLine b l) :
    Reads b (Line.text l) (ofLine b l) := by
  induction l with
  | nil => exact passes_nil
  | cons p l ih =>
    rw [ClosedLine, List.all_cons, Bool.and_eq_true] at h
    exact (reads_piece h.1).append (ih h.2)

theorem reads_lineFeed (b : Bool) : Reads b [.scalar '\n'] [.code (.scalar '\n')] := by
  apply reads_of_read
  cases b
  · rfl
  · rfl

theorem lines_cons (t : Text) (ts : List Text) :
    Text.lines (t :: ts) = t ++ ts.flatMap fun u => .scalar '\n' :: u := by
  induction ts generalizing t with
  | nil => simp [Text.lines]
  | cons u ts ih =>
    have hnext := ih u
    simp only [Text.lines] at hnext ⊢
    rw [List.intercalate_cons_cons, hnext]
    simp

theorem Closed.cons {b : Bool} {l : Line} {s : Snippet} (h : Closed b (l :: s)) :
    ClosedLine b l ∧ Closed b s := by
  rwa [Closed, List.all_cons, Bool.and_eq_true] at h

theorem reads_lines {b : Bool} {s : Snippet} (h : Closed b s) :
    Reads b ((s.map Line.text).flatMap fun t => .scalar '\n' :: t) (ofLines b s) := by
  induction s with
  | nil => exact passes_nil
  | cons l s ih =>
    obtain ⟨hl, hs⟩ := h.cons
    exact ((reads_lineFeed b).append (reads_line hl)).append (ih hs)

theorem staysOnLine_lines {b : Bool} {s : Snippet} (h : Closed b s) :
    ∀ x ∈ ofLines b s, x.staysOnLine = true := by
  intro x hx
  obtain ⟨l, hl, hx⟩ := List.mem_flatMap.mp hx
  rcases List.mem_cons.mp hx with rfl | hx
  · rfl
  · obtain ⟨p, hp, hx⟩ := List.mem_flatMap.mp hx
    have hline := List.all_eq_true.mp h l hl
    exact staysOnLine_piece (List.all_eq_true.mp hline p hp) x hx

/-- A closed snippet is read to its end; the first of its lines has a line feed before it in
`ofLines` alone. -/
theorem read_snippet {b : Bool} {l : Line} {s : Snippet} (h : Closed b (l :: s)) :
    ∃ ls, read b .code (Snippet.text (l :: s)) = some ls ∧
      .code (.scalar '\n') :: ls = ofLines b (l :: s) ∧ ∀ x ∈ ls, x.staysOnLine = true := by
  obtain ⟨hl, hs⟩ := h.cons
  have hread := ((reads_line hl).append (reads_lines hs)).before.read (p := fun _ => false) rfl
  refine ⟨ofLine b l ++ ofLines b s, ?_, rfl, fun x hx => ?_⟩
  · rwa [Snippet.text, List.map_cons, lines_cons]
  · exact staysOnLine_lines h x (List.mem_cons_of_mem _ hx)

theorem closed_nil (b : Bool) : Closed b (Snippet.ofBlocks []) := rfl

theorem Closed.append {b : Bool} {s t : Snippet} (hs : Closed b s) (ht : Closed b t) :
    Closed b (s ++ t) := by
  rw [Closed, List.all_append, Bool.and_eq_true]
  exact ⟨hs, ht⟩

theorem closed_block {b : Bool} {s : Snippet} {rest : List Snippet} (hs : Closed b s)
    (hrest : Closed b (Snippet.ofBlocks rest)) : Closed b (Snippet.ofBlocks (s :: rest)) :=
  hs.append hrest

theorem ClosedLine.append {b : Bool} {l m : Line} (hl : ClosedLine b l) (hm : ClosedLine b m) :
    ClosedLine b (l ++ m) := by
  rw [ClosedLine, List.all_append, Bool.and_eq_true]
  exact ⟨hl, hm⟩

theorem closedLine_nil (b : Bool) : ClosedLine b [] := rfl

theorem ClosedLine.cons {b : Bool} {p : Piece} {l : Line} (hp : closes b p = true)
    (hl : ClosedLine b l) : ClosedLine b (p :: l) := by
  rw [ClosedLine, List.all_cons, Bool.and_eq_true]
  exact ⟨hp, hl⟩

theorem closed_line {b : Bool} {l : Line} (h : ClosedLine b l) : Closed b [l] := by
  rw [Closed, List.all_cons, Bool.and_eq_true]
  exact ⟨h, rfl⟩

/-- Text without quotes is all program text. -/
theorem read_plain (b : Bool) {cs : List Char} (h : ∀ c ∈ cs, c ≠ '"' ∧ c ≠ '\x60') :
    read b .code (Text.ofChars cs) = some (cs.map fun c => .code (.scalar c)) := by
  induction cs with
  | nil => rfl
  | cons c cs ih =>
    obtain ⟨⟨hquote, hback⟩, hrest⟩ := List.forall_mem_cons.mp h
    have hread := ih hrest
    simp only [Text.ofChars] at hread
    simp [Text.ofChars, read, hquote, hback, hread]

theorem ofPiece_plain (b : Bool) {cs : List Char} (h : ∀ c ∈ cs, c ≠ '"' ∧ c ≠ '\x60') :
    ofPiece b (.code (String.ofList cs)) = cs.map fun c => .code (.scalar c) := by
  rw [ofPiece, Text.ofString, String.toList_ofList, read_plain b h]
  rfl

theorem closes_plain (b : Bool) {cs : List Char} (h : ∀ c ∈ cs, c ≠ '"' ∧ c ≠ '\x60') :
    closes b (.code (String.ofList cs)) = true := by
  rw [closes, Text.ofString, String.toList_ofList, read_plain b h]
  simp [Lexeme.staysOnLine]

theorem closes_spaces (b : Bool) (n : Int) : closes b (spaces n) = true := by
  apply closes_plain
  intro c hc
  rw [List.eq_of_mem_replicate hc]
  decide

theorem plain_number {cs : List Char} {v : Json} (h : Json.number? cs = some v) :
    ∀ c ∈ cs, c ≠ '"' ∧ c ≠ '\x60' := by
  intro c hc
  have hnumber := (Json.number?_spec h).1 c hc
  exact ⟨ne_of_kind hnumber (by decide), ne_of_kind hnumber (by decide)⟩

section Literal

variable {b : Bool}

theorem closes_mark (b : Bool) :
    closes b (.code "\n") = true ∧ closes b (.code ",\n") = true ∧
      closes b (.code ": ") = true := by
  cases b
  · decide
  · decide

theorem closedLine_container {first last : String} {inner : Line}
    (hfirst : closes b (.code first) = true) (hinner : ClosedLine b inner)
    (hlast : closes b (.code last) = true) (n : Int) :
    ClosedLine b (.code first :: (inner ++ [.code "\n", spaces n, .code last])) :=
  .cons hfirst <| hinner.append <| .cons (closes_mark b).1 <| .cons (closes_spaces b n) <|
    .cons hlast rfl

theorem closedLine_member {l : Line} (n : Int) (k : Text) (h : ClosedLine b l) :
    ClosedLine b (spaces n :: .literal k :: .code ": " :: l) :=
  .cons (closes_spaces b n) <| .cons rfl <| .cons (closes_mark b).2.2 h

/-- The literal of a value closes the literals of its strings. -/
theorem closed_rules (names : Spelling) (hnull : closes b (.code names.null) = true)
    (hyes : closes b (.code names.yes) = true) (hno : closes b (.code names.no) = true)
    (indent : Int) :
    LiteralRules names indent (fun _ _ l => ClosedLine b l) (fun _ _ l => ClosedLine b l)
      (fun _ _ l => ClosedLine b l) where
  null _ := .cons hnull rfl
  yes _ := .cons hyes rfl
  no _ := .cons hno rfl
  int _ _ h := .cons (closes_plain b (plain_number h)) rfl
  float _ _ h := .cons (closes_plain b (plain_number h)) rfl
  str _ _ := rfl
  emptyArr _ := by cases b <;> rfl
  emptyObj _ := by cases b <;> rfl
  arr _ _ _ _ h := closedLine_container (by cases b <;> rfl) h (by cases b <;> rfl) _
  obj _ _ _ _ h := closedLine_container (by cases b <;> rfl) h (by cases b <;> rfl) _
  item _ _ _ h := .cons (closes_spaces b _) h
  moreItems _ _ _ _ _ _ hv hrest :=
    .cons (closes_spaces b _) (hv.append (.cons (closes_mark b).2.1 hrest))
  member _ k _ _ h := closedLine_member _ k h
  moreMembers _ k _ _ _ _ _ hv hrest :=
    closedLine_member _ k (hv.append (.cons (closes_mark b).2.1 hrest))

end Literal

theorem closed_optional {α : Type} {b : Bool} {a : Option α} {lines : α → Snippet}
    (h : ∀ x ∈ a, Closed b (lines x)) : Closed b (Snippet.optional a lines) := by
  cases a with
  | none => rfl
  | some x => exact h x rfl

theorem closed_map {α : Type} {b : Bool} {xs : List α} {line : α → Line}
    (h : ∀ x ∈ xs, ClosedLine b (line x)) : Closed b (xs.map line) := by
  rw [Closed, List.all_eq_true]
  intro l hl
  obtain ⟨x, hx, rfl⟩ := List.mem_map.mp hl
  exact h x hx

theorem regular_jsonBody? {r : Request} {body : String} {v : Json}
    (h : r.jsonBody? body = some v) : Json.Regular v := by
  rw [Request.jsonBody?] at h
  split_ifs at h
  exact Json.regular_of_decode? h

theorem closed_headerBlock (headers : List (String × String)) :
    Closed false (Snippet.headerBlock headers) := by
  rw [Snippet.headerBlock]
  split_ifs
  · rfl
  · have hlines : Closed false (Snippet.headerLines (Snippet.tab 2 2) headers) :=
      closed_map fun _ _ => rfl
    exact closed_block rfl (closed_block hlines (closed_block rfl (closed_nil false)))

/-- A body between program text, as a value or as the text that it is. -/
theorem closedLine_body {r : Request} {body : String} {native : Json → Line}
    (h : ∀ v, Json.Regular v → ClosedLine false (native v)) :
    ClosedLine false (match r.jsonBody? body with
      | some v => native v
      | none => [.string body]) := by
  cases hv : r.jsonBody? body with
  | none => rfl
  | some v => exact h v (regular_jsonBody? hv)

theorem closedLine_parts {b : Bool} {first last : String} {l : Line}
    (hfirst : closes b (.code first) = true) (hl : ClosedLine b l)
    (hlast : closes b (.code last) = true) :
    ClosedLine b (Line.ofParts [[.code first], l, [.code last]]) :=
  .cons hfirst (hl.append (.cons hlast (closedLine_nil b)))

theorem closed_fetch (r : Request) : Closed false (Snippet.fetch r) := by
  have hbody (body : String) : ClosedLine false (Snippet.Fetch.bodyPieces r body) :=
    closedLine_body fun v hv =>
      closedLine_parts rfl ((closed_rules .lowerCase rfl rfl rfl 2).literalAt hv 1) rfl
  have hmethod : Closed false
      (if r.method = "GET" then [] else [["  method: ", .string r.method, ","]]) := by
    split_ifs
    · rfl
    · rfl
  have hoptions : Closed false (Snippet.Fetch.options r) :=
    closed_block hmethod <| closed_block (closed_headerBlock _) <|
      closed_block (closed_optional fun _ _ => closed_line (closedLine_parts rfl (hbody _) rfl))
        (closed_nil false)
  exact closed_block rfl (closed_block hoptions (closed_block rfl (closed_nil false)))

theorem closed_axios (r : Request) : Closed false (Snippet.axios r) := by
  have hdata (body : String) : ClosedLine false (Snippet.Axios.dataPieces r body) :=
    closedLine_body fun v hv => (closed_rules .lowerCase rfl rfl rfl 2).literalAt hv 1
  have hconfig : Closed false (Snippet.Axios.config r) :=
    closed_block rfl <| closed_block (closed_optional fun _ _ => rfl) <|
      closed_block (closed_headerBlock _) <| closed_block
        (closed_optional fun _ _ => closed_line (closedLine_parts rfl (hdata _) rfl))
        (closed_nil false)
  exact closed_block rfl (closed_block hconfig (closed_block rfl (closed_nil false)))

theorem closes_helper :
    ∀ m ∈ Snippet.Requests.helpers, closes false (.code (lower m)) = true := by
  decide +kernel

theorem closedLine_call (r : Request) : ClosedLine false (Snippet.Requests.call r) := by
  have hcallee : ClosedLine false (Snippet.Requests.callee r) := by
    rw [Snippet.Requests.callee]
    split_ifs with h
    · exact .cons rfl (.cons (closes_helper r.method h) rfl)
    · rfl
  have hheaders : ClosedLine false (Snippet.Requests.headerArgument r) := by
    rw [Snippet.Requests.headerArgument]
    split_ifs
    · rfl
    · rfl
  have hauth : ClosedLine false (Snippet.Requests.authArgument r) := by
    rw [Snippet.Requests.authArgument]
    cases r.auth
    · rfl
    · rfl
  have hbody : ClosedLine false (Snippet.Requests.bodyArgument r) := by
    rw [Snippet.Requests.bodyArgument]
    cases r.body with
    | none => rfl
    | some b =>
      dsimp only
      split_ifs
      · rfl
      · rfl
  have harguments : ClosedLine false (Snippet.Requests.arguments r) :=
    hheaders.append (hauth.append (hbody.append (closedLine_nil false)))
  exact hcallee.append (harguments.append rfl)

theorem closed_requests (r : Request) : Closed false (Snippet.requests r) := by
  have hheaders : Closed false (Snippet.Requests.headerBinding r) := by
    rw [Snippet.Requests.headerBinding]
    split_ifs
    · rfl
    · have hlines : Closed false (Snippet.headerLines (Snippet.tab 4 1) r.headers) :=
        closed_map fun _ _ => rfl
      exact closed_block rfl (closed_block hlines (closed_block rfl (closed_nil false)))
  have hbody : Closed false (Snippet.Requests.bodyBinding r) := by
    apply closed_optional
    intro body _
    cases hv : r.jsonBody? body with
    | none => rfl
    | some v =>
      have hliteral := (closed_rules (b := false) .capitalized rfl rfl rfl 4).literalAt
        (regular_jsonBody? hv) 0
      have hline : ClosedLine false
          (.code "payload = " :: (literalAt .capitalized 4 0 v ++ [])) :=
        .cons rfl (hliteral.append (closedLine_nil false))
      exact (closed_line hline).append rfl
  have hcall : ClosedLine false (Snippet.Requests.call r) := closedLine_call r
  have hend : Closed false [["url = ", .string r.url], [], Snippet.Requests.call r,
      ["print(response.json())"]] :=
    Closed.append (s := [["url = ", .string r.url], []]) rfl ((closed_line hcall).append rfl)
  exact closed_block rfl <| closed_block hheaders <| closed_block hbody <|
    closed_block hend (closed_nil false)

theorem closes_textPiece (t : Text) : closes true (Snippet.Go.textPiece t) = true := by
  rw [Snippet.Go.textPiece]
  split_ifs with h
  · rfl
  · rw [Bool.or_eq_true, not_or, Bool.not_eq_true] at h
    rw [closes, h.1]
    rfl

theorem closed_go (r : Request) : Closed true (Snippet.go r) := by
  have hbody (body : String) : closes true (Snippet.Go.bodyPiece r body) = true := by
    rw [Snippet.Go.bodyPiece]
    cases r.jsonBody? body with
    | none => rfl
    | some v => exact closes_textPiece _
  have himports : Closed true (Snippet.Go.imports r) :=
    closed_block rfl <| closed_block (closed_optional fun _ _ => rfl) <|
      closed_block rfl (closed_nil true)
  have hrequest : Closed true (Snippet.Go.newRequest r) := by
    rw [Snippet.Go.newRequest]
    cases r.body with
    | none => rfl
    | some body =>
      have hline : ClosedLine true
          ["\tbody := strings.NewReader(", Snippet.Go.bodyPiece r body, ")"] :=
        .cons rfl (.cons (hbody body) rfl)
      exact (closed_line hline).append rfl
  have hheaders : Closed true (Snippet.Go.headers r) := by
    have hend : Closed true (if r.headers.isEmpty && r.auth.isNone then [] else [[]]) := by
      split_ifs
      · rfl
      · rfl
    exact closed_block (closed_map fun _ _ => rfl) <|
      closed_block (closed_optional fun _ _ => rfl) <| closed_block hend (closed_nil true)
  exact closed_block rfl <| closed_block himports <| closed_block rfl <| closed_block hrequest <|
    closed_block rfl <| closed_block rfl <| closed_block hheaders <| closed_block rfl <|
    closed_block rfl <| closed_block rfl <| closed_block rfl <| closed_block rfl (closed_nil true)

theorem closes_name (p : Protocol) : closes false (.code p.name) = true := by
  cases p
  · rfl
  · rfl

theorem plain_toDigits (n : Nat) : ∀ c ∈ Nat.toDigits 10 n, c ≠ '"' ∧ c ≠ '\x60' := by
  intro c hc
  have hdigit := (Json.digits_toDigits n).all c hc
  exact ⟨ne_of_kind hdigit (by decide), ne_of_kind hdigit (by decide)⟩

/-- The value of a header is a literal, or computed for the length of the body. -/
theorem headerValue_cases {r : Request} {h : String × Piece} (hh : h ∈ Snippet.Node.headers r) :
    (∃ s, h.2 = .string s) ∨ h.2 = .code "Buffer.byteLength(postData)" := by
  rw [Snippet.Node.headers, List.mem_append, List.mem_append] at hh
  rcases hh with (hh | hh) | hh
  · obtain ⟨x, -, rfl⟩ := List.mem_map.mp hh
    exact .inl ⟨x.2, rfl⟩
  · rw [Option.mem_toList, Option.map_eq_some_iff] at hh
    obtain ⟨x, -, rfl⟩ := hh
    exact .inr rfl
  · rw [Option.mem_toList, Option.map_eq_some_iff] at hh
    obtain ⟨x, -, rfl⟩ := hh
    exact .inl ⟨x.header, rfl⟩

theorem closes_headerValue {r : Request} {h : String × Piece} (hh : h ∈ Snippet.Node.headers r) :
    closes false h.2 = true := by
  rcases headerValue_cases hh with ⟨s, hvalue⟩ | hvalue
  · rw [hvalue]
    rfl
  · rw [hvalue]
    rfl

theorem closed_withEndpoint (r : Request) (e : Endpoint) :
    Closed false (Snippet.Node.withEndpoint r e) := by
  have hname := closes_name e.protocol
  have hdata (body : String) : ClosedLine false (Snippet.Node.dataPieces r body) :=
    closedLine_body fun v hv =>
      closedLine_parts rfl ((closed_rules .lowerCase rfl rfl rfl 2).literalAt hv 0) rfl
  have hrequire : Closed false
      [["const ", e.protocol.name, " = require('", e.protocol.name, "');"], []] := by
    have hline : ClosedLine false
        ["const ", e.protocol.name, " = require('", e.protocol.name, "');"] :=
      .cons rfl (.cons hname (.cons rfl (.cons hname rfl)))
    exact (closed_line hline).append rfl
  have hpost : Closed false (Snippet.optional r.body fun b =>
      [.ofParts [["const postData = "], Snippet.Node.dataPieces r b, [";"]], []]) :=
    closed_optional fun body _ => (closed_line (closedLine_parts rfl (hdata body) rfl)).append rfl
  have hheaders : Closed false (Snippet.Node.headerOptions r) := by
    rw [Snippet.Node.headerOptions]
    split_ifs
    · rfl
    · have hlines : Closed false ((Snippet.Node.headers r).map fun h =>
          ["    ", .string h.1, ": ", h.2, ","]) :=
        closed_map fun h hh =>
          .cons rfl (.cons rfl (.cons rfl (.cons (closes_headerValue hh) rfl)))
      exact closed_block rfl (closed_block hlines (closed_block rfl (closed_nil false)))
  have hport : Closed false (if e.hasUnusualPort then
      [["  port: ", String.ofList (Nat.toDigits 10 e.port), ","]] else []) := by
    split_ifs
    · exact closed_line (.cons rfl (.cons (closes_plain false (plain_toDigits e.port)) rfl))
    · rfl
  have hoptions : Closed false (Snippet.Node.options r e) :=
    closed_block rfl <| closed_block hport <| closed_block rfl <| closed_block hheaders <|
      closed_block rfl (closed_nil false)
  have hcall : Closed false (Snippet.Node.call e) := by
    have hline : ClosedLine false
        ["const req = ", e.protocol.name, ".request(options, (res) => \x7b"] :=
      .cons rfl (.cons hname rfl)
    exact (closed_line hline).append rfl
  exact closed_block hrequire <| closed_block hpost <| closed_block hoptions <|
    closed_block rfl <| closed_block hcall <| closed_block (closed_optional fun _ _ => rfl) <|
    closed_block rfl (closed_nil false)

theorem closed_node (r : Request) : Closed false (Snippet.node r) := by
  rw [Snippet.node]
  cases Url.endpoint? r.url with
  | none => rfl
  | some e => exact closed_withEndpoint r e

theorem closed_snippet (r : Request) (t : Target) : Closed t.backquotes (r.snippet t) := by
  cases t with
  | fetch => exact closed_fetch r
  | axios => exact closed_axios r
  | requests => exact closed_requests r
  | go => exact closed_go r
  | node => exact closed_node r

end Source

end CurlSnippet
