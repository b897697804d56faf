import CurlSnippet.Proofs.NativeLiteral

/-!
The expressions by which snippets stand for a body. The literal of its text denotes that text, and
the expression of its value, as each language writes it, is read back to the value. No such
expression ends before its end, and none is taken for the program text around it.
-/

namespace CurlSnippet

open Source

namespace Target

/-- The character that ends the expression of a body. -/
def bodyStop : Target → Char
  | .fetch | .axios => ','
  | .requests => '\n'
  | .go => ')'
  | .node => ';'

/-- The argument of a call of `JSON.stringify`. -/
def argument? (e : List Lexeme) : Option (List Lexeme) :=
  (after? "JSON.stringify(".toList e).bind fun rest =>
    if rest.getLast? = some (.code (.scalar ')')) then some rest.dropLast else none

/-- The text that an expression of one literal denotes. -/
def soleText? : List Lexeme → Option Text
  | [l] => l.denoted?
  | _ => none

/-- The value of an expression for a body that is sent as one, read as JSON. In Go the expression is
a literal that holds the JSON text; capitalized names are replaced by those of JSON first. -/
def bodyValue? : Target → List Lexeme → Option Json
  | .fetch, e | .node, e => (argument? e).bind fun ls => Json.decode? (text ls)
  | .axios, e => Json.decode? (text e)
  | .requests, e => (respell? .capitalized 0 e).bind fun ls => Json.decode? (text ls)
  | .go, e => (soleText? e).bind Json.decode?

end Target

/-- The expression is the literal of a body that is sent as text, or has the value of the body. -/
def Request.Carries (t : Target) (r : Request) (body : String) (e : List Lexeme) : Prop :=
  match r.jsonBody? body with
  | none => ∃ l, e = [l] ∧ l.text = quote (Text.ofString body) ∧
      l.denoted? = some (Text.ofString body)
  | some v => t.bodyValue? e = some v

namespace Source

/-- What every expression for a body comes with. -/
structure ExpressionOf (t : Target) (r : Request) (body : String) (e : List Lexeme) : Prop where
  quiet : Quiet e
  level : Level t.bodyStop 0 e
  carries : r.Carries t body e

section Expressions

variable {t : Target} {r : Request} {body : String}

theorem expression_text (h : r.jsonBody? body = none) :
    ExpressionOf t r body (ofLine t.backquotes [.string body]) where
  quiet := rfl
  level := level_quoted _
  carries := by
    rw [Request.Carries, h]
    exact ⟨_, rfl, rfl, denoted?_quote _⟩

/-- An expression for a body is one for its text, or one for its value. -/
theorem expression_body {native : Json → Line}
    (h : ∀ v, r.jsonBody? body = some v → Json.Regular v →
      ExpressionOf t r body (ofLine t.backquotes (native v))) :
    ExpressionOf t r body (ofLine t.backquotes (match r.jsonBody? body with
      | some v => native v
      | none => [.string body])) := by
  cases hv : r.jsonBody? body with
  | none => exact expression_text hv
  | some v => exact h v hv (regular_jsonBody? hv)

theorem carries_value {e : List Lexeme} {v : Json} (h : r.jsonBody? body = some v)
    (hvalue : t.bodyValue? e = some v) : r.Carries t body e := by
  rw [Request.Carries, h]
  exact hvalue

theorem expression_axios :
    ExpressionOf .axios r body (ofLine false (Snippet.Axios.dataPieces r body)) :=
  expression_body fun v h hv => {
    quiet := quiet_literalAt (.inl rfl) hv 2 1
    level := level_literalAt (.inl rfl) (by decide) hv 2 1 0
    carries := carries_value h (decode?_ofLine hv 2 1) }

/-- The characters before the brackets of a call. -/
def callee : List Lexeme := "JSON.stringify".toList.map fun c => .code (.scalar c)

theorem ofLine_call {l : Line} :
    ofLine false (.ofParts [["JSON.stringify("], l, [")"]]) =
      callee ++ (.code (.scalar '(') :: (ofLine false l ++ [.code (.scalar ')')])) := by
  simp only [Line.ofParts, List.flatten_cons, ofLine_append]
  rfl

theorem argument?_call (e : List Lexeme) :
    Target.argument? (callee ++ (.code (.scalar '(') :: (e ++ [.code (.scalar ')')]))) =
      some e := by
  have hafter : after? "JSON.stringify(".toList
      (callee ++ (.code (.scalar '(') :: (e ++ [.code (.scalar ')')]))) =
        some (e ++ [.code (.scalar ')')]) := rfl
  rw [Target.argument?, hafter, Option.bind_some, List.getLast?_append, List.dropLast_concat]
  rfl

/-- A call around the literal of a value. -/
theorem expression_call (level : Int) {v : Json} (ht : t = .fetch ∨ t = .node)
    (h : r.jsonBody? body = some v) :
    ExpressionOf t r body (ofLine false
      (.ofParts [["JSON.stringify("], literalAt .lowerCase 2 level v, [")"]])) := by
  have hv := regular_jsonBody? h
  have hends : endsLiteral t.bodyStop = true ∧ '(' ≠ t.bodyStop := by
    rcases ht with rfl | rfl
    · decide
    · decide
  rw [ofLine_call]
  refine ⟨?_, ?_, carries_value h ?_⟩
  · have hopen : Quiet (callee ++ [.code (.scalar '(')]) := rfl
    have hclose : Quiet [.code (.scalar ')')] := rfl
    have hall := hopen.append ((quiet_literalAt (.inl rfl) hv 2 level).append hclose)
    rwa [List.append_assoc] at hall
  · have hcallee : Level t.bodyStop 0 callee := by
      apply level_plain
      rcases ht with rfl | rfl
      · rfl
      · rfl
    have hliteral := level_literalAt (.inl rfl) hends.1 hv 2 level 1
    exact hcallee.append (hliteral.wrap rfl ⟨rfl, rfl⟩ hends.2)
  · have hcall := argument?_call (ofLine false (literalAt .lowerCase 2 level v))
    rcases ht with rfl | rfl
    · rw [Target.bodyValue?, hcall, Option.bind_some, decode?_ofLine hv]
    · rw [Target.bodyValue?, hcall, Option.bind_some, decode?_ofLine hv]

theorem expression_fetch :
    ExpressionOf .fetch r body (ofLine false (Snippet.Fetch.bodyPieces r body)) :=
  expression_body fun _ h _ => expression_call 1 (.inl rfl) h

theorem expression_node :
    ExpressionOf .node r body (ofLine false (Snippet.Node.dataPieces r body)) :=
  expression_body fun _ h _ => expression_call 0 (.inr rfl) h

theorem expression_payload {v : Json} (h : r.jsonBody? body = some v) :
    ExpressionOf .requests r body (ofLine false (literalAt .capitalized 4 0 v)) where
  quiet := quiet_literalAt (.inr rfl) (regular_jsonBody? h) 4 0
  level := level_literalAt (.inr rfl) (by decide) (regular_jsonBody? h) 4 0 0
  carries := by
    have hv := regular_jsonBody? h
    apply carries_value h
    rw [Target.bodyValue?, respell?_literalAt hv, Option.bind_some, decode?_ofLine hv]

theorem denoted?_textPiece (t : Text) :
    ∃ l, ofLine true [Snippet.Go.textPiece t] = [l] ∧ l.denoted? = some t := by
  rw [Snippet.Go.textPiece]
  split_ifs with h
  · exact ⟨_, rfl, denoted?_quote t⟩
  · rw [Bool.or_eq_true, not_or, Bool.not_eq_true, Bool.not_eq_true] at h
    refine ⟨.raw t, rfl, ?_⟩
    have hreturn : ∀ p ∈ t, (p != .scalar '\r') = true := by
      intro p hp
      rw [bne_iff_ne]
      rintro rfl
      rw [List.contains_iff_mem.mpr hp] at h
      cases h.2
    rw [Lexeme.denoted?, List.filter_eq_self.mpr hreturn]

theorem expression_go :
    ExpressionOf .go r body (ofLine true [Snippet.Go.bodyPiece r body]) := by
  rw [Snippet.Go.bodyPiece]
  cases hv : r.jsonBody? body with
  | none => exact expression_text hv
  | some v =>
    obtain ⟨l, hl, hdenoted⟩ := denoted?_textPiece (v.pretty 2)
    have hread : Target.bodyValue? .go [l] = some v := by
      rw [Target.bodyValue?, Target.soleText?, hdenoted, Option.bind_some,
        Json.decode?_pretty 2 (regular_jsonBody? hv)]
    dsimp only
    rw [hl]
    cases l with
    | code p => cases hdenoted
    | quoted t => exact ⟨rfl, level_quoted t, carries_value hv hread⟩
    | raw t => exact ⟨rfl, fun _ => rfl, carries_value hv hread⟩

end Expressions

end Source

namespace Request

/-- The expression of a body in a snippet. -/
def bodyLine (r : Request) (body : String) : Target → Line
  | .fetch => Snippet.Fetch.bodyPieces r body
  | .axios => Snippet.Axios.dataPieces r body
  | .requests => match r.jsonBody? body with
    | some v => literalAt .capitalized 4 0 v
    | none => [.string body]
  | .go => [Snippet.Go.bodyPiece r body]
  | .node => Snippet.Node.dataPieces r body

theorem expression_bodyLine (t : Target) (r : Request) (body : String) :
    ExpressionOf t r body (ofLine t.backquotes (r.bodyLine body t)) := by
  cases t with
  | fetch => exact expression_fetch
  | axios => exact expression_axios
  | requests => exact expression_body fun v h _ => expression_payload h
  | go => exact expression_go
  | node => exact expression_node

end Request

end CurlSnippet
