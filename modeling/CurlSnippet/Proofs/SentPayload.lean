import CurlSnippet.Proofs.SnippetBody

/-!
What the call of a script for Requests sends. The script binds its body to a name and passes it on
by a keyword, as a text or as a value that is sent as JSON. The library takes the value `None` for
no value, so of all bodies exactly the JSON null is not sent.
-/

namespace CurlSnippet

open Source

/-- What a call gives the library to send as a body. -/
inductive Payload where
  | nothing
  | text (t : Text)
  | value (v : Json)

namespace Payload

/-- How the library takes a value that it is given for the body. -/
def ofValue : Json → Payload
  | .null => .nothing
  | v => .value v

theorem ofValue_of_ne {v : Json} (h : v ≠ .null) : ofValue v = .value v := by
  cases v
  case null => exact absurd rfl h
  all_goals rfl

/-- The literal that the library takes for no value. -/
def absent : List Lexeme := ofPiece false (.code "None")

/-- What is passed on by a keyword of the call, with the name that it has been bound to. -/
def ofBinding? (opener use : String) (e : List Lexeme) : Option Payload :=
  if opener = "\ndata = " ∧ use = ", data=data" then (Target.soleText? e).map text
  else if opener = "\npayload = " ∧ use = ", json=payload" then
    if e = absent then some nothing else (Target.bodyValue? .requests e).map value
  else none

/-- What is sent by what has been found of a body in a script. A body is bound before the call, and
the call has the keyword that passes it on; without a body there is neither. -/
def ofFound? : List (String × List Lexeme) → Option Payload
  | [] => some nothing
  | [(opener, rest), (use, _)] => ofBinding? opener use (expression '\n' 0 rest)
  | _ => none

/-- What the text of a script has its call send. -/
def ofScript? (code : Text) : Option Payload :=
  (Source.read false .code code).bind fun ls =>
    ofFound? (found (Target.bodyWords .requests) (.code (.scalar '\n') :: ls))

end Payload

namespace Request

theorem ofScript?_code (r : Request) : Payload.ofScript? (r.code .requests) =
    Payload.ofFound? (found (Target.bodyWords .requests) (ofLines false (Snippet.requests r))) := by
  obtain ⟨ls, hread, hlines, -⟩ := r.read_code .requests
  have hread' : Source.read false .code (r.code .requests) = some ls := hread
  rw [Payload.ofScript?, hread', Option.bind_some]
  exact congrArg (fun ls => Payload.ofFound? (found _ ls)) hlines

theorem ofScript?_without_body {r : Request} (h : r.body = none) :
    Payload.ofScript? (r.code .requests) = some .nothing := by
  have hshows := shows_requests r
  rw [Shows, bodyUses, h] at hshows
  have hfound : found (Target.bodyWords .requests) (ofLines false (Snippet.requests r)) = [] :=
    List.map_eq_nil_iff.mp hshows
  rw [ofScript?_code, hfound, Payload.ofFound?]

/-- A script with a body binds it, and passes it on once. -/
theorem ofScript?_with_body {r : Request} {body : String} (h : r.body = some body) {use : String}
    (huse : (Target.bodyForm (r.jsonBody? body).isSome .requests).use = some use) :
    Payload.ofScript? (r.code .requests) =
      Payload.ofBinding? (Target.bodyForm (r.jsonBody? body).isSome .requests).opener use
        (ofLine false (r.bodyLine body .requests)) := by
  have hshows := shows_requests r
  rw [Shows, bodyUses, h] at hshows
  obtain ⟨more, after, hfound, hafter⟩ := hshows
  simp only [huse, Option.toList_some, List.map_eq_singleton_iff] at hafter
  obtain ⟨⟨_, rest⟩, rfl, rfl⟩ := hafter
  have hexpression := expression_of_level (expression_bodyLine .requests r body).level more
  exact (ofScript?_code r).trans <| (congrArg Payload.ofFound? hfound).trans <|
    congrArg (Payload.ofBinding? _ _) hexpression

/-- The value of the expression of a body that is sent as a value. -/
theorem bodyValue?_bodyLine {r : Request} {body : String} {v : Json}
    (hv : r.jsonBody? body = some v) :
    Target.bodyValue? .requests (ofLine false (r.bodyLine body .requests)) = some v := by
  have hcarries := (expression_bodyLine .requests r body).carries
  rwa [Carries, hv] at hcarries

theorem ofScript?_text {r : Request} {body : String} (h : r.body = some body)
    (hv : r.jsonBody? body = none) :
    Payload.ofScript? (r.code .requests) = some (.text (Text.ofString body)) := by
  have huse : (Target.bodyForm (r.jsonBody? body).isSome .requests).use = some ", data=data" := by
    rw [hv]
    rfl
  obtain ⟨l, hl, -, hdenoted⟩ : ∃ l, ofLine false (r.bodyLine body .requests) = [l] ∧
      l.text = quote (Text.ofString body) ∧ l.denoted? = some (Text.ofString body) := by
    have hcarries := (expression_bodyLine .requests r body).carries
    rwa [Carries, hv] at hcarries
  rw [ofScript?_with_body h huse, hl, hv]
  show (l.denoted?).map Payload.text = _
  rw [hdenoted]
  rfl

/-- The literal of a value is that of no value exactly for null. -/
theorem bodyLine_eq_absent_iff {r : Request} {body : String} {v : Json}
    (hv : r.jsonBody? body = some v) :
    ofLine false (r.bodyLine body .requests) = Payload.absent ↔ v = .null := by
  have hvalue := bodyValue?_bodyLine hv
  constructor
  · intro h
    rw [h] at hvalue
    have hnull : Target.bodyValue? .requests Payload.absent = some .null := by
      with_unfolding_all rfl
    exact Option.some.inj (hvalue.symm.trans hnull)
  · rintro rfl
    rw [bodyLine, hv]
    rfl

theorem ofScript?_value {r : Request} {body : String} (h : r.body = some body) {v : Json}
    (hv : r.jsonBody? body = some v) :
    Payload.ofScript? (r.code .requests) = some (.ofValue v) := by
  have huse : (Target.bodyForm (r.jsonBody? body).isSome .requests).use =
      some ", json=payload" := by
    rw [hv]
    rfl
  rw [ofScript?_with_body h huse, hv]
  show (if ofLine false (r.bodyLine body .requests) = Payload.absent then some Payload.nothing
    else (Target.bodyValue? .requests (ofLine false (r.bodyLine body .requests))).map .value) = _
  rw [bodyValue?_bodyLine hv]
  by_cases hnull : v = .null
  · rw [if_pos ((bodyLine_eq_absent_iff hv).mpr hnull), hnull]
    rfl
  · rw [if_neg fun habsent => hnull ((bodyLine_eq_absent_iff hv).mp habsent),
      Payload.ofValue_of_ne hnull]
    rfl

/-- What a script sends, by the request: nothing without a body, the text of a body that is sent as
text, and the value of any other, but for null, which is not sent. -/
theorem payload_of_code (r : Request) : Payload.ofScript? (r.code .requests) =
    some (match r.body with
      | none => .nothing
      | some body => match r.jsonBody? body with
        | none => .text (Text.ofString body)
        | some .null => .nothing
        | some v => .value v) := by
  cases h : r.body with
  | none => exact ofScript?_without_body h
  | some body =>
    dsimp only
    cases hv : r.jsonBody? body with
    | none => exact ofScript?_text h hv
    | some v =>
      rw [ofScript?_value h hv]
      cases v
      all_goals rfl

/-- A body that is the JSON null is there and is taken for a value, but nothing is sent. -/
theorem payload_of_code_null :
    ∃ r : Request, r.body = some "null" ∧ r.jsonBody? "null" = some .null ∧
      Payload.ofScript? (r.code .requests) = some .nothing := by
  let r : Request := ⟨"http://h", "POST", [], some "null", none, true, false, by decide, by decide⟩
  have hnull : r.jsonBody? "null" = some .null := by
    with_unfolding_all rfl
  exact ⟨r, rfl, hnull, ofScript?_value rfl hnull⟩

end Request

end CurlSnippet
