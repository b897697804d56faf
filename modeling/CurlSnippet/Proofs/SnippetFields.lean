import CurlSnippet.Proofs.SnippetStatement

/-!
A snippet states its request. The scanner of each target takes the lines of a snippet block by
block, and what it finds at the place of each literal is the part of the request that belongs there.
-/

namespace CurlSnippet

/-- The value of a header as it is written. -/
def HeaderValue.piece : HeaderValue → Piece
  | text s => .string s
  | bodyLength => .code "Buffer.byteLength(postData)"

namespace Source

open Scanner

theorem ofLines_append (b : Bool) (s t : Snippet) :
    ofLines b (s ++ t) = ofLines b s ++ ofLines b t :=
  List.flatMap_append

theorem ofLines_map {α : Type} (b : Bool) (xs : List α) (line : α → Line) :
    ofLines b (xs.map line) = xs.flatMap fun x => ofLines b [line x] := by
  simp only [ofLines, List.flatMap_map, List.flatMap_singleton]

theorem ofLines_block (b : Bool) (s : Snippet) (rest : List Snippet) :
    ofLines b (Snippet.ofBlocks (s :: rest)) = ofLines b s ++ ofLines b (Snippet.ofBlocks rest) :=
  ofLines_append b s _

theorem ofLines_noBlock (b : Bool) : ofLines b (Snippet.ofBlocks []) = [] := rfl

section Headers

theorem takes_headerValue (v : HeaderValue) : Takes headerValue (ofPiece false v.piece) v := by
  cases v with
  | text s =>
    have hnone : TakesBefore (Lacks false "Buffer.byteLength(postData)")
        (option false "Buffer.byteLength(postData)" (pure ())) [] none := takes_option_none
    exact hnone.bind (fun _ => rfl) ((takes_literal false s).bind (takes_pure _))
  | bodyLength => exact (takes_option_some (takes_pure ())).bind (takes_pure _)

/-- A header on a line of its own. -/
def ofHeader (h : String × HeaderValue) : List Lexeme :=
  ofPiece false (.code "\n    ") ++ (ofPiece false (.string h.1) ++ (ofPiece false (.code ": ") ++
    (ofPiece false h.2.piece ++ ofPiece false (.code ","))))

/-- A map of headers between its first line and its last; nothing without headers. -/
def ofHeaderMap (first last : String) (hs : List (String × HeaderValue)) : List Lexeme :=
  if hs.isEmpty then []
  else ofPiece false (.code first) ++ (hs.flatMap ofHeader ++ ofPiece false (.code last))

theorem takes_header (h : String × HeaderValue) :
    Takes header (ofPiece false (.string h.1) ++ (ofPiece false (.code ": ") ++
      (ofPiece false h.2.piece ++ ofPiece false (.code ",")))) h :=
  (takes_literal _ _).bind <| (takes_mark _ _).bind <| (takes_headerValue _).bind <|
    (takes_mark _ _).bind_pure h

theorem takes_headerMap (first : String) {last : String}
    (hlast : Apart false "\n    " (ofPiece false last))
    (hs : List (String × HeaderValue)) :
    TakesBefore (Lacks false first) (headerMap first last) (ofHeaderMap first last hs) hs := by
  have hmany : TakesBefore (Lacks false "\n    ") (many false "\n    " header)
      (hs.flatMap ofHeader) (hs.map id) :=
    takes_many fun h _ => ⟨_, rfl, takes_header h⟩
  rw [List.map_id] at hmany
  rw [ofHeaderMap]
  split_ifs with h
  · rw [List.isEmpty_iff.mp h]
    exact takes_option_none.map fun found => found.getD []
  · have hheaders : Takes (headersThen last) _ hs :=
      hmany.bind hlast ((takes_mark _ _).bind_pure hs)
    exact (takes_option_some hheaders).before.map fun found => found.getD []

theorem off_headerMap {w first last : String} (h : Apart false w (ofPiece false first))
    (hs : List (String × HeaderValue)) : Off false w (ofHeaderMap first last hs) := by
  rw [ofHeaderMap]
  split_ifs
  · exact .inl rfl
  · exact .inr (h.append _)

/-- The header lines of a block, by their lexemes. -/
theorem ofLines_headerLines (indent : Piece) (h : ofPiece false indent = ofPiece false "    ")
    (hs : List (String × HeaderValue)) :
    ofLines false (hs.map fun h => [indent, .string h.1, ": ", h.2.piece, ","]) =
      hs.flatMap ofHeader := by
  rw [ofLines, List.flatMap_map]
  congr 1
  funext x
  simp only [ofLine_cons, h]
  simp [ofHeader, ofLine]
  rfl

theorem ofLines_headerBlock (hs : List (String × String)) :
    ofLines false (Snippet.headerBlock hs) =
      ofHeaderMap "\n  headers: \x7b" "\n  \x7d," (hs.map fun h => (h.1, .text h.2)) := by
  have hlines := ofLines_headerLines (Snippet.tab 2 2) rfl
    (hs.map fun h => (h.1, .text h.2))
  rw [List.map_map] at hlines
  rw [Snippet.headerBlock, ofHeaderMap, List.isEmpty_map]
  split_ifs
  · rfl
  · rw [← hlines, ofLines_block, ofLines_block, ofLines_block]
    rfl

end Headers

theorem takes_literalThen (b : Bool) (s after : String) :
    Takes (literalThen b after) (ofPiece b (.string s) ++ ofPiece b (.code after)) s :=
  (takes_literal _ _).bind ((takes_mark _ _).bind_pure s)

theorem takes_credentials (b : Bool) (between last : String) (a : Credentials) :
    Takes (credentials b between last) (ofPiece b (.string a.user) ++ (ofPiece b (.code between) ++
      (ofPiece b (.string a.password) ++ ofPiece b (.code last)))) a :=
  (takes_literal _ _).bind <| (takes_mark _ _).bind <| (takes_literal _ _).bind <|
    (takes_mark _ _).bind_pure a

/-- A body expression between program text, or nothing. -/
theorem takes_body {t : Target} {r : Request} {c : Option String} {b : Bool} {opener : String}
    {lines : String → Snippet}
    (h : ∀ text ∈ c, ofLines b (lines text) = ofPiece b (.code opener) ++
      (ofLine t.backquotes (r.bodyLine text t) ++ [.code (.scalar t.bodyStop)])) :
    TakesBefore (Lacks b opener) (body b opener t.bodyStop) (ofLines b (Snippet.optional c lines))
      (c.map fun _ => ()) :=
  takes_option fun text htext =>
    ⟨_, h text htext, takes_passOver (r.expression_bodyLine t text).level⟩

/-- A user and a password between program text; nothing without them. -/
def ofAuth (b : Bool) (opener between last : String) : Option Credentials → List Lexeme
  | none => []
  | some a => ofPiece b (.code opener) ++ (ofPiece b (.string a.user) ++
    (ofPiece b (.code between) ++ (ofPiece b (.string a.password) ++ ofPiece b (.code last))))

theorem takes_auth (b : Bool) (opener between last : String) (auth : Option Credentials) :
    TakesBefore (Lacks b opener) (option b opener (credentials b between last))
      (ofAuth b opener between last auth) auth := by
  cases auth with
  | none => exact takes_option_none
  | some a => exact (takes_option_some (takes_credentials b between last a)).before

theorem off_auth {b : Bool} {w opener between last : String} (h : Apart b w (ofPiece b opener))
    (auth : Option Credentials) : Off b w (ofAuth b opener between last auth) := by
  cases auth with
  | none => exact .inl rfl
  | some a => exact .inr (h.append _)

/-- What is passed on where something has been bound. -/
theorem takes_passed (b : Bool) (s : String) (bound : Bool) :
    TakesBefore (Lacks b s) (passed b s bound) (if bound then ofPiece b (.code s) else []) () := by
  intro rest hrest
  cases bound with
  | false =>
    show (option b s (pure ()) ([] ++ rest)).bind _ = _
    rw [takes_option_none rest hrest]
    rfl
  | true =>
    have hfound := takes_option_some (b := b) (s := s) (takes_pure ()) rest
    rw [List.append_nil] at hfound
    show (option b s (pure ()) (ofPiece b (.code s) ++ rest)).bind _ = _
    rw [hfound]
    rfl

theorem off_passed {b : Bool} {w s : String} (h : Apart b w (ofPiece b (.code s))) (bound : Bool) :
    Off b w (if bound then ofPiece b (.code s) else []) := by
  cases bound with
  | false => exact .inl rfl
  | true => exact .inr h

theorem takes_fetch (r : Request) :
    Takes Scanner.fetch (ofLines false (Snippet.fetch r)) (r.stated .fetch) := by
  have hmethod : TakesBefore (Lacks false "\n  method: ")
      (option false "\n  method: " (literalThen false ","))
      (ofLines false (if r.method = "GET" then [] else [["  method: ", .string r.method, ","]]))
      (if r.method = "GET" then none else some r.method) := by
    split_ifs
    · exact takes_option_none
    · exact (takes_option_some (takes_literalThen false r.method ",")).before
  have hheaders : TakesBefore (Lacks false "\n  headers: \x7b")
      (headerMap "\n  headers: \x7b" "\n  \x7d,") _ (r.statedHeaders .fetch) :=
    takes_headerMap _ (fun _ => by rfl) _
  have hbody : TakesBefore (Lacks false "\n  body: ") (Scanner.body false "\n  body: " ',')
      (ofLines false (Snippet.optional r.body fun b =>
        [.ofParts [["  body: "], Snippet.Fetch.bodyPieces r b, [","]]])) (r.body.map fun _ => ()) :=
    takes_body (t := .fetch) fun _ _ => ofLines_parts false _ _ _
  have htakes : Takes Scanner.fetch _ ⟨.url r.url,
      ((if r.method = "GET" then none else some r.method).map .literal).getD .omitted,
      r.statedHeaders .fetch, none⟩ :=
    (takes_mark _ _).bind <| (takes_literal false _).bind <| (takes_mark _ _).bind <|
      hmethod.bind ((off_headerMap (fun _ => by rfl) _).append <|
        (off_optional fun _ _ _ => by rfl).append fun _ => by rfl) <|
      hheaders.bind ((off_optional fun _ _ _ => by rfl).append fun _ => by rfl) <|
      hbody.bind (fun _ => by rfl) <| (takes_mark _ _).bind_pure _
  have hstated : r.stated .fetch = ⟨.url r.url,
      ((if r.method = "GET" then none else some r.method).map .literal).getD .omitted,
      r.statedHeaders .fetch, none⟩ := by
    rw [Request.stated, Request.statedMethod]
    split_ifs
    · rfl
    · rfl
  have hheaderMap : r.statedHeaders .fetch =
      (Snippet.Fetch.headers r).map fun h => (h.1, .text h.2) := by
    cases hauth : r.auth
    · simp [Request.statedHeaders, Snippet.Fetch.headers, hauth]
    · simp [Request.statedHeaders, Snippet.Fetch.headers, hauth]
  rw [hstated]
  refine htakes.of_eq ?_
  rw [hheaderMap, ← ofLines_headerBlock, Snippet.fetch, Snippet.Fetch.options]
  simp only [ofLines_block, ofLines_noBlock, List.append_nil, List.append_assoc]
  rfl

theorem takes_axios (r : Request) :
    Takes Scanner.axios (ofLines false (Snippet.axios r)) (r.stated .axios) := by
  have hheaders : TakesBefore (Lacks false "\n  headers: \x7b")
      (headerMap "\n  headers: \x7b" "\n  \x7d,") _ (r.headers.map fun h => (h.1, .text h.2)) :=
    takes_headerMap _ (fun _ => by rfl) _
  have hbody : TakesBefore (Lacks false "\n  data: ") (body false "\n  data: " ',')
      (ofLines false (Snippet.optional r.body fun b =>
        [.ofParts [["  data: "], Snippet.Axios.dataPieces r b, [","]]])) (r.body.map fun _ => ()) :=
    takes_body (t := .axios) fun _ _ => ofLines_parts false _ _ _
  have htakes : Takes Scanner.axios _ ⟨.url r.url, .literal (lower r.method),
      r.headers.map fun h => (h.1, .text h.2), r.auth⟩ :=
    (takes_mark _ _).bind <| (takes_literal false _).bind <| (takes_mark _ _).bind <|
      (takes_literal false _).bind <| (takes_mark _ _).bind <|
      (takes_auth false _ _ _ r.auth).bind ((off_headerMap (fun _ => by rfl) _).append <|
        (off_optional fun _ _ _ => by rfl).append fun _ => by rfl) <|
      hheaders.bind ((off_optional fun _ _ _ => by rfl).append fun _ => by rfl) <|
      hbody.bind (fun _ => by rfl) <| (takes_mark _ _).bind_pure _
  have hstated : r.stated .axios = ⟨.url r.url, .literal (lower r.method),
      r.headers.map fun h => (h.1, .text h.2), r.auth⟩ := by
    simp [Request.stated, Request.statedAddress, Request.statedMethod, Request.statedHeaders,
      Request.statedCredentials]
  have hauth : ofLines false (Snippet.optional r.auth fun a => [
      ["  auth: \x7b"],
      ["    username: ", .string a.user, ","],
      ["    password: ", .string a.password, ","],
      ["  \x7d,"]]) =
      ofAuth false "\n  auth: \x7b\n    username: " ",\n    password: " ",\n  \x7d," r.auth := by
    cases r.auth
    · rfl
    · rfl
  rw [hstated]
  refine htakes.of_eq ?_
  rw [← ofLines_headerBlock, ← hauth, Snippet.axios, Snippet.Axios.config]
  simp only [ofLines_block, ofLines_noBlock, List.append_nil, List.append_assoc]
  rfl

/-- The lexemes of the function that is called and what it is given first. -/
def ofCallee (r : Request) : List Lexeme :=
  if r.method ∈ Snippet.Requests.helpers then
    (lower r.method).toList.map (fun c => .code (.scalar c)) ++ ofPiece false "(url"
  else ofPiece false "request(" ++ (ofPiece false (.string r.method) ++ ofPiece false ", url")

theorem letters_helper : ∀ m ∈ Snippet.Requests.helpers,
    (lower m).toList.all Char.isAlpha = true ∧ (lower m).toList.head? ≠ some 'r' := by
  decide +kernel

theorem apart_helper {m : String} (h : m ∈ Snippet.Requests.helpers) :
    Apart false "request(" ((lower m).toList.map (fun c => .code (.scalar c)) ++
      ofPiece false "(url") := by
  obtain ⟨-, hfirst⟩ := letters_helper m h
  intro rest
  cases hname : (lower m).toList with
  | nil => rfl
  | cons c cs =>
    rw [hname, List.head?_cons] at hfirst
    have hne : 'r' ≠ c := fun heq => hfirst (congrArg some heq.symm)
    exact lacks_of_ne rfl hne

theorem takes_callee (r : Request) :
    Takes Scanner.callee (ofCallee r) (r.statedMethod .requests) := by
  rw [ofCallee, Request.statedMethod]
  split_ifs with h
  · have hletters := List.all_eq_true.mp (letters_helper r.method h).1
    have hname : Takes (do
        let name ← run Char.isAlpha
        mark false "(url"
        return MethodForm.helper name) _ (.helper (lower r.method).toList) :=
      (takes_run hletters).bind (fun _ => by rfl) ((takes_mark _ _).bind_pure _)
    exact takes_option_none.bind (apart_helper h) hname
  · have hliteral := takes_option_some (b := false) (s := "request(")
      (takes_literalThen false r.method ", url")
    have hall : Takes Scanner.callee _ _ := hliteral.bind (takes_pure (MethodForm.literal r.method))
    rwa [List.append_nil] at hall

/-- A line with an empty line after it. -/
theorem ofLines_gap (first : String) (l : Line) :
    ofLines false [.ofParts [[.code first], l], []] =
      (.code (.scalar '\n') :: ofPiece false (.code first)) ++
        (ofLine false l ++ [.code (.scalar '\n')]) := by
  simp [ofLines, ofLine, Line.ofParts]

/-- The headers that a target adds none to. -/
theorem statedHeaders_plain (r : Request) {t : Target} (ht : t ≠ .fetch ∧ t ≠ .node) :
    r.statedHeaders t = r.headers.map fun h => (h.1, .text h.2) := by
  cases t with
  | fetch => exact absurd rfl ht.1
  | node => exact absurd rfl ht.2
  | _ => exact List.append_nil _

theorem ofLines_headerBinding (r : Request) : ofLines false (Snippet.Requests.headerBinding r) =
    ofHeaderMap "\nheaders = \x7b" "\n\x7d\n" (r.statedHeaders .requests) := by
  have hlines := ofLines_headerLines (Snippet.tab 4 1) rfl
    (r.headers.map fun h => (h.1, .text h.2))
  rw [List.map_map] at hlines
  rw [statedHeaders_plain r (by decide), Snippet.Requests.headerBinding, ofHeaderMap,
    List.isEmpty_map]
  split_ifs
  · rfl
  · rw [← hlines, ofLines_block, ofLines_block, ofLines_block]
    rfl

theorem ofLines_bodyBinding (r : Request) : ofLines false (Snippet.Requests.bodyBinding r) =
    ofLines false (Snippet.optional r.payload? fun b =>
      [.ofParts [["payload = "], r.bodyLine b .requests], []]) ++
    ofLines false (Snippet.optional r.data? fun b =>
      [.ofParts [["data = "], r.bodyLine b .requests], []]) := by
  rw [Snippet.Requests.bodyBinding]
  cases hbody : r.body with
  | none => rw [Request.payload?, Request.data?, hbody]; rfl
  | some b =>
    cases hv : r.jsonBody? b with
    | none =>
      have hpayload : r.payload? = none := by simp [Request.payload?, hbody, hv]
      have hdata : r.data? = some b := by simp [Request.data?, hbody, hv]
      simp only [hpayload, hdata, Snippet.optional, Request.bodyLine, hv]
      rfl
    | some v =>
      have hpayload : r.payload? = some b := by simp [Request.payload?, hbody, hv]
      have hdata : r.data? = none := by simp [Request.data?, hbody, hv]
      simp only [hpayload, hdata, Snippet.optional, Request.bodyLine, hv]
      exact (List.append_nil _).symm

theorem ofLine_callee (r : Request) :
    .code (.scalar '\n') :: ofLine false (Snippet.Requests.callee r) =
      ofPiece false "\nresponse = requests." ++ ofCallee r := by
  rw [Snippet.Requests.callee, ofCallee]
  split_ifs with h
  · have hletters := List.all_eq_true.mp (letters_helper r.method h).1
    have hname := ofPiece_plain false fun c hc =>
      ⟨ne_of_kind (hletters c hc) (by decide), ne_of_kind (hletters c hc) (by decide)⟩
    rw [String.ofList_toList] at hname
    rw [← hname, ofLine_cons, ofLine_cons, ofLine_cons]
    rfl
  · rfl

theorem ofLine_arguments (r : Request) : ofLine false (Snippet.Requests.arguments r) =
    (if !(r.statedHeaders .requests).isEmpty then ofPiece false ", headers=headers" else []) ++
      (ofAuth false ", auth=(" ", " ")" r.auth ++
        ((if r.payload?.isSome then ofPiece false ", json=payload" else []) ++
          if r.data?.isSome then ofPiece false ", data=data" else [])) := by
  have hheaders : ofLine false (Snippet.Requests.headerArgument r) =
      if !(r.statedHeaders .requests).isEmpty then ofPiece false ", headers=headers" else [] := by
    rw [Snippet.Requests.headerArgument, statedHeaders_plain r (by decide), List.isEmpty_map]
    cases r.headers.isEmpty
    · rfl
    · rfl
  have hauth : ofLine false (Snippet.Requests.authArgument r) =
      ofAuth false ", auth=(" ", " ")" r.auth := by
    rw [Snippet.Requests.authArgument]
    cases r.auth
    · rfl
    · rfl
  have hbody : ofLine false (Snippet.Requests.bodyArgument r) =
      (if r.payload?.isSome then ofPiece false ", json=payload" else []) ++
        if r.data?.isSome then ofPiece false ", data=data" else [] := by
    rw [Snippet.Requests.bodyArgument]
    cases hbody : r.body with
    | none => simp [Request.payload?, Request.data?, hbody, ofLine]
    | some b =>
      cases hv : r.jsonBody? b with
      | none => simp [Request.payload?, Request.data?, hbody, hv, ofLine]
      | some v => simp [Request.payload?, Request.data?, hbody, hv, ofLine]
  rw [← hheaders, ← hauth, ← hbody, Snippet.Requests.arguments, Line.ofParts]
  simp only [List.flatten_cons, List.flatten_nil, List.append_nil, ofLine_append]

/-- The lines that make the call and print what comes back. -/
theorem ofLines_requestsCall (r : Request) :
    ofLines false [["url = ", .string r.url], [], Snippet.Requests.call r,
      ["print(response.json())"]] =
    ofPiece false "\nurl = " ++ (ofPiece false (.string r.url) ++ (.code (.scalar '\n') ::
      (.code (.scalar '\n') :: ofLine false (Snippet.Requests.callee r)) ++
        (ofLine false (Snippet.Requests.arguments r) ++
          ofPiece false ")\nprint(response.json())"))) := by
  have hline : ofLine false (Snippet.Requests.call r) =
      ofLine false (Snippet.Requests.callee r) ++ (ofLine false (Snippet.Requests.arguments r) ++
        ofLine false [")"]) := by
    simp only [Snippet.Requests.call, Line.ofParts, List.flatten_cons, List.flatten_nil,
      List.append_nil, ofLine_append]
  simp only [ofLines, List.flatMap_cons, hline, List.append_assoc, List.cons_append]
  rfl

theorem takes_requests (r : Request) :
    Takes Scanner.requests (ofLines false (Snippet.requests r)) (r.stated .requests) := by
  have hheaders : TakesBefore (Lacks false "\nheaders = \x7b")
      (headerMap "\nheaders = \x7b" "\n\x7d\n") _ (r.statedHeaders .requests) :=
    takes_headerMap _ (fun _ => by rfl) _
  have hpayload : TakesBefore (Lacks false "\npayload = ") (body false "\npayload = " '\n')
      (ofLines false (Snippet.optional r.payload? fun b =>
        [.ofParts [["payload = "], r.bodyLine b .requests], []])) (r.payload?.map fun _ => ()) :=
    takes_body (t := .requests) fun _ _ => ofLines_gap _ _
  have hdata : TakesBefore (Lacks false "\ndata = ") (body false "\ndata = " '\n')
      (ofLines false (Snippet.optional r.data? fun b =>
        [.ofParts [["data = "], r.bodyLine b .requests], []])) (r.data?.map fun _ => ()) :=
    takes_body (t := .requests) fun _ _ => ofLines_gap _ _
  have htakes : Takes Scanner.requests _ (r.stated .requests) :=
    (takes_mark _ _).bind <|
      hheaders.bind ((off_optional fun _ _ _ => by rfl).append <|
        (off_optional fun _ _ _ => by rfl).append fun _ => by rfl) <|
      hpayload.bind ((off_optional fun _ _ _ => by rfl).append fun _ => by rfl) <|
      hdata.bind (fun _ => by rfl) <| (takes_mark _ _).bind <| (takes_literal false _).bind <|
      (takes_mark _ _).bind <| (takes_callee r).bind <|
      (takes_passed false _ _).bind ((off_auth (fun _ => by rfl) _).append <|
        (off_passed (fun _ => by rfl) _).append <|
          (off_passed (fun _ => by rfl) _).append fun _ => by rfl) <|
      (takes_auth false _ _ _ r.auth).bind ((off_passed (fun _ => by rfl) _).append <|
        (off_passed (fun _ => by rfl) _).append fun _ => by rfl) <|
      (takes_passed false _ _).bind ((off_passed (fun _ => by rfl) _).append fun _ => by rfl) <|
      (takes_passed false _ _).bind (fun _ => by rfl) <| (takes_mark _ _).bind_pure _
  refine htakes.of_eq ?_
  rw [Snippet.requests, ofLines_block, ofLines_block, ofLines_block, ofLines_block,
    ofLines_noBlock, List.append_nil, ofLines_requestsCall, ofLine_callee, ofLine_arguments,
    ofLines_headerBinding, ofLines_bodyBinding]
  simp only [Option.isSome_map, List.append_assoc, List.cons_append]
  rfl

/-- The parts of a program that make the request, by whether it has a body. -/
theorem ofLines_newRequest (r : Request) : ofLines true (Snippet.Go.newRequest r) =
    ofLines true (Snippet.optional r.body fun b =>
      [["\tbody := strings.NewReader(", Snippet.Go.bodyPiece r b, ")"]]) ++
    (ofPiece true "\n\treq, err := http.NewRequest(" ++ (ofPiece true (.string r.method) ++
      ofPiece true (.code (if r.body.isSome then ", url, body)" else ", url, nil)")))) := by
  rw [Snippet.Go.newRequest]
  cases r.body with
  | none => rfl
  | some b =>
    have hbody := ofLines_append true
      [["\tbody := strings.NewReader(", Snippet.Go.bodyPiece r b, ")"]]
      [["\treq, err := http.NewRequest(", .string r.method, ", url, body)"]]
    have hmethod : ofLines true
        [["\treq, err := http.NewRequest(", .string r.method, ", url, body)"]] =
        ofPiece true "\n\treq, err := http.NewRequest(" ++ (ofPiece true (.string r.method) ++
          ofPiece true (.code ", url, body)")) := rfl
    rw [hmethod] at hbody
    exact hbody

theorem takes_headerCall (h : String × String) :
    Takes headerCall (ofPiece true (.string h.1) ++ (ofPiece true ", " ++
      (ofPiece true (.string h.2) ++ ofPiece true ")"))) (h.1, .text h.2) :=
  (takes_literal _ _).bind <| (takes_mark _ _).bind <| (takes_literal _ _).bind <|
    (takes_mark _ _).bind_pure (h.1, HeaderValue.text h.2)

/-- An empty line that is left out keeps what follows apart from a mark, as one that is not. -/
theorem apart_gap {w : String} {ms : List Lexeme} (c : Bool) (h : Apart true w ms)
    (h' : Apart true w (ofPiece true "\n" ++ ms)) :
    Apart true w (ofPiece true (.code (if c then "" else "\n")) ++ ms) := by
  cases c with
  | false => exact h'
  | true => exact h

/-- The lines of a Go program, as the scanner takes them. -/
theorem ofLines_go (r : Request) : ofLines true (Snippet.go r) =
    ofPiece true "\npackage main\n" ++
    (ofPiece true "\nimport (\n\t\"fmt\"\n\t\"io\"\n\t\"net/http\"" ++
    (ofLines true (Snippet.optional r.body fun _ => [["\t\"strings\""]]) ++
    (ofPiece true "\n)\n" ++ (ofPiece true "\nfunc main() \x7b\n\turl := " ++
    (ofPiece true (.string r.url) ++ (ofPiece true "\n" ++
    (ofLines true (Snippet.Go.newRequest r) ++ (ofPiece true (.code check) ++
    (ofPiece true "\n" ++ (ofLines true (Snippet.Go.headers r) ++
    (ofPiece true "\n\tclient := &http.Client\x7b\x7d\n\tresp, err := client.Do(req)" ++
    (ofPiece true (.code check) ++
    (ofPiece true "\n\tdefer resp.Body.Close()\n\n\trespBody, err := io.ReadAll(resp.Body)" ++
    (ofPiece true (.code check) ++
      ofPiece true "\n\tfmt.Println(string(respBody))\n\x7d")))))))))))))) := by
  have hpackage : ofLines true [["package main"], []] = ofPiece true "\npackage main\n" := rfl
  have himport : ofLines true
      [["import ("], ["\t\"fmt\""], ["\t\"io\""], ["\t\"net/http\""]] =
      ofPiece true "\nimport (\n\t\"fmt\"\n\t\"io\"\n\t\"net/http\"" := rfl
  have hmain : ofLines true [["func main() \x7b"], ["\turl := ", .string r.url], []] =
      ofPiece true "\nfunc main() \x7b\n\turl := " ++
        (ofPiece true (.string r.url) ++ ofPiece true "\n") := rfl
  have hcheck : ofLines true Snippet.Go.check = ofPiece true (.code check) := rfl
  have hclient : ofLines true
      [["\tclient := &http.Client\x7b\x7d"], ["\tresp, err := client.Do(req)"]] =
      ofPiece true "\n\tclient := &http.Client\x7b\x7d\n\tresp, err := client.Do(req)" := rfl
  have hread : ofLines true
      [["\tdefer resp.Body.Close()"], [], ["\trespBody, err := io.ReadAll(resp.Body)"]] =
      ofPiece true "\n\tdefer resp.Body.Close()\n\n\trespBody, err := io.ReadAll(resp.Body)" := rfl
  rw [Snippet.go, Snippet.Go.imports]
  simp only [ofLines_block, ofLines_noBlock, hpackage, himport, hmain, hcheck, hclient, hread,
    List.append_nil, List.append_assoc]
  rfl

theorem ofLines_goHeaders (r : Request) : ofLines true (Snippet.Go.headers r) =
    r.headers.flatMap (fun h =>
      ofLines true [["\treq.Header.Set(", .string h.1, ", ", .string h.2, ")"]]) ++
    (ofAuth true "\n\treq.SetBasicAuth(" ", " ")" r.auth ++
      ofPiece true (.code (if r.headers.isEmpty && r.auth.isNone then "" else "\n"))) := by
  have hauth : ofLines true (Snippet.optional r.auth fun a =>
      [["\treq.SetBasicAuth(", .string a.user, ", ", .string a.password, ")"]]) =
      ofAuth true "\n\treq.SetBasicAuth(" ", " ")" r.auth := by
    cases r.auth
    · rfl
    · rfl
  have hgap (c : Bool) : ofLines true (if c then [] else [[]]) =
      ofPiece true (.code (if c then "" else "\n")) := by
    cases c
    · rfl
    · rfl
  rw [Snippet.Go.headers]
  simp only [ofLines_block, ofLines_noBlock, ofLines_map, hauth, hgap, List.append_nil]

theorem takes_go (r : Request) : Takes Scanner.go (ofLines true (Snippet.go r)) (r.stated .go) := by
  have hstrings : TakesBefore (Lacks true "\n\t\"strings\"")
      (option true "\n\t\"strings\"" (pure ()))
      (ofLines true (Snippet.optional r.body fun _ => [["\t\"strings\""]]))
      (r.body.map fun _ => ()) :=
    takes_option fun _ _ => ⟨[], by rfl, takes_pure ()⟩
  have hbody : TakesBefore (Lacks true "\n\tbody := strings.NewReader(")
      (body true "\n\tbody := strings.NewReader(" ')')
      (ofLines true (Snippet.optional r.body fun b =>
        [["\tbody := strings.NewReader(", Snippet.Go.bodyPiece r b, ")"]]))
      (r.body.map fun _ => ()) :=
    takes_body (t := .go) fun b _ => ofLines_parts true _ _ [Snippet.Go.bodyPiece r b]
  have hheaders : TakesBefore (Lacks true "\n\treq.Header.Set(")
      (many true "\n\treq.Header.Set(" headerCall)
      (r.headers.flatMap fun h =>
        ofLines true [["\treq.Header.Set(", .string h.1, ", ", .string h.2, ")"]])
      (r.headers.map fun h => (h.1, .text h.2)) :=
    takes_many fun h _ => ⟨_, by rfl, takes_headerCall h⟩
  have htakes : Takes Scanner.go _ ⟨.url r.url, .literal r.method,
      r.headers.map fun h => (h.1, .text h.2), r.auth⟩ :=
    (takes_mark _ _).bind <| (takes_mark _ _).bind <| hstrings.bind (fun _ => by rfl) <|
      (takes_mark _ _).bind <| (takes_mark _ _).bind <| (takes_literal true _).bind <|
      (takes_mark _ _).bind <| hbody.bind (fun _ => by rfl) <| (takes_guard rfl).bind <|
      (takes_mark _ _).bind <| (takes_literal true _).bind <| (takes_mark _ _).bind <|
      (takes_mark _ _).bind <| (takes_mark _ _).bind <|
      hheaders.bind ((off_auth (fun _ => by rfl) _).append
        (apart_gap _ (fun _ => by rfl) fun _ => by rfl)) <|
      (takes_auth true _ _ _ r.auth).bind (apart_gap _ (fun _ => by rfl) fun _ => by rfl) <|
      (takes_mark _ _).bind <| (takes_mark _ _).bind <| (takes_mark _ _).bind <|
      (takes_mark _ _).bind <| (takes_mark _ _).bind <| (takes_mark _ _).bind_pure _
  have hstated : r.stated .go = ⟨.url r.url, .literal r.method,
      r.headers.map fun h => (h.1, .text h.2), r.auth⟩ := by
    simp [Request.stated, Request.statedAddress, Request.statedMethod, Request.statedHeaders,
      Request.statedCredentials]
  rw [hstated]
  refine htakes.of_eq ?_
  rw [ofLines_go, ofLines_newRequest, ofLines_goHeaders]
  simp only [List.isEmpty_map, Option.isSome_map, List.append_assoc]
  rfl

theorem nodeHeaders_eq (r : Request) :
    Snippet.Node.headers r = (r.statedHeaders .node).map fun h => (h.1, h.2.piece) := by
  simp only [Snippet.Node.headers, Request.statedHeaders, List.map_append, List.map_map,
    Option.toList_map, List.append_assoc]
  rfl

theorem ofLines_headerOptions (r : Request) : ofLines false (Snippet.Node.headerOptions r) =
    ofHeaderMap "\n  headers: \x7b" "\n  \x7d," (r.statedHeaders .node) := by
  have hlines := ofLines_headerLines "    " rfl (r.statedHeaders .node)
  rw [Snippet.Node.headerOptions, nodeHeaders_eq, ofHeaderMap, List.isEmpty_map, List.map_map]
  split_ifs
  · rfl
  · rw [← hlines, ofLines_block, ofLines_block, ofLines_block]
    rfl

section Endpoint

variable (e : Endpoint)

theorem letters_protocol : ∀ c ∈ e.protocol.name.toList, c.isAlpha = true := by
  rw [← List.all_eq_true]
  cases e.protocol
  · rfl
  · rfl

theorem ofPiece_protocol : ofPiece false (.code e.protocol.name) =
    e.protocol.name.toList.map fun c => .code (.scalar c) := by
  cases e.protocol
  · rfl
  · rfl

theorem takes_postData (r : Request) : TakesBefore (Lacks false "\nconst postData = ")
    (option false "\nconst postData = " postData)
    (ofLines false (Snippet.optional r.body fun b =>
      [.ofParts [["const postData = "], Snippet.Node.dataPieces r b, [";"]], []]))
    (r.body.map fun _ => ()) := by
  refine takes_option fun b _ => ⟨_, ?_, (takes_passOver
    (r.expression_bodyLine .node b).level).bind (takes_mark false "\n")⟩
  rw [← List.singleton_append, ofLines_append, ofLines_parts]
  simp only [List.append_assoc]
  rfl

theorem takes_port : TakesBefore (Lacks false "\n  port: ") (option false "\n  port: " port)
    (ofLines false (if e.hasUnusualPort then
      [["  port: ", String.ofList (Nat.toDigits 10 e.port), ","]] else []))
    (if e.hasUnusualPort then some (Nat.toDigits 10 e.port) else none) := by
  have hdigits : Takes port _ (Nat.toDigits 10 e.port) :=
    (takes_run (Json.digits_toDigits e.port).all).bind (fun _ => by rfl)
      ((takes_mark _ _).bind_pure _)
  have hline : ofLines false [["  port: ", String.ofList (Nat.toDigits 10 e.port), ","]] =
      ofPiece false "\n  port: " ++ ((Nat.toDigits 10 e.port).map (fun c => .code (.scalar c)) ++
        ofPiece false ",") := by
    rw [← ofPiece_plain false (plain_toDigits e.port)]
    simp [ofLines, ofLine]
    rfl
  split_ifs
  · rw [hline]
    exact (takes_option_some hdigits).before
  · exact takes_option_none

theorem ofLines_require : ofLines false
    [["const ", e.protocol.name, " = require('", e.protocol.name, "');"], []] =
    ofPiece false "\nconst " ++ (ofPiece false (.code e.protocol.name) ++
      (ofPiece false " = require('" ++ (ofPiece false (.code e.protocol.name) ++
        ofPiece false "');\n"))) := by
  cases e.protocol
  · rfl
  · rfl

theorem ofLines_call : ofLines false (Snippet.Node.call e) =
    ofPiece false "\nconst req = " ++ (ofPiece false (.code e.protocol.name) ++
      (ofPiece false ".request(options, (res) => \x7b\n  let data = '';" ++
      (ofPiece false "\n  res.on('data', (chunk) => \x7b data += chunk; \x7d);" ++
      (ofPiece false "\n  res.on('end', () => \x7b console.log(JSON.parse(data)); \x7d);" ++
        ofPiece false "\n\x7d);\n\nreq.on('error', (e) => \x7b console.error(e); \x7d);")))) := by
  have hblocks : Snippet.Node.call e = .ofBlocks [
      [["const req = ", e.protocol.name, ".request(options, (res) => \x7b"],
        ["  let data = '';"]],
      [["  res.on('data', (chunk) => \x7b data += chunk; \x7d);"]],
      [["  res.on('end', () => \x7b console.log(JSON.parse(data)); \x7d);"]],
      [["\x7d);"], [], ["req.on('error', (e) => \x7b console.error(e); \x7d);"]]] := rfl
  rw [hblocks, ofLines_block, ofLines_block, ofLines_block, ofLines_block, ofLines_noBlock,
    List.append_nil]
  cases e.protocol
  · rfl
  · rfl

theorem takes_node {r : Request} {e : Endpoint} (he : Url.endpoint? r.url = some e) :
    Takes Scanner.node (ofLines false (Snippet.Node.withEndpoint r e)) (r.stated .node) := by
  have hletters := letters_protocol e
  have hheaders : TakesBefore (Lacks false "\n  headers: \x7b")
      (headerMap "\n  headers: \x7b" "\n  \x7d,") _ (r.statedHeaders .node) :=
    takes_headerMap _ (fun _ => by rfl) _
  have htakes : Takes Scanner.node _ ⟨.parts e.protocol.name.toList e.host
      (if e.hasUnusualPort then some (Nat.toDigits 10 e.port) else none) e.path,
      .literal r.method, r.statedHeaders .node, none⟩ :=
    (takes_mark _ _).bind <| (takes_run hletters).bind (fun _ => by rfl) <|
      (takes_mark _ _).bind <| (takes_run hletters).bind (fun _ => by rfl) <|
      (takes_mark _ _).bind <| (takes_postData r).bind (fun _ => by rfl) <|
      (takes_mark _ _).bind <| (takes_literal false _).bind <| (takes_mark _ _).bind <|
      (takes_port e).bind (fun _ => by rfl) <| (takes_mark _ _).bind <|
      (takes_literal false _).bind <| (takes_mark _ _).bind <| (takes_literal false _).bind <|
      (takes_mark _ _).bind <| hheaders.bind (fun _ => by rfl) <| (takes_mark _ _).bind <|
      (takes_mark _ _).bind <| (takes_run hletters).bind (fun _ => by rfl) <|
      (takes_guard ⟨rfl, rfl⟩).bind <| (takes_mark _ _).bind <| (takes_mark _ _).bind <|
      (takes_mark _ _).bind <| (takes_mark _ _).bind <|
      (takes_passed false _ _).bind (fun _ => by rfl) <| (takes_mark _ _).bind_pure _
  have hstated : r.stated .node = ⟨.parts e.protocol.name.toList e.host
      (if e.hasUnusualPort then some (Nat.toDigits 10 e.port) else none) e.path,
      .literal r.method, r.statedHeaders .node, none⟩ := by
    rw [Request.stated, Request.statedAddress, he]
    rfl
  have hhost : ofLines false [["const options = \x7b"], ["  hostname: ", .string e.host, ","]] =
      ofPiece false "\nconst options = \x7b\n  hostname: " ++
        (ofPiece false (.string e.host) ++ ofPiece false ",") := rfl
  have hpath : ofLines false
      [["  path: ", .string e.path, ","], ["  method: ", .string r.method, ","]] =
      ofPiece false "\n  path: " ++ (ofPiece false (.string e.path) ++
        (ofPiece false ",\n  method: " ++
          (ofPiece false (.string r.method) ++ ofPiece false ","))) := rfl
  have hwrite : ofLines false (Snippet.optional r.body fun _ => [["req.write(postData);"]]) =
      if r.body.isSome then ofPiece false "\nreq.write(postData);" else [] := by
    cases r.body
    · rfl
    · rfl
  rw [hstated]
  refine htakes.of_eq ?_
  rw [Snippet.Node.withEndpoint, Snippet.Node.options]
  simp only [ofLines_block, ofLines_noBlock, ofLines_headerOptions, ofLines_require, ofLines_call,
    ofPiece_protocol, hhost, hpath, hwrite, Option.isSome_map, List.append_nil, List.append_assoc]
  rfl

end Endpoint

theorem takes_snippet (t : Target) (r : Request)
    (h : t = .node → (Url.endpoint? r.url).isSome = true) :
    Takes t.scanner (ofLines t.backquotes (r.snippet t)) (r.stated t) := by
  cases t with
  | fetch => exact takes_fetch r
  | axios => exact takes_axios r
  | requests => exact takes_requests r
  | go => exact takes_go r
  | node =>
    obtain ⟨e, he⟩ := Option.isSome_iff_exists.mp (h rfl)
    rw [Request.snippet, Snippet.node, he]
    exact takes_node he

end Source

/-- Where the URL can be taken apart or need not be, a snippet states the address, the method, the
headers and the credentials of its request, and nothing else beside the body. -/
theorem Request.stated_in_code (t : Target) (r : Request)
    (h : t = .node → (Url.endpoint? r.url).isSome = true) :
    t.statement? (r.code t) = some (r.stated t) := by
  obtain ⟨ls, hread, hlines, -⟩ := r.read_code t
  have htakes := Source.takes_snippet t r h []
  rw [List.append_nil, ← hlines] at htakes
  rw [Target.statement?, hread]
  show (t.scanner _).bind _ = _
  rw [htakes]
  rfl

/-- A transport call with a port of its own, a body and credentials. -/
theorem Request.stated_in_code_transport :
    let r : Request :=
      ⟨"https://a:8443/b?c", "PUT", [("x", "\"\n")], some "d", some ⟨"u", "p"⟩, false, false,
        by decide, by decide⟩
    (Url.endpoint? r.url).isSome = true ∧
      Target.node.statement? (r.code .node) = some
        ⟨.parts "https".toList "a" (some "8443".toList) "/b?c", .literal "PUT",
          [("x", .text "\"\n"), ("Content-Length", .bodyLength),
            ("Authorization", .text "Basic dTpw")], none⟩ := by
  intro r
  have hendpoint : (Url.endpoint? r.url).isSome = true := by decide +kernel
  have hstated : r.stated .node =
      ⟨.parts "https".toList "a" (some "8443".toList) "/b?c", .literal "PUT",
        [("x", .text "\"\n"), ("Content-Length", .bodyLength),
          ("Authorization", .text "Basic dTpw")], none⟩ := by
    decide +kernel
  rw [← hstated]
  exact ⟨hendpoint, stated_in_code .node r fun _ => hendpoint⟩

end CurlSnippet
