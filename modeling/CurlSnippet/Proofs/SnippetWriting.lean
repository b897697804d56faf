import CurlSnippet.Proofs.BodyExpression
import CurlSnippet.Proofs.Conversions
import CurlSnippet.Proofs.Results
import CurlSnippet.Proofs.UrlSplitting
import CurlSnippet.Snippet.Writing

/-!
Code is written for every request. What the decoder gives can be written again, a URL that is
called has a scheme with a known port, and every fault of taking a URL apart ends in the skeleton.
-/

namespace CurlSnippet

/-- No whole number is too long to be written. -/
inductive Json.Short : Json → Prop
  | null : Short .null
  | bool (b : Bool) : Short (.bool b)
  | int {n : Int} (h : (Nat.toDigits 10 n.natAbs).length ≤ maxIntDigits) : Short (.int n)
  | float (x : Binary64) : Short (.float x)
  | str (t : Text) : Short (.str t)
  | arr {items : List Json} (h : ∀ v ∈ items, Short v) : Short (.arr items)
  | obj {members : List (Text × Json)} (h : ∀ m ∈ members, Short m.2) : Short (.obj members)

theorem Json.Regular.short {v : Json} (h : Regular v) : Short v := by
  induction h with
  | null => exact .null
  | bool b => exact .bool b
  | int h => exact .int h
  | float x => exact .float x
  | str t => exact .str t
  | arr _ ih => exact .arr ih
  | obj _ _ ih => exact .obj ih

namespace Value

theorem writtenItems_ofItems {items : List Json}
    (h : ∀ v ∈ items, (ofJson v).written = .ok v) :
    writtenItems (ofItems items) = .ok items := by
  induction items with
  | nil => rfl
  | cons v rest ih =>
    rw [ofItems, writtenItems, h v List.mem_cons_self,
      ih fun w hw => h w (List.mem_cons_of_mem v hw)]
    rfl

theorem writtenMembers_ofMembers {members : List (Text × Json)}
    (h : ∀ m ∈ members, (ofJson m.2).written = .ok m.2) :
    writtenMembers (ofMembers members) = .ok members := by
  induction members with
  | nil => rfl
  | cons m rest ih =>
    obtain ⟨k, v⟩ := m
    rw [ofMembers, writtenMembers, h (k, v) List.mem_cons_self,
      ih fun w hw => h w (List.mem_cons_of_mem _ hw)]
    rfl

theorem written_ofJson {v : Json} (h : v.Short) : (ofJson v).written = .ok v := by
  induction h with
  | int h => exact if_neg (Nat.not_lt.mpr h)
  | arr _ ih =>
    rw [ofJson, written, writtenItems_ofItems ih]
    rfl
  | obj _ ih =>
    rw [ofJson, written, writtenMembers_ofMembers ih]
    rfl
  | _ => rfl

mutual

theorem eq_of_written : ∀ {v : Value} {j : Json}, v.written = .ok j → v = ofJson j ∧ j.Short
  | null, _, h => by cases h; exact ⟨rfl, .null⟩
  | bool b, _, h => by cases h; exact ⟨rfl, .bool b⟩
  | int n, _, h => by
    rw [written] at h
    split_ifs at h with hlong
    cases h
    exact ⟨rfl, .int (Nat.le_of_not_lt hlong)⟩
  | float x, _, h => by cases h; exact ⟨rfl, .float x⟩
  | str t, _, h => by cases h; exact ⟨rfl, .str t⟩
  | list items, _, h => by
    rw [written] at h
    obtain ⟨js, hjs, rfl⟩ := Except.map_eq_ok.mp h
    obtain ⟨rfl, hshort⟩ := eq_of_writtenItems hjs
    exact ⟨rfl, .arr hshort⟩
  | dict members, _, h => by
    rw [written] at h
    obtain ⟨js, hjs, rfl⟩ := Except.map_eq_ok.mp h
    obtain ⟨rfl, hshort⟩ := eq_of_writtenMembers hjs
    exact ⟨rfl, .obj hshort⟩

theorem eq_of_writtenItems : ∀ {items : List Value} {js : List Json},
    writtenItems items = .ok js → items = ofItems js ∧ ∀ j ∈ js, j.Short
  | [], _, h => by cases h; exact ⟨rfl, nofun⟩
  | v :: rest, _, h => by
    rw [writtenItems] at h
    obtain ⟨j, hj, h⟩ := Except.bind_eq_ok.mp h
    obtain ⟨js, hjs, h⟩ := Except.bind_eq_ok.mp h
    cases h
    obtain ⟨rfl, hfirst⟩ := eq_of_written hj
    obtain ⟨rfl, hrest⟩ := eq_of_writtenItems hjs
    exact ⟨rfl, List.forall_mem_cons.mpr ⟨hfirst, hrest⟩⟩

theorem eq_of_writtenMembers : ∀ {members : List (Text × Value)} {js : List (Text × Json)},
    writtenMembers members = .ok js → members = ofMembers js ∧ ∀ m ∈ js, m.2.Short
  | [], _, h => by cases h; exact ⟨rfl, nofun⟩
  | (k, v) :: rest, _, h => by
    rw [writtenMembers] at h
    obtain ⟨j, hj, h⟩ := Except.bind_eq_ok.mp h
    obtain ⟨js, hjs, h⟩ := Except.bind_eq_ok.mp h
    cases h
    obtain ⟨rfl, hfirst⟩ := eq_of_written hj
    obtain ⟨rfl, hrest⟩ := eq_of_writtenMembers hjs
    exact ⟨rfl, List.forall_mem_cons.mpr ⟨hfirst, hrest⟩⟩

end

/-- What is written is the value as it is, and of the values of JSON those are written in which no
whole number is too long. -/
theorem written_eq_ok_iff {v : Value} {j : Json} :
    v.written = .ok j ↔ v = ofJson j ∧ j.Short := by
  constructor
  · exact eq_of_written
  · rintro ⟨rfl, h⟩
    exact written_ofJson h

example : (list [null, other "set"]).written = .error (.unsupported "set") := rfl

end Value

namespace Request

theorem writtenBody_eq_ok (r : Request) (body : String) (t : Target) :
    r.writtenBody body t = .ok (r.bodyLine body t) := by
  cases hv : r.jsonBody? body with
  | none =>
    rw [writtenBody, hv]
    cases t <;> simp only [bodyLine, Snippet.Fetch.bodyPieces, Snippet.Axios.dataPieces,
      Snippet.Go.bodyPiece, Snippet.Node.dataPieces, hv] <;> rfl
  | some v =>
    have hwritten := Value.written_ofJson (Source.regular_jsonBody? hv).short
    rw [writtenBody, hv]
    cases t <;> simp only [bodyLine, Snippet.Fetch.bodyPieces, Snippet.Axios.dataPieces,
      Snippet.Go.bodyPiece, Snippet.Node.dataPieces, hv, Option.map_some, Value.literalAt,
      Value.pretty, hwritten] <;> rfl

theorem mapM_writtenBody (r : Request) (t : Target) :
    r.body.mapM (r.writtenBody · t) = .ok (r.body.map (r.bodyLine · t)) := by
  cases r.body with
  | none => rfl
  | some b =>
    rw [Option.mapM_some, writtenBody_eq_ok]
    rfl

theorem code_node_of_none {r : Request} (h : Url.endpoint? r.url = none) :
    r.code .node = (Snippet.Node.skeleton r.url).text := by
  rw [code, snippet, Snippet.node, h]

theorem code_node_of_some {r : Request} {e : Endpoint} (h : Url.endpoint? r.url = some e) :
    r.code .node = (Snippet.Node.withEndpoint r e).text := by
  rw [code, snippet, Snippet.node, h]

theorem generate_node (r : Request) : r.generate .node = .ok (r.code .node) := by
  rw [generate.eq_def]
  cases htransport : Url.transport? r.url with
  | none =>
    rw [code_node_of_none (Url.endpoint?_eq_none htransport)]
    rfl
  | some p =>
    obtain ⟨-, hscheme, -⟩ := Url.transport?_eq_some_iff.mp htransport
    obtain ⟨protocol, hprotocol⟩ := Option.isSome_iff_exists.mp hscheme
    have hport : p.protocol = .ok protocol := by
      rw [Url.Parts.protocol, hprotocol]
    rw [code_node_of_some (Url.endpoint?_of_transport? htransport hprotocol)]
    simp only [r.mapM_writtenBody .node, hport]
    rfl

/-- Writing code never fails: it gives the code of the request, which is not empty. Where a URL
cannot be taken apart, the fault is absorbed and the code of a transport call is the skeleton. -/
theorem generate_eq_code (r : Request) (t : Target) :
    r.generate t = .ok (r.code t) ∧ r.code t ≠ [] ∧
      ∀ f, Url.split r.url = .error f → r.code .node = (Snippet.Node.skeleton r.url).text := by
  refine ⟨?_, r.code_ne_nil t, fun f hf => code_node_of_none (Url.endpoint?_of_fault hf)⟩
  by_cases ht : t = .node
  · rw [ht, generate_node]
  · rw [generate.eq_def]
    split
    · exact absurd rfl ht
    · rw [r.mapM_writtenBody t]
      rfl

end Request

end CurlSnippet
