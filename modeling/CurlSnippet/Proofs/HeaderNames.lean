import CurlSnippet.Proofs.SnippetFields

/-!
The names of the headers in a snippet. Names of headers are told apart ignoring case, and a target
that adds a header of its own does not look at the headers of the request, so the added name may
stand beside the same name in another spelling.
-/

namespace CurlSnippet

/-- Names that are pairwise distinct ignoring case. -/
def DistinctNames (names : List String) : Prop := (names.map lower).Nodup

instance (names : List String) : Decidable (DistinctNames names) :=
  inferInstanceAs (Decidable (names.map lower).Nodup)

theorem distinctNames_append {names added : List String} :
    DistinctNames (names ++ added) ↔ DistinctNames names ∧ DistinctNames added ∧
      ∀ n ∈ names, ∀ a ∈ added, lower n ≠ lower a := by
  rw [DistinctNames, List.map_append, List.nodup_append, DistinctNames, DistinctNames]
  simp only [List.forall_mem_map]

/-- The names of the headers that a text states, read as a snippet. -/
def Target.headerNames? (t : Target) (code : Text) : Option (List String) :=
  (t.statement? code).map fun s => s.headers.map Prod.fst

namespace Request

/-- The names of the headers that a target adds: for the length of a body, and for credentials. -/
def addedNames (r : Request) (t : Target) : List String :=
  (if t = .node ∧ r.body.isSome = true then ["Content-Length"] else []) ++
    if (t = .fetch ∨ t = .node) ∧ r.auth.isSome = true then ["Authorization"] else []

theorem mem_addedNames {r : Request} {t : Target} {name : String} :
    name ∈ r.addedNames t ↔ (name = "Content-Length" ∧ t = .node ∧ r.body.isSome = true) ∨
      (name = "Authorization" ∧ (t = .fetch ∨ t = .node) ∧ r.auth.isSome = true) := by
  rw [addedNames, List.mem_append, List.mem_ite_nil_right, List.mem_ite_nil_right,
    List.mem_singleton, List.mem_singleton]
  tauto

/-- The names that a target adds differ from each other. -/
theorem distinctNames_addedNames (r : Request) (t : Target) :
    DistinctNames (r.addedNames t) := by
  rw [addedNames]
  split_ifs <;> decide

theorem keys_statedHeaders (r : Request) (t : Target) :
    (r.statedHeaders t).map Prod.fst = r.headers.keys ++ r.addedNames t := by
  have hown : (r.headers.map fun h => (h.1, HeaderValue.text h.2)).map Prod.fst =
      r.headers.keys := by
    rw [List.map_map]
    rfl
  rw [statedHeaders.eq_def, List.map_append, hown, addedNames]
  congr 1
  cases t <;> cases r.auth <;> cases r.body <;> rfl

/-- What a scanner takes the lines of a snippet for is what the text states. -/
theorem statement?_of_takes {r : Request} {t : Target} {s : Statement}
    (h : Source.Takes t.scanner (Source.ofLines t.backquotes (r.snippet t)) s) :
    t.statement? (r.code t) = some s := by
  obtain ⟨ls, hread, hlines, -⟩ := r.read_code t
  have htakes := h []
  rw [List.append_nil, ← hlines] at htakes
  rw [Target.statement?, hread]
  show (t.scanner _).bind _ = _
  rw [htakes]
  rfl

/-- A snippet names the headers of its request in their order, and after them those that its target
adds. -/
theorem headerNames?_code {r : Request} {t : Target}
    (h : t = .node → (Url.endpoint? r.url).isSome = true) :
    t.headerNames? (r.code t) = some (r.headers.keys ++ r.addedNames t) := by
  rw [Target.headerNames?, statement?_of_takes (Source.takes_snippet t r h), Option.map_some,
    ← keys_statedHeaders, stated]

/-- Ignoring case, the names of the headers in a snippet are distinct exactly if those of its
request are and none of them is a name that the target adds: for credentials where fetch or the
transport modules of Node.js are called, and for the length of a body with the latter. -/
theorem distinct_names_in_code (r : Request) (t : Target)
    (h : t = .node → (Url.endpoint? r.url).isSome = true) :
    ∃ names, t.headerNames? (r.code t) = some names ∧
      (DistinctNames names ↔ DistinctNames r.headers.keys ∧
        (t = .fetch ∨ t = .node → r.auth.isSome = true →
          ∀ n ∈ r.headers.keys, lower n ≠ "authorization") ∧
        (t = .node → r.body.isSome = true →
          ∀ n ∈ r.headers.keys, lower n ≠ "content-length")) := by
  have hauthorization : lower "Authorization" = "authorization" := by decide
  have hlength : lower "Content-Length" = "content-length" := by decide
  refine ⟨_, headerNames?_code h, ?_⟩
  rw [distinctNames_append]
  refine and_congr_right fun _ => ?_
  constructor
  · rintro ⟨-, hadded⟩
    refine ⟨fun ht hauth n hn => ?_, fun ht hbody n hn => ?_⟩
    · rw [← hauthorization]
      exact hadded n hn _ (mem_addedNames.mpr (.inr ⟨rfl, ht, hauth⟩))
    · rw [← hlength]
      exact hadded n hn _ (mem_addedNames.mpr (.inl ⟨rfl, ht, hbody⟩))
  · rintro ⟨hauth, hbody⟩
    refine ⟨r.distinctNames_addedNames t, fun n hn a ha => ?_⟩
    obtain ⟨rfl, ht, hgiven⟩ | ⟨rfl, ht, hgiven⟩ := mem_addedNames.mp ha
    · rw [hlength]
      exact hbody ht hgiven n hn
    · rw [hauthorization]
      exact hauth ht hgiven n hn

/-- A header for authorization next to credentials, with a URL for the transport modules. -/
theorem distinct_names_in_code_transport :
    let r : Request :=
      ⟨"http://h", "POST", [("AUTHORIZATION", "x")], some "b", some ⟨"a", "b"⟩, false, false,
        by decide, by decide⟩
    (Url.endpoint? r.url).isSome = true ∧
      ∃ names, Target.node.headerNames? (r.code .node) = some names ∧ ¬ DistinctNames names := by
  intro r
  have hendpoint : (Url.endpoint? r.url).isSome = true := by decide +kernel
  obtain ⟨names, hnames, hiff⟩ := r.distinct_names_in_code .node fun _ => hendpoint
  refine ⟨hendpoint, names, hnames, fun hdistinct => ?_⟩
  exact (hiff.mp hdistinct).2.1 (.inr rfl) rfl "AUTHORIZATION" (by decide) (by decide)

/-- Calls whose own names are distinct: an added name stands beside one that was given, and the
credentials are written twice. -/
theorem distinct_names_in_code_repeated :
    (∃ r, Command.read "curl http://h -u me:it -H 'authorization: Basic bWU6aXQ='" = .ok r ∧
      DistinctNames r.headers.keys ∧ r.auth.map Credentials.header = some "Basic bWU6aXQ=" ∧
      Target.fetch.headerNames? (r.code .fetch) = some ["authorization", "Authorization"] ∧
      ¬ DistinctNames ["authorization", "Authorization"]) ∧
    ∃ r, Command.read "curl http://h -d x -H 'content-length: 1'" = .ok r ∧
      (Url.endpoint? r.url).isSome = true ∧ DistinctNames r.headers.keys ∧
      Target.node.headerNames? (r.code .node) = some ["content-length", "Content-Length"] ∧
      ¬ DistinctNames ["content-length", "Content-Length"] := by
  let authorized : Request := ⟨"http://h", "GET", [("authorization", "Basic bWU6aXQ=")], none,
    some ⟨"me", "it"⟩, false, false, by decide, by decide⟩
  let measured : Request := ⟨"http://h", "POST", [("content-length", "1")], some "x", none, false,
    false, by decide, by decide⟩
  have hencoded : authorized.auth.map Credentials.header = some "Basic bWU6aXQ=" := by
    decide +kernel
  have hendpoint : (Url.endpoint? measured.url).isSome = true := by decide +kernel
  exact ⟨⟨authorized, rfl, by decide, hencoded, headerNames?_code nofun,
    by decide⟩, measured, rfl, hendpoint, by decide, headerNames?_code fun _ => hendpoint,
    by decide⟩

end Request

end CurlSnippet
