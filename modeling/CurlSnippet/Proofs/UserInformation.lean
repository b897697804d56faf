import CurlSnippet.Proofs.HeaderNames
import CurlSnippet.Proofs.UrlSplitting

/-!
The user information of a URL in the code for the transport modules of Node.js. The other targets
state the URL as it is. A transport call is made of the endpoint, and the endpoint has no part for
what stands before the last at sign of the authority, so the same call is written whatever stands
there, and the headers of the call are those of the request.
-/

namespace CurlSnippet

namespace Url

/-- What stands before the last at sign of the authority. -/
def userInfo? (url : String) : Option (List Char) :=
  (components? url.toList).bind fun c => (Authority.cutUserInfo c.authority).1

/-- The components agree but for the user information. -/
structure Components.SameBesidesUser (c d : Components) : Prop where
  scheme : c.scheme = d.scheme
  hostPort : (Authority.cutUserInfo c.authority).2 = (Authority.cutUserInfo d.authority).2
  path : c.path = d.path
  query : c.query = d.query

/-- The URLs have components that agree but for the user information. -/
def SameBesidesUser (url other : String) : Prop :=
  ∃ c d, components? url.toList = some c ∧ components? other.toList = some d ∧ c.SameBesidesUser d

/-- Host and port are looked for behind the user information. -/
theorem Authority.hostAndPort_of_ofChars? {cs : List Char} {a : Authority}
    (h : ofChars? cs = some a) : (a.host, a.port) = hostAndPort (cutUserInfo cs).2 := by
  rw [ofChars?] at h
  simp only at h
  split_ifs at h
  rw [← Option.some.inj h]

theorem Authority.portNumber?_congr {a b : Authority} (h : a.port = b.port) (default : Nat) :
    a.portNumber? default = b.portNumber? default := by
  rw [portNumber?, portNumber?, h]

/-- URLs that agree but for the user information have the same endpoint, if they have any. -/
theorem endpoint?_of_same {url other : String} (h : SameBesidesUser url other) {e : Endpoint}
    (he : endpoint? url = some e) (hother : (endpoint? other).isSome = true) :
    endpoint? other = some e := by
  obtain ⟨c, d, hc, hd, hsame⟩ := h
  obtain ⟨e', he'⟩ := Option.isSome_iff_exists.mp hother
  obtain ⟨c', p, a, n, hc', hp, ha, hn, -, rfl⟩ := endpoint?_eq_some_iff.mp he
  obtain ⟨d', q, b, m, hd', hq, hb, hm, -, rfl⟩ := endpoint?_eq_some_iff.mp he'
  obtain rfl := Option.some.inj (hc.symm.trans hc')
  obtain rfl := Option.some.inj (hd.symm.trans hd')
  obtain rfl : p = q := by
    rw [hsame.scheme, hq] at hp
    exact (Option.some.inj hp).symm
  obtain ⟨hhost, hport⟩ : a.host = b.host ∧ a.port = b.port := by
    have hboth := Authority.hostAndPort_of_ofChars? ha
    rw [hsame.hostPort, ← Authority.hostAndPort_of_ofChars? hb] at hboth
    exact Prod.mk.inj hboth
  obtain rfl : n = m := by
    rw [Authority.portNumber?_congr hport, hm] at hn
    exact (Option.some.inj hn).symm
  have hpath : encodedPath c = encodedPath d := by
    rw [encodedPath, encodedPath, hsame.path, hsame.query]
  rw [he', hhost, hpath]

end Url

namespace Request

/-- The requests agree on everything but the user information of their URLs. -/
structure SameBesidesUser (r s : Request) : Prop where
  url : Url.SameBesidesUser r.url s.url
  method : r.method = s.method
  headers : r.headers = s.headers
  body : r.body = s.body
  auth : r.auth = s.auth
  isJson : r.isJson = s.isJson

theorem code_of_sameBesidesUser {r s : Request} (h : SameBesidesUser r s)
    (hr : (Url.endpoint? r.url).isSome = true) (hs : (Url.endpoint? s.url).isSome = true) :
    s.code .node = r.code .node := by
  obtain ⟨e, he⟩ := Option.isSome_iff_exists.mp hr
  have he' := Url.endpoint?_of_same h.url he hs
  rw [code, code, snippet, snippet, Snippet.node, Snippet.node, he, he']
  obtain ⟨-, hmethod, hheaders, hbody, hauth, hjson⟩ := h
  cases r
  cases s
  subst hmethod hheaders hbody hauth hjson
  rfl

/-- An authorization in the code is one of the headers of the request, if there are no credentials
beside the URL. -/
theorem mem_statedHeaders_authorization {r : Request} (hauth : r.auth = none) {name : String}
    (hname : lower name = "authorization") (value : HeaderValue) :
    (name, value) ∈ r.statedHeaders .node ↔ ∃ v, value = .text v ∧ (name, v) ∈ r.headers := by
  have hlength : (name, value) ∉ (r.body.map fun _ =>
      ("Content-Length", HeaderValue.bodyLength)).toList := by
    intro hmem
    obtain ⟨-, -, heq⟩ := Option.map_eq_some_iff.mp (Option.mem_toList.mp hmem)
    obtain ⟨rfl, -⟩ := Prod.mk.inj heq
    exact absurd hname (by decide)
  rw [statedHeaders, hauth, List.mem_append, List.mem_map]
  simp only [Option.map_none, Option.toList_none, List.append_nil, hlength, or_false, Prod.mk.injEq,
    Prod.exists]
  constructor
  · rintro ⟨n, v, hmem, rfl, rfl⟩
    exact ⟨v, rfl, hmem⟩
  · rintro ⟨v, rfl, hmem⟩
    exact ⟨name, v, hmem, rfl, rfl⟩

/-- The user information of a URL does not come into the code of a transport call. The call has no
credentials of its own, an authorization is there exactly if it is one of the headers of the
request, and the same code is written for any other user information. Every other target states the
URL, and its user information with it. -/
theorem userInfo_in_code {r : Request} (hauth : r.auth = none)
    (hr : (Url.endpoint? r.url).isSome = true) :
    (∃ s, Target.node.statement? (r.code .node) = some s ∧ s.credentials = none ∧
      ∀ name value, lower name = "authorization" →
        ((name, value) ∈ s.headers ↔ ∃ v, value = .text v ∧ (name, v) ∈ r.headers)) ∧
    (∀ q, SameBesidesUser r q → (Url.endpoint? q.url).isSome = true →
      q.code .node = r.code .node) ∧
    ∀ t ≠ Target.node, ∃ s, t.statement? (r.code t) = some s ∧ s.address = .url r.url := by
  refine ⟨⟨r.stated .node, statement?_of_takes (Source.takes_snippet .node r fun _ => hr), rfl, ?_⟩,
    fun q hq => code_of_sameBesidesUser hq hr, ?_⟩
  · intro name value hname
    exact mem_statedHeaders_authorization hauth hname value
  · intro t ht
    refine ⟨r.stated t, statement?_of_takes (Source.takes_snippet t r fun h => absurd h ht), ?_⟩
    cases t with
    | node => exact absurd rfl ht
    | fetch | axios | requests | go => rfl

/-- User information with several at signs and colons, against none. -/
theorem userInfo_in_code_marks :
    let r : Request := ⟨"http://a:b@c:d@h:8080/x?y", "GET", [("AUTHORIZATION", "z")], none, none,
      false, false, by decide, by decide⟩
    let q : Request := ⟨"http://h:8080/x?y", "GET", [("AUTHORIZATION", "z")], none, none, false,
      false, by decide, by decide⟩
    r.auth = none ∧ Url.userInfo? r.url = some "a:b@c:d".toList ∧
      (Url.endpoint? r.url).isSome = true ∧ SameBesidesUser r q ∧
      (Url.endpoint? q.url).isSome = true ∧ lower "AUTHORIZATION" = "authorization" ∧
      q.code .node = r.code .node ∧
      ∃ s, Target.node.statement? (r.code .node) = some s ∧
        ("AUTHORIZATION", .text "z") ∈ s.headers := by
  intro r q
  have hr : (Url.endpoint? r.url).isSome = true := by decide +kernel
  have hq : (Url.endpoint? q.url).isSome = true := by decide +kernel
  have hname : lower "AUTHORIZATION" = "authorization" := by decide
  have hsame : SameBesidesUser r q := {
    url := ⟨⟨"http".toList, "a:b@c:d@h:8080".toList, "/x".toList, "y".toList⟩,
      ⟨"http".toList, "h:8080".toList, "/x".toList, "y".toList⟩, by decide +kernel,
      by decide +kernel, ⟨rfl, by decide +kernel, rfl, rfl⟩⟩
    method := rfl
    headers := rfl
    body := rfl
    auth := rfl
    isJson := rfl }
  obtain ⟨⟨s, hs, -, hheaders⟩, hcode, -⟩ := userInfo_in_code (r := r) rfl hr
  exact ⟨rfl, by decide +kernel, hr, hsame, hq, hname, hcode q hsame hq, s, hs,
    (hheaders _ _ hname).mpr ⟨"z", rfl, by decide⟩⟩

/-- A user and a password in a URL are in no part of a transport call. -/
theorem userInfo_in_code_lost : ¬ ∀ r : Request, r.auth = none →
    (Url.endpoint? r.url).isSome = true → (∃ u ∈ Url.userInfo? r.url, ':' ∈ u) →
    ∃ s, Target.node.statement? (r.code .node) = some s ∧
      (s.credentials ≠ none ∨ ∃ h ∈ s.headers, lower h.1 = "authorization") := by
  intro hcarried
  let r : Request := ⟨"http://user:password@h/", "GET", [], none, none, false, false, by decide,
    by decide⟩
  have hr : (Url.endpoint? r.url).isSome = true := by decide +kernel
  have hu : Url.userInfo? r.url = some "user:password".toList := by decide +kernel
  have hstated := statement?_of_takes (Source.takes_snippet .node r fun _ => hr)
  obtain ⟨s, hs, hsome⟩ := hcarried r rfl hr ⟨_, hu, by decide⟩
  obtain rfl := Option.some.inj (hstated.symm.trans hs)
  rcases hsome with hcredentials | ⟨h, hmem, -⟩
  · exact hcredentials rfl
  · cases hmem

end Request

end CurlSnippet
