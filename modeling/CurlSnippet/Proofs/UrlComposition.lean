import CurlSnippet.Proofs.LowerCase
import CurlSnippet.Proofs.Runs
import CurlSnippet.Proofs.UrlSplitting

/-!
URLs by the texts they are put together from. The mark in front of each part is looked for in what
the earlier marks have left, so it may stand in every later part; taking such a URL apart gives the
parts back, and the endpoint is made of them.
-/

namespace CurlSnippet.Url

/-- A part behind its mark, nothing at all without the part. -/
def marked (mark : Char) : Option (List Char) → List Char
  | none => []
  | some cs => mark :: cs

/-- The parts of a URL, without the marks between them. -/
structure Composition where
  scheme : List Char
  user : Option (List Char)
  host : List Char
  port : Option (List Char)
  path : List Char
  query : Option (List Char)
  fragment : Option (List Char)
  deriving DecidableEq, Repr

namespace Composition

def hostPort (c : Composition) : List Char := c.host ++ marked ':' c.port

def authority (c : Composition) : List Char :=
  match c.user with
  | none => c.hostPort
  | some user => user ++ '@' :: c.hostPort

/-- What follows the authority. -/
def resource (c : Composition) : List Char :=
  c.path ++ (marked '?' c.query ++ marked '#' c.fragment)

def text (c : Composition) : List Char :=
  c.scheme ++ ':' :: '/' :: '/' :: (c.authority ++ c.resource)

def url (c : Composition) : String := String.ofList c.text

/-- The number in the port, the protocol's own without a port. -/
def portNumber (c : Composition) (p : Protocol) : Nat :=
  match c.port with
  | none | some [] => p.defaultPort
  | some digits => Nat.ofDigitChars 10 digits 0

/-- What is asked for: at least a slash, and the query if there is something in it. -/
def pathWithQuery (c : Composition) : List Char :=
  let path := Percent.encode Percent.isPathChar (if c.path = [] then ['/'] else c.path)
  match c.query with
  | none | some [] => path
  | some query => path ++ '?' :: Percent.encode Percent.isQueryChar query

/-- No part holds a mark that is looked for where the part stands, and nothing is left out when the
URL is read. -/
structure Fits (c : Composition) : Prop where
  scheme : ':' ∉ c.scheme
  user : ∀ user ∈ c.user, ∀ x ∈ user, x ∉ ['/', '?', '#']
  host : ∀ x ∈ c.host, x ∉ ['/', '?', '#', '@', ':']
  port : ∀ port ∈ c.port, ∀ x ∈ port, x ∉ ['/', '?', '#', '@']
  root : ∀ x ∈ c.path.head?, x = '/'
  path : ∀ x ∈ c.path, x ∉ ['?', '#']
  query : ∀ query ∈ c.query, '#' ∉ query
  trimmed : Blank.trim c.text = c.text
  unbroken : ∀ x ∈ c.text, x ∉ ['\t', '\n', '\r']

/-- User information and host are ASCII without brackets. -/
structure Plain (c : Composition) : Prop where
  user : ∀ user ∈ c.user, ∀ x ∈ user, x.toNat < 128 ∧ x ∉ ['[', ']']
  host : ∀ x ∈ c.host, x.toNat < 128 ∧ x ∉ ['[', ']']

end Composition

theorem marked_head {mark : Char} {part : Option (List Char)} :
    ∀ x ∈ (marked mark part).head?, x = mark := by
  cases part with
  | none => nofun
  | some cs =>
    intro x hx
    exact (Option.some.inj hx).symm

theorem mem_marked {mark x : Char} {part : Option (List Char)} (h : x ∈ marked mark part) :
    x = mark ∨ ∃ cs ∈ part, x ∈ cs := by
  cases part with
  | none => cases h
  | some cs => exact (List.mem_cons.mp h).imp_right fun hx => ⟨cs, rfl, hx⟩

/-- A part ends where the mark of the next one stands. -/
theorem cutOr_marked {mark : Char} {cs : List Char} (h : mark ∉ cs) (part : Option (List Char)) :
    Authority.cutOr mark (cs ++ marked mark part) = (cs, part.getD []) := by
  cases part with
  | none =>
    rw [marked, List.append_nil, Authority.cutOr, Search.cut?_mark_eq_none.mpr h]
    rfl
  | some part =>
    rw [marked, Authority.cutOr, Search.cut?_mark_eq_some.mpr ⟨rfl, h⟩]
    rfl

namespace Authority

/-- A bracket that encloses a host stands in front of it. -/
theorem head?_of_bracketsFit {cs : List Char} (hfit : bracketsFit cs = true) (hopen : '[' ∈ cs) :
    cs.head? = some '[' := by
  obtain ⟨⟨before, inner⟩, hcut⟩ : ∃ cut, Search.cut? (· == '[') cs = some cut := by
    rw [← Option.ne_none_iff_exists', Ne, Search.cut?_mark_eq_none]
    exact not_not_intro hopen
  rw [bracketsFit, hcut] at hfit
  cases before with
  | nil =>
    rw [(Search.cut?_mark_eq_some.mp hcut).1]
    rfl
  | cons y before => cases hfit

theorem hostAndPort_of_not_mem {cs : List Char} (hopen : '[' ∉ cs) :
    hostAndPort cs = cutOr ':' cs := by
  rw [hostAndPort, Search.cut?_mark_eq_none.mpr hopen]

end Authority

theorem not_endsAuthority {x : Char} (h : x ∉ ['/', '?', '#']) : endsAuthority x = false := by
  simp only [List.mem_cons, List.not_mem_nil, or_false, not_or] at h
  simp [endsAuthority, h]

theorem isLookalike_of_ascii {x : Char} (h : x.toNat < 128) : isLookalike x = false := by
  rw [isLookalike, List.any_eq_false]
  have hfirst : ∀ r ∈ lookalikes, 128 ≤ r.1 := by decide
  intro r hr
  have := hfirst r hr
  simp
  omega

theorem bounds_of_isAlphanum {x : Char} (h : x.isAlphanum = true) :
    48 ≤ x.toNat ∧ x.toNat ≤ 122 := by
  simp only [Char.isAlphanum, Char.isAlpha, Char.isUpper, Char.isLower, Char.isDigit,
    Bool.or_eq_true, Bool.and_eq_true, decide_eq_true_eq, ge_iff_le,
    UInt32.le_iff_toNat_le] at h
  simp at h
  omega

/-- A protocol's name begins with a letter, so nothing in front of it is left out. -/
theorem dropWhile_of_ofName? {scheme : List Char} {p : Protocol}
    (h : Protocol.ofName? scheme = some p) : scheme.dropWhile (· ≤ ' ') = scheme := by
  have hscheme := isScheme_of_ofName? h
  cases scheme with
  | nil => rfl
  | cons x rest =>
    have hletter : x.isAlpha = true := (Bool.and_eq_true_iff.mp hscheme).1
    have hbounds := bounds_of_isAlphanum (x := x) (by rw [Char.isAlphanum, hletter, Bool.true_or])
    have hpast : ¬ x ≤ ' ' := by
      intro hle
      have hsmall : x.toNat ≤ 32 := hle
      omega
    exact List.dropWhile_cons_of_neg (by simpa using hpast)

namespace Composition

variable {c : Composition}

/-- The text without what is dropped in front of it. -/
theorem clean_text (h : c.Fits) : clean c.text =
    c.scheme.dropWhile (· ≤ ' ') ++ ':' :: '/' :: '/' :: (c.authority ++ c.resource) := by
  have hdrop : c.text.dropWhile (· ≤ ' ') =
      c.scheme.dropWhile (· ≤ ' ') ++ ':' :: '/' :: '/' :: (c.authority ++ c.resource) := by
    rw [text, List.dropWhile_append]
    split_ifs with hnone
    · rw [List.isEmpty_iff.mp hnone]
      rfl
    · rfl
  rw [clean, h.trimmed, hdrop, List.filter_eq_self]
  intro x hx
  have hmem : x ∈ c.text := by
    rw [← hdrop] at hx
    exact (List.dropWhile_suffix _).mem hx
  have hx := h.unbroken x hmem
  simp only [List.mem_cons, List.not_mem_nil, or_false, not_or] at hx
  simp [hx]

theorem mem_hostPort {x : Char} (h : x ∈ c.hostPort) :
    x ∈ c.host ∨ x = ':' ∨ ∃ port ∈ c.port, x ∈ port :=
  (List.mem_append.mp h).imp_right mem_marked

theorem mem_authority {x : Char} (h : x ∈ c.authority) :
    (∃ user ∈ c.user, x ∈ user) ∨ x = '@' ∨ x ∈ c.hostPort := by
  rw [authority] at h
  cases huser : c.user with
  | none =>
    rw [huser] at h
    exact .inr (.inr h)
  | some user =>
    rw [huser, List.mem_append, List.mem_cons] at h
    exact h.imp_left fun hx => ⟨user, rfl, hx⟩

theorem not_mem_hostPort (h : c.Fits) {x : Char} (hx : x ∈ c.hostPort) :
    x ∉ ['/', '?', '#', '@'] := by
  rcases mem_hostPort hx with hhost | rfl | ⟨port, hport, hx⟩
  · intro hmark
    exact h.host x hhost (List.mem_append_left [':'] hmark)
  · decide
  · exact h.port port hport x hx

theorem mem_authority_of_mem_hostPort {x : Char} (hx : x ∈ c.hostPort) : x ∈ c.authority := by
  rw [authority]
  cases c.user with
  | none => exact hx
  | some user => exact List.mem_append_right user (List.mem_cons_of_mem '@' hx)

theorem not_endsAuthority_of_mem (h : c.Fits) : ∀ x ∈ c.authority, endsAuthority x = false := by
  intro x hx
  rcases mem_authority hx with ⟨user, huser, hx⟩ | rfl | hhostPort
  · exact not_endsAuthority (h.user user huser x hx)
  · rfl
  · refine not_endsAuthority fun hmark => ?_
    exact not_mem_hostPort h hhostPort (List.mem_append_left ['@'] hmark)

theorem endsAuthority_resource (h : c.Fits) : ∀ x ∈ c.resource.head?, endsAuthority x = true := by
  intro x hx
  rw [resource] at hx
  cases hpath : c.path with
  | cons y path =>
    rw [hpath] at hx
    obtain rfl := Option.some.inj hx
    rw [h.root y (by rw [hpath]; rfl)]
    rfl
  | nil =>
    rw [hpath, List.nil_append, List.head?_append] at hx
    rcases Option.or_eq_some_iff.mp hx with hx | ⟨-, hx⟩
    · rw [marked_head x hx]
      rfl
    · rw [marked_head x hx]
      rfl

/-- The URL is taken apart into its parts. -/
theorem components?_text (h : c.Fits) : components? c.text =
    some ⟨c.scheme.dropWhile (· ≤ ' '), c.authority, c.path, c.query.getD []⟩ := by
  have hscheme : ':' ∉ c.scheme.dropWhile (· ≤ ' ') := fun hx =>
    h.scheme ((List.dropWhile_suffix _).mem hx)
  have hcut := Search.cut?_mark_eq_some.mpr ⟨clean_text h, hscheme⟩
  have hauthority := span_append (p := fun x => !endsAuthority x)
    (fun x hx => by rw [not_endsAuthority_of_mem h x hx]; rfl)
    (fun x hx => by rw [endsAuthority_resource h x hx]; rfl)
  have hnumber : '#' ∉ c.path ++ marked '?' c.query := by
    intro hx
    rcases List.mem_append.mp hx with hpath | hx
    · exact h.path '#' hpath (by decide)
    · rcases mem_marked hx with hmark | ⟨query, hquery, hx⟩
      · exact absurd hmark (by decide)
      · exact h.query query hquery hx
  have hplain : ∀ x ∈ c.path ++ marked '?' c.query, (x != '#') = true := by
    intro x hx
    rw [bne_iff_ne]
    rintro rfl
    exact hnumber hx
  have hfragment : ∀ x ∈ (marked '#' c.fragment).head?, (x != '#') = false := by
    intro x hx
    rw [marked_head x hx]
    rfl
  have hresource := (span_append hplain hfragment).1
  rw [List.append_assoc, ← resource] at hresource
  have hquery : '?' ∉ c.path := fun hx => h.path '?' hx (by decide)
  rw [components?_of_cut hcut, Components.ofRest, cutAuthority, hauthority.1, hauthority.2]
  simp only [hresource, cutOr_marked hquery]

theorem cutUserInfo_authority (h : c.Fits) :
    Authority.cutUserInfo c.authority = (c.user, c.hostPort) := by
  have hat : '@' ∉ c.hostPort := fun hx => not_mem_hostPort h hx (by decide)
  rw [Authority.cutUserInfo, authority]
  cases c.user with
  | none => rw [Search.cutLast?_mark_eq_none.mpr hat]
  | some user => rw [Search.cutLast?_mark_eq_some.mpr ⟨rfl, hat⟩]

/-- What is read of the authority: the user information, the host and the port. -/
def reading (c : Composition) : Authority := ⟨c.user, c.host, c.port.getD []⟩

theorem bracketsFit_hostPort (hplain : c.Plain) (hopen : '[' ∈ c.hostPort) :
    Authority.bracketsFit c.hostPort = false := by
  rw [← Bool.not_eq_true]
  intro hfit
  have hhead := Authority.head?_of_bracketsFit hfit hopen
  rw [hostPort, List.head?_append] at hhead
  rcases Option.or_eq_some_iff.mp hhead with hhost | ⟨-, hport⟩
  · exact (hplain.host '[' (List.mem_of_mem_head? hhost)).2 (by decide)
  · exact absurd (marked_head '[' hport) (by decide)

theorem hostAndPort_hostPort (h : c.Fits) (hopen : '[' ∉ c.hostPort) :
    Authority.hostAndPort c.hostPort = (c.host, c.port.getD []) := by
  have hcolon : ':' ∉ c.host := fun hx => h.host ':' hx (by decide)
  rw [Authority.hostAndPort_of_not_mem hopen]
  exact cutOr_marked hcolon c.port

/-- A bracket after the host is no bracket around it, and leaves nothing to be called. -/
theorem eq_reading_of_ofChars? (h : c.Fits) (hplain : c.Plain) {a : Authority}
    (ha : Authority.ofChars? c.authority = some a) : a = c.reading := by
  rw [Authority.ofChars?, cutUserInfo_authority h] at ha
  by_cases hopen : '[' ∈ c.hostPort
  · have hopens := mem_authority_of_mem_hostPort hopen
    simp [bracketsFit_hostPort hplain hopen, hopens] at ha
  · simp only [hostAndPort_hostPort h hopen] at ha
    split_ifs at ha
    exact (Option.some.inj ha).symm

theorem ofChars?_authority (h : c.Fits)
    (hplain : ∀ x ∈ c.authority, x.toNat < 128 ∧ x ∉ ['[', ']']) :
    Authority.ofChars? c.authority = some c.reading := by
  have hlookalike : c.authority.any isLookalike = false := by
    rw [List.any_eq_false]
    intro x hx
    simp [isLookalike_of_ascii (hplain x hx).1]
  have hopen : '[' ∉ c.authority := fun hx => (hplain '[' hx).2 (by decide)
  have hclose : ']' ∉ c.authority := fun hx => (hplain ']' hx).2 (by decide)
  have hopen' : '[' ∉ c.hostPort := fun hx => hopen (mem_authority_of_mem_hostPort hx)
  rw [Authority.ofChars?, cutUserInfo_authority h]
  simp [hlookalike, hopen, hclose, hostAndPort_hostPort h hopen', reading]

theorem encodedPath_eq_pathWithQuery (scheme authority : List Char) :
    encodedPath ⟨scheme, authority, c.path, c.query.getD []⟩ = c.pathWithQuery := by
  rw [encodedPath, pathWithQuery]
  simp only [List.isEmpty_iff]
  rcases c.query with _ | _ | ⟨x, query⟩
  · rfl
  · rfl
  · rfl

theorem portNumber?_reading (hport : ∀ port ∈ c.port, port.all Char.isDigit = true ∧
      port.length ≤ Authority.maxPortDigits) (p : Protocol) :
    c.reading.portNumber? p.defaultPort =
      if c.portNumber p ≤ 65535 then some (c.portNumber p) else none := by
  have hdefault : p.defaultPort ≤ 65535 := by cases p <;> decide
  rw [Authority.portNumber?, portNumber, reading]
  rcases hdigits : c.port with _ | _ | ⟨x, digits⟩
  · exact (if_pos hdefault).symm
  · exact (if_pos hdefault).symm
  · obtain ⟨hall, hlength⟩ := hport _ hdigits
    rw [Option.getD_some, if_neg (by simp), if_pos (by simp only [hall, hlength]; rfl)]

theorem portNumber?_reading_eq_none {port : List Char} (hport : port ∈ c.port)
    (hdigits : ¬ port.all Char.isDigit = true) (default : Nat) :
    c.reading.portNumber? default = none := by
  have hempty : port ≠ [] := by
    rintro rfl
    exact hdigits rfl
  rw [Authority.portNumber?, reading, Option.mem_def.mp hport, Option.getD_some,
    if_neg (by simpa using hempty), if_neg (by simp [hdigits])]

theorem lowerHost_host (hplain : c.Plain) (hzone : '%' ∉ c.host) :
    lowerHost c.host = c.host.map Char.toLower := by
  rw [lowerHost, Search.cut?_mark_eq_none.mpr hzone]
  exact Letter.lower_of_ascii fun x hx => (hplain.host x hx).1

theorem plain_of_isDigit {x : Char} (h : x.isDigit = true) : x.toNat < 128 ∧ x ∉ ['[', ']'] := by
  have hbounds := Char.isDigit_iff_toNat.mp h
  have hnine : '9'.toNat = 57 := rfl
  exact ⟨by omega, not_mem_of_kind h (by decide)⟩

theorem plain_authority (hplain : c.Plain)
    (hport : ∀ port ∈ c.port, port.all Char.isDigit = true) :
    ∀ x ∈ c.authority, x.toNat < 128 ∧ x ∉ ['[', ']'] := by
  intro x hx
  rcases mem_authority hx with ⟨user, huser, hx⟩ | rfl | hhostPort
  · exact hplain.user user huser x hx
  · decide
  · rcases mem_hostPort hhostPort with hhost | rfl | ⟨port, hmem, hx⟩
    · exact hplain.host x hhost
    · decide
    · exact plain_of_isDigit (List.all_eq_true.mp (hport port hmem) x hx)

/-- The endpoint of a URL that names a protocol and a host is made of its parts, as long as there is
a port of its number. -/
theorem endpoint?_of_parts (h : c.Fits) (hplain : c.Plain) {p : Protocol}
    (hscheme : c.scheme.map Char.toLower = p.name.toList) (hhost : c.host ≠ [])
    (hport : ∀ port ∈ c.port, port.all Char.isDigit = true ∧
      port.length ≤ Authority.maxPortDigits) :
    endpoint? c.url =
      if c.portNumber p ≤ 65535 then
        some ⟨p, String.ofList (lowerHost c.host), c.portNumber p, String.ofList c.pathWithQuery⟩
      else none := by
  have hprotocol := Protocol.ofName?_eq_some_iff.mpr hscheme
  have hplain' := plain_authority hplain fun port hmem => (hport port hmem).1
  have hhost' : ¬ c.reading.host.isEmpty = true := by rwa [reading, List.isEmpty_iff]
  rw [endpoint?, url, String.toList_ofList, components?_text h, Option.bind_eq_bind,
    Option.bind_some, dropWhile_of_ofName? hprotocol, hprotocol, Option.bind_eq_bind,
    Option.bind_some, ofChars?_authority h hplain', Option.bind_eq_bind, Option.bind_some,
    portNumber?_reading hport]
  by_cases hnumber : c.portNumber p ≤ 65535
  · rw [if_pos hnumber, if_pos hnumber, Option.bind_eq_bind, Option.bind_some, if_neg hhost',
      encodedPath_eq_pathWithQuery]
    rfl
  · rw [if_neg hnumber, if_neg hnumber]
    rfl

/-- A URL without a protocol, a host or a number for its port is no address. -/
theorem endpoint?_of_missing (h : c.Fits) (hplain : c.Plain)
    (hmissing : (∀ p : Protocol, (c.scheme.dropWhile (· ≤ ' ')).map Char.toLower ≠ p.name.toList) ∨
      c.host = [] ∨ ∃ port ∈ c.port, ¬ port.all Char.isDigit = true) :
    endpoint? c.url = none := by
  rw [Option.eq_none_iff_forall_ne_some]
  intro e he
  obtain ⟨parts, protocol, a, port, hparts, hprotocol, ha, hnumber, hhost, -⟩ :=
    endpoint?_eq_some_iff.mp he
  rw [url, String.toList_ofList, components?_text h] at hparts
  obtain rfl := Option.some.inj hparts
  obtain rfl := eq_reading_of_ofChars? h hplain ha
  rcases hmissing with hscheme | hempty | ⟨port, hport, hdigits⟩
  · exact hscheme protocol (Protocol.map_toLower_of_ofName? hprotocol)
  · exact hhost (by rw [reading, hempty]; rfl)
  · rw [portNumber?_reading_eq_none hport hdigits] at hnumber
    cases hnumber

/-- A URL is taken apart exactly: of fitting parts, with a protocol for its scheme, a host without a
zone and no more digits than are read, it has the endpoint made of them, and none just where the
port's number is too large. Without a protocol, a host or a number it has none either; what may
stand in front of a URL makes no other scheme of it. -/
theorem endpoint?_of_composition (h : c.Fits) (hplain : c.Plain) :
    (∀ p : Protocol, c.scheme.map Char.toLower = p.name.toList → c.host ≠ [] → '%' ∉ c.host →
      (∀ port ∈ c.port, port.all Char.isDigit = true ∧ port.length ≤ 4300) →
      endpoint? c.url =
        if c.portNumber p ≤ 65535 then
          some ⟨p, String.ofList (c.host.map Char.toLower), c.portNumber p,
            String.ofList c.pathWithQuery⟩
        else none) ∧
    ((∀ p : Protocol, (c.scheme.dropWhile (· ≤ ' ')).map Char.toLower ≠ p.name.toList) ∨
      c.host = [] ∨ (∃ port ∈ c.port, ¬ port.all Char.isDigit = true) →
      endpoint? c.url = none) := by
  constructor
  · intro p hscheme hhost hzone hport
    rw [endpoint?_of_parts h hplain hscheme hhost hport, lowerHost_host hplain hzone]
  · exact endpoint?_of_missing h hplain

/-- Every mark that a later part may hold stands in one. -/
theorem endpoint?_of_composition_marks :
    ∃ c : Composition, c.url = "hTTp://a:b@c%@Ex.Org:0080/é:x@[;%?ü?/&##?/:]" ∧ c.Fits ∧ c.Plain ∧
      endpoint? c.url = some ⟨.http, "ex.org", 80, "/%C3%A9:x@%5B;%?%C3%BC?/&"⟩ := by
  let c : Composition := ⟨"hTTp".toList, some "a:b@c%".toList, "Ex.Org".toList,
    some "0080".toList, "/é:x@[;%".toList, some "ü?/&".toList, some "#?/:]".toList⟩
  have hfits : c.Fits := {
    scheme := by simp [c]
    user := by simp [c]
    host := by simp [c]
    port := by simp [c]
    root := by simp [c]
    path := by simp [c]
    query := by simp [c]
    trimmed := by decide +kernel
    unbroken := by simp [c, text, authority, hostPort, resource, marked] }
  have hplain : c.Plain := ⟨by simp [c], by simp [c]⟩
  refine ⟨c, by decide +kernel, hfits, hplain, ?_⟩
  exact (endpoint?_of_composition hfits hplain).1 .http (by decide +kernel) (by decide +kernel)
    (by decide +kernel) (by decide +kernel)

end Composition

end CurlSnippet.Url
