import CurlSnippet.Proofs.PercentEncoding
import CurlSnippet.Proofs.Trimming
import CurlSnippet.Proofs.UrlComposition

/-!
The address of an endpoint. What is read of a URL holds no mark of the parts it is written into, so
its address is taken apart into the same endpoint; only a bracket that the host has kept is not read
again.
-/

namespace CurlSnippet

namespace Endpoint

/-- The URL of an endpoint, its port written out. -/
def address (e : Endpoint) : String :=
  e.protocol.name ++ "://" ++ e.host ++ ":" ++ toString e.port ++ e.path

end Endpoint

namespace Url

/-- Whether a bracket opens the host of a URL. -/
def hasBracketedHost (url : String) : Bool :=
  (components? url.toList).any fun c => (Authority.cutUserInfo c.authority).2.head? == some '['

/-- The characters that a host without brackets around it is never read with. -/
def hostMarks : List Char := ['/', '?', '#', '@', ':', '[', '\t', '\n', '\r']

theorem not_mem_of_mem_clean {url : List Char} {x : Char} (h : x ∈ clean url) :
    x ∉ ['\t', '\n', '\r'] := by
  have hx := (List.mem_filter.mp h).2
  simpa [and_assoc] using hx

namespace Authority

theorem cutOr_spec (mark : Char) (cs : List Char) :
    (cutOr mark cs).1 <+: cs ∧ mark ∉ (cutOr mark cs).1 := by
  rw [cutOr]
  cases hcut : Search.cut? (· == mark) cs with
  | none => exact ⟨List.prefix_refl cs, Search.cut?_mark_eq_none.mp hcut⟩
  | some cut =>
    obtain ⟨before, after⟩ := cut
    obtain ⟨hcs, hbefore⟩ := Search.cut?_mark_eq_some.mp hcut
    exact ⟨⟨mark :: after, hcs.symm⟩, hbefore⟩

theorem cutUserInfo_spec (cs : List Char) :
    (cutUserInfo cs).2 <:+ cs ∧ '@' ∉ (cutUserInfo cs).2 := by
  rw [cutUserInfo]
  cases hcut : Search.cutLast? (· == '@') cs with
  | none => exact ⟨List.suffix_refl cs, Search.cutLast?_mark_eq_none.mp hcut⟩
  | some cut =>
    obtain ⟨user, rest⟩ := cut
    obtain ⟨hcs, hrest⟩ := Search.cutLast?_mark_eq_some.mp hcut
    exact ⟨⟨user ++ ['@'], by rw [hcs]; simp⟩, hrest⟩

/-- A host that no bracket opens ends at a colon, and holds no bracket that opens. -/
theorem host_spec {cs : List Char} {a : Authority} (ha : ofChars? cs = some a)
    (hhead : (cutUserInfo cs).2.head? ≠ some '[') {x : Char} (hx : x ∈ a.host) :
    x ∈ cs ∧ x ∉ ['@', ':', '['] := by
  obtain ⟨hback, hat⟩ := cutUserInfo_spec cs
  rw [ofChars?] at ha
  simp only at ha
  split_ifs at ha with hmisfit
  have hopen : '[' ∉ (cutUserInfo cs).2 := by
    intro hmem
    refine hhead (head?_of_bracketsFit ?_ hmem)
    have hopens : cs.contains '[' = true := by simpa using hback.mem hmem
    simp only [hopens, Bool.true_and, Bool.or_eq_true, not_or, Bool.not_eq_true',
      Bool.not_eq_false] at hmisfit
    exact hmisfit.2
  obtain ⟨hfront, hcolon⟩ := cutOr_spec ':' (cutUserInfo cs).2
  rw [hostAndPort_of_not_mem hopen] at ha
  obtain rfl := Option.some.inj ha
  have hmem := hfront.mem hx
  refine ⟨hback.mem hmem, fun hmark => ?_⟩
  simp only [List.mem_cons, List.not_mem_nil, or_false] at hmark
  rcases hmark with rfl | rfl | rfl
  · exact hat hmem
  · exact hcolon hx
  · exact hopen hmem

theorem ofChars?_of_unopened {cs : List Char} (hopen : '[' ∉ cs) (hclose : ']' ∈ cs) :
    ofChars? cs = none := by
  simp [ofChars?, hopen, hclose]

theorem portNumber?_le {a : Authority} {default n : Nat} (h : a.portNumber? default = some n)
    (hdefault : default ≤ 65535) : n ≤ 65535 := by
  rw [portNumber?] at h
  split_ifs at h with hempty hdigits
  · rwa [← Option.some.inj h]
  · simp only at h
    split_ifs at h with hn
    rwa [← Option.some.inj h]

end Authority

theorem mem_authority {url : List Char} {c : Components} (h : components? url = some c) {x : Char}
    (hx : x ∈ c.authority) : x ∉ ['/', '?', '#'] ∧ x ∉ ['\t', '\n', '\r'] := by
  obtain ⟨scheme, rest, hcut⟩ := exists_cut h
  obtain rfl := Option.some.inj ((components?_of_cut hcut).symm.trans h)
  change x ∈ rest.takeWhile fun y => !endsAuthority y at hx
  have hends := List.mem_takeWhile_imp hx
  have hrest : x ∈ rest := (List.takeWhile_prefix _).mem hx
  have hclean : x ∈ clean url := by
    rw [(Search.cut?_mark_eq_some.mp hcut).1]
    simp [hrest]
  refine ⟨?_, not_mem_of_mem_clean hclean⟩
  simpa [endsAuthority, and_assoc] using hends

/-- A path that is not empty begins with a slash. -/
theorem head?_path {url : List Char} {c : Components} (h : components? url = some c) :
    ∀ x ∈ c.path.head?, x = '/' := by
  obtain ⟨scheme, rest, hcut⟩ := exists_cut h
  obtain rfl := Option.some.inj ((components?_of_cut hcut).symm.trans h)
  generalize hafter : rest.dropWhile (fun y => !endsAuthority y) = after
  have hpath : (Components.ofRest scheme ('/' :: '/' :: rest)).path =
      (Authority.cutOr '?' (after.takeWhile (· != '#'))).1 := by
    rw [← hafter]
    rfl
  obtain ⟨hfront, hquery⟩ := Authority.cutOr_spec '?' (after.takeWhile (· != '#'))
  rw [← hpath] at hfront hquery
  intro x hx
  have hmem := List.mem_of_mem_head? hx
  have hfragment := List.mem_takeWhile_imp (hfront.mem hmem)
  have hends : endsAuthority x = true := by
    obtain ⟨more, hmore⟩ := hfront.trans (List.takeWhile_prefix _)
    have hstop := List.head?_dropWhile_not (fun y => !endsAuthority y) rest
    rw [hafter, ← hmore, List.head?_append, Option.mem_def.mp hx] at hstop
    simpa using hstop
  simp only [endsAuthority, Bool.or_eq_true, beq_iff_eq] at hends
  rcases hends with (hslash | rfl) | rfl
  · exact hslash
  · exact absurd hmem hquery
  · cases hfragment

/-- Lower case brings no mark into a host. -/
theorem not_mem_lower {cs : List Char} {mark : Char} (hmark : mark.toNat < 128)
    (hletter : mark.isAlpha = false) (h : mark ∉ cs) : mark ∉ Letter.lower cs := by
  intro hmem
  rcases (Letter.mem_lower hmem hmark).2 with hcs | halpha
  · exact h hcs
  · rw [hletter] at halpha
    cases halpha

theorem not_mem_lowerHost {host : List Char} {mark : Char} (hmark : mark.toNat < 128)
    (hletter : mark.isAlpha = false) (h : mark ∉ host) : mark ∉ lowerHost host := by
  rw [lowerHost]
  cases hcut : Search.cut? (· == '%') host with
  | none => exact not_mem_lower hmark hletter h
  | some cut =>
    obtain ⟨name, zone⟩ := cut
    rw [(Search.cut?_mark_eq_some.mp hcut).1, List.mem_append, not_or] at h
    rw [List.mem_append, not_or]
    exact ⟨not_mem_lower hmark hletter h.1, h.2⟩

theorem lowerHost_ne_nil {host : List Char} (h : host ≠ []) : lowerHost host ≠ [] := by
  rw [lowerHost]
  cases Search.cut? (· == '%') host with
  | none => exact Letter.lower_ne_nil h
  | some cut => simp

/-- A host in lower case that is ASCII is final. -/
theorem lowerHost_lowerHost {host : List Char} (h : ∀ x ∈ lowerHost host, x.toNat < 128) :
    lowerHost (lowerHost host) = lowerHost host := by
  have hpercent : ∀ name : List Char, '%' ∉ name → '%' ∉ Letter.lower name :=
    fun name => not_mem_lower (by decide) rfl
  rw [lowerHost.eq_def host] at h ⊢
  cases hcut : Search.cut? (· == '%') host with
  | none =>
    rw [hcut] at h
    have hnone := hpercent host (Search.cut?_mark_eq_none.mp hcut)
    rw [lowerHost, Search.cut?_mark_eq_none.mpr hnone]
    exact Letter.lower_lower h
  | some cut =>
    obtain ⟨name, zone⟩ := cut
    rw [hcut] at h
    have hname := hpercent name (Search.cut?_mark_eq_some.mp hcut).2
    have hlower := Letter.lower_lower fun x hx => h x (List.mem_append_left _ hx)
    rw [lowerHost, Search.cut?_mark_eq_some.mpr ⟨rfl, hname⟩]
    simp only [hlower]

theorem isQueryChar_iff {x : Char} : Percent.isQueryChar x = true ↔
    x.isAlphanum = true ∨ x ∈ "_.-~/%:@!$&'()*+,;=?".toList := by
  simp [Percent.isQueryChar, Percent.isPathChar, Percent.isUnreserved, Percent.pathMarks, or_assoc]

theorem not_isBlank_of_isQueryChar {x : Char} (h : Percent.isQueryChar x = true) :
    isBlank x = false := by
  rcases isQueryChar_iff.mp h with hletter | hmark
  · have hbounds := bounds_of_isAlphanum hletter
    simp [isBlank]
    omega
  · have hall : ("_.-~/%:@!$&'()*+,;=?".toList.all fun y => !isBlank y) = true := by decide
    simpa using List.all_eq_true.mp hall x hmark

namespace Components

/-- The path that is asked for. -/
def calledPath (c : Components) : List Char :=
  Percent.encode Percent.isPathChar (if c.path.isEmpty then ['/'] else c.path)

/-- The query that is asked for, if there is something in it. -/
def calledQuery? (c : Components) : Option (List Char) :=
  if c.query.isEmpty then none else some (Percent.encode Percent.isQueryChar c.query)

variable {c : Components}

theorem encodedPath_eq : encodedPath c = c.calledPath ++ marked '?' c.calledQuery? := by
  rw [encodedPath, calledPath, calledQuery?]
  by_cases hquery : c.query.isEmpty = true
  · simp [hquery, marked]
  · simp [hquery, marked]

theorem isPathChar_of_mem_calledPath {x : Char} (hx : x ∈ c.calledPath) :
    Percent.isPathChar x = true :=
  Percent.keep_of_mem_encode Percent.keepsEscapes_path hx

theorem isQueryChar_of_mem_calledQuery? {x : Char} {query : List Char}
    (hquery : query ∈ c.calledQuery?) (hx : x ∈ query) : Percent.isQueryChar x = true := by
  rw [calledQuery?] at hquery
  split_ifs at hquery with hempty
  · cases hquery
  · obtain rfl := Option.some.inj hquery
    exact Percent.keep_of_mem_encode Percent.keepsEscapes_query hx

theorem ne_nil_of_calledQuery? {query : List Char} (hquery : query ∈ c.calledQuery?) :
    query ≠ [] := by
  rw [calledQuery?] at hquery
  split_ifs at hquery with hempty
  · cases hquery
  · obtain rfl := Option.some.inj hquery
    exact Percent.encode_ne_nil (by simpa using hempty)

/-- A path with its query holds no marks but those that are kept. -/
theorem isQueryChar_of_mem_encodedPath {x : Char} (hx : x ∈ encodedPath c) :
    Percent.isQueryChar x = true := by
  rw [encodedPath_eq, List.mem_append] at hx
  rcases hx with hpath | hquery
  · rw [Percent.isQueryChar, isPathChar_of_mem_calledPath hpath, Bool.true_or]
  · rcases mem_marked hquery with rfl | ⟨query, hquery, hx⟩
    · rfl
    · exact isQueryChar_of_mem_calledQuery? hquery hx

theorem head?_calledPath (hroot : ∀ x ∈ c.path.head?, x = '/') :
    c.calledPath.head? = some '/' := by
  rw [calledPath]
  cases hpath : c.path with
  | nil => rfl
  | cons x path =>
    obtain rfl : x = '/' := hroot x (by rw [hpath]; rfl)
    rw [List.isEmpty_cons, if_neg Bool.false_ne_true, Percent.encode_cons_of_keep rfl]
    rfl

/-- The path is at least a slash. -/
theorem head?_encodedPath (hroot : ∀ x ∈ c.path.head?, x = '/') :
    (encodedPath c).head? = some '/' := by
  rw [encodedPath_eq, List.head?_append, head?_calledPath hroot]
  rfl

end Components

/-- The parts of the address of an endpoint that is read of components. -/
def addressed (p : Protocol) (host : List Char) (port : Nat) (c : Components) : Composition where
  scheme := p.name.toList
  user := none
  host := host
  port := some (Nat.toDigits 10 port)
  path := c.calledPath
  query := c.calledQuery?
  fragment := none

section Addressed

variable {p : Protocol} {host : List Char} {port : Nat} {c : Components}

theorem resource_addressed : (addressed p host port c).resource = encodedPath c := by
  rw [Components.encodedPath_eq, Composition.resource, addressed, marked.eq_1, List.append_nil]

theorem authority_addressed :
    (addressed p host port c).authority = host ++ ':' :: Nat.toDigits 10 port := rfl

theorem url_addressed : (addressed p host port c).url =
    Endpoint.address ⟨p, String.ofList host, port, String.ofList (encodedPath c)⟩ := by
  rw [Composition.url, Composition.text, resource_addressed, authority_addressed, addressed,
    Endpoint.address, ← String.toList_inj]
  simp

theorem portNumber_addressed (q : Protocol) : (addressed p host port c).portNumber q = port := by
  rw [Composition.portNumber, addressed]
  cases hdigits : Nat.toDigits 10 port with
  | nil => exact absurd hdigits Nat.toDigits_ne_nil
  | cons x digits =>
    change Nat.ofDigitChars 10 (x :: digits) 0 = port
    rw [← hdigits, Nat.ofDigitChars_ten_toDigits]

/-- What is percent-encoded once is asked for as it is. -/
theorem pathWithQuery_addressed (hroot : ∀ x ∈ c.path.head?, x = '/') :
    (addressed p host port c).pathWithQuery = encodedPath c := by
  have hne : c.calledPath ≠ [] :=
    List.ne_nil_of_mem (List.mem_of_mem_head? (Components.head?_calledPath hroot))
  have hpath : Percent.encode Percent.isPathChar c.calledPath = c.calledPath :=
    Percent.encode_encode Percent.keepsEscapes_path _
  rw [Composition.pathWithQuery, Components.encodedPath_eq]
  simp only [addressed, hne, if_false, hpath]
  cases hquery : c.calledQuery? with
  | none => simp [marked]
  | some query =>
    have hsame : Percent.encode Percent.isQueryChar query = query :=
      Percent.encode_eq_self fun x hx => Components.isQueryChar_of_mem_calledQuery? hquery hx
    cases query with
    | nil => exact absurd rfl (Components.ne_nil_of_calledQuery? hquery)
    | cons x query =>
      simp only [hsame]
      rfl

theorem isDigit_of_mem_toDigits {x : Char} (hx : x ∈ Nat.toDigits 10 port) : x.isDigit = true :=
  Nat.isDigit_of_mem_toDigits (by decide) (by decide) hx

theorem scheme_letters {x : Char} (hx : x ∈ p.name.toList) : x.isAlphanum = true := by
  have hall : p.name.toList.all Char.isAlphanum = true := by
    cases p <;> decide
  exact List.all_eq_true.mp hall x hx

theorem mem_text_addressed {x : Char} (hx : x ∈ (addressed p host port c).text) :
    x ∈ host ∨ Percent.isQueryChar x = true := by
  have hletter : x.isAlphanum = true → Percent.isQueryChar x = true := fun h =>
    isQueryChar_iff.mpr (.inl h)
  simp only [Composition.text, resource_addressed, authority_addressed, List.mem_append,
    List.mem_cons] at hx
  rcases hx with hscheme | rfl | rfl | rfl | (hhost | rfl | hdigit) | hresource
  · exact .inr (hletter (scheme_letters hscheme))
  · exact .inr rfl
  · exact .inr rfl
  · exact .inr rfl
  · exact .inl hhost
  · exact .inr rfl
  · have hdigit := isDigit_of_mem_toDigits hdigit
    exact .inr (hletter (by rw [Char.isAlphanum, hdigit, Bool.or_true]))
  · exact .inr (Components.isQueryChar_of_mem_encodedPath hresource)

theorem tight_of_isQueryChar {cs : List Char} (h : ∀ x ∈ cs, Percent.isQueryChar x = true) :
    Blank.Tight cs :=
  ⟨fun x hx => not_isBlank_of_isQueryChar (h x (List.mem_of_mem_head? hx)),
    fun x hx => not_isBlank_of_isQueryChar (h x (List.mem_of_getLast? hx))⟩

theorem tight_addressed (hroot : ∀ x ∈ c.path.head?, x = '/') :
    Blank.Tight (addressed p host port c).text := by
  have hscheme : Blank.Tight p.name.toList :=
    tight_of_isQueryChar fun x hx => isQueryChar_iff.mpr (.inl (scheme_letters hx))
  have hresource : Blank.Tight (encodedPath c) :=
    tight_of_isQueryChar fun x hx => Components.isQueryChar_of_mem_encodedPath hx
  have hne : encodedPath c ≠ [] :=
    List.ne_nil_of_mem (List.mem_of_mem_head? (Components.head?_encodedPath hroot))
  have htext := hscheme.append hresource (by cases p <;> decide) hne
    (':' :: '/' :: '/' :: (addressed p host port c).authority)
  rw [Composition.text, resource_addressed]
  simpa [addressed] using htext

/-- A host without marks makes parts that fit together. -/
theorem fits_addressed (hhost : ∀ x ∈ host, x ∉ hostMarks) (hroot : ∀ x ∈ c.path.head?, x = '/') :
    (addressed p host port c).Fits where
  scheme := by
    intro hx
    cases scheme_letters hx
  user := nofun
  host := fun x hx hmark => hhost x hx (List.mem_append_left ['[', '\t', '\n', '\r'] hmark)
  port := by
    intro digits hdigits x hx
    obtain rfl := Option.some.inj hdigits
    exact not_mem_of_kind (isDigit_of_mem_toDigits hx) (by decide)
  root := by
    intro x hx
    have hhead := Components.head?_calledPath hroot
    exact Option.some.inj (hx.symm.trans hhead)
  path := fun x hx => not_mem_of_kind (Components.isPathChar_of_mem_calledPath hx) (by decide)
  query := by
    intro query hquery hx
    cases Components.isQueryChar_of_mem_calledQuery? hquery hx
  trimmed := Blank.trim_eq_self (tight_addressed hroot)
  unbroken := by
    intro x hx
    rcases mem_text_addressed hx with hmem | hkept
    · intro hmark
      exact hhost x hmem (List.mem_append_right ['/', '?', '#', '@', ':', '['] hmark)
    · exact not_mem_of_kind hkept (by decide)

/-- The digits that are written are few enough to be read. -/
theorem length_toDigits_port (hport : port ≤ 65535) :
    (Nat.toDigits 10 port).length ≤ Authority.maxPortDigits := by
  have hfew : (Nat.toDigits 10 port).length ≤ 5 :=
    (Nat.length_toDigits_le_iff (by decide) (by decide)).mpr (by omega)
  exact hfew.trans (by decide)

theorem plain_addressed (hascii : ∀ x ∈ host, x.toNat < 128) (hopen : '[' ∉ host)
    (hclose : ']' ∉ host) : (addressed p host port c).Plain := by
  constructor
  · intro user huser
    cases huser
  · intro x hx
    refine ⟨hascii x hx, fun hbracket => ?_⟩
    rcases List.mem_pair.mp hbracket with rfl | rfl
    · exact hopen hx
    · exact hclose hx

/-- An address is read as it was written. -/
theorem endpoint?_addressed (hfits : (addressed p host port c).Fits)
    (hplain : (addressed p host port c).Plain) (hroot : ∀ x ∈ c.path.head?, x = '/')
    (hlower : lowerHost host = host) (hne : host ≠ []) (hport : port ≤ 65535) :
    endpoint? (addressed p host port c).url =
      some ⟨p, String.ofList host, port, String.ofList (encodedPath c)⟩ := by
  have hscheme : p.name.toList.map Char.toLower = p.name.toList := by
    cases p <;> decide
  have hdigits : ∀ digits ∈ (addressed p host port c).port,
      digits.all Char.isDigit = true ∧ digits.length ≤ Authority.maxPortDigits := by
    intro digits hmem
    obtain rfl := Option.some.inj hmem
    exact ⟨List.all_eq_true.mpr fun _ => isDigit_of_mem_toDigits, length_toDigits_port hport⟩
  have hread := Composition.endpoint?_of_parts hfits hplain hscheme hne hdigits
  rw [portNumber_addressed, if_pos hport, pathWithQuery_addressed hroot] at hread
  rw [hread]
  change some (Endpoint.mk p (String.ofList (lowerHost host)) _ _) = _
  rw [hlower]

/-- A bracket that closes in the host is not read, since none opens. -/
theorem endpoint?_addressed_eq_none (hfits : (addressed p host port c).Fits) (hopen : '[' ∉ host)
    (hclose : ']' ∈ host) : endpoint? (addressed p host port c).url = none := by
  have hopens : '[' ∉ (addressed p host port c).authority := by
    intro hx
    rw [authority_addressed, List.mem_append, List.mem_cons] at hx
    rcases hx with hhost | hcolon | hdigit
    · exact hopen hhost
    · exact absurd hcolon (by decide)
    · cases isDigit_of_mem_toDigits hdigit
  have hnone := Authority.ofChars?_of_unopened hopens (List.mem_append_left _ hclose)
  rw [Option.eq_none_iff_forall_ne_some]
  intro e he
  obtain ⟨parts, protocol, a, n, hparts, -, ha, -⟩ := endpoint?_eq_some_iff.mp he
  rw [Composition.url, String.toList_ofList, Composition.components?_text hfits] at hparts
  obtain rfl := Option.some.inj hparts
  rw [hnone] at ha
  cases ha

end Addressed

/-- The host of an endpoint holds no mark, however its letters were written. -/
theorem not_mem_hostMarks {url : List Char} {c : Components} {a : Authority}
    (hc : components? url = some c) (ha : Authority.ofChars? c.authority = some a)
    (hhead : (Authority.cutUserInfo c.authority).2.head? ≠ some '[') :
    ∀ x ∈ lowerHost a.host, x ∉ hostMarks := by
  have hhost : ∀ mark ∈ hostMarks, mark ∉ a.host := by
    intro mark hmark hx
    obtain ⟨hmem, hends⟩ := Authority.host_spec ha hhead hx
    obtain ⟨hdelimits, hbreaks⟩ := mem_authority hc hmem
    simp only [List.mem_cons, List.not_mem_nil, or_false] at hends hdelimits hbreaks
    simp only [hostMarks, List.mem_cons, List.not_mem_nil, or_false] at hmark
    tauto
  intro x hx hmark
  have hplain : x.toNat < 128 ∧ x.isAlpha = false := by
    have hall : (hostMarks.all fun y => y.toNat < 128 && !y.isAlpha) = true := by decide
    simpa using List.all_eq_true.mp hall x hmark
  exact not_mem_lowerHost hplain.1 hplain.2 (hhost x hmark) hx

/-- An endpoint is well formed, and stable: its address has the same endpoint, if the host is ASCII
and was given without brackets around it. Only the address of a host that has kept a closing bracket
has none. -/
theorem endpoint?_stable {url : String} {e : Endpoint} (h : endpoint? url = some e) :
    (e.protocol.name = "http" ∨ e.protocol.name = "https") ∧ e.host ≠ "" ∧ e.port ≤ 65535 ∧
    e.path.toList.head? = some '/' ∧
    (∀ x ∈ e.path.toList, x.isAlphanum = true ∨ x ∈ "_.-~/%:@!$&'()*+,;=?".toList) ∧
    ((∀ x ∈ e.host.toList, x.toNat < 128) → hasBracketedHost url = false →
      endpoint? e.address = if ']' ∈ e.host.toList then none else some e) := by
  obtain ⟨c, p, a, port, hc, -, ha, hnumber, hhost, rfl⟩ := endpoint?_eq_some_iff.mp h
  have hroot := head?_path hc
  have hport : port ≤ 65535 := Authority.portNumber?_le hnumber (by cases p <;> decide)
  have hne : lowerHost a.host ≠ [] := lowerHost_ne_nil (by simpa using hhost)
  refine ⟨?_, ?_, hport, ?_, ?_, ?_⟩
  · cases p with
    | http => exact .inl rfl
    | https => exact .inr rfl
  · simpa [String.ofList_eq_empty_iff] using hne
  · rw [String.toList_ofList]
    exact Components.head?_encodedPath hroot
  · intro x hx
    rw [String.toList_ofList] at hx
    exact isQueryChar_iff.mp (Components.isQueryChar_of_mem_encodedPath hx)
  · intro hascii hbracketed
    rw [String.toList_ofList] at hascii ⊢
    have hhead : (Authority.cutUserInfo c.authority).2.head? ≠ some '[' := by
      simpa [hasBracketedHost, hc] using hbracketed
    have hmarks := not_mem_hostMarks hc ha hhead
    have hopen : '[' ∉ lowerHost a.host := fun hx => hmarks '[' hx (by decide)
    have hfits : (addressed p (lowerHost a.host) port c).Fits := fits_addressed hmarks hroot
    rw [← url_addressed]
    split_ifs with hclose
    · exact endpoint?_addressed_eq_none hfits hopen hclose
    · exact endpoint?_addressed hfits (plain_addressed hascii hopen hclose) hroot
        (lowerHost_lowerHost hascii) hne hport

/-- A control character goes in front, the sign of the kelvin is a small letter from then on, and
what cannot stand in a path is encoded once. -/
theorem endpoint?_stable_kelvin :
    let e : Endpoint := ⟨.https, "kiln%Zone", 443, "/%20/%C3%A9?@%%5B?"⟩
    endpoint? "\x01 hTTps://a:b@\u212Ailn%Zone:/ /é?@%[?#x" = some e ∧
      endpoint? e.address = some e := by
  intro e
  have hread : endpoint? "\x01 hTTps://a:b@\u212Ailn%Zone:/ /é?@%[?#x" = some e := by
    decide +kernel
  have hclose : ']' ∉ e.host.toList := by simp [e]
  have hagain := (endpoint?_stable hread).2.2.2.2.2 (by simp [e]) (by decide +kernel)
  rw [if_neg hclose] at hagain
  exact ⟨hread, hagain⟩

/-- A host keeps its closing bracket where the opening one stands in the user information, and then
its address is not read. -/
theorem endpoint?_unstable : ¬ ∀ (url : String) (e : Endpoint), endpoint? url = some e →
    (∀ x ∈ e.host.toList, x.toNat < 128) → hasBracketedHost url = false →
      endpoint? e.address = some e := by
  intro h
  have hurl : endpoint? "http://[v1.a]@v1.b]/" = some ⟨.http, "v1.b]", 80, "/"⟩ := by
    decide +kernel
  have hstable := h _ _ hurl (by simp) (by decide +kernel)
  have hnone : endpoint? (Endpoint.address ⟨.http, "v1.b]", 80, "/"⟩) = none := by
    decide +kernel
  rw [hnone] at hstable
  cases hstable

end Url

end CurlSnippet
