import CurlSnippet.Url.Split
import Mathlib

/-!
Taking a URL apart with its faults gives the endpoint that is found without them. The two ways
differ where a URL is not called: one stops at the first thing that is missing, the other reads any
URL to its end, so a fault may come up for a scheme that no transport module serves.
-/

namespace CurlSnippet

theorem Protocol.map_toLower_of_ofName? {name : List Char} {p : Protocol}
    (h : ofName? name = some p) : name.map Char.toLower = p.name.toList := by
  rw [ofName?] at h
  split_ifs at h with hhttp hhttps
  · rw [hhttp, ← Option.some.inj h]
    rfl
  · rw [hhttps, ← Option.some.inj h]
    rfl

theorem Protocol.ofName?_eq_some_iff {name : List Char} {p : Protocol} :
    ofName? name = some p ↔ name.map Char.toLower = p.name.toList := by
  refine ⟨map_toLower_of_ofName?, fun h => ?_⟩
  rw [ofName?, h]
  cases p with
  | http => rfl
  | https => rfl

namespace Url

/-- An authority is read where it can be taken apart. -/
theorem Authority.ofChars?_eq_some_iff {cs : List Char} {a : Authority} :
    ofChars? cs = some a ↔ read cs = .ok a := by
  rw [read, ofChars?]
  rcases cutUserInfo cs with ⟨user, hostPort⟩
  simp only [Bool.or_assoc]
  generalize (cs.contains '[' != cs.contains ']' || cs.contains '[' && !bracketsFit hostPort) =
    misfit
  cases misfit <;> cases cs.any isLookalike <;> simp

theorem Authority.portNumber?_eq_some_iff {a : Authority} {default n : Nat} :
    a.portNumber? default = some n ↔ ∃ port, a.readPort = .ok port ∧ port.getD default = n := by
  rw [portNumber?, readPort]
  by_cases hempty : a.port.isEmpty = true
  · simp [hempty]
  rw [if_neg hempty, if_neg hempty]
  cases hdigits : a.port.all Char.isDigit
  · simp
  by_cases hlong : maxPortDigits < a.port.length
  · simp [hlong]
  · by_cases hn : Nat.ofDigitChars 10 a.port 0 ≤ 65535
    · simp [hlong, Nat.le_of_not_lt hlong, hn]
    · simp [hlong, hn]

theorem isScheme_of_ofName? {name : List Char} {p : Protocol} (h : Protocol.ofName? name = some p) :
    isScheme name = true := by
  have hname := Protocol.map_toLower_of_ofName? h
  have hletters : ∀ c ∈ name, c.isAlpha = true := by
    intro c hc
    have hall : p.name.toList.all Char.isAlpha = true := by
      cases p <;> decide
    rw [← hname] at hall
    rw [← Char.isAlpha_toLower_eq_isAlpha]
    exact List.all_eq_true.mp hall _ (List.mem_map_of_mem hc)
  cases name with
  | nil => cases p <;> cases hname
  | cons c rest =>
    rw [isScheme, hletters c List.mem_cons_self, Bool.true_and, List.all_eq_true]
    intro d hd
    rw [isSchemeChar, Char.isAlphanum, hletters d (List.mem_cons_of_mem _ hd)]
    rfl

theorem components?_of_cut {url scheme rest : List Char}
    (h : Search.cut? (· == ':') (clean url) = some (scheme, '/' :: '/' :: rest)) :
    components? url = some (.ofRest scheme ('/' :: '/' :: rest)) := by
  rw [components?, h, Components.ofRest]
  simp only [cutAuthority, Authority.cutOr]
  cases Search.cut? (· == '?') _ <;> rfl

theorem exists_cut {url : List Char} {c : Components} (h : components? url = some c) :
    ∃ scheme rest, Search.cut? (· == ':') (clean url) = some (scheme, '/' :: '/' :: rest) := by
  rw [components?] at h
  split at h
  · next scheme rest hcut => exact ⟨scheme, rest, hcut⟩
  · cases h

/-- A URL with a known scheme is taken apart the same way. -/
theorem reference_eq {url : List Char} {c : Components} {p : Protocol}
    (h : components? url = some c) (hp : Protocol.ofName? c.scheme = some p) :
    reference url = c := by
  obtain ⟨scheme, rest, hcut⟩ := exists_cut h
  obtain rfl := Option.some.inj ((components?_of_cut hcut).symm.trans h)
  have hscheme : cutScheme (clean url) = (scheme, '/' :: '/' :: rest) := by
    rw [cutScheme, hcut]
    exact if_pos (isScheme_of_ofName? hp)
  rw [reference, hscheme]

theorem components?_of_reference {url : List Char} {p : Protocol}
    (hauthority : (reference url).authority ≠ [])
    (hp : Protocol.ofName? (reference url).scheme = some p) :
    components? url = some (reference url) := by
  rw [reference, cutScheme] at hp hauthority ⊢
  cases hcut : Search.cut? (· == ':') (clean url) with
  | none =>
    rw [hcut] at hp
    cases hp
  | some cut =>
    obtain ⟨scheme, rest⟩ := cut
    simp only [hcut] at hp hauthority ⊢
    by_cases hscheme : isScheme scheme = true
    · rw [if_pos hscheme] at hauthority ⊢
      have hslashes : ∃ after, rest = '/' :: '/' :: after := by
        simp only [Components.ofRest] at hauthority
        rw [cutAuthority.eq_def] at hauthority
        split at hauthority
        · exact ⟨_, rfl⟩
        · exact absurd rfl hauthority
      obtain ⟨after, rfl⟩ := hslashes
      exact components?_of_cut hcut
    · rw [if_neg hscheme] at hp
      cases hp

theorem split_eq_ok_iff {url : String} {p : Parts} : split url = .ok p ↔
    ∃ a port, Authority.read (reference url.toList).authority = .ok a ∧ a.readPort = .ok port ∧
      p = ⟨reference url.toList, a.host, port⟩ := by
  rw [split]
  cases Authority.read (reference url.toList).authority with
  | error f => simp [bind, Except.bind]
  | ok a =>
    cases hport : a.readPort with
    | error f => simp [bind, Except.bind, hport]
    | ok port => simp [bind, Except.bind, pure, Except.pure, hport, eq_comm]

theorem transport?_eq_some_iff {url : String} {p : Parts} : transport? url = some p ↔
    split url = .ok p ∧ (Protocol.ofName? p.scheme).isSome = true ∧ ¬ p.host.isEmpty = true := by
  rw [transport?]
  cases split url with
  | error f => simp
  | ok q =>
    rw [Option.ite_none_right_eq_some, Option.some.injEq, Except.ok.injEq]
    constructor
    · rintro ⟨h, rfl⟩
      exact ⟨rfl, h⟩
    · rintro ⟨rfl, h⟩
      exact ⟨h, rfl⟩

/-- A URL has an endpoint where each step of reading it gives something, and a host is named. -/
theorem endpoint?_eq_some_iff {url : String} {e : Endpoint} : endpoint? url = some e ↔
    ∃ c protocol a port, components? url.toList = some c ∧
      Protocol.ofName? c.scheme = some protocol ∧ Authority.ofChars? c.authority = some a ∧
      a.portNumber? protocol.defaultPort = some port ∧ ¬ a.host.isEmpty = true ∧
      e = ⟨protocol, String.ofList (lowerHost a.host), port, String.ofList (encodedPath c)⟩ := by
  constructor
  · intro h
    obtain ⟨c, hc, h⟩ := Option.bind_eq_some_iff.mp h
    obtain ⟨protocol, hprotocol, h⟩ := Option.bind_eq_some_iff.mp h
    obtain ⟨a, ha, h⟩ := Option.bind_eq_some_iff.mp h
    obtain ⟨port, hport, h⟩ := Option.bind_eq_some_iff.mp h
    rw [Option.ite_none_left_eq_some, Option.some.injEq] at h
    exact ⟨c, protocol, a, port, hc, hprotocol, ha, hport, h.1, h.2.symm⟩
  · rintro ⟨c, protocol, a, port, hc, hprotocol, ha, hport, hhost, rfl⟩
    rw [endpoint?, hc, Option.bind_eq_bind, Option.bind_some, hprotocol, Option.bind_eq_bind,
      Option.bind_some, ha, Option.bind_eq_bind, Option.bind_some, hport, Option.bind_eq_bind,
      Option.bind_some, if_neg hhost]

/-- The parts of a URL that is called make the same endpoint. -/
theorem endpoint?_of_transport? {url : String} {p : Parts} {protocol : Protocol}
    (h : transport? url = some p) (hp : Protocol.ofName? p.scheme = some protocol) :
    endpoint? url = some (p.endpoint protocol) := by
  obtain ⟨hsplit, -, hhost⟩ := transport?_eq_some_iff.mp h
  obtain ⟨a, port, hread, hport, rfl⟩ := split_eq_ok_iff.mp hsplit
  have hauthority : (reference url.toList).authority ≠ [] := by
    intro hnil
    rw [hnil] at hread
    obtain rfl := Except.ok.inj hread
    exact hhost rfl
  have hcomponents := components?_of_reference hauthority hp
  have hofChars := Authority.ofChars?_eq_some_iff.mpr hread
  have hnumber : a.portNumber? protocol.defaultPort = some (port.getD protocol.defaultPort) :=
    Authority.portNumber?_eq_some_iff.mpr ⟨port, hport, rfl⟩
  exact endpoint?_eq_some_iff.mpr
    ⟨_, protocol, a, _, hcomponents, hp, hofChars, hnumber, hhost, rfl⟩

theorem exists_transport {url : String} {e : Endpoint} (h : endpoint? url = some e) :
    ∃ p, transport? url = some p := by
  obtain ⟨c, protocol, a, n, hc, hprotocol, hofChars, hnumber, hhost, -⟩ :=
    endpoint?_eq_some_iff.mp h
  have href := reference_eq hc hprotocol
  have hread : Authority.read (reference url.toList).authority = .ok a := by
    rw [href]
    exact Authority.ofChars?_eq_some_iff.mp hofChars
  obtain ⟨port, hport, -⟩ := Authority.portNumber?_eq_some_iff.mp hnumber
  rw [← href] at hprotocol
  have hsplit := split_eq_ok_iff.mpr ⟨a, port, hread, hport, rfl⟩
  exact ⟨_, transport?_eq_some_iff.mpr ⟨hsplit, Option.isSome_of_eq_some hprotocol, hhost⟩⟩

theorem endpoint?_eq_none {url : String} (h : transport? url = none) : endpoint? url = none := by
  cases he : endpoint? url with
  | none => rfl
  | some e =>
    obtain ⟨p, hp⟩ := exists_transport he
    cases h.symm.trans hp

/-- A fault leaves no endpoint. -/
theorem endpoint?_of_fault {url : String} {f : Fault} (h : split url = .error f) :
    endpoint? url = none :=
  endpoint?_eq_none (by rw [transport?, h])

example : split "//[::1" = .error .brackets := by decide +kernel

end Url

end CurlSnippet
