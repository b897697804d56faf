import CurlSnippet.Proofs.Base64Spelling
import CurlSnippet.Proofs.CommandMeaning

/-!
The header that carries the credentials of a call. User and password are cut at the first colon and
joined by one, so what is encoded is the argument as it was given, with a colon at its end if it has
none; base64 and UTF-8 keep all of it.
-/

namespace CurlSnippet

theorem utf8_injective {cs ds : List Char} (h : utf8 cs = utf8 ds) : cs = ds := by
  have hencode : cs.utf8Encode = ds.utf8Encode := congrArg List.toByteArray h
  rw [← String.toByteArray_ofList, ← String.toByteArray_ofList, String.toByteArray_inj] at hencode
  exact String.ofList_injective hencode

namespace Command

/-- The argument with a colon: its own, or else one at the end. -/
def completed (a : String) : String := if ':' ∈ a.toList then a else a ++ ":"

theorem toList_credentials (a : String) :
    (credentials a).user.toList ++ ':' :: (credentials a).password.toList =
      (completed a).toList := by
  rw [← credentialsOf_eq, Draft.credentialsOf, completed]
  cases hcut : Search.cut? (· == ':') a.toList with
  | none =>
    rw [if_neg (Search.cut?_mark_eq_none.mp hcut)]
    simp
  | some cut =>
    obtain ⟨user, password⟩ := cut
    have ha := (Search.cut?_mark_eq_some.mp hcut).1
    have hcolon : ':' ∈ a.toList := by rw [ha]; simp
    rw [if_pos hcolon, ha]
    simp

theorem header_credentials (a : String) : (credentials a).header =
    "Basic " ++ String.ofList (Base64.encode (utf8 (completed a).toList)) := by
  rw [Credentials.header, toList_credentials]

/-- Arguments are completed to the same text if they are the same up to a colon that is missing at
the end. -/
theorem completed_eq_iff {a b : String} : completed a = completed b ↔
    a = b ∨ (a = b ++ ":" ∧ ':' ∉ b.toList) ∨ (b = a ++ ":" ∧ ':' ∉ a.toList) := by
  have hends : ∀ s : String, ':' ∈ (s ++ ":").toList := by simp
  rw [completed, completed]
  split_ifs with ha hb hb
  · simp [ha, hb]
  · refine ⟨fun h => .inr (.inl ⟨h, hb⟩), ?_⟩
    rintro (rfl | ⟨h, -⟩ | ⟨-, h⟩)
    · exact absurd ha hb
    · exact h
    · exact absurd ha h
  · refine ⟨fun h => .inr (.inr ⟨h.symm, ha⟩), ?_⟩
    rintro (rfl | ⟨-, h⟩ | ⟨h, -⟩)
    · exact absurd hb ha
    · exact absurd hb h
    · exact h.symm
  · rw [String.append_left_inj]
    refine ⟨.inl, ?_⟩
    rintro (h | ⟨h, -⟩ | ⟨h, -⟩)
    · exact h
    · exact absurd (h ▸ hends b) ha
    · exact absurd (h ▸ hends a) hb

theorem header_eq_iff {a b : String} :
    (credentials a).header = (credentials b).header ↔ completed a = completed b := by
  constructor
  · intro h
    rw [header_credentials, header_credentials] at h
    have hdigits := String.ofList_injective ((String.append_right_inj "Basic ").mp h)
    exact String.toList_inj.mp (utf8_injective (Base64.encode_injective hdigits))
  · intro h
    rw [header_credentials, header_credentials, h]

/-- The credentials of a call are those of the last argument for them. -/
theorem auth_of_ofWords {w : String} {rest : List String} {r : Request} {a : String}
    (h : ofWords (w :: rest) = .ok r) (ha : (arguments [.user] (parts rest)).getLast? = some a) :
    r.auth = some (credentials a) := by
  obtain ⟨v, words, hwords, hdescribes⟩ := describes_of_ofWords h
  obtain ⟨rfl, rfl⟩ := List.cons.inj hwords
  rw [hdescribes.auth, ha, Option.map_some]

/-- A call with a URL and an argument for credentials has a request whose header is the base64 text
of the argument, with a colon at its end if it has none: the digits spell its UTF-8 bytes and are
read back as them. Any other call has the same header exactly if its argument is the same up to that
colon. -/
theorem header_of_ofWords {w : String} {rest : List String} {a : String} (hw : lower w = keyword)
    (hurl : ∃ u ∈ positionals (parts rest), u ≠ "")
    (ha : (arguments [.user] (parts rest)).getLast? = some a) :
    let bytes := utf8 (if ':' ∈ a.toList then a else a ++ ":").toList
    ∃ r digits, ofWords (w :: rest) = .ok r ∧
      r.auth.map Credentials.header = some ("Basic " ++ String.ofList digits) ∧
      Base64.Spells bytes digits ∧ Base64.decode? digits = some bytes ∧
      ∀ v words s b, ofWords (v :: words) = .ok s →
        (arguments [.user] (parts words)).getLast? = some b →
        (s.auth.map Credentials.header = r.auth.map Credentials.header ↔
          b = a ∨ (b = a ++ ":" ∧ ':' ∉ a.toList) ∨ (a = b ++ ":" ∧ ':' ∉ b.toList)) := by
  intro bytes
  obtain ⟨r, hr⟩ : ∃ r, ofWords (w :: rest) = .ok r := by
    obtain ⟨hempty, -⟩ | ⟨-, r, hr, -⟩ := ofWords_parts hw rest
    · obtain ⟨u, hu, hne⟩ := hurl
      exact absurd (hempty u hu) hne
    · exact ⟨r, hr⟩
  have hauth := auth_of_ofWords hr ha
  refine ⟨r, Base64.encode bytes, hr, ?_, Base64.spells_encode bytes,
    Base64.decode?_encode bytes, ?_⟩
  · rw [hauth, Option.map_some, header_credentials]
    rfl
  · intro v words s b hs hb
    rw [hauth, auth_of_ofWords hs hb, Option.map_some, Option.map_some, Option.some.injEq,
      header_eq_iff, completed_eq_iff]

/-- The last of two arguments counts, without a colon and with a character of two bytes. -/
theorem header_of_ofWords_completed :
    let rest := ["-u", "a:b", "http://h", "--user", "é"]
    lower "cURL" = keyword ∧ (∃ u ∈ positionals (parts rest), u ≠ "") ∧
      (arguments [.user] (parts rest)).getLast? = some "é" ∧
      ∃ r digits, ofWords ("cURL" :: rest) = .ok r ∧
        r.auth.map Credentials.header = some ("Basic " ++ String.ofList digits) ∧
        Base64.Spells [0xC3, 0xA9, 0x3A] digits := by
  intro rest
  have hw : lower "cURL" = keyword := by decide
  have hurl : ∃ u ∈ positionals (parts rest), u ≠ "" := ⟨"http://h", by decide, by decide⟩
  have ha : (arguments [.user] (parts rest)).getLast? = some "é" := by decide
  obtain ⟨r, digits, hr, hheader, hspells, -⟩ := header_of_ofWords hw hurl ha
  exact ⟨hw, hurl, ha, r, digits, hr, hheader, hspells⟩

example : (credentials "é").header = "Basic w6k6" := by decide +kernel

end Command

end CurlSnippet
