import CurlSnippet.Proofs.PercentEncoding
import CurlSnippet.Proofs.UrlStability

/-!
Percent-decoded text. An escape is read as its byte, and every other character as its UTF-8 bytes; a
percent sign without two digits behind it is such a character. Encoding puts a percent sign where a
character was that is no digit, so no digits come to stand behind a percent sign and none are taken
away: the bytes stay the same.
-/

namespace CurlSnippet.Url

namespace Percent

/-- The byte that two hexadecimal digits stand for. -/
def byte? (high low : Char) : Option UInt8 := do
  let h ← Hex.value? high
  let l ← Hex.value? low
  return UInt8.ofNat (16 * h + l)

/-- The byte of the two digits in front of a text, with what follows them. -/
def pair? : List Char → Option (UInt8 × List Char)
  | high :: low :: rest => (byte? high low).map fun b => (b, rest)
  | _ => none

/-- The bytes that a text stands for. -/
def decode : List Char → List UInt8
  | c :: high :: low :: rest =>
    match if c = '%' then byte? high low else none with
    | some b => b :: decode rest
    | none => utf8 [c] ++ decode (high :: low :: rest)
  | c :: rest => utf8 [c] ++ decode rest
  | [] => []

/-- Text in which every percent sign begins an escape, and all other characters are kept. -/
inductive Escaped (keep : Char → Bool) : List Char → Prop
  | nil : Escaped keep []
  | char (c : Char) (rest : List Char) (hc : keep c = true) (hpercent : c ≠ '%')
      (h : Escaped keep rest) : Escaped keep (c :: rest)
  | escape (high low : Char) (rest : List Char) (hhigh : Hex.isDigit high = true)
      (hlow : Hex.isDigit low = true) (h : Escaped keep rest) :
      Escaped keep ('%' :: high :: low :: rest)

theorem byte?_eq_none {high low : Char} (h : Hex.isDigit high = false ∨ Hex.isDigit low = false) :
    byte? high low = none := by
  rw [Hex.isDigit, Hex.isDigit, Option.isSome_eq_false_iff, Option.isSome_eq_false_iff,
    Option.isNone_iff_eq_none, Option.isNone_iff_eq_none] at h
  rcases h with h | h
  · rw [byte?, h]
    rfl
  · rw [byte?, h]
    cases Hex.value? high <;> rfl

theorem value?_hexDigit : ∀ n < 16, Hex.value? (hexDigit n) = some n := by decide

theorem byte?_encodeByte (b : UInt8) :
    byte? (hexDigit (b.toNat / 16)) (hexDigit (b.toNat % 16)) = some b := by
  have hb := b.toNat_lt
  have hnumber : 16 * (b.toNat / 16) + b.toNat % 16 = b.toNat := by omega
  rw [byte?, value?_hexDigit _ (by omega), value?_hexDigit _ (by omega)]
  show some (UInt8.ofNat (16 * (b.toNat / 16) + b.toNat % 16)) = some b
  rw [hnumber, UInt8.ofNat_toNat]

section Decode

theorem decode_escape {rest after : List Char} {b : UInt8} (h : pair? rest = some (b, after)) :
    decode ('%' :: rest) = b :: decode after := by
  rcases rest with - | ⟨high, - | ⟨low, rest⟩⟩
  · cases h
  · cases h
  · obtain ⟨b', hbyte, heq⟩ := Option.map_eq_some_iff.mp h
    obtain ⟨rfl, rfl⟩ := Prod.mk.inj heq
    rw [decode, if_pos rfl, hbyte]

theorem decode_char {c : Char} {rest : List Char} (h : c = '%' → pair? rest = none) :
    decode (c :: rest) = utf8 [c] ++ decode rest := by
  rcases rest with - | ⟨high, - | ⟨low, rest⟩⟩
  · rfl
  · rfl
  · have hnone : (if c = '%' then byte? high low else none) = none := by
      split_ifs with hc
      · exact Option.map_eq_none_iff.mp (h hc)
      · rfl
    rw [decode, hnone]

theorem decode_bytes (bs : List UInt8) (rest : List Char) :
    decode (bs.flatMap encodeByte ++ rest) = bs ++ decode rest := by
  induction bs with
  | nil => rfl
  | cons b bs ih =>
    have hpair : pair? (hexDigit (b.toNat / 16) :: hexDigit (b.toNat % 16) ::
        (bs.flatMap encodeByte ++ rest)) = some (b, bs.flatMap encodeByte ++ rest) := by
      rw [pair?, byte?_encodeByte]
      rfl
    rw [List.flatMap_cons, List.append_assoc]
    exact (decode_escape hpair).trans (congrArg (b :: ·) ih)

/-- What stands in front of a character that is no digit is decoded on its own. -/
theorem pair?_append {cs rest : List Char} (h : ∀ c ∈ rest.head?, Hex.isDigit c = false) :
    pair? (cs ++ rest) = (pair? cs).map fun r => (r.1, r.2 ++ rest) := by
  rcases cs with - | ⟨high, - | ⟨low, cs⟩⟩
  · rcases rest with - | ⟨high, - | ⟨low, rest⟩⟩
    · rfl
    · rfl
    · show (byte? high low).map _ = none
      rw [byte?_eq_none (.inl (h high rfl))]
      rfl
  · rcases rest with - | ⟨low, rest⟩
    · rfl
    · show (byte? high low).map _ = none
      rw [byte?_eq_none (.inr (h low rfl))]
      rfl
  · show (byte? high low).map _ = ((byte? high low).map _).map _
    rw [Option.map_map]
    rfl

/-- Text is read by its escapes, and else by its characters. -/
@[elab_as_elim]
theorem decode_induction {motive : List Char → Prop} (nil : motive [])
    (escape : ∀ rest b after, pair? rest = some (b, after) → motive after → motive ('%' :: rest))
    (char : ∀ c rest, (c = '%' → pair? rest = none) → motive rest → motive (c :: rest))
    (cs : List Char) : motive cs := by
  induction cs using decode.induct with
  | case1 c high low cs b hb ih =>
    obtain ⟨rfl, hbyte⟩ := Option.ite_none_right_eq_some.mp hb
    refine escape _ b cs ?_ ih
    rw [pair?, hbyte]
    rfl
  | case2 c high low cs hb ih =>
    refine char c _ (fun hc => ?_) ih
    rw [if_pos hc] at hb
    rw [pair?, hb]
    rfl
  | case3 c cs hshort ih =>
    refine char c cs (fun _ => ?_) ih
    rcases cs with - | ⟨high, - | ⟨low, cs⟩⟩
    · rfl
    · rfl
    · exact (hshort high low cs rfl).elim
  | case4 => exact nil

theorem decode_append {cs rest : List Char} (h : ∀ c ∈ rest.head?, Hex.isDigit c = false) :
    decode (cs ++ rest) = decode cs ++ decode rest := by
  induction cs using decode_induction with
  | nil => rfl
  | escape cs b after hpair ih =>
    have hboth : pair? (cs ++ rest) = some (b, after ++ rest) := by
      rw [pair?_append h, hpair]
      rfl
    rw [List.cons_append, decode_escape hboth, decode_escape hpair, ih]
    rfl
  | char c cs hnone ih =>
    have hboth : c = '%' → pair? (cs ++ rest) = none := by
      intro hc
      rw [pair?_append h, hnone hc]
      rfl
    rw [List.cons_append, decode_char hboth, decode_char hnone, ih, List.append_assoc]

end Decode

section Encode

variable {keep : Char → Bool}

/-- The percent sign and all hexadecimal digits are kept, so every escape is. -/
def KeepsDigits (keep : Char → Bool) : Prop :=
  keep '%' = true ∧ ∀ c, Hex.isDigit c = true → keep c = true

theorem isAlphanum_of_isDigit {c : Char} (h : Hex.isDigit c = true) : c.isAlphanum = true := by
  rw [Hex.isDigit, Hex.value?] at h
  split_ifs at h with hdigit hsmall hcapital
  · rw [Char.isAlphanum, hdigit, Bool.or_true]
  · have hrange : 97 ≤ c.toNat ∧ c.toNat ≤ 102 := hsmall
    simp [Char.isAlphanum, Char.isAlpha, Char.isLower, UInt32.le_iff_toNat_le]
    omega
  · have hrange : 65 ≤ c.toNat ∧ c.toNat ≤ 70 := hcapital
    simp [Char.isAlphanum, Char.isAlpha, Char.isUpper, UInt32.le_iff_toNat_le]
    omega
  · cases h

theorem keepsDigits_path : KeepsDigits isPathChar := by
  refine ⟨rfl, fun c hc => ?_⟩
  rw [isPathChar, isUnreserved, isAlphanum_of_isDigit hc]
  rfl

theorem keepsDigits_query : KeepsDigits isQueryChar := by
  refine ⟨rfl, fun c hc => ?_⟩
  rw [isQueryChar, keepsDigits_path.2 c hc]
  rfl

theorem KeepsDigits.keepsEscapes (h : KeepsDigits keep) : KeepsEscapes keep := by
  refine ⟨h.1, fun n hn => h.2 _ ?_⟩
  rw [Hex.isDigit, value?_hexDigit n hn]
  rfl

theorem Escaped.keep_of_mem {cs : List Char} (h : Escaped keep cs) (hkeep : KeepsDigits keep) :
    ∀ c ∈ cs, keep c = true := by
  induction h with
  | nil => nofun
  | char c rest hc _ _ ih => exact List.forall_mem_cons.mpr ⟨hc, ih⟩
  | escape high low rest hhigh hlow _ ih =>
    simp only [List.forall_mem_cons]
    exact ⟨hkeep.1, hkeep.2 high hhigh, hkeep.2 low hlow, ih⟩

theorem encode_cons_of_not_keep {c : Char} (h : keep c = false) (cs : List Char) :
    encode keep (c :: cs) = (utf8 [c]).flatMap encodeByte ++ encode keep cs := by
  rw [encode, List.flatMap_cons, if_neg (by rw [h]; exact Bool.false_ne_true)]
  rfl

/-- What is encoded begins with a percent sign, which is no digit. -/
theorem head?_encode_of_not_keep {c : Char} (h : keep c = false) (cs : List Char) :
    (encode keep (c :: cs)).head? = some '%' := by
  rw [encode_cons_of_not_keep h]
  cases hb : utf8 [c] with
  | nil => exact absurd hb (utf8_singleton_ne_nil c)
  | cons b bs => rfl

theorem pair?_eq_none {cs : List Char} (h : ∀ c ∈ cs.head?, Hex.isDigit c = false) :
    pair? cs = none := by
  rw [← List.nil_append cs, pair?_append h]
  rfl

/-- Encoding neither brings two digits to the front of a text nor takes them away. -/
theorem pair?_encode (h : KeepsDigits keep) (cs : List Char) :
    pair? (encode keep cs) = (pair? cs).map fun r => (r.1, encode keep r.2) := by
  have hdigit : ∀ c, keep c = false → Hex.isDigit c = false := by
    intro c hc
    rw [← Bool.not_eq_true] at hc ⊢
    exact mt (h.2 c) hc
  have hfront : ∀ c cs, keep c = false →
      ∀ d ∈ (encode keep (c :: cs)).head?, Hex.isDigit d = false := by
    intro c cs hc d hd
    rw [head?_encode_of_not_keep hc cs] at hd
    rw [← Option.some.inj hd]
    rfl
  rcases cs with - | ⟨high, cs⟩
  · rfl
  cases hhigh : keep high with
  | false =>
    have hnone : pair? (high :: cs) = none := by
      apply pair?_eq_none
      rintro c hc
      rw [← Option.some.inj hc]
      exact hdigit high hhigh
    rw [pair?_eq_none (hfront high cs hhigh), hnone]
    rfl
  | true =>
    rw [encode_cons_of_keep hhigh]
    rcases cs with - | ⟨low, cs⟩
    · rfl
    cases hlow : keep low with
    | false =>
      have hnone : pair? (high :: low :: cs) = none := by
        rw [pair?, byte?_eq_none (.inr (hdigit low hlow))]
        rfl
      rw [hnone, ← List.singleton_append, pair?_append (hfront low cs hlow)]
      rfl
    | true =>
      rw [encode_cons_of_keep hlow, pair?, pair?, Option.map_map]
      rfl

/-- Encoded text stands for the same bytes. -/
theorem decode_encode (h : KeepsDigits keep) (cs : List Char) :
    decode (encode keep cs) = decode cs := by
  induction cs using decode_induction with
  | nil => rfl
  | escape cs b after hpair ih =>
    have hencoded : pair? (encode keep cs) = some (b, encode keep after) := by
      rw [pair?_encode h, hpair]
      rfl
    rw [encode_cons_of_keep h.1, decode_escape hencoded, decode_escape hpair, ih]
  | char c cs hnone ih =>
    rw [decode_char hnone, ← ih]
    cases hkeep : keep c with
    | false => rw [encode_cons_of_not_keep hkeep, decode_bytes]
    | true =>
      rw [encode_cons_of_keep hkeep]
      apply decode_char
      intro hc
      rw [pair?_encode h, hnone hc]
      rfl

/-- Only text of kept characters is left as it is. -/
theorem encode_eq_self_iff (h : KeepsEscapes keep) {cs : List Char} :
    encode keep cs = cs ↔ ∀ c ∈ cs, keep c = true := by
  refine ⟨fun heq c hc => ?_, encode_eq_self⟩
  rw [← heq] at hc
  exact keep_of_mem_encode h hc

end Encode

end Percent

/-- What a URL asks for as it is written there: at least a slash, and the query if there is
something in it. -/
def Components.written (c : Components) : List Char :=
  (if c.path.isEmpty then ['/'] else c.path) ++
    marked '?' (if c.query.isEmpty then none else some c.query)

namespace Percent

/-- A path with its query stands for the bytes of what was written. -/
theorem decode_encodedPath (c : Components) : decode (encodedPath c) = decode c.written := by
  have hmark : ∀ query : Option (List Char), ∀ x ∈ (marked '?' query).head?,
      Hex.isDigit x = false := by
    intro query x hx
    rw [marked_head x hx]
    rfl
  have hquery : ∀ cs, decode ('?' :: cs) = utf8 ['?'] ++ decode cs := fun _ => decode_char nofun
  rw [Components.encodedPath_eq, Components.written, decode_append (hmark _),
    decode_append (hmark _), Components.calledPath, decode_encode keepsDigits_path,
    Components.calledQuery?]
  congr 1
  split_ifs
  · rfl
  · rw [marked, marked, hquery, hquery, decode_encode keepsDigits_query]

/-- Percent-encoding, of a path and of a query, is a matter of spelling. It leaves exactly the texts
of kept characters as they are, those that hold escapes among them, so a second run changes nothing;
and what it encodes stands for the same bytes as before, wherever percent signs stand. So does the
path with its query that an endpoint has. -/
theorem encoding_respells :
    (∀ keep, keep = isPathChar ∨ keep = isQueryChar → ∀ cs : List Char,
      (encode keep cs = cs ↔ ∀ c ∈ cs, keep c = true) ∧
      (Escaped keep cs → encode keep cs = cs) ∧
      encode keep (encode keep cs) = encode keep cs ∧
      decode (encode keep cs) = decode cs) ∧
    ∀ (url : String) (e : Endpoint), endpoint? url = some e →
      ∃ c, components? url.toList = some c ∧ decode e.path.toList = decode c.written := by
  constructor
  · intro keep hkeep cs
    have h : KeepsDigits keep := by
      rcases hkeep with rfl | rfl
      · exact keepsDigits_path
      · exact keepsDigits_query
    have hself : encode keep cs = cs ↔ _ := encode_eq_self_iff h.keepsEscapes
    exact ⟨hself, fun hescaped => hself.mpr (hescaped.keep_of_mem h),
      encode_encode h.keepsEscapes cs, decode_encode h cs⟩
  · intro url e he
    obtain ⟨c, -, -, -, hc, -, -, -, -, rfl⟩ := endpoint?_eq_some_iff.mp he
    refine ⟨c, hc, ?_⟩
    rw [String.toList_ofList, decode_encodedPath]

/-- Percent signs before nothing, before one digit and before a character of two bytes. -/
theorem encoding_respells_stray :
    let url := "http://h/%é%4 %zz%C3%a9%"
    let path := "/%é%4 %zz%C3%a9%".toList
    let e : Endpoint := ⟨.http, "h", 80, "/%%C3%A9%4%20%zz%C3%a9%"⟩
    encode isPathChar path = e.path.toList ∧ decode e.path.toList = decode path ∧
      decode path = utf8 "/%é%4 %zzé%".toList ∧
      encode isPathChar ['%', '2', 'f'] = ['%', '2', 'f'] ∧ endpoint? url = some e ∧
      ∃ c, components? url.toList = some c ∧ decode e.path.toList = decode c.written := by
  intro url path e
  have hencode : encode isPathChar path = e.path.toList := by decide +kernel
  have he : endpoint? url = some e := by decide +kernel
  have hescaped : Escaped isPathChar ['%', '2', 'f'] := .escape '2' 'f' [] rfl rfl .nil
  obtain ⟨-, -, -, hdecode⟩ := encoding_respells.1 isPathChar (.inl rfl) path
  exact ⟨hencode, hencode ▸ hdecode, by decide +kernel,
    (encoding_respells.1 isPathChar (.inl rfl) _).2.1 hescaped, he, encoding_respells.2 url e he⟩

end Percent

end CurlSnippet.Url
