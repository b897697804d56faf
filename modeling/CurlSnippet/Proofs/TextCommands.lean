import CurlSnippet.Command.OfText
import CurlSnippet.Proofs.Conversions
import CurlSnippet.Proofs.RequestRecord
import CurlSnippet.Proofs.Results

/-!
Calls in texts. A text without lone surrogates is read as the string that it is, word by word and
flag by flag. The checks of a request that is read from any text refuse nothing but broken text, so
the line that it is read from holds a lone surrogate.
-/

namespace CurlSnippet

namespace Text

@[simp] theorem isBlank_scalar (c : Char) : (CodePoint.scalar c).isBlank = isBlank c := rfl

theorem dropWhile_ofChars (cs : List Char) :
    (ofChars cs).dropWhile CodePoint.isBlank = ofChars (cs.dropWhile isBlank) := by
  rw [ofChars, ofChars, List.dropWhile_map]
  rfl

theorem reverse_ofChars (cs : List Char) : (ofChars cs).reverse = ofChars cs.reverse := by
  rw [ofChars, ofChars, List.map_reverse]

theorem trim_ofChars (cs : List Char) : trim (ofChars cs) = ofChars (Blank.trim cs) := by
  rw [trim, dropWhile_ofChars, reverse_ofChars, dropWhile_ofChars, reverse_ofChars]
  rfl

theorem upper_ofString (s : String) : upper (ofString s) = ofString (CurlSnippet.upper s) := by
  rw [ofString, ofString, CurlSnippet.upper, String.toList_ofList, Letter.upper, upper, ofChars,
    ofChars, List.flatMap_map, List.map_flatMap]
  rfl

theorem toString?_eq_none_iff {t : Text} : t.toString? = none ↔ ∃ k, .surrogate k ∈ t := by
  rw [toString?, Option.map_eq_none_iff, chars?]
  induction t with
  | nil => simp
  | cons p t ih =>
    rw [List.mapM_cons]
    cases p with
    | scalar c =>
      simp only [List.mem_cons, reduceCtorEq, false_or, ← ih]
      cases t.mapM CodePoint.char? <;> simp [CodePoint.char?]
    | surrogate k => simp [CodePoint.char?]

theorem isBlankText_ofString (s : String) : isBlankText (ofString s) = isBlankString s := by
  rw [isBlankText, ofString, ofChars, List.all_map]
  rfl

theorem ofString_eq_nil {s : String} : ofString s = [] ↔ s = "" := by
  rw [ofString, ofChars, List.map_eq_nil_iff, String.toList_eq_nil_iff]

end Text

namespace Words

def TextMode.ofMode : Mode → TextMode
  | .blank => blank
  | .bare w => bare (.ofChars w)
  | .single w => single (.ofChars w)
  | .double w => double (.ofChars w)
  | .escape w => escape (.ofChars w)

theorem scanText_ofChars (m : Mode) (cs : List Char) :
    scanText (.ofMode m) (.ofChars cs) = (scan m cs).map Text.ofChars := by
  induction cs generalizing m with
  | nil =>
    cases m with
    | escape w => exact congrArg (fun t => [t]) (Text.reverse_ofChars ('\\' :: w))
    | blank => rfl
    | _ w => exact congrArg (fun t => [t]) (Text.reverse_ofChars w)
  | cons c cs ih =>
    have hrest : Text.ofChars (c :: cs) = .scalar c :: Text.ofChars cs := rfl
    rw [hrest]
    cases m with
    | blank =>
      rw [TextMode.ofMode, scanText, scan]
      simp only [Text.isBlank_scalar, CodePoint.scalar.injEq]
      split_ifs
      · exact ih .blank
      · exact ih (.single [])
      · exact ih (.double [])
      · exact ih (.bare [c])
    | bare w =>
      rw [TextMode.ofMode, scanText, scan, Text.isBlank_scalar]
      split_ifs
      · rw [List.map_cons, Text.reverse_ofChars]
        exact congrArg _ (ih .blank)
      · exact ih (.bare (c :: w))
    | single w =>
      rw [TextMode.ofMode, scanText, scan]
      simp only [CodePoint.scalar.injEq]
      split_ifs
      · rw [List.map_cons, Text.reverse_ofChars]
        exact congrArg _ (ih .blank)
      · exact ih (.single (c :: w))
    | double w =>
      rw [TextMode.ofMode, scanText, scan]
      simp only [CodePoint.scalar.injEq]
      split_ifs
      · rw [List.map_cons, Text.reverse_ofChars]
        exact congrArg _ (ih .blank)
      · exact ih (.escape w)
      · exact ih (.double (c :: w))
    | escape w => exact ih (.double (unescape c :: w))

theorem joinTextLines_ofChars (cs : List Char) :
    joinTextLines (.ofChars cs) = .ofChars (joinLines cs) := by
  induction cs using joinLines.induct with
  | case1 rest ih => exact congrArg (.scalar ' ' :: ·) ih
  | case2 rest ih => exact congrArg (.scalar ' ' :: ·) ih
  | case3 c rest hfeed hreturn ih =>
    rw [joinLines.eq_3 c rest hfeed hreturn]
    show joinTextLines (.scalar c :: Text.ofChars rest) = .scalar c :: Text.ofChars (joinLines rest)
    rw [joinTextLines, ih]
    · intro after hslash hafter
      obtain ⟨d, ds, rfl, hd, -⟩ := List.map_eq_cons_iff.mp hafter
      obtain rfl := CodePoint.scalar.inj hd
      exact hfeed ds (CodePoint.scalar.inj hslash) rfl
    · intro after hslash hafter
      obtain ⟨d, _, rfl, hd, hds⟩ := List.map_eq_cons_iff.mp hafter
      obtain ⟨e, ds, rfl, he, -⟩ := List.map_eq_cons_iff.mp hds
      obtain rfl := CodePoint.scalar.inj hd
      obtain rfl := CodePoint.scalar.inj he
      exact hreturn ds (CodePoint.scalar.inj hslash) rfl
  | case4 => rfl

theorem ofText_ofString (line : String) :
    ofText (.ofString line) = (split line).map Text.ofString := by
  rw [ofText, Text.ofString, Text.trim_ofChars, joinTextLines_ofChars]
  show scanText (.ofMode .blank) _ = _
  rw [scanText_ofChars, split, splitChars, List.map_map]
  refine List.map_congr_left fun w _ => ?_
  rw [Function.comp_apply, Text.ofString, String.toList_ofList]

end Words

namespace Search

theorem cut?_map {α β : Type} {f : α → β} {p : β → Bool} (cs : List α) :
    cut? p (cs.map f) = (cut? (p ∘ f) cs).map (Prod.map (List.map f) (List.map f)) := by
  induction cs with
  | nil => rfl
  | cons c rest ih =>
    rw [List.map_cons, cut?, cut?, ih]
    by_cases hc : p (f c)
    · simp [hc]
    · simp [hc, Option.map_map, Function.comp_def]

end Search

/-- A header with texts for its name and its value. -/
def textHeader (h : String × String) : Text × Text := (.ofString h.1, .ofString h.2)

theorem put_map_textHeader (hs : Entries String String) (name value : String) :
    Entries.put (hs.map textHeader) (.ofString name) (.ofString value) =
      (hs.put name value).map textHeader := by
  induction hs with
  | nil => rfl
  | cons h rest ih =>
    obtain ⟨n, v⟩ := h
    rw [List.map_cons, textHeader, Entries.put, Entries.put, ih]
    simp only [Text.ofString_injective.eq_iff]
    split_ifs <;> rfl

namespace TextDraft

def ofDraft (d : Draft) : TextDraft :=
  ⟨.ofString d.url, .ofString d.method, d.headers.map textHeader, d.body.map .ofString, d.auth⟩

theorem putHeader_ofDraft (d : Draft) (name value : String) :
    (ofDraft d).putHeader (.ofString name) (.ofString value) = ofDraft (d.putHeader name value) := by
  rw [putHeader, ofDraft, put_map_textHeader]
  rfl

theorem halves?_ofString (s : String) : halves? (.ofString s) =
    (Search.cut? (· == ':') s.toList).map (Prod.map Text.ofChars Text.ofChars) := by
  have hcolon : ((· == .scalar ':') ∘ CodePoint.scalar) = (· == ':') := by
    funext c
    simp
  rw [halves?, Text.ofString, Text.ofChars, Search.cut?_map, hcolon]
  rfl

theorem under_text_ofString (key : Text) (s : String) :
    Check.under key (.text (.str (.ofString s))) = .ok s := by
  rw [Check.under_eq_ok, Check.text_eq_ok, Json.ofString]

theorem credentialsOf_ofString (s : String) :
    credentialsOf (.ofString s) = .ok (Draft.credentialsOf s) := by
  have hsplit : (halves? (.ofString s)).getD (.ofString s, []) =
      (.ofString (Draft.credentialsOf s).user, .ofString (Draft.credentialsOf s).password) := by
    rw [halves?_ofString, Draft.credentialsOf]
    cases Search.cut? (· == ':') s.toList with
    | none => rfl
    | some halves =>
      simp only [Option.map_some, Option.getD_some, Prod.map, Text.ofString, String.toList_ofList]
  rw [credentialsOf, hsplit]
  simp only [under_text_ofString, Check.both]
  rfl

theorem apply_ofDraft (d : Draft) (f : Flag) (arg : String) :
    (ofDraft d).apply f (.ofString arg) = .ok (ofDraft (d.apply f arg)) := by
  cases f with
  | method =>
    rw [apply, Text.upper_ofString]
    rfl
  | header =>
    rw [apply, halves?_ofString, Draft.apply, Draft.headerOf?]
    cases Search.cut? (· == ':') arg.toList with
    | none => rfl
    | some halves =>
      obtain ⟨name, value⟩ := halves
      have htrim : ∀ cs, (Text.ofChars cs).trim = .ofString (String.ofList (Blank.trim cs)) :=
        fun cs => by rw [Text.trim_ofChars, Text.ofString, String.toList_ofList]
      simp only [Option.map_some, Prod.map, htrim, putHeader_ofDraft]
  | body => rfl
  | user =>
    rw [apply, credentialsOf_ofString]
    rfl
  | json =>
    show Except.ok ((ofDraft { d with body := some arg }).putHeader _ _ |>.putHeader _ _) = _
    rw [putHeader_ofDraft, putHeader_ofDraft]
    rfl
  | form =>
    rw [apply, Draft.apply]
    cases hbody : d.body <;> simp [ofDraft, hbody]
  | cookie => exact congrArg _ (putHeader_ofDraft d "Cookie" arg)
  | userAgent => exact congrArg _ (putHeader_ofDraft d "User-Agent" arg)
  | referer => exact congrArg _ (putHeader_ofDraft d "Referer" arg)
  | plain => rfl

theorem passWord_ofDraft (d : Draft) (w : String) :
    (ofDraft d).passWord (.ofString w) = ofDraft (Command.applyPart d (Command.plainPart w)) := by
  have hdash : (Text.ofString w).head? = some (.scalar '-') ↔ Command.isDashed w = true := by
    rw [Command.isDashed, Text.ofString, Text.ofChars, List.head?_map]
    cases w.toList.head? <;> simp
  have hurl : (ofDraft d).url ≠ [] ↔ d.url ≠ "" := not_congr Text.ofString_eq_nil
  rw [Command.plainPart]
  by_cases hw : Command.isDashed w = true
  · rw [passWord, if_pos (.inl (hdash.mpr hw)), if_pos hw]
    rfl
  · rw [if_neg hw, Command.applyPart]
    by_cases hempty : d.url = ""
    · rw [passWord, if_neg (by simp [hdash, hurl, hw, hempty]), if_pos hempty]
      rfl
    · rw [passWord, if_pos (.inr (hurl.mpr hempty)), if_neg hempty]

theorem applyWords_ofDraft (d : Draft) (ws : List String) :
    (ofDraft d).applyWords (ws.map Text.ofString) =
      .ok (ofDraft ((Command.parts ws).foldl Command.applyPart d)) := by
  have hflag : ∀ w, (Text.ofString w).toString?.bind Flag.ofName? = Flag.ofName? w := fun w => by
    rw [Text.toString?_ofString, Option.bind_some]
  fun_induction Command.parts ws generalizing d with
  | case1 => rfl
  | case2 w f hf =>
    rw [List.map_singleton, applyWords, hflag, hf]
    exact apply_ofDraft d f ""
  | case3 w hf =>
    rw [List.map_singleton, applyWords, hflag, hf]
    exact congrArg _ (passWord_ofDraft d w)
  | case4 w a rest f hf htakes ih =>
    rw [List.map_cons, List.map_cons, applyWords, hflag, hf]
    simp only [htakes, if_true, apply_ofDraft]
    exact ih (d.apply f a)
  | case5 w a rest f hf htakes ih =>
    rw [List.map_cons, List.map_cons, applyWords, hflag, hf]
    simp only [htakes]
    have happly : (ofDraft d).apply f [] = .ok (ofDraft (d.apply f "")) := apply_ofDraft d f ""
    rw [happly]
    exact ih (d.apply f "")
  | case6 w a rest hf ih =>
    rw [List.map_cons, List.map_cons, applyWords, hflag, hf]
    dsimp only
    rw [passWord_ofDraft]
    exact ih _

theorem strings_ofDraft (d : Draft) : (ofDraft d).strings = .ok d := by
  have hheaders : Check.headers (.obj ((d.headers.map textHeader).map fun h => (h.1, .str h.2))) =
      .ok d.headers := by
    rw [Check.headers_eq_ok, List.map_map]
    rfl
  have hbody : Check.nullable .text (.ofOption .str (d.body.map Text.ofString)) = .ok d.body := by
    have hsame : Json.ofOption .str (d.body.map Text.ofString) = .ofOption .ofString d.body := by
      cases d.body <;> rfl
    rw [hsame]
    exact Check.nullable_ofOption (fun s => by simp [Json.ofString])
      (fun s => Check.text_eq_ok.mpr rfl) d.body
  rw [strings, ofDraft, under_text_ofString, under_text_ofString, hheaders, hbody]
  rfl

end TextDraft

namespace Command

theorem ofTexts_ofString (ws : List String) : ofTexts (ws.map Text.ofString) = ofWords ws := by
  cases ws with
  | nil => rfl
  | cons w rest =>
    have hword : (Text.ofString w).toString?.map lower ≠ some keyword ↔ lower w ≠ keyword := by
      rw [Text.toString?_ofString, Option.map_some, ne_eq, Option.some.injEq]
    rw [List.map_cons, ofTexts, ofWords]
    by_cases hw : lower w = keyword
    · have hwords : TextDraft.empty.applyWords (rest.map Text.ofString) =
          .ok (TextDraft.ofDraft (draft (parts rest))) := TextDraft.applyWords_ofDraft .empty rest
      have hfinish : (TextDraft.ofDraft (draft (parts rest))).strings >>= Draft.finish =
          (draft (parts rest)).finish := by
        rw [TextDraft.strings_ofDraft]
        rfl
      have hurl : (TextDraft.ofDraft (draft (parts rest))).url = [] ↔
          (draft (parts rest)).url = "" := Text.ofString_eq_nil
      rw [if_neg (fun h => hword.mp h hw), if_neg (fun h => h hw), hwords]
      dsimp only
      rw [hfinish]
      by_cases hempty : (draft (parts rest)).url = ""
      · rw [if_pos (hurl.mpr hempty), if_pos hempty]
      · rewrite [if_neg (fun h => hempty (hurl.mp h)), if_neg hempty]
        cases (draft (parts rest)).finish <;> rfl
    · rw [if_pos (hword.mpr hw), if_pos hw]

/-- A text without lone surrogates is read as the string that it is. -/
theorem ofText_ofString (line : String) : ofText (.ofString line) = read line := by
  rw [ofText, Words.ofText_ofString, ofTexts_ofString, read]

end Command

namespace Check

/-- All that is wrong is that some texts are broken. -/
def BrokenOnly {α : Type} (c : Check α) : Prop :=
  ∀ issues, c = .error issues → ∀ i ∈ issues, i.fault = .brokenText

namespace BrokenOnly

variable {α β : Type} {c : Check α} {d : Check β}

theorem ok (a : α) : BrokenOnly (.ok a : Check α) := nofun

theorem text (t : Text) : BrokenOnly (.text (.str t)) := by
  intro issues h i hi
  rw [Check.text] at h
  split at h
  · cases h
  · obtain rfl := Except.error.inj h
    rw [List.mem_singleton.mp hi]

theorem under (key : Text) (h : BrokenOnly c) : BrokenOnly (.under key c) := by
  intro issues hissues i hi
  cases c with
  | ok a => cases hissues
  | error before =>
    obtain rfl := Except.error.inj hissues
    obtain ⟨j, hj, rfl⟩ := List.mem_map.mp hi
    exact h before rfl j hj

theorem both (hc : BrokenOnly c) (hd : BrokenOnly d) : BrokenOnly (.both c d) := by
  intro issues hissues i hi
  cases c with
  | ok a =>
    cases d with
    | ok b => cases hissues
    | error f =>
      obtain rfl := Except.error.inj hissues
      exact hd f rfl i hi
  | error e =>
    cases d with
    | ok b =>
      obtain rfl := Except.error.inj hissues
      exact hc e rfl i hi
    | error f =>
      obtain rfl := Except.error.inj hissues
      rcases List.mem_append.mp hi with hi | hi
      · exact hc e rfl i hi
      · exact hd f rfl i hi

theorem all {cs : List (Check α)} (h : ∀ c ∈ cs, BrokenOnly c) : BrokenOnly (.all cs) := by
  induction cs with
  | nil => exact ok []
  | cons c rest ih =>
    obtain ⟨hc, hrest⟩ := List.forall_mem_cons.mp h
    have hboth := both hc (ih hrest)
    intro issues hissues
    rw [Check.all] at hissues
    split at hissues
    · cases hissues
    · next e he =>
      obtain rfl := Except.error.inj hissues
      exact hboth e he

theorem map {f : α → β} (h : BrokenOnly c) : BrokenOnly (c.map f) := by
  intro issues hissues
  exact h issues (Except.map_eq_error.mp hissues)

theorem bind {f : α → Check β} (h : BrokenOnly c) (hf : ∀ a, BrokenOnly (f a)) :
    BrokenOnly (c >>= f) := by
  intro issues hissues
  cases c with
  | ok a => exact hf a issues hissues
  | error e =>
    obtain rfl := Except.error.inj hissues
    exact h e rfl

theorem optional (o : Option Text) : BrokenOnly (.nullable .text (.ofOption .str o)) := by
  cases o with
  | none => exact ok none
  | some t =>
    intro issues hissues
    rw [Json.ofOption, Check.nullable] at hissues
    · split at hissues
      · cases hissues
      · next e he =>
        obtain rfl := Except.error.inj hissues
        exact text t e he
    · intro hnull
      cases hnull

end BrokenOnly

end Check

namespace TextDraft

open Check

theorem brokenOnly_credentialsOf (t : Text) : BrokenOnly (credentialsOf t) :=
  (((BrokenOnly.text _).under _).both ((BrokenOnly.text _).under _)).map

theorem brokenOnly_apply (d : TextDraft) (f : Flag) (arg : Text) : BrokenOnly (d.apply f arg) := by
  cases f with
  | user => exact (brokenOnly_credentialsOf arg).map
  | header =>
    rw [apply]
    split
    · exact .ok _
    · exact .ok _
  | _ => exact .ok _

theorem brokenOnly_applyWords (d : TextDraft) (ws : List Text) : BrokenOnly (d.applyWords ws) := by
  fun_induction applyWords d ws with
  | case1 d => exact .ok d
  | case2 d w f hf => exact brokenOnly_apply d f []
  | case3 d w hf => exact .ok _
  | case4 d w a rest f hf htakes ih => exact (brokenOnly_apply d f a).bind ih
  | case5 d w a rest f hf htakes ih => exact (brokenOnly_apply d f []).bind ih
  | case6 d w a rest hf ih => exact ih

theorem brokenOnly_strings (d : TextDraft) : BrokenOnly d.strings := by
  have hheaders : BrokenOnly
      (.headers (.obj (d.headers.map fun h => (h.1, Json.str h.2)))) := by
    refine .all fun c hc => ?_
    rw [List.map_map] at hc
    obtain ⟨h, -, rfl⟩ := List.mem_map.mp hc
    exact (((BrokenOnly.text h.1).under _).both (.text h.2)).under h.1
  exact (((BrokenOnly.text d.url).under _).both (((BrokenOnly.text d.method).under _).both
    ((hheaders.under _).both ((BrokenOnly.optional d.body).under _)))).map

theorem url_of_strings {d : TextDraft} {d' : Draft} (h : d.strings = .ok d') :
    d.url = .ofString d'.url := by
  obtain ⟨⟨url, rest⟩, hparts, rfl⟩ := Except.map_eq_ok.mp h
  have hurl := Check.text_eq_ok.mp (Check.under_eq_ok.mp (Check.both_eq_ok.mp hparts).1)
  exact Json.str.inj hurl

end TextDraft

theorem upper_ne_empty {s : String} (h : s ≠ "") : upper s ≠ "" := by
  intro hupper
  have hnil : Letter.upper s.toList = [] := by
    rw [← Command.toList_upper, hupper]
    rfl
  cases hs : s.toList with
  | nil => exact h (String.toList_eq_nil_iff.mp hs)
  | cons c rest =>
    rw [hs, Letter.upper, List.flatMap_cons] at hnil
    exact Letter.upperChar_ne_nil c (List.append_eq_nil_iff.mp hnil).1

/-- The checks of a draft with a url find nothing wrong. -/
theorem Draft.exists_finish {d : Draft} (hurl : d.url ≠ "") : ∃ r, d.finish = .ok r := by
  have hmethod : trim d.effectiveMethod ≠ "" := by
    rw [effectiveMethod]
    split_ifs with hblank hbody
    · decide
    · decide
    · rwa [trim_trim]
  rw [finish, Request.check, Request.checkUrl, dif_neg hurl, Request.checkMethod,
    dif_neg (upper_ne_empty hmethod)]
  exact ⟨_, rfl⟩

namespace Command

theorem brokenOnly_ofTexts {ws : List Text} {issues : List Issue}
    (h : ofTexts ws = .error (.invalid issues)) : ∀ i ∈ issues, i.fault = .brokenText := by
  cases ws with
  | nil => cases h
  | cons w rest =>
    rw [ofTexts] at h
    split_ifs at h with hword
    · cases h
    split at h
    · next e he =>
      obtain rfl := CommandError.invalid.inj (Except.error.inj h)
      exact TextDraft.brokenOnly_applyWords .empty rest e he
    · next d _ =>
      split_ifs at h with hurl
      · cases h
      split at h
      · cases h
      · next e he =>
        obtain rfl := CommandError.invalid.inj (Except.error.inj h)
        cases hstrings : d.strings with
        | error f =>
          rw [hstrings] at he
          obtain rfl := Except.error.inj he
          exact d.brokenOnly_strings f hstrings
        | ok d' =>
          have hne : d'.url ≠ "" := by
            rwa [TextDraft.url_of_strings hstrings, Text.ofString_eq_nil] at hurl
          obtain ⟨r, hr⟩ := Draft.exists_finish hne
          rw [hstrings] at he
          cases hr.symm.trans he

/-- The checks of the request that a line calls for refuse nothing but broken text, and only that of
a line with a lone surrogate. -/
theorem ofText_invalid {line : Text} {issues : List Issue}
    (h : ofText line = .error (.invalid issues)) :
    (∀ i ∈ issues, i.fault = .brokenText) ∧ ∃ k, .surrogate k ∈ line := by
  refine ⟨brokenOnly_ofTexts h, ?_⟩
  rw [← Text.toString?_eq_none_iff, ← Option.not_isSome_iff_eq_none, Option.isSome_iff_exists]
  rintro ⟨s, hs⟩
  rw [Text.toString?_eq_some_iff.mp hs, ofText_ofString, read] at h
  rcases ofWords_cases (Words.split s) with ⟨r, hr⟩ | he | he
  · cases hr.symm.trans h
  · cases he.symm.trans h
  · cases he.symm.trans h

end Command

end CurlSnippet
