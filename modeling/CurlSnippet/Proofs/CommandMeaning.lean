import CurlSnippet.Command
import CurlSnippet.Proofs.LastWrites
import CurlSnippet.Proofs.Trimming
import CurlSnippet.Proofs.UpperCase

/-!
What a curl call asks for, field by field. The words after the keyword fall into parts in exactly
one way, and each field of the request is read off the list of parts directly: the first positional
word, the last body, the last method, the last user, and the last value of every header. Reading the
parts one after the other into a draft keeps a summary of the parts read so far, so the finished
request agrees with that reading for calls of any length.
-/

namespace CurlSnippet

/-- The text before the first colon and the text after it, if there is a colon. -/
def halves? (s : String) : Option (String × String) :=
  if ':' ∈ s.toList then
    some (String.ofList (s.toList.takeWhile (· ≠ ':')),
      String.ofList (s.toList.dropWhile (· ≠ ':')).tail)
  else none

theorem cut?_colon (cs : List Char) :
    Search.cut? (· == ':') cs =
      if ':' ∈ cs then some (cs.takeWhile (· ≠ ':'), (cs.dropWhile (· ≠ ':')).tail) else none := by
  induction cs with
  | nil => rfl
  | cons c cs ih =>
    by_cases hc : c = ':'
    · subst c
      simp [Search.cut?]
    · by_cases hmem : ':' ∈ cs
      · simp [Search.cut?, hc, ih, hmem]
      · simp [Search.cut?, hc, ih, hmem, Ne.symm hc]

namespace Command

/-- How words fall into parts. A flag with an argument takes the next word whatever it looks like,
and an empty argument at the end of the line. -/
inductive FallsInto : List String → List Part → Prop
  | done : FallsInto [] []
  | argument (w a : String) (f : Flag) (rest : List String) (ps : List Part)
      (hf : Flag.ofName? w = some f) (ht : f.takesArgument = true) (h : FallsInto rest ps) :
      FallsInto (w :: a :: rest) (.flag f a :: ps)
  | missingArgument (w : String) (f : Flag)
      (hf : Flag.ofName? w = some f) (ht : f.takesArgument = true) :
      FallsInto [w] [.flag f ""]
  | bareFlag (w : String) (f : Flag) (rest : List String) (ps : List Part)
      (hf : Flag.ofName? w = some f) (ht : f.takesArgument = false) (h : FallsInto rest ps) :
      FallsInto (w :: rest) (.flag f "" :: ps)
  | positional (w : String) (rest : List String) (ps : List Part)
      (hf : Flag.ofName? w = none) (hw : w.toList.head? ≠ some '-') (h : FallsInto rest ps) :
      FallsInto (w :: rest) (.positional w :: ps)
  | ignored (w : String) (rest : List String) (ps : List Part)
      (hf : Flag.ofName? w = none) (hw : w.toList.head? = some '-') (h : FallsInto rest ps) :
      FallsInto (w :: rest) (.ignored w :: ps)

theorem parts_bareFlag {w : String} {f : Flag} (hf : Flag.ofName? w = some f)
    (ht : f.takesArgument = false) (rest : List String) :
    parts (w :: rest) = .flag f "" :: parts rest := by
  cases rest <;> simp [parts, hf, ht]

theorem parts_plain {w : String} (hf : Flag.ofName? w = none) (rest : List String) :
    parts (w :: rest) = plainPart w :: parts rest := by
  cases rest <;> simp [parts, hf]

theorem FallsInto.plain {w : String} (hf : Flag.ofName? w = none) {rest : List String}
    {ps : List Part} (h : FallsInto rest ps) : FallsInto (w :: rest) (plainPart w :: ps) := by
  unfold plainPart
  split_ifs with hw
  · exact .ignored w rest ps hf (by simpa [isDashed] using hw) h
  · exact .positional w rest ps hf (by simpa [isDashed] using hw) h

theorem fallsInto_parts (ws : List String) : FallsInto ws (parts ws) := by
  fun_induction parts ws with
  | case1 => exact .done
  | case2 w f hf =>
    cases ht : f.takesArgument with
    | true => exact .missingArgument w f hf ht
    | false => exact .bareFlag w f [] [] hf ht .done
  | case3 w hf => exact FallsInto.plain hf .done
  | case4 w a rest f hf ht ih => exact .argument w a f rest _ hf ht ih
  | case5 w a rest f hf ht ih => exact .bareFlag w f _ _ hf (by simpa using ht) ih
  | case6 w a rest hf ih => exact FallsInto.plain hf ih

/-- Words fall into parts in one way only. -/
theorem fallsInto_iff (ws : List String) (ps : List Part) : FallsInto ws ps ↔ ps = parts ws := by
  constructor
  · intro h
    induction h with
    | done => rfl
    | argument w a f rest ps hf ht h ih => simp [parts, hf, ht, ih]
    | missingArgument w f hf ht => simp [parts, hf]
    | bareFlag w f rest ps hf ht h ih => rw [parts_bareFlag hf ht, ih]
    | positional w rest ps hf hw h ih =>
      rw [parts_plain hf, ih, plainPart, isDashed, if_neg (by simpa using hw)]
    | ignored w rest ps hf hw h ih =>
      rw [parts_plain hf, ih, plainPart, isDashed, if_pos (by simpa using hw)]
  · rintro rfl
    exact fallsInto_parts ws

namespace Part

def positional? : Part → Option String
  | positional w => some w
  | _ => none

/-- The argument of a part that is one of the given flags. -/
def argument? (fs : List Flag) : Part → Option String
  | flag f a => if f ∈ fs then some a else none
  | _ => none

/-- The headers that a part writes, in that order. -/
def writes : Part → List (String × String)
  | flag .header line => ((halves? line).map fun h => (trim h.1, trim h.2)).toList
  | flag .json _ => [("Content-Type", "application/json"), ("Accept", "application/json")]
  | flag .cookie a => [("Cookie", a)]
  | flag .userAgent a => [("User-Agent", a)]
  | flag .referer a => [("Referer", a)]
  | _ => []

end Part

def positionals (ps : List Part) : List String := ps.filterMap Part.positional?

/-- The arguments of the given flags, in the order of the call. -/
def arguments (fs : List Flag) (ps : List Part) : List String := ps.filterMap (Part.argument? fs)

/-- The last body or JSON body, or else the first form field. -/
def givenBody? (ps : List Part) : Option String :=
  (arguments [.body, .json] ps).getLast?.or (arguments [.form] ps).head?

/-- The last method in upper case and trimmed, unless nothing is left of it. -/
def givenMethod? (ps : List Part) : Option String :=
  (arguments [.method] ps).getLast?.bind fun a =>
    let m := trim (upper a)
    if m = "" then none else some m

/-- The user before the first colon and the password after it; all of it is the user without a
colon. -/
def credentials (a : String) : Credentials :=
  match halves? a with
  | some (user, password) => ⟨user, password⟩
  | none => ⟨a, ""⟩

/-- What the fields of a request have to be for the parts of its call. -/
structure Describes (ps : List Part) (r : Request) : Prop where
  url : (positionals ps).find? (· ≠ "") = some r.url
  method : r.method = (givenMethod? ps).getD (if r.body.isSome then "POST" else "GET")
  headers : r.headers = Entries.lastWrites (ps.flatMap Part.writes)
  body : r.body = givenBody? ps
  auth : r.auth = (arguments [.user] ps).getLast?.map credentials
  isJson : r.isJson = Content.isJson r.headers r.body
  isForm : r.isForm = Content.isForm r.headers

theorem credentialsOf_eq (a : String) : Draft.credentialsOf a = credentials a := by
  unfold Draft.credentialsOf credentials halves?
  rw [cut?_colon]
  split_ifs <;> rfl

theorem headerOf?_eq (line : String) :
    Draft.headerOf? line = (halves? line).map fun h => (trim h.1, trim h.2) := by
  unfold Draft.headerOf? halves?
  rw [cut?_colon]
  split_ifs <;> simp [trim]

section Apply

variable (d : Draft) (f : Flag) (a : String)

theorem url_apply : (d.apply f a).url = d.url := by
  cases f with
  | header =>
    rw [Draft.apply]
    split <;> rfl
  | _ => rfl

theorem method_apply : (d.apply f a).method = if f = .method then upper a else d.method := by
  cases f with
  | header =>
    rw [Draft.apply]
    split <;> rfl
  | _ => rfl

theorem headers_apply : (d.apply f a).headers =
    (Part.writes (.flag f a)).foldl (fun m w => m.put w.1 w.2) d.headers := by
  cases f with
  | header =>
    rw [Draft.apply, headerOf?_eq, Part.writes]
    cases halves? a <;> rfl
  | _ => rfl

theorem body_apply : (d.apply f a).body =
    if f ∈ [Flag.body, .json] then some a
    else if f = .form then some (d.body.getD a) else d.body := by
  cases f with
  | header =>
    rw [Draft.apply]
    split <;> rfl
  | _ => rfl

theorem auth_apply : (d.apply f a).auth = if f = .user then some (credentials a) else d.auth := by
  cases f with
  | header =>
    rw [Draft.apply]
    split <;> rfl
  | user => rw [Draft.apply, credentialsOf_eq]; rfl
  | _ => rfl

end Apply

theorem arguments_concat (fs : List Flag) (ps : List Part) (p : Part) :
    arguments fs (ps ++ [p]) = arguments fs ps ++ (p.argument? fs).toList := by
  rw [arguments, List.filterMap_append, List.filterMap_cons, List.filterMap_nil]
  cases p.argument? fs <;> rfl

theorem positionals_concat (ps : List Part) (p : Part) :
    positionals (ps ++ [p]) = positionals ps ++ p.positional?.toList := by
  rw [positionals, List.filterMap_append, List.filterMap_cons, List.filterMap_nil]
  cases p.positional? <;> rfl

/-- What a draft says about the parts read so far. -/
structure Summarizes (d : Draft) (ps : List Part) : Prop where
  url : d.url = ((positionals ps).find? (· ≠ "")).getD ""
  method : d.method = ((arguments [.method] ps).getLast?.map upper).getD ""
  headers : d.headers = Entries.ofPairs (ps.flatMap Part.writes)
  body : d.body = givenBody? ps
  auth : d.auth = (arguments [.user] ps).getLast?.map credentials

theorem Summarizes.empty : Summarizes .empty [] := ⟨rfl, rfl, rfl, rfl, rfl⟩

/-- A word that is no flag leaves every field but the url alone. -/
theorem Summarizes.word {d : Draft} {ps : List Part} (h : Summarizes d ps) (p : Part)
    (hargument : ∀ fs, p.argument? fs = none) (hwrites : p.writes = []) (url : String)
    (hurl : url = ((positionals (ps ++ [p])).find? (· ≠ "")).getD "") :
    Summarizes { d with url := url } (ps ++ [p]) where
  url := hurl
  method := by
    rw [arguments_concat, hargument, Option.toList_none, List.append_nil]
    exact h.method
  headers := by
    rw [List.flatMap_append, List.flatMap_singleton, hwrites, List.append_nil]
    exact h.headers
  body := by
    rw [givenBody?, arguments_concat, arguments_concat, hargument, hargument, Option.toList_none,
      List.append_nil, List.append_nil]
    exact h.body
  auth := by
    rw [arguments_concat, hargument, Option.toList_none, List.append_nil]
    exact h.auth

theorem Summarizes.flag {d : Draft} {ps : List Part} (h : Summarizes d ps) (f : Flag)
    (a : String) : Summarizes (d.apply f a) (ps ++ [.flag f a]) where
  url := by
    rw [url_apply, positionals_concat]
    simpa [Part.positional?] using h.url
  method := by
    rw [method_apply, arguments_concat, Part.argument?, h.method]
    by_cases hf : f = .method <;> simp [hf]
  headers := by
    rw [headers_apply, h.headers, List.flatMap_append, List.flatMap_singleton, Entries.ofPairs,
      Entries.ofPairs, List.foldl_append]
  body := by
    rw [body_apply, h.body, givenBody?, givenBody?, arguments_concat, arguments_concat,
      Part.argument?, Part.argument?]
    by_cases hbody : f ∈ [Flag.body, .json]
    · simp [hbody]
    · by_cases hform : f = .form
      · subst f
        simp
      · simp [hbody, hform]
  auth := by
    rw [auth_apply, arguments_concat, Part.argument?, h.auth]
    by_cases hf : f = .user <;> simp [hf]

/-- Reading one more part keeps the summary. -/
theorem Summarizes.applyPart {d : Draft} {ps : List Part} (h : Summarizes d ps) (p : Part) :
    Summarizes (applyPart d p) (ps ++ [p]) := by
  cases p with
  | flag f a => exact h.flag f a
  | ignored w =>
    apply h.word (.ignored w) (fun _ => rfl) rfl d.url
    rw [positionals_concat]
    simpa [Part.positional?] using h.url
  | positional w =>
    have hurl := h.url
    rw [Command.applyPart]
    cases hfind : (positionals ps).find? (· ≠ "") with
    | none =>
      rw [hfind, Option.getD_none] at hurl
      rw [if_pos hurl]
      apply h.word (.positional w) (fun _ => rfl) rfl w
      rw [positionals_concat, List.find?_append, hfind]
      by_cases hw : w = "" <;> simp [Part.positional?, hw]
    | some u =>
      have hu : u ≠ "" := by simpa using List.find?_some hfind
      rw [hfind, Option.getD_some] at hurl
      rw [if_neg (by rwa [hurl])]
      apply h.word (.positional w) (fun _ => rfl) rfl d.url
      rw [positionals_concat, List.find?_append, hfind]
      exact hurl

theorem summarizes_draft (ps : List Part) : Summarizes (draft ps) ps := by
  induction ps using List.reverseRecOn with
  | nil => exact .empty
  | append_singleton ps p ih =>
    rw [draft, List.foldl_append]
    exact ih.applyPart p

/-- A method that is trimmed and in upper case stays as it is, so it passes its check. -/
theorem finish_eq_ok {d : Draft} (hurl : d.url ≠ "") (hne : d.effectiveMethod ≠ "")
    (hmethod : upper (trim d.effectiveMethod) = d.effectiveMethod) :
    d.finish = .ok ⟨d.url, d.effectiveMethod, d.headers, d.body, d.auth,
      Content.isJson d.headers d.body, Content.isForm d.headers, hurl, hne⟩ := by
  have hm : upper (trim d.effectiveMethod) ≠ "" := by rwa [hmethod]
  rw [Draft.finish, Request.check, Request.checkUrl, dif_neg hurl, Request.checkMethod, dif_neg hm]
  simp only [Check.both, Request.ofChecked, hmethod]

theorem toList_upper (s : String) : (upper s).toList = Letter.upper s.toList := String.toList_ofList

theorem upper_trim_upper (s : String) : upper (trim (upper s)) = trim (upper s) := by
  have htrim : (trim (upper s)).toList = Blank.trim (Letter.upper s.toList) := by
    rw [trim, String.toList_ofList, toList_upper]
  have hupper : Letter.IsUpper (Blank.trim (Letter.upper s.toList)) := fun c hc =>
    Letter.isUpper_upper s.toList c (Blank.mem_of_mem_trim hc)
  rw [upper, htrim, hupper.upper_eq, ← htrim, String.ofList_toList]

theorem Summarizes.effectiveMethod {d : Draft} {ps : List Part} (h : Summarizes d ps) :
    d.effectiveMethod = (givenMethod? ps).getD (if d.body.isSome then "POST" else "GET") := by
  rw [Draft.effectiveMethod, h.method, givenMethod?]
  cases (arguments [.method] ps).getLast? with
  | none => rfl
  | some a =>
    simp only [Option.map_some, Option.getD_some, Option.bind_some]
    split_ifs <;> rfl

/-- The method of a draft is trimmed and in upper case, whether it was given or is the usual one. -/
theorem Summarizes.method_fixed {d : Draft} {ps : List Part} (h : Summarizes d ps) :
    d.effectiveMethod ≠ "" ∧ upper (trim d.effectiveMethod) = d.effectiveMethod := by
  rw [h.effectiveMethod]
  cases hgiven : givenMethod? ps with
  | none =>
    rw [Option.getD_none]
    split_ifs <;> decide
  | some m =>
    rw [Option.getD_some]
    rw [givenMethod?, Option.bind_eq_some_iff] at hgiven
    obtain ⟨a, -, hm⟩ := hgiven
    by_cases hempty : trim (upper a) = ""
    · simp [hempty] at hm
    · rw [if_neg hempty, Option.some.injEq] at hm
      rw [← hm, trim_trim, upper_trim_upper]
      exact ⟨hempty, rfl⟩

theorem ofWords_cons {w : String} (hw : lower w = keyword) (rest : List String) :
    ofWords (w :: rest) =
      if (draft (parts rest)).url = "" then .error .missingUrl
      else match (draft (parts rest)).finish with
        | .ok r => .ok r
        | .error issues => .error (.invalid issues) := by
  rw [ofWords]
  exact if_neg (not_not.mpr hw)

/-- What the words after the keyword give: without a positional word no request, and with one the
request that their parts describe. No check of a finished draft fails. -/
theorem ofWords_parts {w : String} (hw : lower w = keyword) (rest : List String) :
    ((∀ u ∈ positionals (parts rest), u = "") ∧ ofWords (w :: rest) = .error .missingUrl) ∨
      (∃ u ∈ positionals (parts rest), u ≠ "") ∧
        ∃ r, ofWords (w :: rest) = .ok r ∧ Describes (parts rest) r := by
  have h := summarizes_draft (parts rest)
  have hurl := h.url
  rw [ofWords_cons hw]
  cases hfind : (positionals (parts rest)).find? (· ≠ "") with
  | none =>
    rw [hfind, Option.getD_none] at hurl
    rw [List.find?_eq_none] at hfind
    exact .inl ⟨by simpa using hfind, if_pos hurl⟩
  | some u =>
    have hu : u ≠ "" := by simpa using List.find?_some hfind
    rw [hfind, Option.getD_some] at hurl
    have hne : (draft (parts rest)).url ≠ "" := by rwa [hurl]
    rw [if_neg hne, finish_eq_ok hne h.method_fixed.1 h.method_fixed.2]
    exact .inr ⟨⟨u, List.mem_of_find?_eq_some hfind, hu⟩, _, rfl, {
      url := hfind.trans (congrArg some hurl.symm)
      method := h.effectiveMethod
      headers := by rw [h.headers, Entries.ofPairs_eq_lastWrites]
      body := h.body
      auth := h.auth
      isJson := rfl
      isForm := rfl }⟩

/-- A request comes of words after the keyword, and is the one that their parts describe. -/
theorem describes_of_ofWords {ws : List String} {r : Request} (h : ofWords ws = .ok r) :
    ∃ w rest, ws = w :: rest ∧ Describes (parts rest) r := by
  cases ws with
  | nil => cases h
  | cons w rest =>
    by_cases hw : lower w = keyword
    · rcases ofWords_parts hw rest with ⟨-, herror⟩ | ⟨-, s, hs, hdescribes⟩
      · cases herror.symm.trans h
      · obtain rfl := Except.ok.inj (hs.symm.trans h)
        exact ⟨w, rest, rfl, hdescribes⟩
    · rw [ofWords, if_pos hw] at h
      cases h

/-- A call whose first word is the keyword falls into parts in one way; it gives a request exactly
if some positional word is not empty, and that request is the one that the parts describe. -/
theorem ofWords_describes (w : String) (rest : List String) (hw : lower w = keyword) :
    ∃ ps, (∀ qs, FallsInto rest qs ↔ qs = ps) ∧
      ((∃ r, ofWords (w :: rest) = .ok r) ↔ ∃ u ∈ positionals ps, u ≠ "") ∧
      ∀ r, ofWords (w :: rest) = .ok r → Describes ps r := by
  refine ⟨parts rest, fallsInto_iff rest, ?_⟩
  rcases ofWords_parts hw rest with ⟨hempty, herror⟩ | ⟨hsome, s, hs, hdescribes⟩
  · rw [herror]
    refine ⟨⟨nofun, ?_⟩, nofun⟩
    rintro ⟨u, hu, hne⟩
    exact absurd (hempty u hu) hne
  · rw [hs]
    refine ⟨⟨fun _ => hsome, fun _ => ⟨s, rfl⟩⟩, ?_⟩
    rintro r hr
    obtain rfl := Except.ok.inj hr
    exact hdescribes

/-- A body after a form field, a header written twice and a method flag without its argument. -/
theorem ofWords_describes_overwriting :
    let rest := ["-F", "a=1", "", "http://h", "-d", "-X", "-H", "A: 1", "-H", "B:", "-H", "A:2",
      "-u", "me:x:y", "-X"]
    lower "cURL" = keyword ∧
      ∃ ps, (∀ qs, FallsInto rest qs ↔ qs = ps) ∧
        ((∃ r, ofWords ("cURL" :: rest) = .ok r) ↔ ∃ u ∈ positionals ps, u ≠ "") ∧
        ∀ r, ofWords ("cURL" :: rest) = .ok r → Describes ps r :=
  ⟨by decide, ofWords_describes "cURL" _ (by decide)⟩

end Command

end CurlSnippet
