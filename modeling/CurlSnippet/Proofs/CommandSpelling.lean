import CurlSnippet.Proofs.CommandMeaning
import CurlSnippet.Proofs.WordSpelling

/-!
Requests written as calls. A call that gives every part of a request by a flag of its own is read
back as that request, through the quoting of its words, the splitting of the line and the reading of
the flags. What can be written so is what the flags leave alone: no part may be trimmed, cut at
another colon or taken for a flag.
-/

namespace CurlSnippet

namespace Request

def headerLine (h : String × String) : String := h.1 ++ ": " ++ h.2

/-- The words of a call for the request: the url, and a flag for every other part. -/
def words (r : Request) : List String :=
  Command.keyword :: r.url :: "-X" :: r.method ::
    (r.headers.flatMap (fun h => ["-H", headerLine h]) ++
      (r.auth.elim [] (fun a => ["-u", a.user ++ ":" ++ a.password]) ++
        r.body.elim [] (fun b => ["-d", b])))

/-- Whether every part of the request is left alone by the flag that gives it. -/
structure Writable (r : Request) : Prop where
  url : r.url.toList.head? ≠ some '-'
  method : trim r.method = r.method ∧ upper r.method = r.method
  names : r.headers.keys.Nodup
  headers : ∀ h ∈ r.headers, ':' ∉ h.1.toList ∧ trim h.1 = h.1 ∧ trim h.2 = h.2
  auth : ∀ a ∈ r.auth, ':' ∉ a.user.toList

/-- The request with the kind of body that its headers and its body tell. -/
def classified (r : Request) : Request :=
  { r with
    isJson := Content.isJson r.headers r.body
    isForm := Content.isForm r.headers }

end Request

theorem halves?_append {before after : String} (h : ':' ∉ before.toList) :
    halves? (before ++ ":" ++ after) = some (before, after) := by
  have hchars : (before ++ ":" ++ after).toList = before.toList ++ ':' :: after.toList := by
    simp
  have hbefore : ∀ c ∈ before.toList, decide (c ≠ ':') = true := by
    intro c hc
    rw [decide_eq_true_eq]
    rintro rfl
    exact h hc
  rw [halves?, hchars, if_pos (by simp), List.takeWhile_append_of_pos hbefore,
    List.dropWhile_append_of_pos hbefore]
  simp

theorem trim_space_append (s : String) : trim (" " ++ s) = trim s := by
  have hchars : (" " ++ s).toList = ' ' :: s.toList := by simp
  rw [trim, hchars]
  rfl

namespace Command

/-- Every flag begins with a dash. -/
theorem dashed_names : (Flag.names.all fun n => n.1.toList.head? == some '-') = true := by
  decide

theorem ofName?_eq_none {w : String} (h : w.toList.head? ≠ some '-') : Flag.ofName? w = none := by
  rw [Flag.ofName?, List.lookup_eq_none_iff]
  intro n hn
  have hdash := List.all_eq_true.mp dashed_names n hn
  rw [bne_iff_ne]
  rintro rfl
  exact h (beq_iff_eq.mp hdash)

/-- The parts that the words of a request fall into. -/
def callParts (r : Request) : List Part :=
  .positional r.url :: .flag .method r.method ::
    (r.headers.map (fun h => .flag .header (Request.headerLine h)) ++
      (r.auth.elim [] (fun a => [.flag .user (a.user ++ ":" ++ a.password)]) ++
        r.body.elim [] (fun b => [.flag .body b])))

theorem FallsInto.headers {rest : List String} {ps : List Part} (h : FallsInto rest ps)
    (hs : List (String × String)) :
    FallsInto (hs.flatMap (fun x => ["-H", Request.headerLine x]) ++ rest)
      (hs.map (fun x => .flag .header (Request.headerLine x)) ++ ps) := by
  induction hs with
  | nil => exact h
  | cons x hs ih => exact .argument "-H" _ .header _ _ (by decide) rfl ih

theorem fallsInto_callParts {r : Request} (h : r.Writable) :
    FallsInto r.words.tail (callParts r) := by
  have hbody : FallsInto (r.body.elim [] fun b => ["-d", b])
      (r.body.elim [] fun b => [.flag .body b]) := by
    cases r.body with
    | none => exact .done
    | some b => exact .argument "-d" b .body [] [] (by decide) rfl .done
  have hauth : FallsInto ((r.auth.elim [] fun a => ["-u", a.user ++ ":" ++ a.password]) ++
        r.body.elim [] fun b => ["-d", b])
      ((r.auth.elim [] fun a => [.flag .user (a.user ++ ":" ++ a.password)]) ++
        r.body.elim [] fun b => [.flag .body b]) := by
    cases r.auth with
    | none => exact hbody
    | some a => exact .argument "-u" _ .user _ _ (by decide) rfl hbody
  exact .positional r.url _ _ (ofName?_eq_none h.url) h.url <|
    .argument "-X" r.method .method _ _ (by decide) rfl (hauth.headers r.headers)

theorem writes_headerLine {h : String × String}
    (hh : ':' ∉ h.1.toList ∧ trim h.1 = h.1 ∧ trim h.2 = h.2) :
    Part.writes (.flag .header (Request.headerLine h)) = [h] := by
  have hline : Request.headerLine h = h.1 ++ ":" ++ (" " ++ h.2) := by
    rw [Request.headerLine, String.append_assoc, String.append_assoc]
    rfl
  rw [hline, Part.writes, halves?_append hh.1, Option.map_some, trim_space_append, hh.2.1, hh.2.2]
  rfl

section Fields

variable (r : Request)

/-- What is read off the parts of a call, apart from its headers. -/
theorem filterMap_callParts {f : Part → Option String}
    (hheader : ∀ a, f (.flag .header a) = none) :
    (callParts r).filterMap f = (f (.positional r.url)).toList ++
      ((f (.flag .method r.method)).toList ++
        ((r.auth.bind fun a => f (.flag .user (a.user ++ ":" ++ a.password))).toList ++
          (r.body.bind fun b => f (.flag .body b)).toList)) := by
  have hcons (p : Part) (ps : List Part) :
      (p :: ps).filterMap f = (f p).toList ++ ps.filterMap f := by
    rw [List.filterMap_cons]
    cases f p <;> rfl
  have hheaders : (r.headers.map fun h => Part.flag .header (Request.headerLine h)).filterMap f =
      [] := by
    rw [List.filterMap_map, List.filterMap_eq_nil_iff]
    intro h _
    exact hheader _
  have hoption {α : Type} (o : Option α) (p : α → Part) :
      (o.elim [] fun a => [p a]).filterMap f = (o.bind fun a => f (p a)).toList := by
    cases o with
    | none => rfl
    | some a => exact (hcons (p a) []).trans (List.append_nil _)
  rw [callParts, hcons, hcons, List.filterMap_append, List.filterMap_append, hheaders, hoption,
    hoption, List.nil_append]

theorem positionals_callParts : positionals (callParts r) = [r.url] := by
  rw [positionals, filterMap_callParts r fun _ => rfl]
  cases r.auth <;> cases r.body <;> rfl

theorem arguments_method : arguments [.method] (callParts r) = [r.method] := by
  rw [arguments, filterMap_callParts r fun _ => rfl]
  cases r.auth <;> cases r.body <;> rfl

theorem arguments_user : arguments [.user] (callParts r) =
    (r.auth.map fun a => a.user ++ ":" ++ a.password).toList := by
  rw [arguments, filterMap_callParts r fun _ => rfl]
  cases r.auth <;> cases r.body <;> rfl

theorem givenBody?_callParts : givenBody? (callParts r) = r.body := by
  rw [givenBody?, arguments, arguments, filterMap_callParts r fun _ => rfl,
    filterMap_callParts r fun _ => rfl]
  cases r.auth <;> cases r.body <;> rfl

theorem writes_callParts {r : Request} (h : r.Writable) :
    (callParts r).flatMap Part.writes = r.headers := by
  have hheaders : (r.headers.map fun x => Part.flag .header (Request.headerLine x)).flatMap
      Part.writes = r.headers := by
    rw [List.flatMap_map, List.flatMap_congr fun x hx => writes_headerLine (h.headers x hx)]
    exact List.flatMap_singleton' _
  have hauth : (r.auth.elim [] fun a => [.flag .user (a.user ++ ":" ++ a.password)]).flatMap
      Part.writes = [] := by
    cases r.auth <;> rfl
  have hbody : (r.body.elim [] fun b => [.flag .body b]).flatMap Part.writes = [] := by
    cases r.body <;> rfl
  rw [callParts, List.flatMap_cons, List.flatMap_cons, List.flatMap_append, List.flatMap_append,
    hheaders, hauth, hbody]
  exact List.append_nil _

theorem credentials_append {a : Credentials} (h : ':' ∉ a.user.toList) :
    credentials (a.user ++ ":" ++ a.password) = a := by
  rw [credentials, halves?_append h]

end Fields

/-- The draft of a call for a request has the parts of the request. -/
theorem draft_callParts {r : Request} (h : r.Writable) :
    draft (callParts r) = ⟨r.url, r.method, r.headers, r.body, r.auth⟩ := by
  have hs := summarizes_draft (callParts r)
  have hurl : (draft (callParts r)).url = r.url := by
    rw [hs.url, positionals_callParts, List.find?_cons_of_pos (by simpa using r.url_ne)]
    rfl
  have hmethod : (draft (callParts r)).method = r.method := by
    rw [hs.method, arguments_method]
    exact h.method.2
  have hheaders : (draft (callParts r)).headers = r.headers := by
    rw [hs.headers, writes_callParts h, Entries.ofPairs_eq_self h.names]
  have hbody : (draft (callParts r)).body = r.body := by
    rw [hs.body, givenBody?_callParts]
  have hauth : (draft (callParts r)).auth = r.auth := by
    rw [hs.auth, arguments_user]
    cases ha : r.auth with
    | none => rfl
    | some a => exact congrArg some (credentials_append (h.auth a ha))
  calc draft (callParts r)
      = ⟨(draft (callParts r)).url, (draft (callParts r)).method, (draft (callParts r)).headers,
          (draft (callParts r)).body, (draft (callParts r)).auth⟩ := rfl
    _ = ⟨r.url, r.method, r.headers, r.body, r.auth⟩ := by
      rw [hurl, hmethod, hheaders, hbody, hauth]

theorem finish_of_writable {r : Request} (h : r.Writable) :
    Draft.finish ⟨r.url, r.method, r.headers, r.body, r.auth⟩ = .ok r.classified := by
  have hmethod : Draft.effectiveMethod ⟨r.url, r.method, r.headers, r.body, r.auth⟩ =
      r.method := by
    rw [Draft.effectiveMethod]
    dsimp only
    rw [h.method.1, if_neg r.method_ne]
  have hfixed : upper (trim r.method) = r.method := by rw [h.method.1, h.method.2]
  have hfinish := finish_eq_ok (d := ⟨r.url, r.method, r.headers, r.body, r.auth⟩) r.url_ne
    (by rw [hmethod]; exact r.method_ne) (by rw [hmethod]; exact hfixed)
  rw [hfinish]
  simp only [hmethod]
  rfl

/-- Every request that can be written as a call is read back from the line of that call, with the
kind of its body as the reader finds it. -/
theorem read_join_words (r : Request) (h : r.Writable) :
    read (Words.join r.words) = .ok r.classified := by
  have hwords : Words.split (Words.join r.words) = keyword :: r.words.tail := by
    have hchars : Words.splitChars (Words.join r.words).toList = r.words.map String.toList := by
      rw [Words.join, String.toList_ofList, Words.splitChars_joinChars]
    rw [Words.split, hchars]
    simp [Request.words]
  have hparts : parts r.words.tail = callParts r :=
    ((fallsInto_iff _ _).mp (fallsInto_callParts h)).symm
  have hkeyword : lower keyword = keyword := by decide
  rw [read, hwords, ofWords_cons hkeyword, hparts, draft_callParts h, finish_of_writable h]
  exact if_neg r.url_ne

/-- Quotes, colons, dashes, line ends and empty texts in every part that may hold them. -/
theorem read_join_words_hostile :
    let r : Request :=
      ⟨"'\n -X", "A\\ \"B", [("", "-d"), ("-H x", ": \n:"), ("Content-Type", "")], some "-u\r\n",
        some ⟨"", "a:'b"⟩, true, true, by decide, by decide⟩
    r.Writable ∧ read (Words.join r.words) = .ok r.classified := by
  intro r
  have hr : r.Writable := by
    refine ⟨by decide, ⟨by decide, by decide⟩, by decide, ?_, ?_⟩
    · decide
    · decide
  exact ⟨hr, read_join_words r hr⟩

end Command

end CurlSnippet
