import CurlSnippet.Proofs.CommandMeaning
import CurlSnippet.Proofs.JsonPrinting
import CurlSnippet.Request.OfJson

/-!
A request written as a JSON record is read back. The checks of the record find nothing to change:
the method is trimmed and in upper case already, however the request came about, and names of
headers that are distinct stay apart as keys.
-/

namespace CurlSnippet

/-- The method of a call is trimmed and in upper case, whether it was given or is the usual one. -/
theorem Command.fixed_givenMethod? (ps : List Part) (hasBody : Bool) :
    let m := (givenMethod? ps).getD (if hasBody then "POST" else "GET")
    trim m = m ∧ upper m = m := by
  cases hgiven : givenMethod? ps with
  | none => cases hasBody <;> decide
  | some m =>
    rw [givenMethod?, Option.bind_eq_some_iff] at hgiven
    obtain ⟨a, -, hm⟩ := hgiven
    by_cases hempty : trim (upper a) = ""
    · simp [hempty] at hm
    · rw [if_neg hempty, Option.some.injEq] at hm
      simp only [Option.getD_some, ← hm]
      refine ⟨trim_trim _, ?_⟩
      rw [← upper_trim_upper, upper_upper]

namespace Text

theorem eq_ofChars_of_chars? {t : Text} {cs : List Char} (h : chars? t = some cs) :
    t = ofChars cs := by
  induction t generalizing cs with
  | nil =>
    obtain rfl : [] = cs := Option.some.inj h
    rfl
  | cons p t ih =>
    rw [chars?, List.mapM_cons] at h
    obtain ⟨c, hc, h⟩ := Option.bind_eq_some_iff.mp h
    obtain ⟨rest, hrest, h⟩ := Option.bind_eq_some_iff.mp h
    obtain rfl : c :: rest = cs := Option.some.inj h
    cases p with
    | surrogate o => cases hc
    | scalar d =>
      obtain rfl : d = c := Option.some.inj hc
      rw [ih hrest]
      rfl

theorem toString?_eq_some_iff {t : Text} {s : String} : toString? t = some s ↔ t = ofString s := by
  constructor
  · intro h
    obtain ⟨cs, hcs, rfl⟩ := Option.map_eq_some_iff.mp h
    rw [ofString, String.toList_ofList]
    exact eq_ofChars_of_chars? hcs
  · rintro rfl
    exact toString?_ofString s

theorem ofString_injective : Function.Injective ofString := by
  intro s u h
  rw [← toString?_eq_some_iff, toString?_ofString] at h
  exact Option.some.inj h

end Text

namespace Json

theorem regular_ofString (s : String) : Regular (ofString s) := .str _

/-- A record is a regular value if its keys are distinct and all its members are regular. -/
theorem regular_ofMembers {members : List (String × Json)} (hkeys : (members.map Prod.fst).Nodup)
    (h : ∀ m ∈ members, Regular m.2) : Regular (ofMembers members) := by
  refine .obj ?_ fun m hm => ?_
  · have hnodup := hkeys.map Text.ofString_injective
    rw [List.map_map] at hnodup
    rwa [Entries.keys, List.map_map]
  · obtain ⟨n, hn, rfl⟩ := List.mem_map.mp hm
    exact h n hn

end Json

namespace Check

variable {α β : Type}

theorem both_eq_ok {c : Check α} {d : Check β} {a : α} {b : β} :
    both c d = .ok (a, b) ↔ c = .ok a ∧ d = .ok b := by
  cases c <;> cases d <;> simp [both]

theorem under_eq_ok {key : Text} {c : Check α} {a : α} : under key c = .ok a ↔ c = .ok a := by
  cases c <;> simp [under]

theorem all_eq_ok {cs : List (Check α)} {as : List α} : all cs = .ok as ↔ cs = as.map .ok := by
  induction cs generalizing as with
  | nil => cases as <;> simp [all]
  | cons c rest ih =>
    cases as with
    | nil =>
      rw [all]
      cases both c (all rest) <;> simp
    | cons a as =>
      rw [List.map_cons, List.cons.injEq, ← ih, ← both_eq_ok, all]
      cases both c (all rest) <;> simp [Prod.ext_iff]

theorem text_eq_ok {v : Json} {s : String} : text v = .ok s ↔ v = .ofString s := by
  constructor
  · intro h
    cases v with
    | str t =>
      rw [text] at h
      split at h
      · next u hu =>
        obtain rfl := Except.ok.inj h
        rw [Text.toString?_eq_some_iff.mp hu, Json.ofString]
      · cases h
    | _ => cases h
  · rintro rfl
    rw [Json.ofString, text, Text.toString?_ofString]

/-- Nothing is told apart from everything that is no null. -/
theorem nullable_ofOption {f : α → Json} {check : Json → Check α} (hnull : ∀ a, f a ≠ .null)
    (h : ∀ a, check (f a) = .ok a) (o : Option α) : nullable check (.ofOption f o) = .ok o := by
  cases o with
  | none => rfl
  | some a =>
    rw [Json.ofOption, nullable, h a]
    exact hnull a

theorem get?_ofString (members : List (String × Json)) (key : String) :
    Entries.get? (members.map fun p => (Text.ofString p.1, p.2)) (Text.ofString key) =
      Entries.get? members key := by
  induction members with
  | nil => rfl
  | cons m rest ih => simp [Entries.get?, Text.ofString_injective.eq_iff, ih]

/-- A member of a record is checked by its value. -/
theorem member_eq_ok {members : List (String × Json)} {key : String} {default : Check α}
    {check : Json → Check α} {v : Json} {a : α} (hkey : Entries.get? members key = some v)
    (h : check v = .ok a) :
    member (members.map fun p => (Text.ofString p.1, p.2)) key default check = .ok a := by
  rw [member, get?_ofString, hkey, under_eq_ok]
  exact h

/-- A header as a member of a record. -/
def headerMember (h : String × String) : Text × Json := (.ofString h.1, .ofString h.2)

theorem header_eq_ok {m : Text × Json} {h : String × String} :
    header m = .ok h ↔ m = headerMember h := by
  obtain ⟨name, value⟩ := h
  rw [header, under_eq_ok, both_eq_ok, under_eq_ok, text_eq_ok, text_eq_ok, Json.ofString,
    Json.str.injEq, headerMember, Prod.ext_iff]

theorem headers_eq_ok {members : List (Text × Json)} {hs : Entries String String} :
    headers (.obj members) = .ok hs ↔ members = hs.map headerMember := by
  rw [headers, all_eq_ok]
  induction members generalizing hs with
  | nil => cases hs <;> simp
  | cons m rest ih =>
    cases hs with
    | nil => simp
    | cons h hs =>
      rw [List.map_cons, List.map_cons, List.map_cons, List.cons.injEq, List.cons.injEq, ih,
        header_eq_ok]

theorem nodup_headerMembers {hs : Entries String String} :
    (Entries.keys (hs.map headerMember)).Nodup ↔ hs.keys.Nodup := by
  have hkeys : Entries.keys (hs.map headerMember) = hs.keys.map Text.ofString := by
    simp [Entries.keys, headerMember]
  rw [hkeys, List.nodup_map_iff Text.ofString_injective]

end Check

theorem Credentials.ofJson_toJson (a : Credentials) : ofJson a.toJson = .ok a := by
  rw [toJson, Json.ofMembers, ofJson,
    Check.member_eq_ok (v := .ofString a.user) (by simp [Entries.get?]) (Check.text_eq_ok.mpr rfl),
    Check.member_eq_ok (v := .ofString a.password) (by simp [Entries.get?])
      (Check.text_eq_ok.mpr rfl)]
  rfl

namespace Request

/-- What the checks of a request leave of its headers and its method: no name of a header stands
twice, and the method is trimmed and in upper case. -/
structure Settled (r : Request) : Prop where
  names : r.headers.keys.Nodup
  trimmed : trim r.method = r.method
  upper : upper r.method = r.method

theorem checkMethod_settled {r : Request} (h : r.Settled) :
    checkMethod r.method = .ok ⟨r.method, r.method_ne⟩ := by
  have hm : CurlSnippet.upper (trim r.method) = r.method := by rw [h.trimmed, h.upper]
  have hne : CurlSnippet.upper (trim r.method) ≠ "" := by rw [hm]; exact r.method_ne
  rw [checkMethod, dif_neg hne]
  simp only [hm]

/-- The ways in which requests come about: from a value whose map of headers repeats no name, from
fields of which the same holds, and from the words of a call. -/
inductive Constructed : Request → Prop
  | checked {v : Json} {r : Request}
      (hnames : ∀ hs, v.member? "headers" = some (.obj hs) → (Entries.keys hs).Nodup)
      (h : ofJson v = .ok r) : Constructed r
  | built {url method : String} {headers : Entries String String} {body : Option String}
      {auth : Option Credentials} {isJson isForm : Bool} {r : Request}
      (hnames : headers.keys.Nodup)
      (h : check url method headers body auth isJson isForm = .ok r) : Constructed r
  | called {ws : List String} {r : Request} (h : Command.ofWords ws = .ok r) : Constructed r

theorem filled_eq_ok {α : Type} {c : Check String} {check : String → Check α} {a : α} :
    filled c check = .ok a ↔ ∃ s, c = .ok s ∧ check s = .ok a := by
  cases c <;> simp [filled]

theorem checkMethod_eq_ok {s : String} {m : { m : String // m ≠ "" }}
    (h : checkMethod s = .ok m) : m.1 = CurlSnippet.upper (trim s) := by
  rw [checkMethod] at h
  split_ifs at h
  · cases h
  · obtain rfl := Except.ok.inj h
    rfl

theorem settled_of_method {r : Request} (hnames : r.headers.keys.Nodup) {s : String}
    (h : r.method = CurlSnippet.upper (trim s)) : r.Settled where
  names := hnames
  trimmed := by rw [h, trim_upper_trim]
  upper := by rw [h, upper_upper]

theorem settled_of_check {url method : String} {headers : Entries String String}
    {body : Option String} {auth : Option Credentials} {isJson isForm : Bool} {r : Request}
    (hnames : headers.keys.Nodup)
    (h : check url method headers body auth isJson isForm = .ok r) : r.Settled := by
  rw [check] at h
  split at h
  · next u m hboth =>
    obtain rfl := Except.ok.inj h
    exact settled_of_method hnames (checkMethod_eq_ok (Check.both_eq_ok.mp hboth).2)
  · cases h

theorem nodup_of_headers {v : Json} {hs : Entries String String}
    (hnames : ∀ ms, v = .obj ms → (Entries.keys ms).Nodup) (h : Check.headers v = .ok hs) :
    hs.keys.Nodup := by
  cases v with
  | obj ms =>
    rw [Check.headers_eq_ok] at h
    rw [← Check.nodup_headerMembers, ← h]
    exact hnames ms rfl
  | _ => cases h

theorem settled_of_ofJson {v : Json} {r : Request}
    (hnames : ∀ hs, v.member? "headers" = some (.obj hs) → (Entries.keys hs).Nodup)
    (h : ofJson v = .ok r) : r.Settled := by
  cases v with
  | obj members =>
    rw [ofJson] at h
    split at h
    · next u m hs body auth isJson isForm hboth =>
      obtain rfl := Except.ok.inj h
      obtain ⟨-, hboth⟩ := Check.both_eq_ok.mp hboth
      obtain ⟨hmethod, hboth⟩ := Check.both_eq_ok.mp hboth
      have hheaders := (Check.both_eq_ok.mp hboth).1
      obtain ⟨s, -, hmethod⟩ := filled_eq_ok.mp hmethod
      refine settled_of_method ?_ (checkMethod_eq_ok hmethod)
      rw [Check.member, Check.under_eq_ok] at hheaders
      split at hheaders
      · next v hv =>
        exact nodup_of_headers (fun ms hms => hnames ms (by rw [Json.member?, hv, hms])) hheaders
      · obtain rfl := Except.ok.inj hheaders
        exact List.nodup_nil
    · cases h
  | _ => cases h

theorem settled_of_ofWords {ws : List String} {r : Request} (h : Command.ofWords ws = .ok r) :
    r.Settled := by
  obtain ⟨w, rest, -, hr⟩ := Command.describes_of_ofWords h
  have hmethod := Command.fixed_givenMethod? (Command.parts rest) r.body.isSome
  rw [← hr.method] at hmethod
  refine ⟨?_, hmethod.1, hmethod.2⟩
  rw [hr.headers, ← Entries.ofPairs_eq_lastWrites]
  exact Entries.nodup_keys_ofPairs _

theorem Constructed.settled {r : Request} (h : Constructed r) : r.Settled := by
  cases h with
  | checked hnames h => exact settled_of_ofJson hnames h
  | built hnames h => exact settled_of_check hnames h
  | called h => exact settled_of_ofWords h

/-- The record of a request is a value that is read from its text. -/
theorem regular_toJson {r : Request} (h : r.Settled) : Json.Regular r.toJson := by
  have hauth : Json.Regular (.ofOption Credentials.toJson r.auth) := by
    cases r.auth with
    | none => exact .null
    | some a => exact Json.regular_ofMembers (by simp) (by simp [Json.regular_ofString])
  have hbody : Json.Regular (.ofOption .ofString r.body) := by
    cases r.body with
    | none => exact .null
    | some b => exact Json.regular_ofString b
  have hheaders : Json.Regular (.ofMembers (r.headers.map fun h => (h.1, .ofString h.2))) := by
    refine Json.regular_ofMembers ?_ fun m hm => ?_
    · rw [List.map_map]
      exact h.names
    · obtain ⟨h, -, rfl⟩ := List.mem_map.mp hm
      exact Json.regular_ofString h.2
  refine Json.regular_ofMembers (by simp) ?_
  simp [hauth, hbody, hheaders, Json.regular_ofString, Json.Regular.bool]

/-- The checks of a record give the request back, header by header and with its method as it was. -/
theorem ofJson_toJson {r : Request} (h : r.Settled) : ofJson r.toJson = .ok r := by
  have htext (s : String) : Check.text (.ofString s) = .ok s := Check.text_eq_ok.mpr rfl
  have hbool (b : Bool) : Check.bool (.bool b) = .ok b := rfl
  have hurl : checkUrl r.url = .ok ⟨r.url, r.url_ne⟩ := dif_neg r.url_ne
  have hmethod : checkMethod r.method = .ok ⟨r.method, r.method_ne⟩ := checkMethod_settled h
  have hheaders : Check.headers (.ofMembers (r.headers.map fun h => (h.1, .ofString h.2))) =
      .ok r.headers := by
    rw [Json.ofMembers, Check.headers_eq_ok, List.map_map]
    rfl
  have hbody : Check.nullable Check.text (.ofOption .ofString r.body) = .ok r.body :=
    Check.nullable_ofOption (f := .ofString) (fun _ => nofun) htext r.body
  have hauth : Check.nullable Credentials.ofJson (.ofOption Credentials.toJson r.auth) =
      .ok r.auth :=
    Check.nullable_ofOption (f := Credentials.toJson) (fun _ => nofun)
      Credentials.ofJson_toJson r.auth
  rw [toJson, Json.ofMembers, ofJson]
  rw [Check.member_eq_ok (v := .ofString r.url) (by simp [Entries.get?]) (htext r.url),
    Check.member_eq_ok (v := .ofString r.method) (by simp [Entries.get?]) (htext r.method),
    Check.member_eq_ok (by simp [Entries.get?]) hheaders,
    Check.member_eq_ok (by simp [Entries.get?]) hbody,
    Check.member_eq_ok (by simp [Entries.get?]) hauth,
    Check.member_eq_ok (v := .bool r.isJson) (by simp [Entries.get?]) (hbool r.isJson),
    Check.member_eq_ok (v := .bool r.isForm) (by simp [Entries.get?]) (hbool r.isForm),
    filled, hurl, filled, hmethod]
  rfl

/-- However a request came about, its text as JSON, on one line or on several, says its record, and
the checks of the record give the same request back. So its url is not empty, and its method is not
empty, trimmed and in upper case. -/
theorem Constructed.printed_back {r : Request} (h : Constructed r) :
    Json.decode? (r.toJson.print .compact) = some r.toJson ∧
      Json.decode? (r.toJson.pretty 2) = some r.toJson ∧ ofJson r.toJson = .ok r ∧
      r.url ≠ "" ∧ r.method ≠ "" ∧ trim r.method = r.method ∧
      CurlSnippet.upper r.method = r.method :=
  have hsettled := h.settled
  ⟨Json.decode?_print .compact (regular_toJson hsettled),
    Json.decode?_pretty 2 (regular_toJson hsettled), ofJson_toJson hsettled, r.url_ne, r.method_ne,
    hsettled.trimmed, hsettled.upper⟩

/-- A call with an empty body, a method of letters that become several, and a header that is written
twice around another one. -/
theorem Constructed.printed_back_called :
    let ws := ["curl", "-X", "\u2003ﬁǆß ", "-H", "b: \"\\", "-H", "A:", "-H", "b: 2", "-d", "",
      "-u", "me:\n", "http://h"]
    let r : Request := ⟨"http://h", "FIǄSS", [("b", "2"), ("A", "")], some "", some ⟨"me", "\n"⟩,
      false, false, by decide, by decide⟩
    Command.ofWords ws = .ok r ∧ Constructed r ∧
      Json.decode? (r.toJson.print .compact) = some r.toJson ∧
      Json.decode? (r.toJson.pretty 2) = some r.toJson ∧ ofJson r.toJson = .ok r ∧
      r.url ≠ "" ∧ r.method ≠ "" ∧ trim r.method = r.method ∧
      CurlSnippet.upper r.method = r.method := by
  intro ws r
  have hread : Command.ofWords ws = .ok r := rfl
  exact ⟨hread, .called hread, Constructed.printed_back (.called hread)⟩

end Request

end CurlSnippet
