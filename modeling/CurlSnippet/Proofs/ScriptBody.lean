import CurlSnippet.Decimal.Arithmetic
import CurlSnippet.Proofs.ScriptEvaluation
import CurlSnippet.Proofs.SnippetBody

/-!
Bodies that are sent from a script. A body that is sent as a value stands in the script as the
literal of the value, is evaluated there and made JSON text again. That text denotes the value
exactly if no object in it has a property `__proto__` and every whole number in it is the one that
is printed for the binary64 number nearest to it.
-/

namespace CurlSnippet

namespace Script.Number

/-- Whether the number is the given one, but for the sign of a zero. -/
def equals : Number → Binary64 → Bool
  | finite x, y => x == y || (x.isZero && y.isZero)
  | infinite _, _ => false

theorem equals_self (x : Binary64) : (finite x).equals x = true := by
  rw [equals, beq_self_eq_true, Bool.true_or]

end Script.Number

namespace Json

mutual

/-- Whether what is read of a JSON text denotes the value. A whole number is denoted by just that
number, any other number by one that is nearest to it, an object by its members in any order. -/
def denotedBy : Json → Json → Bool
  | .null, .null => true
  | .bool a, .bool b => a == b
  | .int n, .int m => n == m
  | .int n, .float y => y.equalsInt n
  | .float x, .int m => (Script.Number.ofInt m).equals x
  | .float x, .float y => (Script.Number.finite y).equals x
  | .str s, .str t => s == t
  | .arr vs, .arr ws => itemsDenotedBy vs ws
  | .obj ms, .obj ns => ms.length == ns.length && membersDenotedBy ms ns
  | _, _ => false

def itemsDenotedBy : List Json → List Json → Bool
  | [], [] => true
  | v :: vs, w :: ws => denotedBy v w && itemsDenotedBy vs ws
  | _, _ => false

def membersDenotedBy : List (Text × Json) → Entries Text Json → Bool
  | [], _ => true
  | (k, v) :: ms, ns => (match ns.get? k with
    | some w => denotedBy v w
    | none => false) && membersDenotedBy ms ns

end

mutual

/-- Whether a value comes back from a script: no object in it has a property `__proto__`, and each
whole number is denoted by what is printed of the number nearest to it. -/
def survives : Json → Bool
  | .int n => denotedBy (.int n) (Script.Number.ofInt n).read
  | .arr items => itemsSurvive items
  | .obj members => membersSurvive members
  | _ => true

def itemsSurvive : List Json → Bool
  | [] => true
  | v :: rest => survives v && itemsSurvive rest

def membersSurvive : List (Text × Json) → Bool
  | [] => true
  | (k, v) :: rest => k != Script.prototypeKey && survives v && membersSurvive rest

end

end Json

namespace Script

open Json

theorem readItems_eq_map (vs : List Value) : Value.readItems vs = vs.map Value.read := by
  induction vs with
  | nil => rfl
  | cons v vs ih => rw [Value.readItems, ih, List.map_cons]

theorem evaluateItems_eq_map (vs : List Json) : evaluateItems vs = vs.map evaluate := by
  induction vs with
  | nil => rfl
  | cons v vs ih => rw [evaluateItems, ih, List.map_cons]

theorem readProperties_eq_map (ps : List (Units × Value)) :
    Value.readProperties ps = ps.map fun p => (Text.ofUnits p.1, p.2.read) := by
  induction ps with
  | nil => rfl
  | cons p ps ih =>
    obtain ⟨k, v⟩ := p
    rw [Value.readProperties, ih, List.map_cons]

theorem evaluateMembers_eq_map (ms : List (Text × Json)) :
    evaluateMembers ms =
      (ms.filter fun m => m.1 != prototypeKey).map fun m => (Text.units m.1, evaluate m.2) := by
  induction ms with
  | nil => rfl
  | cons m ms ih =>
    obtain ⟨k, v⟩ := m
    by_cases hk : k = prototypeKey
    · rw [evaluateMembers, if_pos hk, ih, List.filter_cons_of_neg (by simpa using hk)]
    · rw [evaluateMembers, if_neg hk, ih, List.filter_cons_of_pos (by simpa using hk),
        List.map_cons]

theorem inOrder_perm (ps : List (Units × Value)) : (inOrder ps).Perm ps :=
  ((List.perm_insertionSort _ _).append_right _).trans (List.filter_append_perm _ ps)

/-- What is read of an object are the members of the literal that are properties. -/
theorem read_members_perm {ms : List (Text × Json)} (h : ∀ m ∈ ms, Text.Joined m.1) :
    (Value.readProperties (inOrder (evaluateMembers ms))).Perm
      ((ms.filter fun m => m.1 != prototypeKey).map fun m => (m.1, (evaluate m.2).read)) := by
  have hread : (Value.readProperties (evaluateMembers ms)) =
      (ms.filter fun m => m.1 != prototypeKey).map fun m => (m.1, (evaluate m.2).read) := by
    rw [readProperties_eq_map, evaluateMembers_eq_map, List.map_map]
    apply List.map_congr_left
    intro m hm
    rw [Function.comp_apply, Text.ofUnits_units (h m (List.mem_filter.mp hm).1)]
  rw [← hread, readProperties_eq_map, readProperties_eq_map]
  exact (inOrder_perm _).map _

theorem nodup_read_members {ms : Entries Text Json} (hkeys : ms.keys.Nodup)
    (h : ∀ m ∈ ms, Text.Joined m.1) :
    (Entries.keys (Value.readProperties (inOrder (evaluateMembers ms)))).Nodup := by
  have hkept := (ms.filter_sublist (p := fun m => m.1 != prototypeKey)).map Prod.fst
  have hperm := (read_members_perm h).map Prod.fst
  rw [List.map_map] at hperm
  exact hperm.nodup_iff.mpr (hkept.nodup hkeys)

section Objects

variable {ms : List (Text × Json)}

theorem joined_keys (h : ∀ t ∈ (Json.obj ms).texts, Text.Joined t) : ∀ m ∈ ms, Text.Joined m.1 :=
  fun m hm => h m.1 (mem_memberTexts.mpr ⟨m, hm, .inl rfl⟩)

theorem joined_members (h : ∀ t ∈ (Json.obj ms).texts, Text.Joined t) :
    ∀ m ∈ ms, ∀ t ∈ m.2.texts, Text.Joined t :=
  fun m hm t ht => h t (mem_memberTexts.mpr ⟨m, hm, .inr ht⟩)

theorem joined_items {vs : List Json} (h : ∀ t ∈ (Json.arr vs).texts, Text.Joined t) :
    ∀ v ∈ vs, ∀ t ∈ v.texts, Text.Joined t :=
  fun v hv t ht => h t (mem_itemTexts.mpr ⟨v, hv, ht⟩)

end Objects

/-- What is read of a value of a script is regular. -/
theorem regular_read {v : Json} (hv : Regular v) (ht : ∀ t ∈ v.texts, Text.Joined t) :
    Regular (evaluate v).read := by
  induction hv with
  | null => exact .null
  | bool b => exact .bool b
  | int _ =>
    rw [evaluate, Value.read]
    exact (atomic_read _).1
  | float x =>
    rw [evaluate, Value.read]
    exact (atomic_read _).1
  | str t => exact .str _
  | @arr items _ ih =>
    rw [evaluate, Value.read, readItems_eq_map, evaluateItems_eq_map, List.map_map]
    apply Regular.arr
    intro w hw
    obtain ⟨u, hu, rfl⟩ := List.mem_map.mp hw
    exact ih u hu (joined_items ht u hu)
  | @obj members hkeys _ ih =>
    rw [evaluate, Value.read]
    apply Regular.obj (nodup_read_members hkeys (joined_keys ht))
    intro n hn
    obtain ⟨m, hm, rfl⟩ := List.mem_map.mp ((read_members_perm (joined_keys ht)).subset hn)
    have hmem := (List.mem_filter.mp hm).1
    exact ih m hmem (joined_members ht m hmem)

theorem ofInt_zero : Number.ofInt 0 = .finite (.zero false) := by
  decide +kernel

theorem ofInt_eq_finite {n : Int} {negative : Bool} {k : Nat} {x : Binary64}
    (hsign : decide (n < 0) = negative) (habs : n.natAbs = k)
    (h : Binary64.ofQuotient negative k 1 = some x) : Number.ofInt n = .finite x := by
  rw [Number.ofInt, hsign, habs, h, Option.elim_some]

/-- The whole number that stands for a number is one to which it is nearest. -/
theorem ofInt_whole {x : Binary64} (hx : x.isZero = false) (hwhole : isWhole x = true) :
    let n : Int := x.shortest.coefficient * 10 ^ x.shortest.exponent.toNat
    Number.ofInt (if x.negative then -n else n) = .finite x := by
  intro n
  have hc : x.shortest.coefficient ≠ 0 := Binary64.coefficient_shortest_ne_zero hx
  have hexponent : 0 ≤ x.shortest.exponent := by
    rw [isWhole, Bool.and_eq_true, decide_eq_true_eq] at hwhole
    exact hwhole.1
  have hpos : 0 < n := by positivity
  have habs : n.natAbs = x.shortest.coefficient * 10 ^ x.shortest.exponent.toNat := by
    have hten : (10 : Int).natAbs = 10 := rfl
    rw [Int.natAbs_mul, Int.natAbs_pow, Int.natAbs_natCast, hten]
  have hquotient := Binary64.ofQuotient_of_ofDecimal hc hexponent (Binary64.ofDecimal_shortest hx)
  by_cases hsign : x.negative = true
  · rw [if_pos hsign]
    exact ofInt_eq_finite (by rw [hsign]; exact decide_eq_true (by omega))
      (n.natAbs_neg.trans habs) hquotient
  · rw [if_neg hsign]
    rw [Bool.not_eq_true] at hsign
    exact ofInt_eq_finite (by rw [hsign]; exact decide_eq_false (by omega)) habs hquotient

theorem denotedBy_read_float (x : Binary64) :
    denotedBy (.float x) (Number.read (.finite x)) = true := by
  rw [Number.read]
  by_cases hx : x.isZero = true
  · have hzero : (Binary64.zero false).isZero = true := rfl
    rw [if_pos hx, denotedBy, ofInt_zero, Number.equals, hx, hzero, Bool.and_true, Bool.or_true]
  rw [if_neg hx]
  by_cases hwhole : isWhole x = true
  · rw [if_pos hwhole, denotedBy, ofInt_whole (Bool.eq_false_iff.mpr hx) hwhole]
    exact Number.equals_self x
  · rw [if_neg hwhole, denotedBy]
    exact Number.equals_self x

theorem itemsDenotedBy_read {vs : List Json}
    (h : ∀ v ∈ vs, v.denotedBy (evaluate v).read = v.survives) :
    itemsDenotedBy vs (Value.readItems (evaluateItems vs)) = itemsSurvive vs := by
  induction vs with
  | nil => rfl
  | cons v vs ih =>
    obtain ⟨hv, hrest⟩ := List.forall_mem_cons.mp h
    rw [evaluateItems, Value.readItems, itemsDenotedBy, itemsSurvive, hv, ih hrest]

/-- Members are denoted if each is found by its key and denoted, and none sets the prototype. -/
theorem membersDenotedBy_read {ms : List (Text × Json)} {ns : Entries Text Json}
    (h : ∀ m ∈ ms, m.2.denotedBy (evaluate m.2).read = m.2.survives)
    (hfound : ∀ m ∈ ms, ns.get? m.1 =
      if m.1 = prototypeKey then none else some (evaluate m.2).read) :
    membersDenotedBy ms ns = membersSurvive ms := by
  induction ms with
  | nil => rfl
  | cons m ms ih =>
    obtain ⟨k, v⟩ := m
    obtain ⟨hv, hrest⟩ := List.forall_mem_cons.mp h
    obtain ⟨hk, hlater⟩ := List.forall_mem_cons.mp hfound
    rw [membersDenotedBy, membersSurvive, ih hrest hlater, hk]
    by_cases hproto : k = prototypeKey
    · rw [if_pos hproto, hproto, bne_self_eq_false, Bool.false_and, Bool.false_and, Bool.false_and]
    · rw [if_neg hproto, bne_iff_ne.mpr hproto, Bool.true_and]
      exact congrArg (· && membersSurvive ms) hv

theorem ne_of_membersSurvive {ms : List (Text × Json)} (h : membersSurvive ms = true) :
    ∀ m ∈ ms, m.1 ≠ prototypeKey := by
  induction ms with
  | nil => simp
  | cons m ms ih =>
    obtain ⟨k, v⟩ := m
    rw [membersSurvive, Bool.and_eq_true, Bool.and_eq_true, bne_iff_ne] at h
    exact List.forall_mem_cons.mpr ⟨h.1.1, ih h.2⟩

/-- Every member but the one that sets the prototype is found. -/
theorem get?_read_members {ms : Entries Text Json} (hkeys : ms.keys.Nodup)
    (h : ∀ m ∈ ms, Text.Joined m.1) : ∀ m ∈ ms,
      Entries.get? (Value.readProperties (inOrder (evaluateMembers ms))) m.1 =
        if m.1 = prototypeKey then none else some (evaluate m.2).read := by
  intro m hm
  have hperm := read_members_perm h
  split_ifs with hproto
  · rw [Entries.get?_eq_none_iff, Entries.keys, (hperm.map Prod.fst).mem_iff, hproto,
      List.map_map]
    intro hmem
    obtain ⟨n, hn, heq⟩ := List.mem_map.mp hmem
    exact absurd heq (bne_iff_ne.mp (List.mem_filter.mp hn).2)
  · apply Entries.get?_of_mem (nodup_read_members hkeys h)
    rw [hperm.mem_iff]
    have hkept : m ∈ ms.filter fun m => m.1 != prototypeKey :=
      List.mem_filter.mpr ⟨hm, bne_iff_ne.mpr hproto⟩
    exact List.mem_map.mpr ⟨m, hkept, rfl⟩

/-- The JSON text of a value denotes it exactly if the value survives. -/
theorem denotedBy_read {v : Json} (hv : Regular v) (ht : ∀ t ∈ v.texts, Text.Joined t) :
    v.denotedBy (evaluate v).read = v.survives := by
  induction hv with
  | null => rfl
  | bool b =>
    rw [evaluate, Value.read, denotedBy, beq_self_eq_true]
    rfl
  | int _ => rw [evaluate, Value.read, survives]
  | float x =>
    rw [evaluate, Value.read, denotedBy_read_float]
    rfl
  | str t =>
    have hjoined : Text.Joined t := ht t List.mem_cons_self
    rw [evaluate, Value.read, denotedBy, Text.ofUnits_units hjoined, beq_self_eq_true]
    rfl
  | @arr items _ ih =>
    rw [evaluate, Value.read, denotedBy, survives]
    exact itemsDenotedBy_read fun u hu => ih u hu (joined_items ht u hu)
  | @obj members hkeys _ ih =>
    have hjoined := joined_keys ht
    have hmembers := membersDenotedBy_read (fun m hm => ih m hm (joined_members ht m hm))
      (get?_read_members hkeys hjoined)
    rw [evaluate, Value.read, denotedBy, survives, hmembers]
    cases hsurvive : membersSurvive members with
    | false => exact Bool.and_false _
    | true =>
      have hall : members.filter (fun m => m.1 != prototypeKey) = members :=
        List.filter_eq_self.mpr fun m hm =>
          bne_iff_ne.mpr (ne_of_membersSurvive hsurvive m hm)
      have hlength := (read_members_perm hjoined).length_eq
      rw [hall, List.length_map] at hlength
      rw [hlength, beq_self_eq_true, Bool.true_and]

end Script

open Source

namespace Target

/-- The literal in the expression of a body whose value a script sends as JSON text. -/
def scriptLiteral? : Target → List Lexeme → Option (List Lexeme)
  | .fetch, e | .node, e => argument? e
  | .axios, e => some e
  | _, _ => none

/-- The JSON text that a script sends: its body is found, evaluated and serialised. -/
def sentText? (t : Target) (code : Text) : Option Text := do
  let ls ← Source.read t.backquotes .code code
  let place ← (found t.bodyWords (.code (.scalar '\n') :: ls)).head?
  let literal ← t.scriptLiteral? (expression t.bodyStop 0 place.2)
  let x ← Script.evaluate? literal
  return x.stringify

end Target

namespace Request

theorem scriptLiteral?_bodyLine {t : Target} (ht : t = .fetch ∨ t = .axios ∨ t = .node)
    {r : Request} {body : String} {v : Json} (hv : r.jsonBody? body = some v) :
    ∃ level, t.scriptLiteral? (ofLine t.backquotes (r.bodyLine body t)) =
      some (ofLine false (literalAt .lowerCase 2 level v)) := by
  rcases ht with rfl | rfl | rfl
  · refine ⟨1, ?_⟩
    rw [bodyLine, Snippet.Fetch.bodyPieces, hv]
    exact (congrArg Target.argument? ofLine_call).trans (argument?_call _)
  · refine ⟨1, ?_⟩
    rw [bodyLine, Snippet.Axios.dataPieces, hv]
    rfl
  · refine ⟨0, ?_⟩
    rw [bodyLine, Snippet.Node.dataPieces, hv]
    exact (congrArg Target.argument? ofLine_call).trans (argument?_call _)

/-- What is found in a script and evaluated is the value of the body. -/
theorem sentText?_code {t : Target} (ht : t = .fetch ∨ t = .axios ∨ t = .node) {r : Request}
    (hurl : t = .node → (Url.endpoint? r.url).isSome = true) {body : String}
    (hbody : r.body = some body) {v : Json} (hv : r.jsonBody? body = some v) :
    t.sentText? (r.code t) = some (Script.evaluate v).stringify := by
  obtain ⟨ls, hread, hlines, -⟩ := r.read_code t
  obtain ⟨level, hliteral⟩ := scriptLiteral?_bodyLine ht hv
  have hshows := shows_snippet t r hurl
  rw [Shows, hbody] at hshows
  obtain ⟨more, after, hfound, -⟩ := hshows
  have hlevel := (expression_bodyLine t r body).level
  have hvalue := Script.evaluate?_literalAt (regular_jsonBody? hv) 2 level
  simp only [Target.sentText?, hread, hlines, hfound, Option.bind_eq_bind, Option.bind_some,
    List.head?_cons, expression_of_level hlevel, hliteral, hvalue]
  rfl

theorem joined_jsonBody? {r : Request} {body : String} {v : Json}
    (h : r.jsonBody? body = some v) : ∀ t ∈ v.texts, Text.Joined t := by
  rw [Request.jsonBody?] at h
  split_ifs at h
  exact Json.joined_of_decode? h

/-- A body that is sent as a value is found in a script, evaluated and sent as JSON text. The text
denotes the value exactly if no object in the value has a property `__proto__` and each whole
number in it is what is printed of the number nearest to it. -/
theorem body_when_run {t : Target} (ht : t = .fetch ∨ t = .axios ∨ t = .node) {r : Request}
    (hurl : t = .node → (Url.endpoint? r.url).isSome = true) {body : String}
    (hbody : r.body = some body) {v : Json} (hv : r.jsonBody? body = some v) :
    ∃ s w, t.sentText? (r.code t) = some s ∧ Json.decode? s = some w ∧
      v.denotedBy w = v.survives := by
  have hregular := regular_jsonBody? hv
  have hjoined := joined_jsonBody? hv
  refine ⟨_, _, sentText?_code ht hurl hbody hv, ?_, Script.denotedBy_read hregular hjoined⟩
  exact Script.Value.decode?_stringify (Script.regular_read hregular hjoined)

/-- A property that sets the prototype and a whole number between two binary64 numbers are lost;
other keys, in whatever order they are enumerated, and other numbers come back. -/
theorem body_when_run_lossy :
    let r (body : String) : Request :=
      ⟨"http://h", "POST", [], some body, none, true, false, by decide, by decide⟩
    let sends (t : Target) (body : String) (v : Json) (same : Bool) : Prop :=
      (r body).jsonBody? body = some v ∧ ∃ s w, t.sentText? ((r body).code t) = some s ∧
        Json.decode? s = some w ∧ v.denotedBy w = same
    let prototype : Json := .obj [(Text.ofString "__proto__", .int 1)]
    let ordinary : Json :=
      .obj [(Text.ofString "b", .arr [.int 5, .null]), (Text.ofString "7", .bool true)]
    (Url.endpoint? "http://h").isSome = true ∧
      sends .fetch "\x7b\"__proto__\": 1\x7d" prototype false ∧
      sends .axios "9007199254740993" (.int 9007199254740993) false ∧
      sends .node "\x7b\"b\": [5, null], \"7\": true\x7d" ordinary true := by
  intro r sends prototype ordinary
  have hendpoint : (Url.endpoint? "http://h").isSome = true := by decide +kernel
  have hprototype : (r "\x7b\"__proto__\": 1\x7d").jsonBody? "\x7b\"__proto__\": 1\x7d" =
      some prototype := by
    with_unfolding_all rfl
  have hlarge : (r "9007199254740993").jsonBody? "9007199254740993" =
      some (.int 9007199254740993) := by
    with_unfolding_all rfl
  have hordinary : (r "\x7b\"b\": [5, null], \"7\": true\x7d").jsonBody?
      "\x7b\"b\": [5, null], \"7\": true\x7d" = some ordinary := by
    with_unfolding_all rfl
  have hrounded : (Json.int 9007199254740993).survives = false := by decide +kernel
  have hkept : ordinary.survives = true := by decide +kernel
  refine ⟨hendpoint, ⟨hprototype, ?_⟩, ⟨hlarge, ?_⟩, hordinary, ?_⟩
  · obtain ⟨s, w, hsent, hread, hdenoted⟩ := body_when_run (.inl rfl) nofun rfl hprototype
    exact ⟨s, w, hsent, hread, hdenoted⟩
  · obtain ⟨s, w, hsent, hread, hdenoted⟩ := body_when_run (.inr (.inl rfl)) nofun rfl hlarge
    exact ⟨s, w, hsent, hread, hdenoted.trans hrounded⟩
  · obtain ⟨s, w, hsent, hread, hdenoted⟩ :=
      body_when_run (.inr (.inr rfl)) (fun _ => hendpoint) rfl hordinary
    exact ⟨s, w, hsent, hread, hdenoted.trans hkept⟩

end Request

end CurlSnippet
