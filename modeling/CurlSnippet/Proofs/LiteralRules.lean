import CurlSnippet.Snippet.Literal
import CurlSnippet.Proofs.JsonReading

/-!
One induction for everything that is said of the literal of a value. A property of the lines of
values, of items and of members that passes through every way a literal is put together holds of
the literal of every regular value.
-/

namespace CurlSnippet

section Equations

variable (names : Spelling) (indent level : Int)

theorem literalAt_arr (v : Json) (rest : List Json) :
    literalAt names indent level (.arr (v :: rest)) =
      .code "[\n" :: (literalItems names indent (level + 1) (v :: rest) ++
        [.code "\n", spaces (indent * level), .code "]"]) := by
  rw [literalAt]
  simp

theorem literalAt_obj (m : Text × Json) (rest : List (Text × Json)) :
    literalAt names indent level (.obj (m :: rest)) =
      .code "\x7b\n" :: (literalMembers names indent (level + 1) (m :: rest) ++
        [.code "\n", spaces (indent * level), .code "\x7d"]) := by
  rw [literalAt]
  simp

theorem literalItems_cons (v w : Json) (rest : List Json) :
    literalItems names indent level (v :: w :: rest) =
      spaces (indent * level) :: (literalAt names indent level v ++
        .code ",\n" :: literalItems names indent level (w :: rest)) := by
  rw [literalItems]
  simp

theorem literalMembers_cons (k : Text) (v : Json) (n : Text × Json) (rest : List (Text × Json)) :
    literalMembers names indent level ((k, v) :: n :: rest) =
      spaces (indent * level) :: .literal k :: .code ": " ::
        (literalAt names indent level v ++
          .code ",\n" :: literalMembers names indent level (n :: rest)) := by
  rw [literalMembers]
  simp

end Equations

/-- The ways to put a literal together, for properties of a value, of the items of an array and of
the members of an object at a level, each with its line. -/
structure LiteralRules (names : Spelling) (indent : Int) (value : Int → Json → Line → Prop)
    (items : Int → List Json → Line → Prop)
    (members : Int → List (Text × Json) → Line → Prop) : Prop where
  null : ∀ level, value level .null [.code names.null]
  yes : ∀ level, value level (.bool true) [.code names.yes]
  no : ∀ level, value level (.bool false) [.code names.no]
  int : ∀ level {n : Int}, Json.number? (Json.spellInt n) = some (.int n) →
    value level (.int n) [.code (String.ofList (Json.spellInt n))]
  float : ∀ level (x : Binary64), Json.number? (x.spell .standard) = some (.float x) →
    value level (.float x) [.code (String.ofList (x.spell .standard))]
  str : ∀ level t, value level (.str t) [.literal t]
  emptyArr : ∀ level, value level (.arr []) [.code "[]"]
  emptyObj : ∀ level, value level (.obj []) [.code "\x7b\x7d"]
  arr : ∀ level {v rest l}, items (level + 1) (v :: rest) l → value level (.arr (v :: rest))
    (.code "[\n" :: (l ++ [.code "\n", spaces (indent * level), .code "]"]))
  obj : ∀ level {m rest l}, members (level + 1) (m :: rest) l → value level (.obj (m :: rest))
    (.code "\x7b\n" :: (l ++ [.code "\n", spaces (indent * level), .code "\x7d"]))
  item : ∀ level {v l}, value level v l → items level [v] (spaces (indent * level) :: l)
  moreItems : ∀ level {v w rest l m}, value level v l → items level (w :: rest) m →
    items level (v :: w :: rest) (spaces (indent * level) :: (l ++ .code ",\n" :: m))
  member : ∀ level {k v l}, value level v l →
    members level [(k, v)] (spaces (indent * level) :: .literal k :: .code ": " :: l)
  moreMembers : ∀ level {k v n rest l m}, value level v l → members level (n :: rest) m →
    members level ((k, v) :: n :: rest)
      (spaces (indent * level) :: .literal k :: .code ": " :: (l ++ .code ",\n" :: m))

namespace LiteralRules

variable {names : Spelling} {indent : Int} {value : Int → Json → Line → Prop}
  {items : Int → List Json → Line → Prop} {members : Int → List (Text × Json) → Line → Prop}

theorem literalItems (h : LiteralRules names indent value items members) {level : Int} {v : Json}
    {rest : List Json} (hvalues : ∀ w ∈ v :: rest, value level w (literalAt names indent level w)) :
    items level (v :: rest) (literalItems names indent level (v :: rest)) := by
  induction rest generalizing v with
  | nil => exact h.item level (hvalues v List.mem_cons_self)
  | cons w rest ih =>
    have hrest := ih fun u hu => hvalues u (List.mem_cons_of_mem v hu)
    rw [literalItems_cons]
    exact h.moreItems level (hvalues v List.mem_cons_self) hrest

theorem literalMembers (h : LiteralRules names indent value items members) {level : Int}
    {m : Text × Json} {rest : List (Text × Json)}
    (hvalues : ∀ n ∈ m :: rest, value level n.2 (literalAt names indent level n.2)) :
    members level (m :: rest) (literalMembers names indent level (m :: rest)) := by
  induction rest generalizing m with
  | nil => exact h.member level (hvalues m List.mem_cons_self)
  | cons n rest ih =>
    obtain ⟨k, v⟩ := m
    have hrest := ih fun u hu => hvalues u (List.mem_cons_of_mem _ hu)
    rw [literalMembers_cons]
    exact h.moreMembers level (hvalues (k, v) List.mem_cons_self) hrest

theorem literalAt (h : LiteralRules names indent value items members) {v : Json}
    (hv : Json.Regular v) (level : Int) : value level v (literalAt names indent level v) := by
  induction hv generalizing level with
  | null => exact h.null level
  | bool b =>
    cases b
    · exact h.no level
    · exact h.yes level
  | int hlen => exact h.int level (Json.number?_spellInt hlen)
  | float x => exact h.float level x (Json.number?_spell x)
  | str t => exact h.str level t
  | @arr vs _ ih =>
    cases vs with
    | nil => exact h.emptyArr level
    | cons w rest =>
      have hitems := h.literalItems fun u hu => ih u hu (level + 1)
      rw [literalAt_arr]
      exact h.arr level hitems
  | @obj ms _ _ ih =>
    cases ms with
    | nil => exact h.emptyObj level
    | cons m rest =>
      have hmembers := h.literalMembers fun u hu => ih u hu (level + 1)
      rw [literalAt_obj]
      exact h.obj level hmembers

end LiteralRules

end CurlSnippet
