import CurlSnippet.Proofs.JsonPrinting
import CurlSnippet.Proofs.SnippetLexemes

/-!
The level of a literal. A literal that is written some levels deeper is the same literal with every
line but the first indented further, and its closing bracket stands on the indentation of its level.
No string, key or number breaks a line. Names are written as they are spelled, so a line feed in the
spelling of a name goes without the indentation, and no other does.
-/

namespace CurlSnippet

namespace Text

def blanks (n : Nat) : Text := List.replicate n (.scalar ' ')

/-- The text with as many blanks after every line feed. -/
def shifted (width : Nat) (t : Text) : Text :=
  t.flatMap fun p => if p = .scalar '\n' then p :: blanks width else [p]

/-- Line by line the second text is the first, with every line but the first indented further. -/
def IndentedBy (width : Nat) (t u : Text) : Prop :=
  ∃ first rest, (∀ l ∈ first :: rest, .scalar '\n' ∉ l) ∧ t = lines (first :: rest) ∧
    u = lines (first :: rest.map (blanks width ++ ·))

/-- The text ends with a bracket that is alone on a line of the given indentation. -/
def ClosesAt (width : Nat) (bracket : Char) (t : Text) : Prop :=
  ∃ inside, t = inside ++ .scalar '\n' :: (blanks width ++ [.scalar bracket])

theorem blanks_append (m n : Nat) : blanks m ++ blanks n = blanks (m + n) :=
  List.replicate_append_replicate

theorem shifted_line_feed (width : Nat) (t : Text) :
    shifted width (.scalar '\n' :: t) = .scalar '\n' :: (blanks width ++ shifted width t) := by
  simp [shifted]

theorem shifted_cons {p : CodePoint} (hp : p ≠ .scalar '\n') (width : Nat) (t : Text) :
    shifted width (p :: t) = p :: shifted width t := by
  simp [shifted, hp]

/-- To shift a text is to indent its lines but the first. -/
theorem indentedBy_shifted (width : Nat) (t : Text) : IndentedBy width t (shifted width t) := by
  induction t with
  | nil => exact ⟨[], [], by simp, rfl, rfl⟩
  | cons p t ih =>
    obtain ⟨first, rest, hlines, ht, hu⟩ := ih
    by_cases hp : p = .scalar '\n'
    · subst hp
      refine ⟨[], first :: rest, ?_, ?_, ?_⟩
      · simpa using hlines
      · rw [ht, Source.lines_cons, Source.lines_cons]
        simp
      · rw [shifted_line_feed, hu, Source.lines_cons, Source.lines_cons]
        simp
    · refine ⟨p :: first, rest, ?_, ?_, ?_⟩
      · simpa [Ne.symm hp] using hlines
      · rw [ht, Source.lines_cons, Source.lines_cons]
        rfl
      · rw [shifted_cons hp, hu, Source.lines_cons, Source.lines_cons]
        rfl

/-- The second text is the first with as many blanks after its line feeds, but for a number of bare
ones that go without. -/
inductive Shift (width : Nat) : Nat → Text → Text → Prop
  | nil : Shift width 0 [] []
  | lineFeed {bare : Nat} {t u : Text} (h : Shift width bare t u) :
      Shift width bare (.scalar '\n' :: t) (.scalar '\n' :: (blanks width ++ u))
  | bareLineFeed {bare : Nat} {t u : Text} (h : Shift width bare t u) :
      Shift width (bare + 1) (.scalar '\n' :: t) (.scalar '\n' :: u)
  | other {bare : Nat} {p : CodePoint} {t u : Text} (hp : p ≠ .scalar '\n')
      (h : Shift width bare t u) : Shift width bare (p :: t) (p :: u)

namespace Shift

variable {width : Nat}

theorem append {m n : Nat} {t u t' u' : Text} (h : Shift width m t u) (h' : Shift width n t' u') :
    Shift width (m + n) (t ++ t') (u ++ u') := by
  induction h with
  | nil => simpa using h'
  | lineFeed _ ih =>
    rw [List.cons_append, List.cons_append, List.append_assoc]
    exact .lineFeed ih
  | bareLineFeed _ ih =>
    rw [Nat.add_right_comm]
    exact .bareLineFeed ih
  | other hp _ ih => exact .other hp ih

/-- A text is itself with all its line feeds bare. -/
theorem self (width : Nat) (t : Text) : Shift width (t.count (.scalar '\n')) t t := by
  induction t with
  | nil => exact .nil
  | cons p t ih =>
    by_cases hp : p = .scalar '\n'
    · subst hp
      rw [List.count_cons_self]
      exact .bareLineFeed ih
    · rw [List.count_cons_of_ne hp]
      exact .other hp ih

theorem total (width : Nat) (t : Text) : Shift width 0 t (shifted width t) := by
  induction t with
  | nil => exact .nil
  | cons p t ih =>
    by_cases hp : p = .scalar '\n'
    · subst hp
      rw [shifted_line_feed]
      exact .lineFeed ih
    · rw [shifted_cons hp]
      exact .other hp ih

theorem of_line (width : Nat) {t : Text} (h : .scalar '\n' ∉ t) : Shift width 0 t t := by
  have hself := self width t
  rwa [List.count_eq_zero.mpr h] at hself

theorem lineBreak (width n : Nat) :
    Shift width 0 (.scalar '\n' :: blanks n) (.scalar '\n' :: blanks (n + width)) := by
  have hblanks : .scalar '\n' ∉ blanks n := by simp [blanks]
  have hbreak := Shift.lineFeed (of_line width hblanks)
  rwa [blanks_append, Nat.add_comm width n] at hbreak

/-- Every line feed adds the width, and a bare one adds nothing. -/
theorem length_eq {bare : Nat} {t u : Text} (h : Shift width bare t u) :
    u.length + width * bare = t.length + width * t.count (.scalar '\n') := by
  induction h with
  | nil => rfl
  | lineFeed _ ih =>
    rw [List.count_cons_self]
    simp only [blanks, List.length_cons, List.length_append, List.length_replicate, Nat.mul_add]
    omega
  | bareLineFeed _ ih =>
    rw [List.count_cons_self]
    simp only [List.length_cons, Nat.mul_add]
    omega
  | other hp _ ih =>
    rw [List.count_cons_of_ne hp]
    simp only [List.length_cons]
    omega

theorem eq_shifted {bare : Nat} {t u : Text} (h : Shift width bare t u)
    (hall : width = 0 ∨ bare = 0) : u = shifted width t := by
  induction h with
  | nil => rfl
  | lineFeed _ ih => rw [shifted_line_feed, ih hall]
  | bareLineFeed _ ih =>
    obtain rfl : width = 0 := hall.resolve_right (Nat.succ_ne_zero _)
    rw [shifted_line_feed, ih (.inl rfl)]
    rfl
  | other hp _ ih => rw [shifted_cons hp, ih hall]

/-- With a bare line feed the text is too short to be shifted throughout. -/
theorem eq_shifted_iff {bare : Nat} {t u : Text} (h : Shift width bare t u) :
    u = shifted width t ↔ width = 0 ∨ bare = 0 := by
  refine ⟨fun heq => ?_, h.eq_shifted⟩
  have hbare := h.length_eq
  have htotal := (total width t).length_eq
  rw [heq] at hbare
  exact Nat.mul_eq_zero.mp (by omega)

theorem indentedBy {bare : Nat} {t u : Text} (h : Shift width bare t u)
    (hall : width = 0 ∨ bare = 0) : IndentedBy width t u := by
  rw [h.eq_shifted hall]
  exact indentedBy_shifted width t

end Shift

end Text

namespace Spelling

mutual

/-- The line feeds in the names that a value holds, as they are spelled. -/
def lineFeeds (names : Spelling) : Json → Nat
  | .null => (Text.ofString names.null).count (.scalar '\n')
  | .bool true => (Text.ofString names.yes).count (.scalar '\n')
  | .bool false => (Text.ofString names.no).count (.scalar '\n')
  | .arr items => itemLineFeeds names items
  | .obj members => memberLineFeeds names members
  | _ => 0

def itemLineFeeds (names : Spelling) : List Json → Nat
  | [] => 0
  | v :: rest => lineFeeds names v + itemLineFeeds names rest

def memberLineFeeds (names : Spelling) : List (Text × Json) → Nat
  | [] => 0
  | (_, v) :: rest => lineFeeds names v + memberLineFeeds names rest

end

/-- No name goes over the end of a line. -/
def OnLine (names : Spelling) : Prop :=
  ∀ s ∈ [names.null, names.yes, names.no], .scalar '\n' ∉ Text.ofString s

theorem onLine_lowerCase : lowerCase.OnLine := by
  unfold OnLine
  decide

theorem onLine_capitalized : capitalized.OnLine := by
  unfold OnLine
  decide

variable {names : Spelling}

mutual

theorem lineFeeds_eq_zero (h : names.OnLine) : ∀ v : Json, names.lineFeeds v = 0
  | .null => List.count_eq_zero.mpr (h names.null (by simp))
  | .bool true => List.count_eq_zero.mpr (h names.yes (by simp))
  | .bool false => List.count_eq_zero.mpr (h names.no (by simp))
  | .int _ | .float _ | .str _ => rfl
  | .arr items => itemLineFeeds_eq_zero h items
  | .obj members => memberLineFeeds_eq_zero h members

theorem itemLineFeeds_eq_zero (h : names.OnLine) :
    ∀ items : List Json, names.itemLineFeeds items = 0
  | [] => rfl
  | v :: rest => by rw [itemLineFeeds, lineFeeds_eq_zero h v, itemLineFeeds_eq_zero h rest]

theorem memberLineFeeds_eq_zero (h : names.OnLine) :
    ∀ members : List (Text × Json), names.memberLineFeeds members = 0
  | [] => rfl
  | (_, v) :: rest => by rw [memberLineFeeds, lineFeeds_eq_zero h v, memberLineFeeds_eq_zero h rest]

end

end Spelling

namespace Json

open Text (Shift blanks)

theorem text_indent (indent level : Nat) :
    (spaces ((indent : Int) * (level : Int))).text = blanks (indent * level) := by
  rw [text_spaces, ← Int.natCast_mul, Int.toNat_natCast]
  rfl

section Shifts

variable {width : Nat}

theorem line_feed_not_mem_quote (t : Text) : .scalar '\n' ∉ quote t := by
  rw [quote, List.mem_cons, List.mem_append, not_or, not_or]
  refine ⟨by decide, fun h => ?_, by decide⟩
  obtain ⟨p, -, hp⟩ := List.mem_flatMap.mp h
  exact absurd (Source.endsLine_of_mem_escapeInLiteral hp) (by decide)

theorem line_feed_not_mem_number {cs : List Char} {v : Json} (h : number? cs = some v) :
    .scalar '\n' ∉ Text.ofChars cs := by
  intro hmem
  obtain ⟨c, hc, heq⟩ := List.mem_map.mp hmem
  exact ne_of_kind ((number?_spec h).1 c hc) (by decide) (CodePoint.scalar.inj heq)

/-- A name does not change with the level, so all its line feeds are bare. -/
theorem shift_name (s : String) :
    Shift width ((Text.ofString s).count (.scalar '\n')) (Line.text [.code s])
      (Line.text [.code s]) := by
  have hself := Shift.self width (Text.ofString s)
  rw [text_cons]
  exact hself.append .nil

theorem shift_number {cs : List Char} {v : Json} (h : number? cs = some v) :
    Shift width 0 (Line.text [.code (String.ofList cs)]) (Line.text [.code (String.ofList cs)]) := by
  rw [text_ofList]
  exact .of_line width (line_feed_not_mem_number h)

theorem shift_string (t : Text) :
    Shift width 0 (Line.text [.literal t]) (Line.text [.literal t]) := by
  have hquote := Shift.of_line width (line_feed_not_mem_quote t)
  rw [text_cons]
  exact hquote.append .nil

/-- A line goes on after a comma. -/
theorem shift_more {m n : Nat} {v w l k : Line} (hv : Shift width m (Line.text v) (Line.text w))
    (hrest : Shift width n (.scalar '\n' :: Line.text l) (.scalar '\n' :: Line.text k)) :
    Shift width (m + n) (Line.text (v ++ .code ",\n" :: l))
      (Line.text (w ++ .code ",\n" :: k)) := by
  rw [text_append, text_append, text_cons, text_cons]
  exact hv.append (.other (by decide) hrest)

theorem shift_member (key : Text) {n : Nat} {l m : Line}
    (h : Shift width n (Line.text l) (Line.text m)) :
    Shift width n (Line.text (.literal key :: .code ": " :: l))
      (Line.text (.literal key :: .code ": " :: m)) := by
  have hcolon : Shift width 0 (Text.ofString ": ") (Text.ofString ": ") :=
    .of_line width (by decide)
  have hkey := (Shift.of_line width (line_feed_not_mem_quote key)).append (hcolon.append h)
  simp only [text_cons]
  rwa [Nat.zero_add, Nat.zero_add] at hkey

/-- The text of a container, each end with the line break beside it. -/
theorem text_container {first last : Char} {start stop : String}
    (hstart : Text.ofString start = [.scalar first, .scalar '\n'])
    (hstop : Text.ofString stop = [.scalar last]) (inner : Line) (n : Int) :
    Line.text (.code start :: (inner ++ [.code "\n", spaces n, .code stop])) =
      .scalar first :: ((.scalar '\n' :: Line.text inner) ++
        .scalar '\n' :: ((spaces n).text ++ [.scalar last])) := by
  have hend : Line.text [.code "\n", spaces n, .code stop] =
      .scalar '\n' :: ((spaces n).text ++ [.scalar last]) := by
    rw [← hstop]
    simp [Line.text, Piece.text, Text.ofString, Text.ofChars]
  rw [text_cons, text_append, hend]
  simp [Piece.text, hstart]

variable {indent l n : Nat}

/-- A line break with the indentation after it. -/
theorem shift_indent (k : Nat) {t u : Text} (h : Shift (indent * l) n t u) :
    Shift (indent * l) n
      (.scalar '\n' :: ((spaces ((indent : Int) * (k : Int))).text ++ t))
      (.scalar '\n' :: ((spaces ((indent : Int) * ((k + l : Nat) : Int))).text ++ u)) := by
  have hbreak := (Shift.lineBreak (indent * l) (indent * k)).append h
  rw [text_indent, text_indent, Nat.mul_add]
  rwa [Nat.zero_add] at hbreak

theorem shift_container {first last : Char} {start stop : String}
    (hstart : Text.ofString start = [.scalar first, .scalar '\n'])
    (hstop : Text.ofString stop = [.scalar last]) (hfirst : first ≠ '\n') (hlast : last ≠ '\n')
    {inner deeper : Line} (k : Nat)
    (h : Shift (indent * l) n (.scalar '\n' :: Line.text inner)
      (.scalar '\n' :: Line.text deeper)) :
    Shift (indent * l) n
      (Line.text (.code start ::
        (inner ++ [.code "\n", spaces ((indent : Int) * (k : Int)), .code stop])))
      (Line.text (.code start ::
        (deeper ++ [.code "\n", spaces ((indent : Int) * ((k + l : Nat) : Int)),
          .code stop]))) := by
  have hclose : Shift (indent * l) 0 [.scalar last] [.scalar last] :=
    .of_line (indent * l) (by simpa using Ne.symm hlast)
  rw [text_container hstart hstop, text_container hstart hstop]
  exact .other (by simpa using hfirst) (h.append (shift_indent k hclose))

end Shifts

/-- What is inside of two containers is as many levels apart as the containers. -/
theorem inside_level (k l : Nat) : ((k + 1 + l : Nat) : Int) = (k + l : Nat) + 1 := by
  omega

/-- Every way to put a literal together shifts with the level. Items and members are taken with the
line feed before them, which the bracket or the comma in front of them brings. -/
theorem shift_rules (names : Spelling) (indent l : Nat) :
    LiteralRules names indent
      (fun level v line => ∀ k : Nat, level = k → Shift (indent * l) (names.lineFeeds v)
        (Line.text line) (Line.text (literalAt names indent (k + l : Nat) v)))
      (fun level vs line => ∀ k : Nat, level = k → Shift (indent * l) (names.itemLineFeeds vs)
        (.scalar '\n' :: Line.text line)
        (.scalar '\n' :: Line.text (literalItems names indent (k + l : Nat) vs)))
      (fun level ms line => ∀ k : Nat, level = k → Shift (indent * l) (names.memberLineFeeds ms)
        (.scalar '\n' :: Line.text line)
        (.scalar '\n' :: Line.text (literalMembers names indent (k + l : Nat) ms))) where
  null _ _ _ := shift_name names.null
  yes _ _ _ := shift_name names.yes
  no _ _ _ := shift_name names.no
  int _ _ h _ _ := shift_number h
  float _ _ h _ _ := shift_number h
  str _ t _ _ := shift_string t
  emptyArr _ _ _ := .of_line (indent * l) (by decide)
  emptyObj _ _ _ := .of_line (indent * l) (by decide)
  arr level v rest line h k hk := by
    have hitems := h (k + 1) (by omega)
    rw [inside_level] at hitems
    rw [hk, literalAt_arr, Spelling.lineFeeds]
    exact shift_container rfl rfl (by decide) (by decide) k hitems
  obj level m rest line h k hk := by
    have hmembers := h (k + 1) (by omega)
    rw [inside_level] at hmembers
    rw [hk, literalAt_obj, Spelling.lineFeeds]
    exact shift_container rfl rfl (by decide) (by decide) k hmembers
  item level v line h k hk := by
    rw [hk, Spelling.itemLineFeeds, Spelling.itemLineFeeds, literalItems, text_cons, text_cons]
    exact shift_indent k (h k hk)
  moreItems level v w rest line more hv hrest k hk := by
    rw [hk, Spelling.itemLineFeeds, literalItems_cons, text_cons, text_cons]
    exact shift_indent k (shift_more (hv k hk) (hrest k hk))
  member level key v line h k hk := by
    rw [hk, Spelling.memberLineFeeds, Spelling.memberLineFeeds, literalMembers, text_cons,
      text_cons]
    exact shift_indent k (shift_member key (h k hk))
  moreMembers level key v next rest line more hv hrest k hk := by
    have hmember := shift_member key (shift_more (hv k hk) (hrest k hk))
    rw [hk, Spelling.memberLineFeeds, literalMembers_cons, text_cons, text_cons]
    exact shift_indent k hmember

/-- The literal at a deeper level is shifted, but for the line feeds in its names. -/
theorem shift_literalAt {v : Json} (hv : Regular v) (names : Spelling) (indent k l : Nat) :
    Shift (indent * l) (names.lineFeeds v) (Line.text (literalAt names indent (k : Int) v))
      (Line.text (literalAt names indent (k + l : Nat) v)) :=
  (shift_rules names indent l).literalAt hv k k rfl

/-- The bracket that closes the literal of a value that holds others. -/
def bracket? : Json → Option Char
  | arr (_ :: _) => some ']'
  | obj (_ :: _) => some '\x7d'
  | _ => none

theorem closesAt_container {first last : Char} {start stop : String}
    (hstart : Text.ofString start = [.scalar first, .scalar '\n'])
    (hstop : Text.ofString stop = [.scalar last]) (inner : Line) (indent k : Nat) :
    Text.ClosesAt (indent * k) last (Line.text (.code start ::
      (inner ++ [.code "\n", spaces ((indent : Int) * (k : Int)), .code stop]))) := by
  rw [text_container hstart hstop, text_indent, ← List.cons_append]
  exact ⟨_, rfl⟩

/-- The closing bracket stands on the indentation of the level, whatever the names are. -/
theorem closesAt_literalAt {v : Json} {c : Char} (hc : v.bracket? = some c) (names : Spelling)
    (indent k : Nat) :
    Text.ClosesAt (indent * k) c (Line.text (literalAt names indent (k : Int) v)) := by
  cases v with
  | arr items =>
    cases items with
    | nil => cases hc
    | cons v rest =>
      cases hc
      rw [literalAt_arr]
      exact closesAt_container rfl rfl _ indent k
  | obj members =>
    cases members with
    | nil => cases hc
    | cons m rest =>
      cases hc
      rw [literalAt_obj]
      exact closesAt_container rfl rfl _ indent k
  | null | bool _ | int _ | float _ | str _ => cases hc

end Json

end CurlSnippet
