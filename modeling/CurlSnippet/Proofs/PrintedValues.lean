import CurlSnippet.Proofs.NativeLiteral
import CurlSnippet.Proofs.SnippetWriting

/-!
The two printers of decoded values. A value that has been decoded is printed in every layout, and
what is printed decodes to it; its literal in the names of JSON is the library's text with the line
separators by their numbers, and its literal in other names is that literal but for the names.
-/

namespace CurlSnippet

namespace Text

/-- The text with the two line separators by their numbers. -/
def escapeSeparators (t : Text) : Text :=
  t.flatMap fun p =>
    if p = .scalar '\u2028' then ofString "\\u2028"
    else if p = .scalar '\u2029' then ofString "\\u2029"
    else [p]

theorem escapeSeparators_append (t u : Text) :
    escapeSeparators (t ++ u) = escapeSeparators t ++ escapeSeparators u :=
  List.flatMap_append

theorem escapeSeparators_eq_self {t : Text}
    (h : ∀ p ∈ t, p ≠ .scalar '\u2028' ∧ p ≠ .scalar '\u2029') : escapeSeparators t = t := by
  induction t with
  | nil => rfl
  | cons p t ih =>
    obtain ⟨⟨hline, hparagraph⟩, ht⟩ := List.forall_mem_cons.mp h
    have hrest := ih ht
    rw [escapeSeparators] at hrest ⊢
    rw [List.flatMap_cons, if_neg hline, if_neg hparagraph, hrest]
    rfl

end Text

namespace Json

open Text (escapeSeparators escapeSeparators_append escapeSeparators_eq_self)

section Agreement

/-- A code point in a literal is that of a JSON string, apart from the two line separators. -/
theorem escapeInLiteral_eq (p : CodePoint) : escapeInLiteral p = escapeSeparators (escape p) := by
  by_cases hline : p = .scalar '\u2028'
  · rw [hline]
    decide
  by_cases hparagraph : p = .scalar '\u2029'
  · rw [hparagraph]
    decide
  have hsame : escapeInLiteral p = escape p := by
    cases p with
    | surrogate o => rfl
    | scalar c =>
      rw [CodePoint.scalar.injEq] at hline hparagraph
      exact if_neg (not_or.mpr ⟨hline, hparagraph⟩)
  -- An escape holds no separator, so nothing of it is escaped once more.
  rw [← hsame, escapeSeparators_eq_self]
  intro q hq
  have hends := Source.endsLine_of_mem_escapeInLiteral hq
  constructor <;> rintro rfl <;> cases hends

theorem quote_eq (t : Text) : quote t = escapeSeparators (quoted t) := by
  have hinside : t.flatMap escapeInLiteral = escapeSeparators (t.flatMap escape) := by
    rw [escapeSeparators, List.flatMap_assoc]
    exact List.flatMap_congr fun p _ => escapeInLiteral_eq p
  have hquotes : escapeSeparators (quoted t) =
      .scalar '"' :: escapeSeparators (t.flatMap escape ++ [.scalar '"']) := rfl
  rw [hquotes, escapeSeparators_append, ← hinside]
  rfl

/-- A negative number indents by nothing in either printer. -/
theorem toNat_mul_level (indent : Int) (k : Nat) : (indent * k).toNat = indent.toNat * k := by
  rcases Int.le_total 0 indent with h | h
  · lift indent to Nat using h
    rfl
  · have hprod : indent * k ≤ 0 := Int.mul_nonpos_of_nonpos_of_nonneg h (by omega)
    rw [Int.toNat_of_nonpos h, Int.toNat_of_nonpos hprod, Nat.zero_mul]

/-- The line has the text with its line separators by their numbers. -/
abbrev Agrees (l : Line) (t : Text) : Prop := Line.text l = escapeSeparators t

theorem Agrees.append {l m : Line} {t u : Text} (h : Agrees l t) (h' : Agrees m u) :
    Agrees (l ++ m) (t ++ u) := by
  rw [Agrees, text_append, h, h', escapeSeparators_append]

theorem agrees_number {cs : List Char} {v : Json} (h : number? cs = some v) :
    Agrees [.code (String.ofList cs)] (Text.ofChars cs) := by
  rw [Agrees, text_ofList, escapeSeparators_eq_self]
  intro p hp
  obtain ⟨c, hc, rfl⟩ := List.mem_map.mp hp
  have hnumber := (number?_spec h).1 c hc
  constructor <;> intro heq
  · exact ne_of_kind hnumber (by decide) (CodePoint.scalar.inj heq)
  · exact ne_of_kind hnumber (by decide) (CodePoint.scalar.inj heq)

theorem agrees_string (t : Text) : Agrees [.literal t] (quoted t) := by
  rw [Agrees, text_cons, ← quote_eq]
  exact List.append_nil _

theorem agrees_lineBreak (indent : Int) (k : Nat) :
    Agrees [.code "\n", spaces (indent * k)] ((Layout.lines indent).lineBreak k) := by
  rw [Agrees, text_cons, text_cons, text_spaces, toNat_mul_level, Layout.lineBreak,
    escapeSeparators_eq_self]
  · exact congrArg (CodePoint.scalar '\n' :: ·) (List.append_nil _)
  · intro p hp
    rcases List.mem_cons.mp hp with rfl | hp
    · decide
    · rw [List.eq_of_mem_replicate hp]
      decide

/-- A line goes on after a comma, which the library writes before it breaks the line. -/
theorem agrees_more {l m : Line} {t u : Text} (h : Agrees l t) (h' : Agrees (.code "\n" :: m) u)
    (indent : Int) : Agrees (l ++ .code ",\n" :: m) (t ++ (Layout.lines indent).comma ++ u) := by
  have hcomma : Agrees [.code ","] (Layout.lines indent).comma := rfl
  have hline : Line.text (l ++ .code ",\n" :: m) =
      Line.text (l ++ [.code ","] ++ .code "\n" :: m) := by
    rw [text_append, List.append_assoc, text_append]
    rfl
  rw [Agrees, hline]
  exact (h.append hcomma).append h'

theorem agrees_member {l : Line} {t : Text} (h : Agrees l t) (indent : Int) (n : Nat) (k : Text) :
    Agrees (.code "\n" :: spaces (indent * n) :: .literal k :: .code ": " :: l)
      ((Layout.lines indent).lineBreak n ++ (quoted k ++ (Layout.lines indent).colon) ++ t) := by
  have hcolon : Agrees [.code ": "] (Layout.lines indent).colon := rfl
  exact ((agrees_lineBreak indent n).append ((agrees_string k).append hcolon)).append h

/-- A container with its closing bracket on a line of its own. -/
theorem agrees_container {first last : Char} {start stop : String} {inner : Line} {items : Text}
    (hstart : Agrees [.code start] [.scalar first]) (h : Agrees inner items)
    (hstop : Agrees [.code stop] [.scalar last]) (indent : Int) (k : Nat) :
    Agrees ([.code start] ++ (inner ++ ([.code "\n", spaces (indent * k)] ++ [.code stop])))
      (.scalar first :: (items ++ (Layout.lines indent).lineBreak k ++ [.scalar last])) := by
  have hall := hstart.append (h.append ((agrees_lineBreak indent k).append hstop))
  rwa [← List.append_assoc items] at hall

/-- Both printers put a value together alike. The library breaks the line before an item, a literal
after the bracket or the comma that stands in front of the item. -/
theorem agree_rules (indent : Int) :
    LiteralRules .lowerCase indent
      (fun level v l => ∀ k : Nat, level = k → Agrees l (printAt (.lines indent) k v))
      (fun level vs l => ∀ k : Nat, level = k →
        Agrees (.code "\n" :: l) (printItems (.lines indent) k vs))
      (fun level ms l => ∀ k : Nat, level = k →
        Agrees (.code "\n" :: l) (printMembers (.lines indent) k ms)) where
  null _ _ _ := rfl
  yes _ _ _ := rfl
  no _ _ _ := rfl
  int _ _ h _ _ := agrees_number h
  float _ _ h _ _ := agrees_number h
  str _ t _ _ := agrees_string t
  emptyArr _ _ _ := rfl
  emptyObj _ _ _ := rfl
  arr level v rest l h k hk := by
    have hstart : Agrees [.code "["] [.scalar '['] := rfl
    have hstop : Agrees [.code "]"] [.scalar ']'] := rfl
    rw [hk, printAt]
    · exact agrees_container hstart (h (k + 1) (by omega)) hstop indent k
    · simp
  obj level m rest l h k hk := by
    have hstart : Agrees [.code "\x7b"] [.scalar '\x7b'] := rfl
    have hstop : Agrees [.code "\x7d"] [.scalar '\x7d'] := rfl
    rw [hk, printAt]
    · exact agrees_container hstart (h (k + 1) (by omega)) hstop indent k
    · simp
  item level v l h k hk := by
    rw [hk]
    exact (agrees_lineBreak indent k).append (h k hk)
  moreItems level v w rest l m hv hrest k hk := by
    rw [hk, printItems_cons]
    exact agrees_more ((agrees_lineBreak indent k).append (hv k hk)) (hrest k hk) indent
  member level k v l h n hn := by
    have hone : printMembers (.lines indent) n [(k, v)] = (Layout.lines indent).lineBreak n ++
        (quoted k ++ (Layout.lines indent).colon) ++ printAt (.lines indent) n v := by
      simp [printMembers]
    rw [hn, hone]
    exact agrees_member (h n hn) indent n k
  moreMembers level k v next rest l m hv hrest n hn := by
    rw [hn, printMembers_cons]
    exact agrees_more (agrees_member (hv n hn) indent n k) (hrest n hn) indent

/-- The literal of a value is the text that the library prints, at every level. -/
theorem text_literalAt {v : Json} (hv : Regular v) (indent : Int) (k : Nat) :
    Line.text (literalAt .lowerCase indent k v) =
      escapeSeparators (printAt (.lines indent) k v) :=
  (agree_rules indent).literalAt hv k k rfl

/-- The literal of a decoded value in the names of JSON and the text that the library prints for it
are the same but for the line separators. -/
theorem literal_of_decoded {b : Text} {v : Json} (h : decode? b = some v) (indent : Int) :
    ∃ l t, (Value.ofJson v).literalAt .lowerCase indent 0 = .ok l ∧
      (Value.ofJson v).pretty indent = .ok t ∧ Line.text l = escapeSeparators t := by
  have hv := regular_of_decode? h
  have hwritten := Value.written_ofJson hv.short
  refine ⟨literalAt .lowerCase indent 0 v, v.pretty indent, ?_, ?_, text_literalAt hv indent 0⟩
  · rw [Value.literalAt, hwritten]
    rfl
  · rw [Value.pretty, hwritten]
    rfl

/-- A line separator inside two containers, indented by a negative number. -/
theorem literal_of_decoded_separated :
    let b := Text.ofString "\x7b\"k\u2029\": [[], \"\\u2028\"]\x7d"
    let v : Json := .obj [(Text.ofString "k\u2029", .arr [.arr [], .str (Text.ofString "\u2028")])]
    decode? b = some v ∧ ∃ l t, (Value.ofJson v).literalAt .lowerCase (-1) 0 = .ok l ∧
      (Value.ofJson v).pretty (-1) = .ok t ∧ Line.text l = escapeSeparators t := by
  intro b v
  have h : decode? b = some v := by with_unfolding_all rfl
  exact ⟨h, literal_of_decoded h (-1)⟩

end Agreement

section RoundTrip

/-- The text with the names of JSON in place of the others, outside its literals. -/
def inJsonNames? (names : Spelling) (t : Text) : Option Text :=
  ((Source.read false .code t).bind (Source.respell? names 0)).map Source.text

/-- The capitalized literal of a value is its literal in the names of JSON but for the names. -/
theorem inJsonNames?_literalAt {v : Json} (hv : Regular v) (indent level : Int) :
    inJsonNames? .capitalized (Line.text (literalAt .capitalized indent level v)) =
      some (Line.text (literalAt .lowerCase indent level v)) := by
  have hclosed {names : Spelling} (hnames : names = .capitalized ∨ names = .lowerCase) :
      Source.ClosedLine false (literalAt names indent level v) := by
    rcases hnames with rfl | rfl
    · exact (Source.closed_rules .capitalized rfl rfl rfl indent).literalAt hv level
    · exact (Source.closed_rules .lowerCase rfl rfl rfl indent).literalAt hv level
  have hread := (Source.reads_line (hclosed (.inl rfl))).before.read (p := fun _ => false) rfl
  rw [inJsonNames?, hread, Option.bind_some, Source.respell?_literalAt hv, Option.map_some,
    Source.text_ofLine (hclosed (.inr rfl))]

/-- What is printed for a decoded value decodes to it: its text in every layout and its literal in
the names of JSON. The capitalized literal is the same text but for the names. -/
theorem decode?_of_printed {b : Text} {v : Json} (h : decode? b = some v) :
    (∀ indent : Option Int, ∃ t, (Value.ofJson v).print (.ofIndent indent) = .ok t ∧
      decode? t = some v) ∧
    ∀ indent level : Int, ∃ l m, (Value.ofJson v).literalAt .lowerCase indent level = .ok l ∧
      (Value.ofJson v).literalAt .capitalized indent level = .ok m ∧
      decode? (Line.text l) = some v ∧
      inJsonNames? .capitalized (Line.text m) = some (Line.text l) := by
  have hv := regular_of_decode? h
  have hwritten := Value.written_ofJson hv.short
  refine ⟨fun indent => ⟨v.print (.ofIndent indent), ?_, decode?_print _ hv⟩,
    fun indent level => ⟨literalAt .lowerCase indent level v,
      literalAt .capitalized indent level v, ?_, ?_, decode?_literalAt hv indent level,
      inJsonNames?_literalAt hv indent level⟩⟩
  · rw [Value.print, hwritten]
    rfl
  · rw [Value.literalAt, hwritten]
    rfl
  · rw [Value.literalAt, hwritten]
    rfl

/-- A repeated key, a minus before nothing, halves of a pair that stay apart, and the name of another
spelling inside a text, at a negative level. -/
theorem decode?_of_printed_repeated :
    let b := Text.ofString
      "\x7b\"k\": -0, \"e\": [null, \x7b\x7d], \"k\": [true, \"None \\ude00\\ud83d\"]\x7d"
    let v : Json := .obj [
      (Text.ofString "k",
        .arr [.bool true, .str (Text.ofString "None " ++ [.surrogate 0x600, .surrogate 0x3D])]),
      (Text.ofString "e", .arr [.null, .obj []])]
    decode? b = some v ∧
      (∃ t, (Value.ofJson v).print (.ofIndent none) = .ok t ∧ decode? t = some v) ∧
      ∃ l m, (Value.ofJson v).literalAt .lowerCase 4 (-2) = .ok l ∧
        (Value.ofJson v).literalAt .capitalized 4 (-2) = .ok m ∧ decode? (Line.text l) = some v ∧
        inJsonNames? .capitalized (Line.text m) = some (Line.text l) := by
  intro b v
  have h : decode? b = some v := by with_unfolding_all rfl
  exact ⟨h, (decode?_of_printed h).1 none, (decode?_of_printed h).2 4 (-2)⟩

end RoundTrip

end Json

end CurlSnippet
