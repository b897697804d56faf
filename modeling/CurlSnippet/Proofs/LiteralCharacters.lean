import CurlSnippet.Convert
import CurlSnippet.Proofs.JsonPrinting
import CurlSnippet.Proofs.SnippetLexemes
import CurlSnippet.Proofs.StringSpelling

/-!
The characters of literals. Program text and escapes are printable ASCII with tabs and line feeds,
so any other code point of a literal or a printed value stands there raw: it is no control
character, and the text, a string or a key of the value has it.
-/

namespace CurlSnippet

/-- The characters of program text. -/
def isProgramChar (c : Char) : Bool := (32 ≤ c.toNat && c.toNat < 127) || c == '\n' || c == '\t'

namespace CodePoint

/-- What no program text holds. The two line separators are left out, as only some literals escape
them. -/
def isAlien : CodePoint → Bool
  | scalar c => !isProgramChar c && c != '\u2028' && c != '\u2029'
  | surrogate _ => true

def isControl : CodePoint → Bool
  | scalar c => c.toNat < 32
  | surrogate _ => false

end CodePoint

namespace Json

mutual

/-- The strings and the keys of a value. -/
def texts : Json → List Text
  | str t => [t]
  | arr items => itemTexts items
  | obj members => memberTexts members
  | _ => []

def itemTexts : List Json → List Text
  | [] => []
  | v :: rest => texts v ++ itemTexts rest

def memberTexts : List (Text × Json) → List Text
  | [] => []
  | (k, v) :: rest => k :: (texts v ++ memberTexts rest)

end

theorem isProgramChar_hexDigit (n : Nat) : isProgramChar (Hex.digit (n % 16)) = true := by
  have hall : ∀ k < 16, isProgramChar (Hex.digit k) = true := by decide
  exact hall (n % 16) (Nat.mod_lt n (by decide))

theorem isProgramChar_of_letter? {c d : Char} (h : letter? c = some d) :
    isProgramChar c = true := by
  apply forall_letter _ _ _ _ _ _ _ h
  all_goals decide

theorem isProgramChar_numberChar {c : Char} (h : isNumberChar c = true) :
    isProgramChar c = true := by
  simp only [isNumberChar, Bool.or_eq_true, beq_iff_eq] at h
  rcases h with ((((hdigit | rfl) | rfl) | rfl) | rfl) | rfl
  · have hrange : 48 ≤ c.toNat ∧ c.toNat ≤ 57 := Char.isDigit_iff_toNat.mp hdigit
    have hlow : 32 ≤ c.toNat ∧ c.toNat < 127 := by omega
    simp [isProgramChar, hlow]
  · rfl
  · rfl
  · rfl
  · rfl
  · rfl

/-- An alien code point in an escape is the one that is escaped. -/
theorem eq_of_mem_written {p q : CodePoint} {e : Text} (h : Written q e)
    (hp : p.isAlien = true) (hmem : p ∈ e) : e = [q] ∧ p = q := by
  have hchars : ∀ cs : List Char, cs.all isProgramChar = true → p ∉ Text.ofChars cs := by
    intro cs hcs hmem
    obtain ⟨c, hc, rfl⟩ := List.mem_map.mp hmem
    rw [CodePoint.isAlien, List.all_eq_true.mp hcs c hc] at hp
    cases hp
  cases h with
  | surrogate o => exact ⟨rfl, List.mem_singleton.mp hmem⟩
  | plain _ _ _ => exact ⟨rfl, List.mem_singleton.mp hmem⟩
  | @letter c d h =>
    refine absurd hmem (hchars _ ?_)
    rw [List.all_cons, List.all_cons, isProgramChar_of_letter? h]
    rfl
  | @number c _ =>
    refine absurd hmem (hchars _ ?_)
    simp only [hex4, List.all_cons, isProgramChar_hexDigit]
    rfl

theorem isControl_of_written {q : CodePoint} (h : Written q [q]) : q.isControl = false := by
  cases h with
  | surrogate o => rfl
  | plain _ _ hctl => exact decide_eq_false (Nat.not_lt.mpr hctl)

/-- An alien code point that is no control character is written as it is. -/
theorem escape_alien {p : CodePoint} (hp : p.isAlien = true) (hctl : p.isControl = false) :
    escape p = [p] ∧ escapeInLiteral p = [p] := by
  cases p with
  | surrogate o => exact ⟨rfl, rfl⟩
  | scalar c =>
    have hlow : ¬ c.toNat < 32 := of_decide_eq_false hctl
    have hne : ∀ d : Char, (isProgramChar d || d.toNat < 32) = true → c ≠ d := by
      rintro d hd rfl
      rw [CodePoint.isAlien, Bool.and_eq_true, Bool.and_eq_true, Bool.not_eq_true'] at hp
      rw [hp.1.1, Bool.false_or, decide_eq_true_eq] at hd
      exact hlow hd
    have hraw : escape (.scalar c) = [.scalar c] := by
      rw [escape, escapeChar?, if_neg (hne _ rfl), if_neg (hne _ rfl), if_neg (hne _ rfl),
        if_neg (hne _ rfl), if_neg (hne _ rfl), if_neg (hne _ rfl), if_neg (hne _ rfl),
        if_neg hlow]
    refine ⟨hraw, ?_⟩
    rw [CodePoint.isAlien, Bool.and_eq_true, Bool.and_eq_true, bne_iff_ne, bne_iff_ne] at hp
    rw [escapeInLiteral, if_neg (not_or.mpr ⟨hp.1.2, hp.2⟩), hraw]

end Json

/-- Whether one of the texts puts a code point into program text by saying it. -/
def Said (p : CodePoint) (ts : List Text) : Prop := p.isControl = false ∧ ∃ t ∈ ts, p ∈ t

/-- The text has a code point exactly if what it says has it. -/
def Holds (p : CodePoint) (t : Text) (ts : List Text) : Prop := p ∈ t ↔ Said p ts

section Holds

variable {p : CodePoint}

theorem said_append (ts us : List Text) : Said p (ts ++ us) ↔ Said p ts ∨ Said p us := by
  simp only [Said, List.mem_append, or_and_right, exists_or, and_or_left]

theorem not_said_nil : ¬ Said p [] := by
  rintro ⟨-, t, ht, -⟩
  cases ht

theorem holds_nil : Holds p [] [] := iff_of_false List.not_mem_nil not_said_nil

theorem Holds.append {t u : Text} {ts us : List Text} (ht : Holds p t ts) (hu : Holds p u us) :
    Holds p (t ++ u) (ts ++ us) := by
  rw [Holds] at ht hu ⊢
  rw [List.mem_append, said_append, ht, hu]

variable (hp : p.isAlien = true)
include hp

theorem holds_plain (cs : List Char) (h : cs.all isProgramChar = true) :
    Holds p (Text.ofChars cs) [] := by
  refine iff_of_false ?_ not_said_nil
  intro hmem
  obtain ⟨c, hc, rfl⟩ := List.mem_map.mp hmem
  rw [CodePoint.isAlien, List.all_eq_true.mp h c hc] at hp
  cases hp

theorem holds_string {f : CodePoint → Text} (hf : ∀ q, Json.Written q (f q))
    (hraw : p.isControl = false → f p = [p]) (t : Text) :
    Holds p (.scalar '"' :: (t.flatMap f ++ [.scalar '"'])) [t] := by
  have hquote : p ≠ .scalar '"' := by
    rintro rfl
    cases hp
  rw [Holds, List.mem_cons, List.mem_append, List.mem_singleton, or_iff_right hquote,
    or_iff_left hquote, List.mem_flatMap]
  constructor
  · rintro ⟨q, hq, hmem⟩
    obtain ⟨he, rfl⟩ := Json.eq_of_mem_written (hf q) hp hmem
    exact ⟨Json.isControl_of_written (he ▸ hf p), t, List.mem_cons_self, hq⟩
  · rintro ⟨hctl, u, hu, hmem⟩
    obtain rfl := List.mem_singleton.mp hu
    exact ⟨p, hmem, by rw [hraw hctl]; exact List.mem_cons_self⟩

theorem holds_quote (t : Text) : Holds p (quote t) [t] :=
  holds_string hp Json.written_escapeInLiteral (fun h => (Json.escape_alien hp h).2) t

theorem holds_quoted (t : Text) : Holds p (Json.quoted t) [t] :=
  holds_string hp Json.written_escape (fun h => (Json.escape_alien hp h).1) t

end Holds

/-- Whether a piece is program text or a literal in double quotes. -/
def Piece.isFit : Piece → Bool
  | code s => s.toList.all isProgramChar
  | literal _ => true
  | raw _ => false

/-- What a literal in double quotes says. -/
def Piece.said : Piece → List Text
  | literal t => [t]
  | _ => []

section Lines

variable {p : CodePoint} (hp : p.isAlien = true)
include hp

theorem holds_line {l : Line} (h : l.all Piece.isFit = true) :
    Holds p (Line.text l) (l.flatMap Piece.said) := by
  induction l with
  | nil => exact holds_plain hp [] rfl
  | cons q l ih =>
    rw [List.all_cons, Bool.and_eq_true] at h
    rw [Json.text_cons, List.flatMap_cons]
    refine Holds.append ?_ (ih h.2)
    cases q with
    | code s => exact holds_plain hp _ h.1
    | literal t => exact holds_quote hp t
    | raw t => cases h.1

theorem holds_code {l : Line} (h : l.all (fun q => q.isFit && q.said.isEmpty) = true) :
    Holds p (Line.text l) [] := by
  have hfit : l.all Piece.isFit = true := by
    rw [List.all_eq_true] at h ⊢
    exact fun q hq => (Bool.and_eq_true_iff.mp (h q hq)).1
  have hsaid : l.flatMap Piece.said = [] := by
    rw [List.flatMap_eq_nil_iff]
    intro q hq
    exact List.isEmpty_iff.mp (Bool.and_eq_true_iff.mp (List.all_eq_true.mp h q hq)).2
  rw [← hsaid]
  exact holds_line hp hfit

theorem holds_spaces (n : Int) : Holds p (spaces n).text [] := by
  rw [Json.text_spaces, ← List.map_replicate]
  apply holds_plain hp
  rw [List.all_eq_true]
  intro c hc
  rw [List.eq_of_mem_replicate hc]
  rfl

theorem holds_number {cs : List Char} {v : Json} (h : Json.number? cs = some v) :
    Holds p (Text.ofChars cs) [] :=
  holds_plain hp _ (List.all_eq_true.mpr fun c hc =>
    Json.isProgramChar_numberChar ((Json.number?_spec h).1 c hc))

theorem holds_container {first last : String} {l : Line} {ts : List Text}
    (hfirst : first.toList.all isProgramChar = true) (h : Holds p (Line.text l) ts)
    (hlast : last.toList.all isProgramChar = true) (n : Int) :
    Holds p (Line.text (.code first :: (l ++ [.code "\n", spaces n, .code last]))) ts := by
  have hopen : Holds p (Text.ofString first) [] := holds_plain hp _ hfirst
  have hclose : Holds p (Line.text [.code "\n", spaces n, .code last]) [] :=
    (holds_plain hp ['\n'] rfl).append <| (holds_spaces hp n).append <|
      (holds_plain hp _ hlast).append holds_nil
  have hall := hopen.append (h.append hclose)
  rw [List.nil_append, List.append_nil] at hall
  rw [Json.text_cons, Json.text_append]
  exact hall

theorem holds_member {l : Line} {ts : List Text} (n : Int) (k : Text)
    (h : Holds p (Line.text l) ts) :
    Holds p (Line.text (spaces n :: .literal k :: .code ": " :: l)) (k :: ts) := by
  have hcolon : Holds p (Text.ofString ": ") [] := holds_plain hp _ rfl
  exact (holds_spaces hp n).append ((holds_quote hp k).append (hcolon.append h))

theorem holds_comma {l m : Line} {ts us : List Text} (h : Holds p (Line.text l) ts)
    (h' : Holds p (Line.text m) us) :
    Holds p (Line.text (l ++ .code ",\n" :: m)) (ts ++ us) := by
  have hcomma : Holds p (Text.ofString ",\n") [] := holds_plain hp _ rfl
  rw [Json.text_append, Json.text_cons]
  exact h.append (hcomma.append h')

/-- The literal of a value says the strings and the keys of the value. -/
theorem holds_rules (names : Spelling) (hnull : names.null.toList.all isProgramChar = true)
    (hyes : names.yes.toList.all isProgramChar = true)
    (hno : names.no.toList.all isProgramChar = true) (indent : Int) :
    LiteralRules names indent (fun _ v l => Holds p (Line.text l) v.texts)
      (fun _ vs l => Holds p (Line.text l) (Json.itemTexts vs))
      (fun _ ms l => Holds p (Line.text l) (Json.memberTexts ms)) where
  null _ := holds_line hp (l := [.code names.null]) (by simpa [Piece.isFit] using hnull)
  yes _ := holds_line hp (l := [.code names.yes]) (by simpa [Piece.isFit] using hyes)
  no _ := holds_line hp (l := [.code names.no]) (by simpa [Piece.isFit] using hno)
  int _ _ h := by
    rw [Json.text_ofList]
    exact holds_number hp h
  float _ _ h := by
    rw [Json.text_ofList]
    exact holds_number hp h
  str _ t := holds_line hp (l := [.literal t]) rfl
  emptyArr _ := holds_line hp (l := [.code "[]"]) rfl
  emptyObj _ := holds_line hp (l := [.code "\x7b\x7d"]) rfl
  arr _ _ _ _ h := holds_container hp rfl h rfl _
  obj _ _ _ _ h := holds_container hp rfl h rfl _
  item level _ _ h := by
    rw [Json.text_cons, Json.itemTexts, Json.itemTexts, List.append_nil]
    exact (holds_spaces hp (indent * level)).append h
  moreItems _ _ _ _ _ _ hv hrest := (holds_spaces hp _).append (holds_comma hp hv hrest)
  member _ k v _ h := by
    rw [Json.memberTexts, Json.memberTexts, List.append_nil]
    exact holds_member hp _ k h
  moreMembers _ k _ _ _ _ _ hv hrest := holds_member hp _ k (holds_comma hp hv hrest)

theorem holds_literalAt {names : Spelling} (hnames : names = .lowerCase ∨ names = .capitalized)
    {v : Json} (hv : Json.Regular v) (indent level : Int) :
    Holds p (Line.text (literalAt names indent level v)) v.texts := by
  rcases hnames with rfl | rfl
  · exact (holds_rules hp .lowerCase rfl rfl rfl indent).literalAt hv level
  · exact (holds_rules hp .capitalized rfl rfl rfl indent).literalAt hv level

end Lines

section Print

variable {p : CodePoint} (hp : p.isAlien = true) (indent : Int)
include hp

theorem holds_lineBreak (level : Nat) :
    Holds p ((Json.Layout.lines indent).lineBreak level) [] := by
  have hblanks : Holds p (Text.ofChars ('\n' :: List.replicate (indent.toNat * level) ' ')) [] := by
    apply holds_plain hp
    rw [List.all_cons, List.all_eq_true.mpr]
    · rfl
    · intro c hc
      rw [List.eq_of_mem_replicate hc]
      rfl
  rw [Text.ofChars, List.map_cons, List.map_replicate] at hblanks
  exact hblanks

theorem holds_printItems {level : Nat} {v : Json} {rest : List Json}
    (h : ∀ w ∈ v :: rest, Holds p (Json.printAt (.lines indent) level w) w.texts) :
    Holds p (Json.printItems (.lines indent) level (v :: rest)) (Json.itemTexts (v :: rest)) := by
  have hbreak := holds_lineBreak hp indent level
  have hcomma : Holds p (Text.ofChars [',']) [] := holds_plain hp _ rfl
  induction rest generalizing v with
  | nil =>
    rw [Json.printItems, Json.itemTexts, Json.itemTexts, List.append_nil]
    exact hbreak.append (h v List.mem_cons_self)
  | cons w rest ih =>
    have hv := (hbreak.append (h v List.mem_cons_self)).append hcomma
    have hrest := ih fun u hu => h u (List.mem_cons_of_mem v hu)
    rw [List.nil_append, List.append_nil] at hv
    rw [Json.printItems_cons, Json.itemTexts]
    exact hv.append hrest

theorem holds_printMembers {level : Nat} {m : Text × Json} {rest : List (Text × Json)}
    (h : ∀ n ∈ m :: rest, Holds p (Json.printAt (.lines indent) level n.2) n.2.texts) :
    Holds p (Json.printMembers (.lines indent) level (m :: rest))
      (Json.memberTexts (m :: rest)) := by
  have hbreak := holds_lineBreak hp indent level
  have hcomma : Holds p (Text.ofChars [',']) [] := holds_plain hp _ rfl
  have hkey (k : Text) : Holds p (Json.quoted k ++ Text.ofChars [':', ' ']) [k] :=
    (holds_quoted hp k).append (holds_plain hp _ rfl)
  induction rest generalizing m with
  | nil =>
    have hm := (hbreak.append (hkey m.1)).append (h m List.mem_cons_self)
    rw [Json.memberTexts, Json.memberTexts, List.append_nil]
    have hone : Json.printMembers (.lines indent) level [m] =
        (Json.Layout.lines indent).lineBreak level ++
          (Json.quoted m.1 ++ Text.ofChars [':', ' ']) ++
          Json.printAt (.lines indent) level m.2 := by
      simp [Json.printMembers, Json.Layout.colon, Text.ofChars]
    rw [hone]
    exact hm
  | cons n rest ih =>
    have hm := ((hbreak.append (hkey m.1)).append (h m List.mem_cons_self)).append hcomma
    have hrest := ih fun u hu => h u (List.mem_cons_of_mem m hu)
    rw [List.append_nil] at hm
    rw [Json.printMembers_cons, Json.memberTexts]
    exact hm.append hrest

/-- A printed value has what the strings and the keys of the value have. -/
theorem holds_printAt {v : Json} (hv : Json.Regular v) (level : Nat) :
    Holds p (Json.printAt (.lines indent) level v) v.texts := by
  induction hv generalizing level with
  | null => exact holds_plain hp ['n', 'u', 'l', 'l'] rfl
  | bool b =>
    cases b
    · exact holds_plain hp ['f', 'a', 'l', 's', 'e'] rfl
    · exact holds_plain hp ['t', 'r', 'u', 'e'] rfl
  | int h => exact holds_number hp (Json.number?_spellInt h)
  | float x => exact holds_number hp (Json.number?_spell x)
  | str t => exact holds_quoted hp t
  | @arr items _ ih =>
    have hopen : Holds p (Text.ofChars ['[']) [] := holds_plain hp _ rfl
    have hclose : Holds p (Text.ofChars [']']) [] := holds_plain hp _ rfl
    cases items with
    | nil => exact holds_plain hp ['[', ']'] rfl
    | cons v rest =>
      have hinner := holds_printItems hp indent fun w hw => ih w hw (level + 1)
      have hall := hopen.append ((hinner.append (holds_lineBreak hp indent level)).append hclose)
      rw [List.append_nil, List.append_nil, List.nil_append] at hall
      rw [Json.printAt]
      · exact hall
      · simp
  | @obj members _ _ ih =>
    have hopen : Holds p (Text.ofChars ['\x7b']) [] := holds_plain hp _ rfl
    have hclose : Holds p (Text.ofChars ['\x7d']) [] := holds_plain hp _ rfl
    cases members with
    | nil => exact holds_plain hp ['\x7b', '\x7d'] rfl
    | cons m rest =>
      have hinner := holds_printMembers hp indent fun n hn => ih n hn (level + 1)
      have hall := hopen.append ((hinner.append (holds_lineBreak hp indent level)).append hclose)
      rw [List.append_nil, List.append_nil, List.nil_append] at hall
      rw [Json.printAt]
      · exact hall
      · simp

end Print

end CurlSnippet
