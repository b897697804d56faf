import CurlSnippet.Proofs.JsonPrinting
import CurlSnippet.Proofs.Searching
import CurlSnippet.Proofs.SnippetLexemes

/-!
The literal of a value where it stands in a snippet. Its brackets match, so that no expression ends
inside it; few letters occur in its program text; and with the capitalized names replaced by those
of JSON it is the literal of the same value in the other spelling.
-/

namespace CurlSnippet.Source

/-- An expression goes on past the lexemes, and is as deep in brackets after them as before. -/
def Level (stop : Char) (depth : Nat) (ls : List Lexeme) : Prop :=
  ∀ rest, expression stop depth (ls ++ rest) = ls ++ expression stop depth rest

theorem level_nil {stop : Char} {depth : Nat} : Level stop depth [] := fun _ => rfl

theorem Level.append {stop : Char} {depth : Nat} {ls ms : List Lexeme} (h : Level stop depth ls)
    (h' : Level stop depth ms) : Level stop depth (ls ++ ms) := by
  intro rest
  rw [List.append_assoc, h, h', List.append_assoc]

theorem level_quoted {stop : Char} {depth : Nat} (t : Text) : Level stop depth [.quoted t] :=
  fun _ => rfl

/-- Outside all brackets the character that ends an expression is not passed. -/
theorem level_char {stop c : Char} {depth : Nat} (hopen : isOpening (.scalar c) = false)
    (hclose : isClosing (.scalar c) = false) (hstop : depth = 0 → c ≠ stop) :
    Level stop depth [.code (.scalar c)] := by
  intro rest
  have hgo : ¬ (depth = 0 ∧ CodePoint.scalar c = .scalar stop) := by
    rintro ⟨hdepth, heq⟩
    exact hstop hdepth (CodePoint.scalar.inj heq)
  rw [List.singleton_append, expression, if_neg hgo, depthAfter, hopen, hclose]
  rfl

theorem level_chars {stop : Char} {depth : Nat} {cs : List Char}
    (h : ∀ c ∈ cs, isOpening (.scalar c) = false ∧ isClosing (.scalar c) = false ∧
      (depth = 0 → c ≠ stop)) :
    Level stop depth (cs.map fun c => .code (.scalar c)) := by
  induction cs with
  | nil => exact level_nil
  | cons c cs ih =>
    obtain ⟨⟨hopen, hclose, hstop⟩, hrest⟩ := List.forall_mem_cons.mp h
    exact (level_char hopen hclose hstop).append (ih hrest)

/-- Inside brackets every other character is passed. -/
theorem level_inside {stop : Char} (cs : List Char)
    (h : cs.all (fun c => !isOpening (.scalar c) && !isClosing (.scalar c)) = true) (depth : Nat) :
    Level stop (depth + 1) (cs.map fun c => .code (.scalar c)) := by
  apply level_chars
  intro c hc
  have hplain := List.all_eq_true.mp h c hc
  rw [Bool.and_eq_true, Bool.not_eq_true', Bool.not_eq_true'] at hplain
  exact ⟨hplain.1, hplain.2, nofun⟩

theorem level_plain {stop : Char} (cs : List Char)
    (h : (cs.all fun c => !isOpening (.scalar c) && !isClosing (.scalar c) && c != stop) = true)
    (depth : Nat) : Level stop depth (cs.map fun c => .code (.scalar c)) := by
  apply level_chars
  intro c hc
  have hplain := List.all_eq_true.mp h c hc
  simp only [Bool.and_eq_true, Bool.not_eq_true', bne_iff_ne] at hplain
  exact ⟨hplain.1.1, hplain.1.2, fun _ => hplain.2⟩

/-- Brackets around what is passed inside them. -/
theorem Level.wrap {stop o c : Char} {depth : Nat} {ls : List Lexeme}
    (h : Level stop (depth + 1) ls) (hopen : isOpening (.scalar o) = true)
    (hclose : isOpening (.scalar c) = false ∧ isClosing (.scalar c) = true) (hne : o ≠ stop) :
    Level stop depth (.code (.scalar o) :: (ls ++ [.code (.scalar c)])) := by
  intro rest
  have hfirst : ¬ (depth = 0 ∧ CodePoint.scalar o = .scalar stop) :=
    fun heq => hne (CodePoint.scalar.inj heq.2)
  have hlast : ¬ (depth + 1 = 0 ∧ CodePoint.scalar c = .scalar stop) := fun heq => by omega
  rw [List.cons_append, expression, if_neg hfirst, depthAfter, if_pos hopen, List.append_assoc, h,
    List.singleton_append, expression, if_neg hlast, depthAfter, hclose.1, hclose.2]
  simp

/-- An expression ends with what it goes on past. -/
theorem expression_of_level {stop : Char} {e : List Lexeme} (h : Level stop 0 e)
    (rest : List Lexeme) : expression stop 0 (e ++ .code (.scalar stop) :: rest) = e := by
  rw [h, expression, if_pos ⟨rfl, rfl⟩, List.append_nil]

theorem ofLine_cons (b : Bool) (p : Piece) (l : Line) :
    ofLine b (p :: l) = ofPiece b p ++ ofLine b l :=
  List.flatMap_cons

theorem ofLine_append (b : Bool) (l m : Line) : ofLine b (l ++ m) = ofLine b l ++ ofLine b m :=
  List.flatMap_append

theorem ofPiece_spaces (b : Bool) (n : Int) :
    ofPiece b (spaces n) = (List.replicate n.toNat ' ').map fun c => .code (.scalar c) := by
  apply ofPiece_plain
  intro c hc
  rw [List.eq_of_mem_replicate hc]
  decide

theorem ofLine_number (b : Bool) {cs : List Char} {v : Json} (h : Json.number? cs = some v) :
    ofLine b [.code (String.ofList cs)] = cs.map fun c => .code (.scalar c) := by
  rw [ofLine_cons, ofPiece_plain b (plain_number h)]
  exact List.append_nil _

/-- The lexemes of a line that closes its literals are its text. -/
theorem text_ofLine {b : Bool} {l : Line} (h : ClosedLine b l) :
    text (ofLine b l) = Line.text l :=
  text_of_read ((reads_line h).before.read (p := fun _ => false) rfl)

section Brackets

variable {stop : Char}

/-- Characters of a kind to which neither the brackets nor the end of the expression belong. -/
theorem level_kind {p : Char → Bool} {cs : List Char} (hcs : ∀ c ∈ cs, p c = true)
    (hbrackets : (['(', ')', '[', ']', '\x7b', '\x7d'].any p) = false) (hstop : p stop = false)
    (depth : Nat) : Level stop depth (cs.map fun c => .code (.scalar c)) := by
  apply level_chars
  intro c hc
  have hnot : ∀ d, p d = false → c ≠ d := fun _ => ne_of_kind (hcs c hc)
  simp only [List.any_cons, List.any_nil, Bool.or_eq_false_iff, Bool.or_false] at hbrackets
  obtain ⟨hround, hround', hsquare, hsquare', hcurly, hcurly'⟩ := hbrackets
  refine ⟨?_, ?_, fun _ => hnot stop hstop⟩
  · simp [isOpening, hnot _ hround, hnot _ hsquare, hnot _ hcurly]
  · simp [isClosing, hnot _ hround', hnot _ hsquare', hnot _ hcurly']

theorem level_word {s : String} (h : s.toList.all Char.isAlpha = true)
    (hstop : stop.isAlpha = false) (b : Bool) (depth : Nat) :
    Level stop depth (ofLine b [.code s]) := by
  have hletters := List.all_eq_true.mp h
  have hplain : ∀ c ∈ s.toList, c ≠ '"' ∧ c ≠ '\x60' := fun c hc =>
    ⟨ne_of_kind (hletters c hc) (by decide), ne_of_kind (hletters c hc) (by decide)⟩
  have hline : ofLine b [.code s] = s.toList.map fun c => .code (.scalar c) := by
    have hpiece := ofPiece_plain b hplain
    rw [String.ofList_toList] at hpiece
    rw [ofLine_cons, hpiece]
    exact List.append_nil _
  rw [hline]
  exact level_kind hletters rfl hstop depth

theorem level_number {cs : List Char} {v : Json} (h : Json.number? cs = some v)
    (hstop : Json.isNumberChar stop = false) (b : Bool) (depth : Nat) :
    Level stop depth (ofLine b [.code (String.ofList cs)]) := by
  rw [ofLine_number b h]
  exact level_kind (Json.number?_spec h).1 rfl hstop depth

theorem level_spaces (b : Bool) (depth : Nat) (n : Int) :
    Level stop (depth + 1) (ofPiece b (spaces n)) := by
  rw [ofPiece_spaces]
  apply level_inside
  rw [List.all_eq_true]
  intro c hc
  rw [List.eq_of_mem_replicate hc]
  rfl

/-- The marks between items, which stand inside brackets. -/
theorem level_mark (depth : Nat) :
    Level stop (depth + 1) (ofPiece false (.code "\n")) ∧
      Level stop (depth + 1) (ofPiece false (.code ",\n")) ∧
      Level stop (depth + 1) (ofPiece false (.code ": ")) := by
  refine ⟨?_, ?_, ?_⟩
  · exact level_inside ['\n'] rfl depth
  · exact level_inside [',', '\n'] rfl depth
  · exact level_inside [':', ' '] rfl depth

theorem level_container {o c : Char} {first last : String} {inner : Line} {depth : Nat}
    (hinner : Level stop (depth + 1) (ofLine false inner)) (n : Int)
    (hfirst : ofPiece false (.code first) = [.code (.scalar o), .code (.scalar '\n')])
    (hlast : ofPiece false (.code last) = [.code (.scalar c)])
    (hopen : isOpening (.scalar o) = true)
    (hclose : isOpening (.scalar c) = false ∧ isClosing (.scalar c) = true) (hne : o ≠ stop) :
    Level stop depth
      (ofLine false (.code first :: (inner ++ [.code "\n", spaces n, .code last]))) := by
  have hbreak : Level stop (depth + 1) (ofPiece false (.code "\n")) := (level_mark depth).1
  have hall := ((hbreak.append hinner).append (hbreak.append (level_spaces false depth n))).wrap
    hopen hclose hne
  have hline : ofLine false (.code first :: (inner ++ [.code "\n", spaces n, .code last])) =
      .code (.scalar o) :: ((ofPiece false (.code "\n") ++ ofLine false inner ++
        (ofPiece false (.code "\n") ++ ofPiece false (spaces n))) ++ [.code (.scalar c)]) := by
    have hlineFeed : ofPiece false (.code "\n") = [.code (.scalar '\n')] := rfl
    simp only [ofLine_cons, ofLine_append, hfirst, hlast, hlineFeed]
    simp [ofLine]
  rw [hline]
  exact hall

theorem level_member {l : Line} {depth : Nat} (n : Int) (k : Text)
    (h : Level stop (depth + 1) (ofLine false l)) :
    Level stop (depth + 1) (ofLine false (spaces n :: .literal k :: .code ": " :: l)) :=
  (level_spaces false depth n).append <| (level_quoted _).append <|
    (level_mark depth).2.2.append h

/-- A character that can stand after a literal and does not occur in it outside its brackets. -/
def endsLiteral (c : Char) : Bool :=
  !c.isAlpha && !Json.isNumberChar c && c != '[' && c != '\x7b'

/-- The brackets of a literal match, and what ends an expression stands inside them only. -/
theorem level_rules (names : Spelling) (hnull : names.null.toList.all Char.isAlpha = true)
    (hyes : names.yes.toList.all Char.isAlpha = true)
    (hno : names.no.toList.all Char.isAlpha = true) (hword : stop.isAlpha = false)
    (hnumber : Json.isNumberChar stop = false) (harr : '[' ≠ stop) (hobj : '\x7b' ≠ stop)
    (indent : Int) :
    LiteralRules names indent (fun _ _ l => ∀ depth, Level stop depth (ofLine false l))
      (fun _ _ l => ∀ depth, Level stop (depth + 1) (ofLine false l))
      (fun _ _ l => ∀ depth, Level stop (depth + 1) (ofLine false l)) where
  null _ := level_word hnull hword false
  yes _ := level_word hyes hword false
  no _ := level_word hno hword false
  int _ _ h := level_number h hnumber false
  float _ _ h := level_number h hnumber false
  str _ _ _ := level_quoted _
  emptyArr _ _ := level_nil.wrap (o := '[') (c := ']') rfl ⟨rfl, rfl⟩ harr
  emptyObj _ _ := level_nil.wrap (o := '\x7b') (c := '\x7d') rfl ⟨rfl, rfl⟩ hobj
  arr _ _ _ _ h depth := level_container (h depth) _ rfl rfl rfl ⟨rfl, rfl⟩ harr
  obj _ _ _ _ h depth := level_container (h depth) _ rfl rfl rfl ⟨rfl, rfl⟩ hobj
  item _ _ _ h depth := (level_spaces false depth _).append (h (depth + 1))
  moreItems _ _ _ _ _ _ hv hrest depth := by
    rw [ofLine_cons, ofLine_append, ofLine_cons]
    exact (level_spaces false depth _).append <| (hv (depth + 1)).append <|
      (level_mark depth).2.1.append (hrest depth)
  member _ k _ _ h depth := level_member _ k (h (depth + 1))
  moreMembers _ k _ _ _ l m hv hrest depth := by
    have hmore : Level stop (depth + 1) (ofLine false (l ++ .code ",\n" :: m)) := by
      rw [ofLine_append, ofLine_cons]
      exact (hv (depth + 1)).append ((level_mark depth).2.1.append (hrest depth))
    exact level_member _ k hmore

theorem level_literalAt {names : Spelling} (hnames : names = .lowerCase ∨ names = .capitalized)
    (hstop : endsLiteral stop = true) {v : Json} (hv : Json.Regular v) (indent level : Int)
    (depth : Nat) : Level stop depth (ofLine false (literalAt names indent level v)) := by
  have hwords : names.null.toList.all Char.isAlpha = true ∧
      names.yes.toList.all Char.isAlpha = true ∧ names.no.toList.all Char.isAlpha = true := by
    rcases hnames with rfl | rfl
    · decide
    · decide
  simp only [endsLiteral, Bool.and_eq_true, Bool.not_eq_true', bne_iff_ne] at hstop
  obtain ⟨⟨⟨hword, hnumber⟩, harr⟩, hobj⟩ := hstop
  exact (level_rules names hwords.1 hwords.2.1 hwords.2.2 hword hnumber harr.symm hobj.symm
    indent).literalAt hv level depth

end Brackets

/-- Neither of two letters one of which is in every word that is looked for. -/
def Lexeme.isQuiet : Lexeme → Bool
  | code p => p != .scalar 'd' && p != .scalar 'p'
  | _ => true

def Quiet (ls : List Lexeme) : Prop := ls.all Lexeme.isQuiet = true

theorem Quiet.append {ls ms : List Lexeme} (h : Quiet ls) (h' : Quiet ms) : Quiet (ls ++ ms) := by
  rw [Quiet, List.all_append, Bool.and_eq_true]
  exact ⟨h, h'⟩

theorem found_of_quiet {words : List String} {ls : List Lexeme}
    (hwords : ∀ w ∈ words, 'd' ∈ w.toList ∨ 'p' ∈ w.toList) (h : Quiet ls) :
    found words ls = [] := by
  apply found_eq_nil
  intro w hw
  rcases hwords w hw with hc | hc
  · exact ⟨'d', hc, fun hmem => Bool.false_ne_true (List.all_eq_true.mp h _ hmem)⟩
  · exact ⟨'p', hc, fun hmem => Bool.false_ne_true (List.all_eq_true.mp h _ hmem)⟩

theorem quiet_spaces (b : Bool) (n : Int) : Quiet (ofPiece b (spaces n)) := by
  rw [ofPiece_spaces, Quiet, List.all_map, List.all_eq_true]
  intro c hc
  rw [List.eq_of_mem_replicate hc]
  rfl

theorem quiet_number {b : Bool} {cs : List Char} {v : Json} (h : Json.number? cs = some v) :
    Quiet (ofLine b [.code (String.ofList cs)]) := by
  rw [ofLine_number b h, Quiet, List.all_map, List.all_eq_true]
  intro c hc
  have hnumber := (Json.number?_spec h).1 c hc
  have hd : c ≠ 'd' := ne_of_kind hnumber (by decide)
  have hp : c ≠ 'p' := ne_of_kind hnumber (by decide)
  simp [Lexeme.isQuiet, hd, hp]

theorem quiet_container {first last : String} {inner : Line} (hfirst : Quiet (ofPiece false first))
    (hinner : Quiet (ofLine false inner)) (hlast : Quiet (ofPiece false last)) (n : Int) :
    Quiet (ofLine false (.code first :: (inner ++ [.code "\n", spaces n, .code last]))) := by
  rw [ofLine_cons, ofLine_append, ofLine_cons, ofLine_cons, ofLine_cons]
  exact hfirst.append <| hinner.append <| Quiet.append rfl <| (quiet_spaces false n).append <|
    hlast.append rfl

theorem quiet_member {l : Line} (n : Int) (k : Text) (h : Quiet (ofLine false l)) :
    Quiet (ofLine false (spaces n :: .literal k :: .code ": " :: l)) :=
  (quiet_spaces false n).append (Quiet.append rfl (Quiet.append rfl h))

/-- The program text in the literal of a value is quiet. -/
theorem quiet_rules (names : Spelling) (hnull : Quiet (ofLine false [.code names.null]))
    (hyes : Quiet (ofLine false [.code names.yes])) (hno : Quiet (ofLine false [.code names.no]))
    (indent : Int) :
    LiteralRules names indent (fun _ _ l => Quiet (ofLine false l))
      (fun _ _ l => Quiet (ofLine false l)) (fun _ _ l => Quiet (ofLine false l)) where
  null _ := hnull
  yes _ := hyes
  no _ := hno
  int _ _ h := quiet_number h
  float _ _ h := quiet_number h
  str _ _ := rfl
  emptyArr _ := rfl
  emptyObj _ := rfl
  arr _ _ _ _ h := quiet_container (by rfl) h (by rfl) _
  obj _ _ _ _ h := quiet_container (by rfl) h (by rfl) _
  item _ _ _ h := (quiet_spaces false _).append h
  moreItems _ _ _ _ _ _ hv hrest := by
    rw [ofLine_cons, ofLine_append, ofLine_cons]
    exact (quiet_spaces false _).append (hv.append (Quiet.append rfl hrest))
  member _ k _ _ h := quiet_member _ k h
  moreMembers _ k _ _ _ l m hv hrest := by
    have hmore : Quiet (ofLine false (l ++ .code ",\n" :: m)) := by
      rw [ofLine_append, ofLine_cons]
      exact hv.append (Quiet.append rfl hrest)
    exact quiet_member _ k hmore

theorem quiet_literalAt {names : Spelling} (hnames : names = .lowerCase ∨ names = .capitalized)
    {v : Json} (hv : Json.Regular v) (indent level : Int) :
    Quiet (ofLine false (literalAt names indent level v)) := by
  have hwords : Quiet (ofLine false [.code names.null]) ∧ Quiet (ofLine false [.code names.yes]) ∧
      Quiet (ofLine false [.code names.no]) := by
    rcases hnames with rfl | rfl
    · exact ⟨rfl, rfl, rfl⟩
    · exact ⟨rfl, rfl, rfl⟩
  exact (quiet_rules names hwords.1 hwords.2.1 hwords.2.2 indent).literalAt hv level

/-- The literal in the names of JSON has the text of its line, and that is JSON text. -/
theorem decode?_ofLine {v : Json} (hv : Json.Regular v) (indent level : Int) :
    Json.decode? (text (ofLine false (literalAt .lowerCase indent level v))) = some v := by
  have hclosed := (closed_rules (b := false) .lowerCase rfl rfl rfl indent).literalAt hv level
  rw [text_ofLine hclosed, Json.decode?_literalAt hv]

/-- The names of a spelling, each with that of JSON. -/
def namePairs (names : Spelling) : List (String × String) :=
  [(names.null, "null"), (names.yes, "true"), (names.no, "false")]

/-- The lexemes with the names of JSON in place of the others; none where one of JSON stands
already. The number counts what is left of a name that has been replaced. -/
def respell? (names : Spelling) : Nat → List Lexeme → Option (List Lexeme)
  | _, [] => some []
  | skip + 1, _ :: ls => respell? names skip ls
  | 0, l :: ls =>
    match (namePairs names).find? fun n => (after? n.1.toList (l :: ls)).isSome with
    | some n => (respell? names (n.1.toList.length - 1) ls).map
      (n.2.toList.map (fun c => .code (.scalar c)) ++ ·)
    | none =>
      if (namePairs names).any fun n => (after? n.2.toList (l :: ls)).isSome then none
      else (respell? names 0 ls).map (l :: ·)

section Names

abbrev Respells : List Lexeme → List Lexeme → Prop := Passes (respell? .capitalized 0)

theorem respells_names :
    Respells (ofPiece false (.code "None")) (ofPiece false (.code "null")) ∧
      Respells (ofPiece false (.code "True")) (ofPiece false (.code "true")) ∧
      Respells (ofPiece false (.code "False")) (ofPiece false (.code "false")) :=
  ⟨fun _ => rfl, fun _ => rfl, fun _ => rfl⟩

theorem respells_quoted (t : Text) : Respells [.quoted t] [.quoted t] := fun _ => rfl

/-- Whether one of the names begins with the character. -/
def beginsName (c : Char) : Bool := ['N', 'T', 'F', 'n', 't', 'f'].contains c

/-- A character with which no name begins stays. -/
theorem respells_char {c : Char} (h : beginsName c = false) :
    Respells [.code (.scalar c)] [.code (.scalar c)] := by
  intro rest
  have hnot : c ∉ ['N', 'T', 'F', 'n', 't', 'f'] := by
    rwa [beginsName, List.contains_eq_mem, decide_eq_false_iff_not] at h
  simp only [List.mem_cons, not_or, List.not_mem_nil, not_false_eq_true, and_true] at hnot
  obtain ⟨hN, hT, hF, hn, ht, hf⟩ := hnot
  simp [respell?, namePairs, Spelling.capitalized, after?, hN, hT, hF, hn, ht, hf]

theorem respells_chars (cs : List Char) (h : cs.all (fun c => !beginsName c) = true) :
    Respells (cs.map fun c => .code (.scalar c)) (cs.map fun c => .code (.scalar c)) := by
  induction cs with
  | nil => exact passes_nil
  | cons c cs ih =>
    rw [List.all_cons, Bool.and_eq_true, Bool.not_eq_true'] at h
    exact (respells_char h.1).append (ih h.2)

theorem respells_spaces (n : Int) :
    Respells (ofPiece false (spaces n)) (ofPiece false (spaces n)) := by
  rw [ofPiece_spaces]
  apply respells_chars
  rw [List.all_eq_true]
  intro c hc
  rw [List.eq_of_mem_replicate hc]
  rfl

theorem respells_number {cs : List Char} {v : Json} (h : Json.number? cs = some v) :
    Respells (ofLine false [.code (String.ofList cs)])
      (ofLine false [.code (String.ofList cs)]) := by
  rw [ofLine_number false h]
  apply respells_chars
  rw [List.all_eq_true]
  intro c hc
  have hnot : c ∉ ['N', 'T', 'F', 'n', 't', 'f'] := by
    intro hname
    have hother : (['N', 'T', 'F', 'n', 't', 'f'].all fun d => !Json.isNumberChar d) = true := rfl
    have hletter := List.all_eq_true.mp hother c hname
    rw [(Json.number?_spec h).1 c hc] at hletter
    cases hletter
  rw [beginsName, List.contains_eq_mem, decide_eq_false hnot]
  rfl

theorem respells_container {first last : String} {l m : Line}
    (hfirst : Respells (ofPiece false (.code first)) (ofPiece false (.code first)))
    (h : Respells (ofLine false l) (ofLine false m))
    (hlast : Respells (ofPiece false (.code last)) (ofPiece false (.code last))) (n : Int) :
    Respells (ofLine false (.code first :: (l ++ [.code "\n", spaces n, .code last])))
      (ofLine false (.code first :: (m ++ [.code "\n", spaces n, .code last]))) := by
  have hbreak : Respells (ofPiece false (.code "\n")) (ofPiece false (.code "\n")) := fun _ => rfl
  have hend := (respells_spaces n).append (hlast.append passes_nil)
  simp only [ofLine_cons, ofLine_append]
  exact hfirst.append (h.append (hbreak.append hend))

theorem respells_member {l m : Line} (n : Int) (k : Text)
    (h : Respells (ofLine false l) (ofLine false m)) :
    Respells (ofLine false (spaces n :: .literal k :: .code ": " :: l))
      (ofLine false (spaces n :: .literal k :: .code ": " :: m)) := by
  have hcolon : Respells (ofPiece false (.code ": ")) (ofPiece false (.code ": ")) :=
    respells_chars [':', ' '] rfl
  exact (respells_spaces n).append ((respells_quoted _).append (hcolon.append h))

theorem respells_comma {l m l' m' : Line} (h : Respells (ofLine false l) (ofLine false m))
    (h' : Respells (ofLine false l') (ofLine false m')) :
    Respells (ofLine false (l ++ .code ",\n" :: l')) (ofLine false (m ++ .code ",\n" :: m')) := by
  have hcomma : Respells (ofPiece false (.code ",\n")) (ofPiece false (.code ",\n")) :=
    respells_chars [',', '\n'] rfl
  rw [ofLine_append, ofLine_cons, ofLine_append, ofLine_cons]
  exact h.append (hcomma.append h')

/-- The capitalized literal of a value becomes its literal in the names of JSON. -/
theorem respells_rules (indent : Int) :
    LiteralRules .capitalized indent
      (fun level v l =>
        Respells (ofLine false l) (ofLine false (literalAt .lowerCase indent level v)))
      (fun level vs l =>
        Respells (ofLine false l) (ofLine false (literalItems .lowerCase indent level vs)))
      (fun level ms l =>
        Respells (ofLine false l) (ofLine false (literalMembers .lowerCase indent level ms))) where
  null _ := respells_names.1.append passes_nil
  yes _ := respells_names.2.1.append passes_nil
  no _ := respells_names.2.2.append passes_nil
  int _ _ h := respells_number h
  float _ _ h := respells_number h
  str _ _ := respells_quoted _
  emptyArr _ := respells_chars ['[', ']'] rfl
  emptyObj _ := respells_chars ['\x7b', '\x7d'] rfl
  arr level _ _ _ h := by
    have hfirst : Respells (ofPiece false (.code "[\n")) (ofPiece false (.code "[\n")) :=
      respells_chars ['[', '\n'] rfl
    rw [literalAt_arr]
    exact respells_container hfirst h (fun _ => rfl) _
  obj level _ _ _ h := by
    have hfirst : Respells (ofPiece false (.code "\x7b\n")) (ofPiece false (.code "\x7b\n")) :=
      respells_chars ['\x7b', '\n'] rfl
    rw [literalAt_obj]
    exact respells_container hfirst h (fun _ => rfl) _
  item level _ _ h := (respells_spaces _).append h
  moreItems level _ _ _ _ _ hv hrest := by
    rw [literalItems_cons]
    exact (respells_spaces _).append (respells_comma hv hrest)
  member level k _ _ h := respells_member _ k h
  moreMembers level k _ _ _ _ _ hv hrest := by
    rw [literalMembers_cons]
    exact respells_member _ k (respells_comma hv hrest)

theorem respell?_literalAt {v : Json} (hv : Json.Regular v) (indent level : Int) :
    respell? .capitalized 0 (ofLine false (literalAt .capitalized indent level v)) =
      some (ofLine false (literalAt .lowerCase indent level v)) :=
  ((respells_rules indent).literalAt hv level).before.read (p := fun _ => false) rfl

end Names

end CurlSnippet.Source
