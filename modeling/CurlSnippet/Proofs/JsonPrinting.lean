import CurlSnippet.Json.Print
import CurlSnippet.Proofs.LiteralRules
import CurlSnippet.Proofs.Passing
import CurlSnippet.Proofs.StringSpelling

/-!
Printed values are read back. Everything that is printed scans to its tokens in its place; only a
number needs what follows it not to go on with it. Line breaks and blanks scan to nothing, so the
same argument serves every layout.
-/

namespace CurlSnippet

namespace Json

/-- The text scans to these tokens, whatever follows. -/
abbrev Scans : Text → List Token → Prop := Passes Token.scan

/-- The text scans to these tokens where a number ends. -/
abbrev ScansBefore : Text → List Token → Prop := PassesBefore Token.scan Token.isNumberPoint

/-- The text scans to these tokens, whatever follows, and ends a number before it. -/
abbrev TokenMark : Text → List Token → Prop := Mark Token.scan Token.isNumberPoint

theorem scans_space {p : CodePoint} (hp : Token.isSpace p = true) : Scans [p] [] := by
  intro rest
  rw [List.singleton_append, Token.scan, if_pos hp]
  simp

theorem scan_next {p : CodePoint} {t rest : Text} {k : Token} (hp : Token.isSpace p = false)
    (h : Token.next? (p :: t) = some (k, rest)) :
    Token.scan (p :: t) = (Token.scan rest).map (k :: ·) := by
  rw [Token.scan, if_neg (by simp [hp])]
  split
  · next hnone => rw [h] at hnone; cases hnone
  · next k' rest' hsome =>
    rw [h] at hsome
    obtain ⟨rfl, rfl⟩ := Prod.mk.inj (Option.some.inj hsome)
    rfl

theorem mark_space {p : CodePoint} (hp : Token.isSpace p = true)
    (hstop : Token.isNumberPoint p = false) : TokenMark [p] [] :=
  ⟨scans_space hp, p, rfl, hstop⟩

/-- A token of one character is a mark. -/
theorem mark_token {p : CodePoint} {k : Token} (hp : Token.isSpace p = false)
    (hstop : Token.isNumberPoint p = false)
    (h : ∀ rest, Token.next? (p :: rest) = some (k, rest)) : TokenMark [p] [k] where
  passes := fun rest => scan_next hp (h rest)
  stops := ⟨p, rfl, hstop⟩

theorem mark_arrOpen : TokenMark [.scalar '['] [.arrOpen] :=
  mark_token (by decide) (by decide) fun _ => rfl

theorem mark_arrClose : TokenMark [.scalar ']'] [.arrClose] :=
  mark_token (by decide) (by decide) fun _ => rfl

theorem mark_objOpen : TokenMark [.scalar '\x7b'] [.objOpen] :=
  mark_token (by decide) (by decide) fun _ => rfl

theorem mark_objClose : TokenMark [.scalar '\x7d'] [.objClose] :=
  mark_token (by decide) (by decide) fun _ => rfl

theorem mark_comma : TokenMark [.scalar ','] [.comma] :=
  mark_token (by decide) (by decide) fun _ => rfl

theorem mark_colon : TokenMark [.scalar ':'] [.colon] :=
  mark_token (by decide) (by decide) fun _ => rfl

theorem mark_blank : TokenMark [.scalar ' '] [] := mark_space (by decide) (by decide)

theorem mark_lineFeed : TokenMark [.scalar '\n'] [] := mark_space (by decide) (by decide)

theorem scans_blanks (n : Nat) : Scans (List.replicate n (.scalar ' ')) [] := by
  induction n with
  | zero => exact passes_nil
  | succ n ih => exact mark_blank.passes.append ih

/-- A string in quotes that is read up to the closing one. -/
theorem mark_quoted {inside t : Text}
    (h : ∀ rest, readString (inside ++ .scalar '"' :: rest) = some (t, rest)) :
    TokenMark (.scalar '"' :: (inside ++ [.scalar '"'])) [.text t] where
  passes := by
    intro rest
    have hnext : Token.next? (.scalar '"' :: (inside ++ .scalar '"' :: rest)) =
        some (.text t, rest) := by
      simp [Token.next?, h rest]
    rw [List.cons_append, List.append_assoc, List.singleton_append]
    exact scan_next (by decide) hnext
  stops := ⟨.scalar '"', rfl, by decide⟩

/-- A string in quotes, by any escape that is read back. -/
theorem mark_string {f : CodePoint → Text} (hf : ∀ p, Written p (f p)) (t : Text) :
    TokenMark (.scalar '"' :: (t.flatMap f ++ [.scalar '"'])) [.text t] :=
  mark_quoted (readString_flatMap hf t)

theorem next?_number {c : Char} (hc : c.isDigit = true ∨ c = '-') (t : Text) :
    Token.next? (.scalar c :: t) = Token.numberToken? (.scalar c :: t) := by
  have hne : ∀ d : Char, d.isDigit = false → d ≠ '-' → c ≠ d := by
    intro d hd hminus
    rcases hc with hdigit | rfl
    · exact ne_of_kind hdigit hd
    · exact hminus.symm
  simp only [Token.next?]
  iterate 10 rw [if_neg (hne _ (by decide) (by decide))]

theorem isSpace_number {c : Char} (hc : c.isDigit = true ∨ c = '-') :
    Token.isSpace (.scalar c) = false := by
  rcases hc with hdigit | rfl
  · by_contra hspace
    simp only [Token.isSpace, Bool.not_eq_false, Bool.or_eq_true, beq_iff_eq,
      CodePoint.scalar.injEq] at hspace
    rcases hspace with ((rfl | rfl) | rfl) | rfl <;> exact absurd hdigit (by decide)
  · decide

theorem scansBefore_number {cs : List Char} {v : Json} (h : number? cs = some v) :
    ScansBefore (Text.ofChars cs) [.atom v] := by
  intro rest hrest
  obtain ⟨hall, c, hc, hfirst⟩ := number?_spec h
  have hpoints : ∀ p ∈ Text.ofChars cs, Token.isNumberPoint p = true := by
    intro p hp
    obtain ⟨d, hd, rfl⟩ := List.mem_map.mp hp
    exact hall d hd
  obtain ⟨htake, hdrop⟩ := span_append hpoints hrest
  have hnumber : Token.numberToken? (Text.ofChars cs ++ rest) = some (.atom v, rest) := by
    simp [Token.numberToken?, htake, hdrop, Text.chars?_ofChars, h]
  cases cs with
  | nil => cases hc
  | cons d cs =>
    obtain rfl : d = c := Option.some.inj hc
    exact scan_next (isSpace_number hfirst) ((next?_number hfirst _).trans hnumber)

theorem scansBefore_atom {v : Json} (h : Regular v) (hatom : tokens v = [.atom v]) :
    ScansBefore (Text.ofChars v.spellAtom) [.atom v] := by
  cases h with
  | null => exact fun rest _ => scan_next (by decide) rfl
  | bool b =>
    cases b
    · exact fun rest _ => scan_next (by decide) rfl
    · exact fun rest _ => scan_next (by decide) rfl
  | int hlen => exact scansBefore_number (number?_spellInt hlen)
  | float x => exact scansBefore_number (number?_spell x)
  | str t | arr _ | obj _ _ => simp [tokens] at hatom

theorem itemTokens_cons (v w : Json) (rest : List Json) :
    itemTokens (v :: w :: rest) = tokens v ++ [.comma] ++ itemTokens (w :: rest) := by
  rw [itemTokens]
  · simp
  · simp

theorem memberTokens_cons (m n : Text × Json) (rest : List (Text × Json)) :
    memberTokens (m :: n :: rest) =
      [.text m.1, .colon] ++ tokens m.2 ++ [.comma] ++ memberTokens (n :: rest) := by
  obtain ⟨k, v⟩ := m
  rw [memberTokens]
  · simp
  · simp

/-- A text that scans to the tokens of a value is read as the value. -/
theorem decode?_of_scansBefore {t : Text} {v : Json} (hv : Regular v)
    (h : ScansBefore t (tokens v)) : decode? t = some v := by
  rw [decode?, h.read (by rw [Token.scan]), Option.bind_some, ofTokens?_tokens hv]

/-- A container around its items, by the marks at its ends. -/
theorem scansBefore_container {start inner stop : Text} {k : Token} {ks : List Token} {l : Token}
    (hstart : TokenMark start [k]) (hinner : ScansBefore inner ks) (hstop : TokenMark stop [l]) :
    ScansBefore (start ++ (inner ++ stop)) (k :: (ks ++ [l])) :=
  (hstart.passes.append (hinner.append_mark hstop)).before

section Print

variable (l : Layout)

theorem scans_lineBreak (level : Nat) : Scans (l.lineBreak level) [] := by
  cases l with
  | compact | inline => exact passes_nil
  | lines indent => exact mark_lineFeed.passes.append (scans_blanks _)

/-- A bracket ends a number before it, on a line of its own or not. -/
theorem mark_closing {p : CodePoint} {k : Token} (hp : TokenMark [p] [k]) (level : Nat) :
    TokenMark (l.lineBreak level ++ [p]) [k] := by
  cases l with
  | compact | inline => exact hp
  | lines indent => exact (mark_lineFeed.append (scans_blanks _)).append hp.passes

theorem mark_layoutComma : TokenMark l.comma [.comma] := by
  cases l with
  | compact | lines _ => exact mark_comma
  | inline => exact mark_comma.append mark_blank.passes

theorem scans_layoutColon : Scans l.colon [.colon] := by
  cases l with
  | compact => exact mark_colon.passes
  | inline | lines _ => exact (mark_colon.append mark_blank.passes).passes

theorem printItems_cons (level : Nat) (v w : Json) (rest : List Json) :
    printItems l level (v :: w :: rest) =
      l.lineBreak level ++ printAt l level v ++ l.comma ++ printItems l level (w :: rest) := by
  rw [printItems]
  simp

theorem printMembers_cons (level : Nat) (m n : Text × Json) (rest : List (Text × Json)) :
    printMembers l level (m :: n :: rest) =
      l.lineBreak level ++ (quoted m.1 ++ l.colon) ++ printAt l level m.2 ++ l.comma ++
        printMembers l level (n :: rest) := by
  obtain ⟨k, v⟩ := m
  rw [printMembers]
  · simp
  · simp

theorem mark_key (k : Text) : TokenMark (quoted k ++ l.colon) [.text k, .colon] :=
  (mark_string written_escape k).append (scans_layoutColon l)

theorem scansBefore_printItems {level : Nat} {v : Json} {rest : List Json}
    (h : ∀ w ∈ v :: rest, ScansBefore (printAt l level w) (tokens w)) :
    ScansBefore (printItems l level (v :: rest)) (itemTokens (v :: rest)) := by
  have hbreak := scans_lineBreak l level
  induction rest generalizing v with
  | nil => exact hbreak.append_before (h v List.mem_cons_self)
  | cons w rest ih =>
    have hv := (hbreak.append_before (h v List.mem_cons_self)).append_mark (mark_layoutComma l)
    have hrest := ih fun u hu => h u (List.mem_cons_of_mem v hu)
    rw [printItems_cons, itemTokens_cons]
    exact hv.append_before hrest

theorem scansBefore_printMembers {level : Nat} {m : Text × Json} {rest : List (Text × Json)}
    (h : ∀ n ∈ m :: rest, ScansBefore (printAt l level n.2) (tokens n.2)) :
    ScansBefore (printMembers l level (m :: rest)) (memberTokens (m :: rest)) := by
  have hbreak := scans_lineBreak l level
  induction rest generalizing m with
  | nil =>
    have hm := (hbreak.append (mark_key l m.1).passes).append_before (h m List.mem_cons_self)
    have hone : printMembers l level [m] =
        l.lineBreak level ++ (quoted m.1 ++ l.colon) ++ printAt l level m.2 := by
      simp [printMembers]
    rw [hone]
    exact hm
  | cons n rest ih =>
    have hm := ((hbreak.append (mark_key l m.1).passes).append_before
      (h m List.mem_cons_self)).append_mark (mark_layoutComma l)
    have hrest := ih fun u hu => h u (List.mem_cons_of_mem m hu)
    rw [printMembers_cons, memberTokens_cons]
    exact hm.append_before hrest

theorem scansBefore_printAt {v : Json} (hv : Regular v) (level : Nat) :
    ScansBefore (printAt l level v) (tokens v) := by
  induction hv generalizing level with
  | null => exact scansBefore_atom .null rfl
  | bool b => exact scansBefore_atom (.bool b) rfl
  | int h => exact scansBefore_atom (.int h) rfl
  | float x => exact scansBefore_atom (.float x) rfl
  | str t => exact (mark_string written_escape t).passes.before
  | @arr items _ ih =>
    cases items with
    | nil => exact (mark_arrOpen.append mark_arrClose.passes).passes.before
    | cons v rest =>
      have hinner := scansBefore_printItems l fun w hw => ih w hw (level + 1)
      rw [tokens, printAt, List.append_assoc]
      · exact scansBefore_container mark_arrOpen hinner (mark_closing l mark_arrClose level)
      · simp
  | @obj members _ _ ih =>
    cases members with
    | nil => exact (mark_objOpen.append mark_objClose.passes).passes.before
    | cons m rest =>
      have hinner := scansBefore_printMembers l fun n hn => ih n hn (level + 1)
      rw [tokens, printAt, List.append_assoc]
      · exact scansBefore_container mark_objOpen hinner (mark_closing l mark_objClose level)
      · simp

/-- A printed value is read back, whatever the layout. -/
theorem decode?_print {v : Json} (hv : Regular v) : decode? (v.print l) = some v :=
  decode?_of_scansBefore hv (scansBefore_printAt l hv 0)

theorem decode?_pretty (indent : Int) {v : Json} (hv : Regular v) :
    decode? (v.pretty indent) = some v :=
  decode?_print (.lines indent) hv

end Print

section Literal

theorem text_cons (p : Piece) (l : Line) : Line.text (p :: l) = p.text ++ Line.text l :=
  List.flatMap_cons

theorem text_append (l m : Line) : Line.text (l ++ m) = Line.text l ++ Line.text m :=
  List.flatMap_append

theorem text_spaces (n : Int) : (spaces n).text = List.replicate n.toNat (.scalar ' ') := by
  simp [spaces, Piece.text, Text.ofString, Text.ofChars]

theorem text_ofList (cs : List Char) :
    Line.text [.code (String.ofList cs)] = Text.ofChars cs := by
  simp [Line.text, Piece.text, Text.ofString]

theorem scans_spaces (n : Int) : Scans (spaces n).text [] := by
  rw [text_spaces]
  exact scans_blanks n.toNat

theorem mark_commaLine : TokenMark (Piece.code ",\n").text [.comma] :=
  mark_comma.append mark_lineFeed.passes

theorem mark_literalKey (k : Text) :
    TokenMark (quote k ++ (Piece.code ": ").text) [.text k, .colon] :=
  (mark_string written_escapeInLiteral k).append (mark_colon.append mark_blank.passes).passes

theorem text_member (n : Int) (k : Text) (l : Line) :
    Line.text (spaces n :: .literal k :: .code ": " :: l) =
      (spaces n).text ++ (quote k ++ (Piece.code ": ").text) ++ Line.text l := by
  simp only [text_cons, List.append_assoc]
  rfl

/-- A container with its ends on lines of their own. -/
theorem scansBefore_lines {first last : CodePoint} {k l : Token} {inner : Line} {ks : List Token}
    (hfirst : TokenMark [first] [k]) (hinner : ScansBefore (Line.text inner) ks)
    (hlast : TokenMark [last] [l]) (n : Int) :
    ScansBefore ([first, .scalar '\n'] ++ (Line.text inner ++
      (.scalar '\n' :: ((spaces n).text ++ [last])))) (k :: (ks ++ [l])) :=
  scansBefore_container (hfirst.append mark_lineFeed.passes) hinner
    (mark_lineFeed.append ((scans_spaces n).append hlast.passes))

/-- The literal of a value, in the names of JSON, scans to the tokens of the value. -/
theorem scansBefore_rules (indent : Int) :
    LiteralRules .lowerCase indent (fun _ v l => ScansBefore (Line.text l) (tokens v))
      (fun _ vs l => ScansBefore (Line.text l) (itemTokens vs))
      (fun _ ms l => ScansBefore (Line.text l) (memberTokens ms)) where
  null _ := scansBefore_atom .null rfl
  yes _ := scansBefore_atom (.bool true) rfl
  no _ := scansBefore_atom (.bool false) rfl
  int _ _ h := by
    rw [text_ofList]
    exact scansBefore_number h
  float _ _ h := by
    rw [text_ofList]
    exact scansBefore_number h
  str _ t := by
    rw [text_cons]
    exact ((mark_string written_escapeInLiteral t).passes.append passes_nil).before
  emptyArr _ := (mark_arrOpen.append mark_arrClose.passes).passes.before
  emptyObj _ := (mark_objOpen.append mark_objClose.passes).passes.before
  arr level _ _ l h := by
    rw [tokens, text_cons, text_append]
    exact scansBefore_lines mark_arrOpen h mark_arrClose (indent * level)
  obj level _ _ l h := by
    rw [tokens, text_cons, text_append]
    exact scansBefore_lines mark_objOpen h mark_objClose (indent * level)
  item level _ _ h := by
    rw [text_cons]
    exact (scans_spaces _).append_before h
  moreItems level _ _ _ _ _ hv hrest := by
    rw [itemTokens_cons, text_cons, text_append, text_cons, ← List.append_assoc,
      ← List.append_assoc]
    exact (((scans_spaces _).append_before hv).append_mark mark_commaLine).append_before hrest
  member level k _ _ h := by
    rw [text_member]
    exact ((scans_spaces _).append (mark_literalKey k).passes).append_before h
  moreMembers level k _ _ _ _ _ hv hrest := by
    rw [memberTokens_cons, text_member, text_append, text_cons, ← List.append_assoc,
      ← List.append_assoc]
    exact ((((scans_spaces _).append (mark_literalKey k).passes).append_before hv).append_mark
      mark_commaLine).append_before hrest

/-- The literal of a value in the names of JSON is JSON text of the value. -/
theorem decode?_literalAt {v : Json} (hv : Regular v) (indent level : Int) :
    decode? (Line.text (literalAt .lowerCase indent level v)) = some v :=
  decode?_of_scansBefore hv ((scansBefore_rules indent).literalAt hv level)

end Literal

end Json

end CurlSnippet
