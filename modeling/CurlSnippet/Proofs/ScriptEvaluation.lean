import CurlSnippet.Proofs.NativeLiteral
import CurlSnippet.Proofs.ScriptValue
import Mathlib.Data.List.Sort

/-!
Literals of a script and their values. The lexemes of a literal are words, numbers, strings and
marks, and its brackets nest like those of JSON; its value is not always the one that JSON would
give it: a whole number becomes the nearest binary64 number, and a property that is written with
the quoted key `__proto__` sets the prototype of the object and is none of its own.
-/

namespace CurlSnippet.Script

open Source

/-- The number nearest a whole one. -/
def Number.ofInt (n : Int) : Number :=
  (Binary64.ofQuotient (decide (n < 0)) n.natAbs 1).elim (.infinite (decide (n < 0))) .finite

/-- The array index that a key spells. -/
def arrayIndex? (k : Units) : Option Nat :=
  let n := k.foldl (fun n u => 10 * n + (u.val - 48)) 0
  if n < 4294967295 ∧ (Nat.toDigits 10 n).map Char.toNat = k.map Fin.val then some n else none

/-- Properties in the order in which they are enumerated: array indices by size, then the others
as they were made. -/
def inOrder (ps : List (Units × Value)) : List (Units × Value) :=
  (ps.filter fun p => (arrayIndex? p.1).isSome).insertionSort
      (fun p q => (arrayIndex? p.1).getD 0 ≤ (arrayIndex? q.1).getD 0) ++
    ps.filter fun p => !(arrayIndex? p.1).isSome

/-- The key that sets the prototype of an object. -/
def prototypeKey : Text := Text.ofString "__proto__"

mutual

/-- The value of a literal, from the tree that its marks and words spell. -/
def evaluate : Json → Value
  | .null => .null
  | .bool b => .bool b
  | .int n => .number (.ofInt n)
  | .float x => .number (.finite x)
  | .str t => .str (Text.units t)
  | .arr items => .arr (evaluateItems items)
  | .obj members => .obj (inOrder (evaluateMembers members))

def evaluateItems : List Json → List Value
  | [] => []
  | v :: rest => evaluate v :: evaluateItems rest

def evaluateMembers : List (Text × Json) → List (Units × Value)
  | [] => []
  | (k, v) :: rest =>
    if k = prototypeKey then evaluateMembers rest
    else (Text.units k, evaluate v) :: evaluateMembers rest

end

/-- The characters of words and numbers. -/
def isWordChar (c : Char) : Bool := c.isAlphanum || c == '-' || c == '+' || c == '.'

def wordChar? : Lexeme → Option Char
  | .code (.scalar c) => if isWordChar c then some c else none
  | _ => none

def isWord (l : Lexeme) : Bool := (wordChar? l).isSome

/-- The token of a word. -/
def wordToken? (w : List Char) : Option Json.Token :=
  if w = "null".toList then some (.atom .null)
  else if w = "true".toList then some (.atom (.bool true))
  else if w = "false".toList then some (.atom (.bool false))
  else (Json.number? w).map .atom

/-- The token of the word that ends here, if there is one; its characters are kept newest first. -/
def pending? : List Char → Option (List Json.Token)
  | [] => some []
  | c :: w => (wordToken? (c :: w).reverse).map ([·])

/-- The tokens of a lexeme that is no part of a word. -/
def lexemeTokens? : Lexeme → Option (List Json.Token)
  | .quoted inside => (denoted? .plain inside).map fun t => [.text t]
  | .code (.scalar ' ') | .code (.scalar '\n') => some []
  | .code (.scalar '[') => some [.arrOpen]
  | .code (.scalar ']') => some [.arrClose]
  | .code (.scalar '\x7b') => some [.objOpen]
  | .code (.scalar '\x7d') => some [.objClose]
  | .code (.scalar ',') => some [.comma]
  | .code (.scalar ':') => some [.colon]
  | _ => none

/-- The tokens of lexemes after the given part of a word. -/
def scan : List Char → List Lexeme → Option (List Json.Token)
  | w, [] => pending? w
  | w, l :: ls => match wordChar? l with
    | some c => scan (c :: w) ls
    | none => (pending? w).bind fun word => (lexemeTokens? l).bind fun here =>
      (scan [] ls).map fun later => word ++ (here ++ later)

/-- The value of a literal. -/
def evaluate? (e : List Lexeme) : Option Value :=
  ((scan [] e).bind Json.ofTokens?).map evaluate

section Scanning

abbrev Scans : List Lexeme → List Json.Token → Prop := Passes (scan [])

abbrev ScansBefore : List Lexeme → List Json.Token → Prop := PassesBefore (scan []) isWord

abbrev LexemeMark : List Lexeme → List Json.Token → Prop := Mark (scan []) isWord

theorem scan_word {cs : List Char} (hcs : ∀ c ∈ cs, isWordChar c = true) (w : List Char)
    (rest : List Lexeme) :
    scan w (cs.map (fun c => .code (.scalar c)) ++ rest) = scan (cs.reverse ++ w) rest := by
  induction cs generalizing w with
  | nil => rfl
  | cons c cs ih =>
    obtain ⟨hc, hrest⟩ := List.forall_mem_cons.mp hcs
    have hchar : wordChar? (.code (.scalar c)) = some c := if_pos hc
    rw [List.map_cons, List.cons_append, scan, hchar, List.reverse_cons, List.append_assoc]
    exact ih hrest (c :: w)

/-- A word ends where something stands that is no part of it. -/
theorem scan_stop (w : List Char) {rest : List Lexeme} (hrest : Stops isWord rest) :
    scan w rest = (pending? w).bind fun ks => (scan [] rest).map (ks ++ ·) := by
  cases rest with
  | nil => simp [scan, pending?]
  | cons l ls =>
    have hl : wordChar? l = none := by
      have hword := hrest l rfl
      rwa [isWord, Option.isSome_eq_false_iff, Option.isNone_iff_eq_none] at hword
    have hnil : pending? [] = some [] := rfl
    simp only [scan, hl, hnil, Option.bind_some, Option.map_bind, Function.comp_def,
      Option.map_map, List.nil_append]

theorem scansBefore_word {w : List Char} {k : Json.Token} (hw : ∀ c ∈ w, isWordChar c = true)
    (h : wordToken? w = some k) : ScansBefore (w.map fun c => .code (.scalar c)) [k] := by
  intro rest hrest
  have hpending : pending? w.reverse = some [k] := by
    cases hrev : w.reverse with
    | nil =>
      rw [List.reverse_eq_nil_iff.mp hrev] at h
      cases h
    | cons c v => rw [pending?, ← hrev, List.reverse_reverse, h, Option.map_some]
  rw [scan_word hw, List.append_nil, scan_stop _ hrest, hpending, Option.bind_some]

/-- A lexeme that is no part of a word is a mark. -/
theorem mark_lexeme {l : Lexeme} {ks : List Json.Token} (hl : wordChar? l = none)
    (h : lexemeTokens? l = some ks) : LexemeMark [l] ks where
  passes := by
    intro rest
    simp only [List.singleton_append, scan, hl, h, pending?, Option.bind_some, List.nil_append]
  stops := ⟨l, rfl, by rw [isWord, hl]; rfl⟩

theorem isWordChar_numberChar {c : Char} (h : Json.isNumberChar c = true) :
    isWordChar c = true := by
  simp only [Json.isNumberChar, Bool.or_eq_true, beq_iff_eq] at h
  rcases h with ((((hdigit | rfl) | rfl) | rfl) | rfl) | rfl
  · simp [isWordChar, Char.isAlphanum, hdigit]
  · rfl
  · rfl
  · rfl
  · rfl
  · rfl

theorem scansBefore_number {cs : List Char} {v : Json} (h : Json.number? cs = some v) :
    ScansBefore (ofLine false [.code (String.ofList cs)]) [.atom v] := by
  have hall := (Json.number?_spec h).1
  have hword : ∀ w : List Char, Json.number? w = none → cs ≠ w := by
    rintro w hw rfl
    rw [hw] at h
    cases h
  have htoken : wordToken? cs = some (.atom v) := by
    rw [wordToken?, if_neg (hword _ rfl), if_neg (hword _ rfl), if_neg (hword _ rfl), h,
      Option.map_some]
  rw [ofLine_number false h]
  exact scansBefore_word (fun c hc => isWordChar_numberChar (hall c hc)) htoken

theorem mark_arrOpen : LexemeMark [.code (.scalar '[')] [.arrOpen] := mark_lexeme rfl rfl

theorem mark_arrClose : LexemeMark [.code (.scalar ']')] [.arrClose] := mark_lexeme rfl rfl

theorem mark_objOpen : LexemeMark [.code (.scalar '\x7b')] [.objOpen] := mark_lexeme rfl rfl

theorem mark_objClose : LexemeMark [.code (.scalar '\x7d')] [.objClose] := mark_lexeme rfl rfl

theorem mark_string (t : Text) : LexemeMark (ofPiece false (.literal t)) [.text t] := by
  have htokens : lexemeTokens? (.quoted (t.flatMap escapeInLiteral)) = some [.text t] := by
    rw [lexemeTokens?, denoted?_quote, Option.map_some]
  exact mark_lexeme rfl htokens

theorem mark_lineFeed : LexemeMark (ofPiece false (.code "\n")) [] := mark_lexeme rfl rfl

theorem mark_comma : LexemeMark [.code (.scalar ',')] [.comma] := mark_lexeme rfl rfl

theorem mark_colon : LexemeMark [.code (.scalar ':')] [.colon] := mark_lexeme rfl rfl

theorem mark_blank : LexemeMark [.code (.scalar ' ')] [] := mark_lexeme rfl rfl

theorem mark_commaLine : LexemeMark (ofPiece false (.code ",\n")) [.comma] :=
  mark_comma.append mark_lineFeed.passes

theorem scans_spaces (n : Int) : Scans (ofPiece false (spaces n)) [] := by
  rw [ofPiece_spaces]
  induction n.toNat with
  | zero => exact passes_nil
  | succ n ih => exact mark_blank.passes.append ih

theorem mark_key (t : Text) :
    LexemeMark (ofPiece false (.literal t) ++ ofPiece false (.code ": ")) [.text t, .colon] :=
  (mark_string t).append (mark_colon.passes.append mark_blank.passes)

theorem scansBefore_more {l m : Line} {ks js : List Json.Token}
    (h : ScansBefore (ofLine false l) ks) (hrest : ScansBefore (ofLine false m) js) :
    ScansBefore (ofLine false (l ++ .code ",\n" :: m)) (ks ++ [.comma] ++ js) := by
  rw [ofLine_append, ofLine_cons, ← List.append_assoc]
  exact (h.append_mark mark_commaLine).append_before hrest

theorem scansBefore_member {l : Line} {ks : List Json.Token} (k : Text)
    (h : ScansBefore (ofLine false l) ks) :
    ScansBefore (ofLine false (.literal k :: .code ": " :: l)) ([.text k, .colon] ++ ks) := by
  rw [ofLine_cons, ofLine_cons, ← List.append_assoc]
  exact (mark_key k).passes.append_before h

/-- A container with its ends on lines of their own. -/
theorem scansBefore_container {first last : String} {o c : Char} {k j : Json.Token} {inner : Line}
    {ks : List Json.Token} (hinner : ScansBefore (ofLine false inner) ks) (n : Int)
    (hfirst : ofPiece false (.code first) = [.code (.scalar o), .code (.scalar '\n')])
    (hlast : ofPiece false (.code last) = [.code (.scalar c)])
    (ho : LexemeMark [.code (.scalar o)] [k]) (hc : LexemeMark [.code (.scalar c)] [j]) :
    ScansBefore (ofLine false (.code first :: (inner ++ [.code "\n", spaces n, .code last])))
      (k :: (ks ++ [j])) := by
  have hopen := ho.passes.append mark_lineFeed.passes
  have hclose := mark_lineFeed.append ((scans_spaces n).append (hc.passes.append passes_nil))
  have hall := hopen.append (hinner.append_mark hclose)
  simp only [ofLine_cons, ofLine_append, hfirst, hlast]
  exact hall.before

/-- The literal of a value scans to the tokens of the value. -/
theorem scansBefore_rules (indent : Int) :
    LiteralRules .lowerCase indent (fun _ v l => ScansBefore (ofLine false l) (Json.tokens v))
      (fun _ vs l => ScansBefore (ofLine false l) (Json.itemTokens vs))
      (fun _ ms l => ScansBefore (ofLine false l) (Json.memberTokens ms)) where
  null _ := scansBefore_word (w := ['n', 'u', 'l', 'l']) (List.all_eq_true.mp rfl) rfl
  yes _ := scansBefore_word (w := ['t', 'r', 'u', 'e']) (List.all_eq_true.mp rfl) rfl
  no _ := scansBefore_word (w := ['f', 'a', 'l', 's', 'e']) (List.all_eq_true.mp rfl) rfl
  int _ _ h := scansBefore_number h
  float _ _ h := scansBefore_number h
  str _ t := ((mark_string t).passes.append passes_nil).before
  emptyArr _ := (mark_arrOpen.append mark_arrClose.passes).passes.before
  emptyObj _ := (mark_objOpen.append mark_objClose.passes).passes.before
  arr _ _ _ _ h := by
    rw [Json.tokens]
    exact scansBefore_container h _ rfl rfl mark_arrOpen mark_arrClose
  obj _ _ _ _ h := by
    rw [Json.tokens]
    exact scansBefore_container h _ rfl rfl mark_objOpen mark_objClose
  item _ _ _ h := (scans_spaces _).append_before h
  moreItems _ _ _ _ _ _ hv hrest := by
    rw [Json.itemTokens_cons]
    exact (scans_spaces _).append_before (scansBefore_more hv hrest)
  member _ k _ _ h := (scans_spaces _).append_before (scansBefore_member k h)
  moreMembers _ k _ _ _ _ _ hv hrest := by
    rw [Json.memberTokens_cons, List.append_assoc, List.append_assoc,
      ← List.append_assoc (Json.tokens _)]
    exact (scans_spaces _).append_before (scansBefore_member k (scansBefore_more hv hrest))

/-- A literal has the value of the tree that it was written for. -/
theorem evaluate?_literalAt {v : Json} (hv : Json.Regular v) (indent level : Int) :
    evaluate? (ofLine false (literalAt .lowerCase indent level v)) = some (evaluate v) := by
  have hscan := ((scansBefore_rules indent).literalAt hv level).read rfl
  rw [evaluate?, hscan, Option.bind_some, Json.ofTokens?_tokens hv, Option.map_some]

end Scanning

end CurlSnippet.Script
