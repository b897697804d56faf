import CurlSnippet.Proofs.SurrogatePairs

/-!
Values of a script and the JSON text that `JSON.stringify` gives of them. Numbers are binary64 or
infinite, strings are made of 16-bit units, and objects keep their properties in the order in which
they are enumerated. What the text is read as is said value by value, so that every fact about the
text is one about that value.
-/

namespace CurlSnippet.Script

abbrev Units := List (Fin 0x10000)

inductive Number where
  | finite (x : Binary64)
  | infinite (negative : Bool)
  deriving DecidableEq, Repr

inductive Value where
  | null
  | bool (b : Bool)
  | number (x : Number)
  | str (s : Units)
  | arr (items : List Value)
  | obj (properties : List (Units × Value))
  deriving Repr

/-- Whether a number other than zero is printed as digits alone. -/
def isWhole (x : Binary64) : Bool :=
  0 ≤ x.shortest.exponent &&
    x.shortest.exponent + (Nat.toDigits 10 x.shortest.coefficient).length ≤ 21

/-- The text of a magnitude; one past 10 ^ 21 or below 10 ^ -6 has an exponent. -/
def magnitude (x : Binary64) : List Char :=
  let digits := Nat.toDigits 10 x.shortest.coefficient
  if isWhole x then digits ++ Binary64.zeros x.shortest.exponent.toNat
  else Binary64.spellDigits ⟨-6, 20, 1⟩ digits (x.shortest.exponent + digits.length - 1)

namespace Number

/-- The text of a number. There is none for an infinite one, and the sign of zero is dropped. -/
def print : Number → List Char
  | infinite _ => Json.null.spellAtom
  | finite x =>
    if x.isZero then ['0'] else if x.negative then '-' :: magnitude x else magnitude x

/-- What the text of a number is read as. -/
def read : Number → Json
  | infinite _ => .null
  | finite x =>
    if x.isZero then .int 0
    else if isWhole x then
      let n : Int := x.shortest.coefficient * 10 ^ x.shortest.exponent.toNat
      .int (if x.negative then -n else n)
    else .float x

end Number

/-- A code point of a string; a surrogate without its pair is written by its number. -/
def escapeUnpaired : CodePoint → Text
  | .scalar c => Json.escape (.scalar c)
  | .surrogate o => Text.ofChars ('\\' :: 'u' :: Json.hex4 (0xD800 + o.val))

def quoted (s : Units) : Text :=
  .scalar '"' :: ((Text.ofUnits s).flatMap escapeUnpaired ++ [.scalar '"'])

namespace Value

mutual

/-- The JSON text of a value. -/
def stringify : Value → Text
  | null => Text.ofChars Json.null.spellAtom
  | bool b => Text.ofChars (Json.bool b).spellAtom
  | number x => Text.ofChars x.print
  | str s => quoted s
  | arr items => .scalar '[' :: (stringifyItems items ++ [.scalar ']'])
  | obj properties => .scalar '\x7b' :: (stringifyProperties properties ++ [.scalar '\x7d'])

def stringifyItems : List Value → Text
  | [] => []
  | [v] => stringify v
  | v :: rest => stringify v ++ .scalar ',' :: stringifyItems rest

def stringifyProperties : List (Units × Value) → Text
  | [] => []
  | [(k, v)] => quoted k ++ .scalar ':' :: stringify v
  | (k, v) :: rest =>
    quoted k ++ .scalar ':' :: (stringify v ++ .scalar ',' :: stringifyProperties rest)

end

mutual

/-- What the JSON text of a value is read as. -/
def read : Value → Json
  | null => .null
  | bool b => .bool b
  | number x => x.read
  | str s => .str (Text.ofUnits s)
  | arr items => .arr (readItems items)
  | obj properties => .obj (readProperties properties)

def readItems : List Value → List Json
  | [] => []
  | v :: rest => read v :: readItems rest

def readProperties : List (Units × Value) → List (Text × Json)
  | [] => []
  | (k, v) :: rest => (Text.ofUnits k, read v) :: readProperties rest

end

end Value

section Numbers

open Json

theorem unsigned?_magnitude {x : Binary64} (hx : x.isZero = false) :
    unsigned? x.negative (magnitude x) = some (Number.read (.finite x)) := by
  have hc := Binary64.coefficient_shortest_ne_zero hx
  have hdigits := digits_toDigits x.shortest.coefficient
  have hhead := head?_toDigits_ne_zero hc
  have hvalue : ofDigits (Nat.toDigits 10 x.shortest.coefficient) = x.shortest.coefficient :=
    Nat.ofDigitChars_ten_toDigits
  rw [magnitude, Number.read, hx]
  by_cases hwhole : isWhole x = true
  · have hfew :
        x.shortest.exponent.toNat + (Nat.toDigits 10 x.shortest.coefficient).length ≤ 21 := by
      rw [isWhole, Bool.and_eq_true, decide_eq_true_eq, decide_eq_true_eq] at hwhole
      omega
    have hzeros : ∀ c ∈ Binary64.zeros x.shortest.exponent.toNat, c.isDigit = true :=
      fun _ => isDigit_of_mem_zeros
    have hread := unsigned?_whole x.negative (.append hdigits hhead hzeros) (by
      rw [List.length_append, Binary64.zeros, List.length_replicate, maxIntDigits]
      omega)
    rw [ofDigits_append_zeros, hvalue] at hread
    simp only [hwhole, if_true, Bool.false_eq_true, if_false, hread]
    push_cast
    rfl
  · have hread := unsigned?_spellDigits x.negative ⟨-6, 20, 1⟩ hdigits hhead
      (x.shortest.exponent + (Nat.toDigits 10 x.shortest.coefficient).length - 1)
    have hexponent : x.shortest.exponent + (Nat.toDigits 10 x.shortest.coefficient).length - 1 + 1 -
        (Nat.toDigits 10 x.shortest.coefficient).length = x.shortest.exponent := by omega
    rw [hvalue, hexponent, Binary64.ofDecimal_shortest hx] at hread
    simp only [hwhole, Bool.false_eq_true, if_false, hread]
    rfl

/-- A finite number is read from its text, as a whole one or as itself. -/
theorem number?_print (x : Binary64) :
    number? (Number.print (.finite x)) = some (Number.read (.finite x)) := by
  by_cases hx : x.isZero = true
  · rw [Number.print, Number.read, if_pos hx, if_pos hx]
    rfl
  · rw [Number.print, if_neg hx]
    exact number?_signed (unsigned?_magnitude (Bool.eq_false_iff.mpr hx))

theorem atomic_read (x : Number) : Atomic x.read := by
  cases x with
  | infinite _ => exact ⟨.null, rfl⟩
  | finite x => exact atomic_number? (number?_print x)

theorem scansBefore_print (x : Number) : ScansBefore (Text.ofChars x.print) (tokens x.read) := by
  rw [(atomic_read x).2]
  cases x with
  | infinite _ => exact scansBefore_atom .null rfl
  | finite x => exact scansBefore_number (number?_print x)

end Numbers

section Strings

open Json

theorem isLow_head_of_beginsLow {l : List Spelled} (h : beginsLow l = true) :
    ∃ p ∈ (pairUnits l).head?, p.isLow = true := by
  match l, h with
  | .unit u :: l, h =>
    rw [beginsLow, isLowUnit_iff] at h
    have hhigh : ¬ isHighUnit u = true := by
      rw [isHighUnit_iff]
      omega
    rw [pairUnits_of_not_high hhigh]
    exact ⟨_, rfl, (CodePoint.isLow_ofNat u).trans (isLowUnit_iff.mpr h)⟩

/-- A string is read back up to its closing quote, as no two of its surrogates are a pair. -/
theorem readString_unpaired {t : Text} (ht : t.Joined) (rest : Text) :
    readString (t.flatMap escapeUnpaired ++ .scalar '"' :: rest) = some (t, rest) := by
  have hread : ∃ l, pairUnits l = t ∧
      readSpelled .plain (t.flatMap escapeUnpaired ++ .scalar '"' :: rest) = some (l, rest) := by
    induction t with
    | nil => exact ⟨[], rfl, rfl⟩
    | cons p t ih =>
      obtain ⟨l, rfl, hrest⟩ := ih ht.tail
      rw [List.flatMap_cons, List.append_assoc]
      cases p with
      | scalar c =>
        obtain ⟨s, hs, hspell⟩ := readSpelled_written (written_escape (.scalar c))
        refine ⟨s :: l, hs l, ?_⟩
        rw [escapeUnpaired, hspell, hrest]
        rfl
      | surrogate o =>
        have hsize : 0xD800 + o.val < 0x10000 := by omega
        have hunit : (Fin.ofNat 0x10000 (0xD800 + o.val)).val = 0xD800 + o.val :=
          Nat.mod_eq_of_lt hsize
        have hapart : (isHighUnit (0xD800 + o.val) && beginsLow l) = false := by
          rw [Bool.eq_false_iff, ne_eq, Bool.and_eq_true]
          rintro ⟨hhigh, hlow⟩
          obtain ⟨q, hq, hqlow⟩ := isLow_head_of_beginsLow hlow
          rw [← CodePoint.toNat, CodePoint.isHighUnit_toNat] at hhigh
          exact (List.isChain_cons.mp ht).1 q hq ⟨hhigh, hqlow⟩
        rw [← hunit] at hapart
        refine ⟨.unit (Fin.ofNat _ (0xD800 + o.val)) :: l, ?_, ?_⟩
        · rw [pairUnits_unpaired hapart, hunit]
          exact congrArg (· :: _) (CodePoint.ofNat_toNat (.surrogate o))
        · have hspell := readSpelled_hex4 hsize
            ((pairUnits l).flatMap escapeUnpaired ++ .scalar '"' :: rest)
          rw [hrest] at hspell
          exact hspell
  obtain ⟨l, hl, hspelled⟩ := hread
  rw [readString, hspelled, Option.map_some, hl]

theorem mark_quoted (s : Units) : TokenMark (quoted s) [.text (Text.ofUnits s)] :=
  Json.mark_quoted (readString_unpaired (joined_ofUnits s))

end Strings

namespace Value

open Json

theorem stringifyItems_cons (v w : Value) (rest : List Value) :
    stringifyItems (v :: w :: rest) =
      stringify v ++ [.scalar ','] ++ stringifyItems (w :: rest) := by
  rw [stringifyItems]
  · simp
  · simp

theorem stringifyProperties_cons (p q : Units × Value) (rest : List (Units × Value)) :
    stringifyProperties (p :: q :: rest) =
      quoted p.1 ++ [.scalar ':'] ++ stringify p.2 ++ [.scalar ','] ++
        stringifyProperties (q :: rest) := by
  obtain ⟨k, v⟩ := p
  rw [stringifyProperties]
  · simp
  · simp

theorem mark_key (k : Units) :
    TokenMark (quoted k ++ [.scalar ':']) [.text (Text.ofUnits k), .colon] :=
  (mark_quoted k).append mark_colon.passes

mutual

/-- The JSON text of a value scans to the tokens of what it is read as. -/
theorem scansBefore_stringify : ∀ v : Value, ScansBefore v.stringify (tokens v.read)
  | null => scansBefore_atom .null rfl
  | bool b => scansBefore_atom (.bool b) rfl
  | number x => scansBefore_print x
  | str s => (mark_quoted s).passes.before
  | arr [] => (mark_arrOpen.append mark_arrClose.passes).passes.before
  | arr (v :: rest) => by
    rw [stringify, read, tokens]
    exact scansBefore_container mark_arrOpen (scansBefore_stringifyItems (v :: rest))
      mark_arrClose
  | obj [] => (mark_objOpen.append mark_objClose.passes).passes.before
  | obj (p :: rest) => by
    rw [stringify, read, tokens]
    exact scansBefore_container mark_objOpen (scansBefore_stringifyProperties (p :: rest))
      mark_objClose

theorem scansBefore_stringifyItems : ∀ vs : List Value,
    ScansBefore (stringifyItems vs) (itemTokens (readItems vs))
  | [] => passes_nil.before
  | [v] => scansBefore_stringify v
  | v :: w :: rest => by
    have hv := (scansBefore_stringify v).append_mark mark_comma
    rw [stringifyItems_cons, readItems, readItems, itemTokens_cons]
    exact hv.append_before (scansBefore_stringifyItems (w :: rest))

theorem scansBefore_stringifyProperties : ∀ ps : List (Units × Value),
    ScansBefore (stringifyProperties ps) (memberTokens (readProperties ps))
  | [] => passes_nil.before
  | [(k, v)] => by
    have hone := (mark_key k).passes.append_before (scansBefore_stringify v)
    rwa [List.append_assoc] at hone
  | (k, v) :: (j, w) :: rest => by
    have hv := ((mark_key k).passes.append_before (scansBefore_stringify v)).append_mark mark_comma
    rw [stringifyProperties_cons, readProperties, readProperties, memberTokens_cons]
    exact hv.append_before (scansBefore_stringifyProperties ((j, w) :: rest))

end

/-- What is read of a value whose text is read. -/
theorem decode?_stringify {v : Value} (h : Regular v.read) : decode? v.stringify = some v.read :=
  decode?_of_scansBefore h (scansBefore_stringify v)

end Value

end CurlSnippet.Script
