import CurlSnippet.Proofs.Runs
import CurlSnippet.Proofs.WordSpelling

/-!
The lexical grammar of a line. A line is a series of lexemes, bare words and quoted texts, with gaps
of white space between them. Only a quoted text may stand directly before the next lexeme, and only
the last lexeme may lack its closing quote. Every text is laid out so in exactly one way, and the
words of a line are what its lexemes stand for.
-/

namespace CurlSnippet.Words

/-- White space between lexemes, which may be empty. -/
@[ext]
structure Gap where
  blanks : List Char
  all : ∀ c ∈ blanks, isBlank c = true

/-- One place between double quotes: a character for itself, or a backslash with the character after
it. -/
inductive Place where
  | plain (c : Char) (hquote : c ≠ '"') (hslash : c ≠ '\\')
  | pair (c : Char)

namespace Place

def text : Place → List Char
  | plain c _ _ => [c]
  | pair c => ['\\', c]

/-- After a backslash three letters stand for control characters, all else for itself. -/
def value : Place → Char
  | plain c _ _ => c
  | pair 'n' => '\n'
  | pair 't' => '\t'
  | pair 'r' => '\r'
  | pair c => c

end Place

/-- A word as it stands in a line. -/
inductive Lexeme where
  | bare (first : Char) (more : List Char) (hquote : first ≠ '\'' ∧ first ≠ '"')
      (hblank : ∀ c ∈ first :: more, isBlank c = false)
  | single (inside : List Char) (hquote : '\'' ∉ inside)
  | double (inside : List Place)

namespace Lexeme

def text : Lexeme → List Char
  | bare c w _ _ => c :: w
  | single w _ => '\'' :: (w ++ ['\''])
  | double ps => '"' :: (ps.flatMap Place.text ++ ['"'])

def value : Lexeme → List Char
  | bare c w _ _ => c :: w
  | single w _ => w
  | double ps => ps.map Place.value

def isBare : Lexeme → Bool
  | bare .. => true
  | _ => false

theorem text_single_append (w : List Char) (hw : '\'' ∉ w) (rest : List Char) :
    (single w hw).text ++ rest = '\'' :: (w ++ '\'' :: rest) := by
  simp [text]

theorem text_double_append (ps : List Place) (rest : List Char) :
    (double ps).text ++ rest = '"' :: (ps.flatMap Place.text ++ '"' :: rest) := by
  simp [text]

end Lexeme

/-- A quoted text that the end of the line cuts off, perhaps after a backslash. -/
inductive Unclosed where
  | single (inside : List Char) (hquote : '\'' ∉ inside)
  | double (inside : List Place) (slash : Bool)

namespace Unclosed

def slashText (slash : Bool) : List Char := if slash then ['\\'] else []

def text : Unclosed → List Char
  | single w _ => '\'' :: w
  | double ps slash => '"' :: (ps.flatMap Place.text ++ slashText slash)

/-- A backslash at the very end stands for itself. -/
def value : Unclosed → List Char
  | single w _ => w
  | double ps slash => ps.map Place.value ++ slashText slash

end Unclosed

/-- The lexemes and gaps of a line from some place on. Directly after a bare word a gap has to come
before anything else. -/
inductive Layout : Bool → Type where
  | finish {bare : Bool} (gap : Gap) : Layout bare
  | unclosed {bare : Bool} (gap : Gap) (hgap : bare = true → gap.blanks ≠ []) (u : Unclosed) :
      Layout bare
  | lexeme {bare : Bool} (gap : Gap) (hgap : bare = true → gap.blanks ≠ []) (x : Lexeme)
      (rest : Layout x.isBare) : Layout bare

namespace Layout

variable {bare : Bool}

/-- What stands before the first lexeme. -/
def gap : Layout bare → Gap
  | finish gap => gap
  | unclosed gap _ _ => gap
  | lexeme gap _ _ _ => gap

/-- What stands behind the last lexeme, if that one is closed. -/
def lastGap? {bare : Bool} : Layout bare → Option Gap
  | finish gap => some gap
  | unclosed _ _ _ => none
  | lexeme _ _ _ rest => rest.lastGap?

/-- What stands behind the first gap. -/
def body {bare : Bool} : Layout bare → List Char
  | finish _ => []
  | unclosed _ _ u => u.text
  | lexeme _ _ x rest => x.text ++ (rest.gap.blanks ++ rest.body)

def text (l : Layout bare) : List Char := l.gap.blanks ++ l.body

def values {bare : Bool} : Layout bare → List (List Char)
  | finish _ => []
  | unclosed _ _ u => [u.value]
  | lexeme _ _ x rest => x.value :: rest.values

/-- Lexemes that are all closed, with gaps only between them. -/
def IsSeries (l : Layout bare) : Prop := l.gap.blanks = [] ∧ l.lastGap?.map Gap.blanks = some []

end Layout

section Scan

theorem scan_gap (g : Gap) (rest : List Char) :
    scan .blank (g.blanks ++ rest) = scan .blank rest := by
  obtain ⟨blanks, hall⟩ := g
  dsimp only
  induction blanks with
  | nil => rfl
  | cons c blanks ih =>
    obtain ⟨hc, hrest⟩ := List.forall_mem_cons.mp hall
    rw [List.cons_append, scan, if_pos hc, ih hrest]

theorem unescape_eq (c : Char) : unescape c = (Place.pair c).value := by
  unfold unescape Place.value
  split_ifs with hn ht hr
  · rw [hn]
    rfl
  · rw [ht]
    rfl
  · rw [hr]
    rfl
  · split <;> simp_all

theorem scan_place (word : List Char) (p : Place) (rest : List Char) :
    scan (.double word) (p.text ++ rest) = scan (.double (p.value :: word)) rest := by
  cases p with
  | plain c hquote hslash => simp [Place.text, Place.value, scan, hquote, hslash]
  | pair c => simp [Place.text, scan, unescape_eq]

theorem scan_places (word : List Char) (ps : List Place) (rest : List Char) :
    scan (.double word) (ps.flatMap Place.text ++ rest) =
      scan (.double ((ps.map Place.value).reverse ++ word)) rest := by
  induction ps generalizing word with
  | nil => rfl
  | cons p ps ih =>
    rw [List.flatMap_cons, List.append_assoc, scan_place, ih]
    simp

/-- A lexeme is one word. A bare one needs white space behind it. -/
theorem scan_lexeme (x : Lexeme) {rest : List Char}
    (h : x.isBare = true → ∀ c ∈ rest.head?, isBlank c = true) :
    scan .blank (x.text ++ rest) = x.value :: scan .blank rest := by
  cases x with
  | bare c w hquote hblank =>
    obtain ⟨hc, hw⟩ := List.forall_mem_cons.mp hblank
    have hany : w.any isBlank = false := List.any_eq_false.mpr fun d hd => by simp [hw d hd]
    have hopen : scan .blank (c :: (w ++ rest)) = scan (.bare [c]) (w ++ rest) := by
      simp [scan, hc, hquote]
    exact hopen.trans (scan_bare_append [c] w rest hany (h rfl))
  | single w hquote =>
    rw [Lexeme.text_single_append]
    exact scan_single_append [] w rest hquote
  | double ps =>
    have hopen : scan .blank ('"' :: (ps.flatMap Place.text ++ '"' :: rest)) =
        scan (.double []) (ps.flatMap Place.text ++ '"' :: rest) := rfl
    rw [Lexeme.text_double_append, hopen, scan_places]
    simp [scan, Lexeme.value]

theorem scan_single_end (word w : List Char) (hw : '\'' ∉ w) :
    scan (.single word) w = [word.reverse ++ w] := by
  induction w generalizing word with
  | nil => simp [scan]
  | cons c w ih =>
    rw [List.mem_cons, not_or] at hw
    simp [scan, Ne.symm hw.1, ih (c :: word) hw.2]

theorem scan_unclosed (u : Unclosed) : scan .blank u.text = [u.value] := by
  cases u with
  | single w hquote => exact scan_single_end [] w hquote
  | double ps slash =>
    have hopen : scan .blank (Unclosed.double ps slash).text =
        scan (.double []) (ps.flatMap Place.text ++ Unclosed.slashText slash) := rfl
    rw [hopen, scan_places]
    cases slash
    · simp [scan, Unclosed.slashText, Unclosed.value]
    · simp [scan, Unclosed.slashText, Unclosed.value]

/-- Behind a bare word the text goes on with white space, if at all. -/
theorem Layout.isBlank_head (l : Layout true) : ∀ c ∈ l.text.head?, isBlank c = true := by
  intro c hc
  have hgap : l.gap.blanks = [] → l.body = [] := by
    cases l with
    | finish gap => exact fun _ => rfl
    | unclosed gap hgap u => exact fun h => absurd h (hgap rfl)
    | lexeme gap hgap x rest => exact fun h => absurd h (hgap rfl)
  rw [Layout.text] at hc
  cases hblanks : l.gap.blanks with
  | nil =>
    rw [hblanks, hgap hblanks] at hc
    cases hc
  | cons d blanks =>
    rw [hblanks] at hc
    obtain rfl := Option.some.inj hc
    exact l.gap.all d (hblanks ▸ List.mem_cons_self)

/-- The words of a text are the values of its lexemes. -/
theorem scan_layout {bare : Bool} (l : Layout bare) : scan .blank l.text = l.values := by
  induction l with
  | finish gap => exact scan_gap gap []
  | unclosed gap hgap u => exact (scan_gap gap u.text).trans (scan_unclosed u)
  | lexeme gap hgap x rest ih =>
    have hrest : x.isBare = true → ∀ c ∈ rest.text.head?, isBlank c = true := by
      intro hbare
      revert rest
      rw [hbare]
      exact fun rest _ => rest.isBlank_head
    calc scan .blank (gap.blanks ++ (x.text ++ rest.text))
        = scan .blank (x.text ++ rest.text) := scan_gap gap _
      _ = x.value :: scan .blank rest.text := scan_lexeme x hrest
      _ = x.value :: rest.values := by rw [ih]

end Scan

section Exists

/-- Between double quotes a text falls into places up to a closing quote, or up to its end. -/
theorem exists_places (cs : List Char) :
    (∃ (ps : List Place) (rest : List Char), cs = ps.flatMap Place.text ++ '"' :: rest) ∨
      ∃ (ps : List Place) (slash : Bool),
        cs = ps.flatMap Place.text ++ Unclosed.slashText slash := by
  induction hn : cs.length using Nat.strongRecOn generalizing cs with
  | ind n ih =>
    subst hn
    have hplace : ∀ (p : Place) (rest : List Char), rest.length < cs.length →
        cs = p.text ++ rest →
        (∃ (ps : List Place) (more : List Char), cs = ps.flatMap Place.text ++ '"' :: more) ∨
          ∃ (ps : List Place) (slash : Bool),
            cs = ps.flatMap Place.text ++ Unclosed.slashText slash := by
      intro p rest hlen heq
      rcases ih rest.length hlen rest rfl with ⟨ps, more, hrest⟩ | ⟨ps, slash, hrest⟩
      · exact .inl ⟨p :: ps, more, by rw [heq, hrest, List.flatMap_cons, List.append_assoc]⟩
      · exact .inr ⟨p :: ps, slash, by rw [heq, hrest, List.flatMap_cons, List.append_assoc]⟩
    cases cs with
    | nil => exact .inr ⟨[], false, rfl⟩
    | cons c rest =>
      by_cases hquote : c = '"'
      · exact .inl ⟨[], rest, by rw [hquote]; rfl⟩
      · by_cases hslash : c = '\\'
        · subst c
          cases rest with
          | nil => exact .inr ⟨[], true, rfl⟩
          | cons d rest => exact hplace (.pair d) rest (by simp only [List.length_cons]; omega) rfl
        · exact hplace (.plain c hquote hslash) rest (by simp) rfl

/-- A text that does not begin with white space begins with a lexeme, or is one that is not
closed. -/
theorem exists_lexeme {c : Char} (hc : isBlank c = false) (cs : List Char) :
    (∃ (x : Lexeme) (rest : List Char), c :: cs = x.text ++ rest ∧ rest.length < (c :: cs).length ∧
      (x.isBare = true → ∀ d ∈ rest.head?, isBlank d = true)) ∨
      ∃ u : Unclosed, c :: cs = u.text := by
  by_cases hsingle : c = '\''
  · subst c
    obtain ⟨w, rest, rfl, hw, hrest⟩ := exists_run (fun d => d != '\'') cs
    have hquote : '\'' ∉ w := fun hmem => by simpa using hw _ hmem
    cases rest with
    | nil => exact .inr ⟨.single w hquote, by simp [Unclosed.text]⟩
    | cons d rest =>
      obtain rfl : d = '\'' := by simpa using hrest d rfl
      exact .inl ⟨.single w hquote, rest, by simp [Lexeme.text], by simp; omega, nofun⟩
  · by_cases hdouble : c = '"'
    · subst c
      rcases exists_places cs with ⟨ps, rest, rfl⟩ | ⟨ps, slash, rfl⟩
      · exact .inl ⟨.double ps, rest, by simp [Lexeme.text], by simp; omega, nofun⟩
      · exact .inr ⟨.double ps slash, rfl⟩
    · obtain ⟨w, rest, rfl, hw, hrest⟩ := exists_run (fun d => !isBlank d) cs
      have hblank : ∀ d ∈ c :: w, isBlank d = false :=
        List.forall_mem_cons.mpr ⟨hc, fun d hd => by simpa using hw d hd⟩
      have hlen : rest.length < (c :: (w ++ rest)).length := by
        rw [List.length_cons, List.length_append]
        omega
      exact .inl ⟨.bare c w ⟨hsingle, hdouble⟩ hblank, rest, rfl, hlen,
        fun _ d hd => by simpa using hrest d hd⟩

theorem exists_layout (bare : Bool) (cs : List Char)
    (h : bare = true → ∀ c ∈ cs.head?, isBlank c = true) : ∃ l : Layout bare, l.text = cs := by
  induction hn : cs.length using Nat.strongRecOn generalizing bare cs with
  | ind n ih =>
    subst hn
    obtain ⟨blanks, rest, rfl, hblanks, hrest⟩ := exists_run isBlank cs
    cases rest with
    | nil => exact ⟨.finish ⟨blanks, hblanks⟩, rfl⟩
    | cons c rest =>
      have hc : isBlank c = false := hrest c rfl
      have hgap : bare = true → blanks ≠ [] := by
        rintro hbare rfl
        exact absurd (h hbare c rfl) (by simp [hc])
      rcases exists_lexeme hc rest with ⟨x, more, heq, hlen, hx⟩ | ⟨u, heq⟩
      · have hmore : more.length < (blanks ++ c :: rest).length := by
          rw [List.length_append]
          omega
        obtain ⟨l, rfl⟩ := ih more.length hmore x.isBare more hx rfl
        exact ⟨.lexeme ⟨blanks, hblanks⟩ hgap x l, by rw [heq]; rfl⟩
      · exact ⟨.unclosed ⟨blanks, hblanks⟩ hgap u, by rw [heq]; rfl⟩

end Exists

section Unique

/-- Where places between double quotes end: at a closing quote, or with the text. -/
def EndsPlaces (rest : List Char) : Prop :=
  rest.head? = some '"' ∨ ∃ slash, rest = Unclosed.slashText slash

theorem not_endsPlaces (p : Place) (rest : List Char) : ¬ EndsPlaces (p.text ++ rest) := by
  rintro (hquote | ⟨slash, hslash⟩)
  · cases p with
    | plain c hc _ => exact hc (Option.some.inj hquote)
    | pair c => simp [Place.text] at hquote
  · cases p with
    | plain c _ hc =>
      cases slash
      · cases hslash
      · exact hc (List.cons.inj hslash).1
    | pair c => cases slash <;> simp [Place.text, Unclosed.slashText] at hslash

theorem place_append_inj {p q : Place} {rest more : List Char}
    (h : p.text ++ rest = q.text ++ more) : p = q ∧ rest = more := by
  cases p with
  | plain c hquote hslash =>
    cases q with
    | plain d _ _ =>
      obtain ⟨rfl, rfl⟩ := List.cons.inj h
      exact ⟨rfl, rfl⟩
    | pair d => exact absurd (List.cons.inj h).1 hslash
  | pair c =>
    cases q with
    | plain d _ hslash => exact absurd (List.cons.inj h).1.symm hslash
    | pair d =>
      obtain ⟨rfl, rfl⟩ := List.cons.inj (List.cons.inj h).2
      exact ⟨rfl, rfl⟩

theorem places_append_inj {ps qs : List Place} {rest more : List Char}
    (h : ps.flatMap Place.text ++ rest = qs.flatMap Place.text ++ more) (hrest : EndsPlaces rest)
    (hmore : EndsPlaces more) : ps = qs ∧ rest = more := by
  induction ps generalizing qs with
  | nil =>
    cases qs with
    | nil => exact ⟨rfl, h⟩
    | cons q qs =>
      have hq : rest = q.text ++ (qs.flatMap Place.text ++ more) := by
        rw [← List.append_assoc]
        exact h
      rw [hq] at hrest
      exact absurd hrest (not_endsPlaces q _)
  | cons p ps ih =>
    rw [List.flatMap_cons, List.append_assoc] at h
    cases qs with
    | nil =>
      have hp : p.text ++ (ps.flatMap Place.text ++ rest) = more := h
      rw [← hp] at hmore
      exact absurd hmore (not_endsPlaces p _)
    | cons q qs =>
      rw [List.flatMap_cons, List.append_assoc] at h
      obtain ⟨rfl, htail⟩ := place_append_inj h
      obtain ⟨rfl, rfl⟩ := ih htail
      exact ⟨rfl, rfl⟩

theorem single_append_inj {w v rest more : List Char} (h : w ++ '\'' :: rest = v ++ '\'' :: more)
    (hw : '\'' ∉ w) (hv : '\'' ∉ v) : w = v ∧ rest = more := by
  have hrun : ∀ u : List Char, '\'' ∉ u → ∀ c ∈ u, (c != '\'') = true := by
    intro u hu c hc
    rw [bne_iff_ne]
    rintro rfl
    exact hu hc
  have hstop : ∀ u : List Char, ∀ c ∈ ('\'' :: u).head?, (c != '\'') = false := by
    rintro u c hc
    obtain rfl := Option.some.inj hc
    rfl
  obtain ⟨hinside, htail⟩ := append_inj_of_run h (hrun w hw) (hstop rest) (hrun v hv) (hstop more)
  exact ⟨hinside, (List.cons.inj htail).2⟩

theorem bare_append_inj {w v rest more : List Char} (h : w ++ rest = v ++ more)
    (hw : ∀ c ∈ w, isBlank c = false) (hrest : ∀ c ∈ rest.head?, isBlank c = true)
    (hv : ∀ c ∈ v, isBlank c = false) (hmore : ∀ c ∈ more.head?, isBlank c = true) :
    w = v ∧ rest = more :=
  append_inj_of_run (p := fun c => !isBlank c) h (fun c hc => by simp [hw c hc])
    (fun c hc => by simp [hrest c hc]) (fun c hc => by simp [hv c hc])
    (fun c hc => by simp [hmore c hc])

/-- Where one lexeme begins, no other one begins. -/
theorem lexeme_append_inj {x y : Lexeme} {rest more : List Char}
    (h : x.text ++ rest = y.text ++ more)
    (hrest : x.isBare = true → ∀ c ∈ rest.head?, isBlank c = true)
    (hmore : y.isBare = true → ∀ c ∈ more.head?, isBlank c = true) : x = y ∧ rest = more := by
  cases x with
  | bare c w hquote hblank =>
    cases y with
    | bare d v _ hblank' =>
      obtain ⟨heq, rfl⟩ := bare_append_inj h hblank (hrest rfl) hblank' (hmore rfl)
      obtain ⟨rfl, rfl⟩ := List.cons.inj heq
      exact ⟨rfl, rfl⟩
    | single v _ => exact absurd (List.cons.inj h).1 hquote.1
    | double qs => exact absurd (List.cons.inj h).1 hquote.2
  | single w hw =>
    cases y with
    | bare d v hquote _ => exact absurd (List.cons.inj h).1.symm hquote.1
    | single v hv =>
      rw [Lexeme.text_single_append, Lexeme.text_single_append] at h
      obtain ⟨rfl, rfl⟩ := single_append_inj (List.cons.inj h).2 hw hv
      exact ⟨rfl, rfl⟩
    | double qs => exact absurd (List.cons.inj h).1 (by decide)
  | double ps =>
    cases y with
    | bare d v hquote _ => exact absurd (List.cons.inj h).1.symm hquote.2
    | single v _ => exact absurd (List.cons.inj h).1 (by decide)
    | double qs =>
      rw [Lexeme.text_double_append, Lexeme.text_double_append] at h
      obtain ⟨rfl, hclose⟩ := places_append_inj (List.cons.inj h).2 (.inl rfl) (.inl rfl)
      exact ⟨rfl, (List.cons.inj hclose).2⟩

/-- No text is both closed and not closed. -/
theorem lexeme_append_ne_unclosed (x : Lexeme) (rest : List Char) (u : Unclosed) :
    x.text ++ rest ≠ u.text := by
  intro h
  cases x with
  | bare c w hquote _ =>
    cases u with
    | single v _ => exact hquote.1 (List.cons.inj h).1
    | double qs slash => exact hquote.2 (List.cons.inj h).1
  | single w _ =>
    cases u with
    | single v hv =>
      have htail := (List.cons.inj h).2
      exact hv (by rw [← htail]; simp)
    | double qs slash => exact absurd (List.cons.inj h).1 (by decide)
  | double ps =>
    cases u with
    | single v _ => exact absurd (List.cons.inj h).1 (by decide)
    | double qs slash =>
      rw [Lexeme.text_double_append] at h
      obtain ⟨-, hclose⟩ :=
        places_append_inj (List.cons.inj h).2 (.inl rfl) (.inr ⟨slash, rfl⟩)
      cases slash <;> simp [Unclosed.slashText] at hclose

theorem slashText_inj {a b : Bool} (h : Unclosed.slashText a = Unclosed.slashText b) : a = b := by
  cases a <;> cases b <;> simp_all [Unclosed.slashText]

theorem unclosed_inj {u v : Unclosed} (h : u.text = v.text) : u = v := by
  have htail := congrArg List.tail h
  cases u with
  | single w _ =>
    cases v with
    | single v _ =>
      obtain rfl : w = v := htail
      rfl
    | double qs slash => exact absurd (List.cons.inj h).1 (by decide)
  | double ps slash =>
    cases v with
    | single v _ => exact absurd (List.cons.inj h).1 (by decide)
    | double qs slash' =>
      obtain ⟨rfl, hslash⟩ := places_append_inj htail (.inr ⟨slash, rfl⟩) (.inr ⟨slash', rfl⟩)
      rw [slashText_inj hslash]

theorem isBlank_head_lexeme (x : Lexeme) (rest : List Char) :
    ∃ c more, x.text ++ rest = c :: more ∧ isBlank c = false := by
  cases x with
  | bare c w _ hblank => exact ⟨c, _, rfl, hblank c List.mem_cons_self⟩
  | single w _ => exact ⟨'\'', _, rfl, rfl⟩
  | double ps => exact ⟨'"', _, rfl, rfl⟩

theorem lexeme_append_ne_nil (x : Lexeme) (rest : List Char) : x.text ++ rest ≠ [] := by
  obtain ⟨c, more, heq, -⟩ := isBlank_head_lexeme x rest
  simp [heq]

theorem isBlank_head_unclosed (u : Unclosed) :
    ∃ c more, u.text = c :: more ∧ isBlank c = false := by
  cases u with
  | single w _ => exact ⟨'\'', _, rfl, rfl⟩
  | double ps slash => exact ⟨'"', _, rfl, rfl⟩

theorem unclosed_ne_nil (u : Unclosed) : u.text ≠ [] := by
  obtain ⟨c, more, heq, -⟩ := isBlank_head_unclosed u
  simp [heq]

namespace Layout

variable {bare : Bool}

theorem isBlank_head_body (l : Layout bare) : ∀ c ∈ l.body.head?, isBlank c = false := by
  intro c hc
  cases l with
  | finish gap => cases hc
  | unclosed gap hgap u =>
    obtain ⟨d, more, heq, hd⟩ := isBlank_head_unclosed u
    rw [body, heq] at hc
    obtain rfl := Option.some.inj hc
    exact hd
  | lexeme gap hgap x rest =>
    obtain ⟨d, more, heq, hd⟩ := isBlank_head_lexeme x (rest.gap.blanks ++ rest.body)
    rw [body, heq] at hc
    obtain rfl := Option.some.inj hc
    exact hd

theorem gap_inj {l m : Layout bare} (h : l.text = m.text) : l.gap = m.gap ∧ l.body = m.body := by
  obtain ⟨hgap, hbody⟩ :=
    append_inj_of_run h l.gap.all l.isBlank_head_body m.gap.all m.isBlank_head_body
  exact ⟨Gap.ext hgap, hbody⟩

/-- Behind a lexeme the text goes on as the grammar asks. -/
theorem isBlank_head_rest {x : Lexeme} (rest : Layout x.isBare) (hbare : x.isBare = true) :
    ∀ c ∈ rest.text.head?, isBlank c = true := by
  revert rest
  rw [hbare]
  exact fun rest => rest.isBlank_head

/-- A text has one layout at most. -/
theorem text_inj {l m : Layout bare} (h : l.text = m.text) : l = m := by
  induction l with
  | finish gap =>
    obtain ⟨hgap, hbody⟩ := gap_inj h
    obtain rfl : gap = m.gap := hgap
    cases m with
    | finish gap => rfl
    | unclosed gap hgap u => exact absurd hbody.symm (unclosed_ne_nil u)
    | lexeme gap hgap x rest => exact absurd hbody.symm (lexeme_append_ne_nil x rest.text)
  | unclosed gap hgap u =>
    obtain ⟨hgap, hbody⟩ := gap_inj h
    obtain rfl : gap = m.gap := hgap
    cases m with
    | finish gap => exact absurd hbody (unclosed_ne_nil u)
    | unclosed gap hgap v =>
      obtain rfl : u = v := unclosed_inj hbody
      rfl
    | lexeme gap hgap x rest =>
      exact absurd hbody.symm (lexeme_append_ne_unclosed x rest.text u)
  | lexeme gap hgap x rest ih =>
    obtain ⟨hgap, hbody⟩ := gap_inj h
    obtain rfl : gap = m.gap := hgap
    cases m with
    | finish gap => exact absurd hbody (lexeme_append_ne_nil x rest.text)
    | unclosed gap hgap u => exact absurd hbody (lexeme_append_ne_unclosed x rest.text u)
    | lexeme gap hgap y more =>
      obtain ⟨rfl, htext⟩ := lexeme_append_inj hbody rest.isBlank_head_rest more.isBlank_head_rest
      obtain rfl := ih htext
      rfl

end Layout

end Unique

section Series

open Blank

theorem tight_lexeme (x : Lexeme) : Tight x.text := by
  cases x with
  | bare c w _ hblank =>
    exact ⟨fun d hd => hblank d (List.mem_of_mem_head? hd),
      fun d hd => hblank d (List.mem_of_mem_getLast? hd)⟩
  | single w _ => exact tight_enclosed '\'' rfl w
  | double ps => exact tight_enclosed '"' rfl _

/-- Without a gap at the end, a text does not end with white space. -/
theorem Layout.isBlank_getLast {bare : Bool} (l : Layout bare)
    (h : l.lastGap?.map Gap.blanks = some []) : ∀ c ∈ l.text.getLast?, isBlank c = false := by
  induction l with
  | finish gap =>
    have hgap : gap.blanks = [] := Option.some.inj h
    intro c hc
    rw [Layout.text, Layout.gap, hgap] at hc
    cases hc
  | unclosed gap hgap u => cases h
  | lexeme gap hgap x rest ih =>
    intro c hc
    have htext : (Layout.lexeme gap hgap x rest).text = (gap.blanks ++ x.text) ++ rest.text := by
      rw [List.append_assoc]
      rfl
    rw [htext, List.getLast?_append, List.getLast?_append] at hc
    cases hlast : rest.text.getLast? with
    | some d =>
      rw [hlast] at hc
      obtain rfl := Option.some.inj hc
      exact ih h d hlast
    | none =>
      cases hx : x.text.getLast? with
      | some d =>
        rw [hlast, hx] at hc
        obtain rfl := Option.some.inj hc
        exact (tight_lexeme x).2 d hx
      | none =>
        obtain ⟨d, more, heq, -⟩ := isBlank_head_lexeme x []
        rw [List.append_nil, List.getLast?_eq_none_iff.mp hx] at heq
        cases heq

theorem tight_of_isSeries {bare : Bool} {l : Layout bare} (h : l.IsSeries) : Tight l.text := by
  refine ⟨fun c hc => l.isBlank_head_body c ?_, l.isBlank_getLast h.2⟩
  rwa [Layout.text, h.1] at hc

/-- A series of lexemes that no joined line disturbs is split into the values of the lexemes. Every
line, once it is trimmed and its continued lines are joined, is laid out in lexemes and gaps in
exactly one way, and is split into the values of these lexemes. -/
theorem split_layout :
    (∀ l : Layout false, l.IsSeries → ¬ ['\\', '\n'] <:+: l.text →
      ¬ ['\\', '\r', '\n'] <:+: l.text →
      split (String.ofList l.text) = l.values.map String.ofList) ∧
    ∀ line : String, ∃ l : Layout false,
      (∀ m : Layout false, m.text = joinLines (Blank.trim line.toList) ↔ m = l) ∧
      split line = l.values.map String.ofList := by
  constructor
  · intro l hseries hfeed hreturn
    rw [split, splitChars, String.toList_ofList, trim_eq_self (tight_of_isSeries hseries),
      joinLines_of_not_infix hfeed hreturn, scan_layout]
  · intro line
    obtain ⟨l, hl⟩ := exists_layout false (joinLines (Blank.trim line.toList)) (by simp)
    refine ⟨l, fun m => ⟨fun hm => Layout.text_inj (hm.trans hl.symm), fun hm => hm ▸ hl⟩, ?_⟩
    rw [split, splitChars, ← hl, scan_layout]

/-- A quote inside a bare word, pairs between double quotes, a quote directly behind a closing quote
and a backslash between single quotes. -/
theorem split_layout_boundaries :
    ∃ l : Layout false, String.ofList l.text = "a' \"b\\\"\\n\"'\\ '" ∧ l.IsSeries ∧
      ¬ ['\\', '\n'] <:+: l.text ∧ ¬ ['\\', '\r', '\n'] <:+: l.text ∧
      split (String.ofList l.text) = l.values.map String.ofList ∧
      l.values = ["a'".toList, "b\"\n".toList, "\\ ".toList] := by
  have hword : ∀ c ∈ ['a', '\''], isBlank c = false :=
    List.forall_mem_cons.mpr ⟨rfl, List.forall_mem_singleton.mpr rfl⟩
  let nothing : Gap := ⟨[], by simp⟩
  let space : Gap := ⟨[' '], List.forall_mem_singleton.mpr rfl⟩
  let l : Layout false :=
    .lexeme nothing nofun (.bare 'a' ['\''] (by decide) hword) <|
    .lexeme space (fun _ => List.cons_ne_nil ' ' [])
      (.double [.plain 'b' (by decide) (by decide), .pair '"', .pair 'n']) <|
    .lexeme nothing nofun (.single ['\\', ' '] (by decide)) <|
    .finish nothing
  have htext : l.text =
      ['a', '\'', ' ', '"', 'b', '\\', '"', '\\', 'n', '"', '\'', '\\', ' ', '\''] := rfl
  have hseries : l.IsSeries := ⟨rfl, rfl⟩
  have hfeed : ¬ ['\\', '\n'] <:+: l.text := by
    rw [htext]
    decide
  have hreturn : ¬ ['\\', '\r', '\n'] <:+: l.text := by
    rw [htext]
    decide
  exact ⟨l, rfl, hseries, hfeed, hreturn, split_layout.1 l hseries hfeed hreturn, rfl⟩

end Series

end CurlSnippet.Words
