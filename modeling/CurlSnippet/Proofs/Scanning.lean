import CurlSnippet.Proofs.NativeLiteral

/-!
Scanners of source text, put together from small ones. A scanner takes a part of the source when it
finds the same there whatever follows; one that may find nothing, or one thing more, takes its part
only where what follows does not begin with its mark.
-/

namespace CurlSnippet.Source

/-- What is found at the start of source text, and the rest of the text. -/
abbrev Scanner (α : Type) := StateT (List Lexeme) Option α

namespace Scanner

variable {α β : Type}

/-- The given program text. -/
def mark (b : Bool) (s : String) : Scanner Unit := fun ls =>
  ((ofPiece b (.code s)).isPrefixOf? ls).map fun rest => ((), rest)

/-- A literal, by the string that it denotes. -/
def literal : Scanner String
  | [] => none
  | l :: ls => (l.denoted?.bind Text.toString?).map fun s => (s, ls)

/-- The longest run of characters of a kind. -/
def run (p : Char → Bool) : Scanner (List Char)
  | .code (.scalar c) :: ls => if p c then (run p ls).map fun r => (c :: r.1, r.2)
    else some ([], .code (.scalar c) :: ls)
  | ls => some ([], ls)

/-- An expression up to the character that ends it, and that character. -/
def passOver (stop : Char) : Scanner Unit := fun ls =>
  some ((), ls.drop ((expression stop 0 ls).length + 1))

/-- What follows a mark, if the text begins with the mark. -/
def option (b : Bool) (s : String) (x : Scanner α) : Scanner (Option α) := fun ls =>
  match (ofPiece b (.code s)).isPrefixOf? ls with
  | some rest => (x rest).map fun r => (some r.1, r.2)
  | none => some (none, ls)

def atMost (b : Bool) (s : String) (x : Scanner α) : Nat → Scanner (List α)
  | 0 => pure []
  | n + 1 => do match ← option b s x with
    | some a => return a :: (← atMost b s x n)
    | none => return []

/-- What follows a mark, as often as the mark stands there. -/
def many (b : Bool) (s : String) (x : Scanner α) : Scanner (List α) := fun ls =>
  atMost b s x ls.length ls

end Scanner

/-- The scanner finds this in the lexemes, whatever follows them. -/
def Takes {α : Type} (x : Scanner α) (ls : List Lexeme) (a : α) : Prop :=
  ∀ rest, x (ls ++ rest) = some (a, rest)

/-- The scanner finds this in the lexemes, where what follows them is of the kind. -/
def TakesBefore {α : Type} (q : List Lexeme → Prop) (x : Scanner α) (ls : List Lexeme) (a : α) :
    Prop :=
  ∀ rest, q rest → x (ls ++ rest) = some (a, rest)

/-- The lexemes do not begin with the mark. -/
def Lacks (b : Bool) (s : String) (ls : List Lexeme) : Prop :=
  (ofPiece b (.code s)).isPrefixOf? ls = none

/-- The lexemes do not begin with the mark, whatever follows them. -/
def Apart (b : Bool) (s : String) (ls : List Lexeme) : Prop := ∀ rest, Lacks b s (ls ++ rest)

/-- The lexemes begin with a character that is not of the kind. -/
def Ends (p : Char → Bool) : List Lexeme → Prop
  | .code (.scalar c) :: _ => p c = false
  | _ => False

section Taking

open Scanner

variable {α β : Type} {b : Bool} {s : String} {x : Scanner α} {ls ms : List Lexeme} {a : α}

theorem Takes.of_eq (h : Takes x ls a) (heq : ms = ls) : Takes x ms a := heq ▸ h

theorem takes_pure (a : α) : Takes (pure a) [] a := fun _ => rfl

theorem Takes.before {q : List Lexeme → Prop} (h : Takes x ls a) : TakesBefore q x ls a :=
  fun rest _ => h rest

theorem TakesBefore.bind {q : List Lexeme → Prop} {f : α → Scanner β} {c : β}
    (hx : TakesBefore q x ls a) (hq : ∀ rest, q (ms ++ rest)) (hf : Takes (f a) ms c) :
    Takes (x >>= f) (ls ++ ms) c := by
  intro rest
  have hfirst := hx (ms ++ rest) (hq rest)
  have hlater := hf rest
  rw [List.append_assoc]
  show (x (ls ++ (ms ++ rest))).bind (fun r => f r.1 r.2) = some (c, rest)
  rw [hfirst, Option.bind_some, hlater]

theorem Takes.bind {f : α → Scanner β} {c : β} (hx : Takes x ls a) (hf : Takes (f a) ms c) :
    Takes (x >>= f) (ls ++ ms) c :=
  (hx.before (q := fun _ => True)).bind (fun _ => trivial) hf

theorem TakesBefore.map {q : List Lexeme → Prop} (hx : TakesBefore q x ls a) (f : α → β) :
    TakesBefore q (x >>= fun a => (pure (f a) : Scanner β)) ls (f a) := by
  intro rest hrest
  show (x (ls ++ rest)).bind (fun r => some (f r.1, r.2)) = some (f a, rest)
  rw [hx rest hrest, Option.bind_some]

/-- A scanner at the end of a sequence, with what the sequence gives. -/
theorem Takes.bind_pure (hx : Takes x ls a) (c : β) :
    Takes (x >>= fun _ => (pure c : Scanner β)) ls c := by
  have hall := hx.bind (f := fun _ => (pure c : Scanner β)) (takes_pure c)
  rwa [List.append_nil] at hall

theorem isPrefixOf?_append (ls rest : List Lexeme) : ls.isPrefixOf? (ls ++ rest) = some rest := by
  induction ls with
  | nil => rfl
  | cons l ls ih => rw [List.cons_append, List.isPrefixOf?, beq_self_eq_true, if_pos rfl, ih]

theorem takes_guard {p : Prop} [Decidable p] (h : p) : Takes (guard p) [] () := by
  intro rest
  rw [guard, if_pos h]
  rfl

theorem takes_mark (b : Bool) (s : String) : Takes (mark b s) (ofPiece b (.code s)) () := by
  intro rest
  rw [mark, isPrefixOf?_append]
  rfl

theorem takes_literal (b : Bool) (s : String) : Takes literal (ofPiece b (.string s)) s := by
  intro rest
  have hdenoted : (Lexeme.quoted ((Text.ofString s).flatMap escapeInLiteral)).denoted? =
      some (Text.ofString s) := denoted?_quote _
  show ((Lexeme.denoted? _).bind Text.toString?).map _ = _
  rw [hdenoted, Option.bind_some, Text.toString?_ofString]
  rfl

theorem takes_passOver {stop : Char} {e : List Lexeme} (h : Level stop 0 e) :
    Takes (passOver stop) (e ++ [.code (.scalar stop)]) () := by
  intro rest
  rw [passOver, List.append_assoc, List.singleton_append, expression_of_level h]
  simp

theorem takes_run {p : Char → Bool} {cs : List Char} (hcs : ∀ c ∈ cs, p c = true) :
    TakesBefore (Ends p) (run p) (cs.map fun c => .code (.scalar c)) cs := by
  intro rest hrest
  induction cs with
  | nil =>
    match rest, hrest with
    | .code (.scalar d) :: rest, hd =>
      rw [List.map_nil, List.nil_append, run, if_neg (Bool.eq_false_iff.mp hd)]
  | cons c cs ih =>
    obtain ⟨hc, hmore⟩ := List.forall_mem_cons.mp hcs
    rw [List.map_cons, List.cons_append, run, if_pos hc, ih hmore]
    rfl

theorem takes_option_none : TakesBefore (Lacks b s) (option b s x) [] none := by
  intro rest hrest
  rw [List.nil_append, option, hrest]

theorem takes_option_some (h : Takes x ms a) :
    Takes (option b s x) (ofPiece b (.code s) ++ ms) (some a) := by
  intro rest
  rw [List.append_assoc, option, isPrefixOf?_append]
  show (x (ms ++ rest)).map _ = _
  rw [h rest]
  rfl

theorem takes_option {c : Option β} {lines : β → Snippet} {f : β → α}
    (h : ∀ y ∈ c, ∃ ms, ofLines b (lines y) = ofPiece b (.code s) ++ ms ∧ Takes x ms (f y)) :
    TakesBefore (Lacks b s) (option b s x) (ofLines b (Snippet.optional c lines)) (c.map f) := by
  cases c with
  | none => exact takes_option_none
  | some y =>
    obtain ⟨ms, hms, hx⟩ := h y rfl
    rw [Snippet.optional, hms]
    exact (takes_option_some hx).before

theorem takes_atMost {ys : List β} {g : β → List Lexeme} {f : β → α}
    (h : ∀ y ∈ ys, ∃ ms, g y = ofPiece b (.code s) ++ ms ∧ Takes x ms (f y)) {n : Nat}
    (hn : ys.length ≤ n) :
    TakesBefore (Lacks b s) (atMost b s x n) (ys.flatMap g) (ys.map f) := by
  intro rest hrest
  induction ys generalizing n with
  | nil =>
    cases n with
    | zero => rfl
    | succ n =>
      show (option b s x ([] ++ rest)).bind _ = _
      rw [takes_option_none rest hrest]
      rfl
  | cons y ys ih =>
    obtain ⟨hy, hmore⟩ := List.forall_mem_cons.mp h
    obtain ⟨ms, hms, hx⟩ := hy
    cases n with
    | zero => cases hn
    | succ n =>
      have hys := ih hmore (Nat.le_of_succ_le_succ hn)
      have hfirst := takes_option_some (b := b) (s := s) hx (ys.flatMap g ++ rest)
      rw [List.flatMap_cons, hms, List.append_assoc]
      show (option b s x (ofPiece b (.code s) ++ ms ++ (ys.flatMap g ++ rest))).bind _ = _
      rw [hfirst, Option.bind_some]
      show (atMost b s x n (ys.flatMap g ++ rest)).bind _ = _
      rw [hys]
      rfl

theorem ne_nil_of_lacks {ls : List Lexeme} (h : Lacks b s ls) : ofPiece b (.code s) ≠ [] := by
  intro hnil
  rw [Lacks, hnil] at h
  cases h

theorem takes_many {ys : List β} {g : β → List Lexeme} {f : β → α}
    (h : ∀ y ∈ ys, ∃ ms, g y = ofPiece b (.code s) ++ ms ∧ Takes x ms (f y)) :
    TakesBefore (Lacks b s) (many b s x) (ys.flatMap g) (ys.map f) := by
  intro rest hrest
  have hpos : ∀ n ∈ ys.map fun y => (g y).length, 1 ≤ n := by
    intro n hn
    obtain ⟨y, hy, rfl⟩ := List.mem_map.mp hn
    obtain ⟨ms, hms, -⟩ := h y hy
    have hmark := List.length_pos_iff.mpr (ne_nil_of_lacks hrest)
    rw [hms, List.length_append]
    omega
  have hlen : ys.length ≤ (ys.flatMap g ++ rest).length := by
    have hsum := List.length_le_sum_of_one_le _ hpos
    rw [List.length_map] at hsum
    rw [List.length_append, List.length_flatMap]
    omega
  exact takes_atMost h hlen rest hrest

end Taking

section Apart

variable {b : Bool} {s : String} {ls ms : List Lexeme}

/-- Nothing, or something that does not begin with the mark. -/
def Off (b : Bool) (s : String) (ls : List Lexeme) : Prop := ls = [] ∨ Apart b s ls

theorem lacks_of_ne {c d : Char} {cs : List Lexeme}
    (hmark : ofPiece b (.code s) = .code (.scalar c) :: cs) (hne : c ≠ d) :
    Lacks b s (.code (.scalar d) :: ls) := by
  have hhead : (Lexeme.code (.scalar c) == .code (.scalar d)) = false := by simpa using hne
  rw [Lacks, hmark, List.isPrefixOf?, hhead]
  rfl

theorem Apart.append (h : Apart b s ls) (ms : List Lexeme) : Apart b s (ls ++ ms) := by
  intro rest
  rw [List.append_assoc]
  exact h (ms ++ rest)

theorem Off.append (hl : Off b s ls) (hm : Apart b s ms) : Apart b s (ls ++ ms) := by
  rcases hl with rfl | hl
  · exact hm
  · exact hl.append ms

theorem off_optional {α : Type} {a : Option α} {lines : α → Snippet}
    (h : ∀ x ∈ a, Apart b s (ofLines b (lines x))) :
    Off b s (ofLines b (Snippet.optional a lines)) := by
  cases a with
  | none => exact .inl rfl
  | some x => exact .inr (h x rfl)

end Apart

end CurlSnippet.Source
