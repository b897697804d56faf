import CurlSnippet.Order
import Mathlib.Data.List.Basic
import Mathlib.Tactic.SplitIfs

/-!
Words of a command line that say options as they stand. Which options a word may mean depends on
their names alone, so a word that is plain behind an action is no fault before it. Options under
their whole names, each with its value in the next word, are read as what they say.
-/

namespace CurlSnippet

theorem filterMap_ite {α β : Type} (p : α → Prop) [DecidablePred p] (f : α → β) (as : List α) :
    (as.filterMap fun a => if p a then some (f a) else none) = (as.filter p).map f := by
  induction as with
  | nil => rfl
  | cons a as ih =>
    by_cases ha : p a
    · simp [ha, ih]
    · simp [ha, ih]

namespace Arguments

/-- Whether a word may mean the option of a name though it is not that name. -/
def mayMean (w : List Char) (name : String) : Bool :=
  if isLetterName w then name.toList = w.take 2 else (assignment w).1.isPrefixOf name.toList

namespace Grammar

variable {φ ν : Type} {g : Grammar φ ν}

/-- The candidates are the options with the names in question, and none of them is a plain word. -/
theorem exists_candidates (w : List Char) : ∃ form : String × Opt φ ν → Form φ ν,
    (∀ n, form n ≠ .plain) ∧
      g.candidates w = (g.names.filter fun n => mayMean w n.1).map fun n => (n.1, form n) := by
  rw [candidates]
  by_cases hw : isLetterName w
  · simp only [mayMean, if_pos hw, filterMap_ite]
    exact ⟨fun n => .option n.2 true (some ⟨false, w.drop 2⟩), fun _ => nofun, rfl⟩
  · simp only [mayMean, if_neg hw, filterMap_ite, Bool.decide_eq_true]
    exact ⟨fun n => .option n.2 false (assignment w).2, fun _ => nofun, rfl⟩

theorem candidates_names (w : List Char) :
    (g.candidates w).map Prod.fst = (g.names.map Prod.fst).filter (mayMean w) := by
  obtain ⟨form, -, hcandidates⟩ := g.exists_candidates w
  rw [hcandidates, List.map_map, List.filter_map]
  rfl

theorem not_plain_of_mem_candidates {w : List Char} {c : String × Form φ ν}
    (h : c ∈ g.candidates w) : c.2 ≠ .plain := by
  obtain ⟨form, hform, hcandidates⟩ := g.exists_candidates w
  rw [hcandidates] at h
  obtain ⟨n, -, rfl⟩ := List.mem_map.mp h
  exact hform n

/-- A plain word with a dash in front may mean none of the options. -/
theorem candidates_of_plain {word : String} (hdash : word.toList.head? = some '-')
    (hlong : word.toList.length ≠ 1) (h : g.form word = .ok .plain) :
    g.candidates word.toList = [] := by
  rw [form] at h
  simp only [hdash, hlong, ne_eq, not_true_eq_false, or_self, if_false] at h
  split at h
  · cases h
  · split at h
    · assumption
    · next c hc =>
      have hplain := Except.ok.inj h
      exact absurd hplain (not_plain_of_mem_candidates (hc ▸ List.mem_singleton_self c))
    · cases h

/-- A word is at fault only if it has a dash in front and may mean two options. -/
theorem form_eq_error {word : String} {f : Fault} (h : g.form word = .error f) :
    word.toList.head? = some '-' ∧ word.toList.length ≠ 1 ∧
      2 ≤ (g.candidates word.toList).length := by
  rw [form] at h
  by_cases hplain : word.toList.head? ≠ some '-' ∨ word.toList.length = 1
  · simp only [if_pos hplain] at h
    cases h
  obtain ⟨hdash, hlong⟩ := not_or.mp hplain
  refine ⟨not_not.mp hdash, hlong, ?_⟩
  simp only [if_neg hplain] at h
  split at h
  · cases h
  · split at h
    · cases h
    · cases h
    · next hnil hone =>
      rcases hc : g.candidates word.toList with _ | ⟨c, _ | ⟨d, rest⟩⟩
      · exact absurd hc hnil
      · exact absurd hc (hone c)
      · simp

theorem ne_separator_of_plain {word : String} (h : g.form word = .ok .plain) : word ≠ "--" := by
  rintro rfl
  have hnone := candidates_of_plain rfl (by decide) h
  rw [form] at h
  have hdash : ("--".toList.head? ≠ some '-' ∨ "--".toList.length = 1) = False := by decide
  simp only [hdash, if_false, hnone] at h
  split at h
  · cases h
  · cases h

section Words

variable {word : String} {words : List String}

theorem words_cons {f : Form φ ν} {ws : List (Word φ ν)} (hne : word ≠ "--")
    (hword : g.form word = .ok f) (hwords : g.words words = .ok ws) :
    g.words (word :: words) = .ok (⟨word, f⟩ :: ws) := by
  rw [Grammar.words, if_neg hne, hword, hwords]

theorem words_text {ws : List (Word φ ν)} (h : g.words words = .ok ws) :
    ws.map (·.text) = words := by
  induction words generalizing ws with
  | nil =>
    obtain rfl := Except.ok.inj h
    rfl
  | cons w words ih =>
    rw [Grammar.words] at h
    split_ifs at h with hseparator
    · obtain rfl := Except.ok.inj h
      simp [hseparator, Function.comp_def]
    · split at h
      · next ws' _ hws =>
        obtain rfl := Except.ok.inj h
        rw [List.map_cons, ih hws]
      · cases h
      · cases h

theorem exists_words (h : ∀ w ∈ words, ∃ f, g.form w = .ok f) : ∃ ws, g.words words = .ok ws := by
  induction words with
  | nil => exact ⟨[], rfl⟩
  | cons w words ih =>
    obtain ⟨⟨f, hf⟩, hrest⟩ := List.forall_mem_cons.mp h
    obtain ⟨ws, hws⟩ := ih hrest
    by_cases hseparator : w = "--"
    · rw [Grammar.words, if_pos hseparator]
      exact ⟨_, rfl⟩
    · exact ⟨_, words_cons hseparator hf hws⟩

/-- A command that takes a word with all that follows takes whatever follows, as long as none of it
is at fault. -/
theorem read_rest [DecidableEq φ] [DecidableEq ν] (hrest : g.operand = .rest)
    (hword : g.form word = .ok .plain) (h : ∀ w ∈ words, ∃ f, g.form w = .ok f) :
    g.read (word :: words) = ⟨[.operand word words], [], none⟩ := by
  obtain ⟨ws, hws⟩ := exists_words h
  rw [read, words_cons (ne_separator_of_plain hword) hword hws]
  simp only [scan, hrest, words_text hws]

end Words

/-- Words that say these parts: options under their whole names, each with its value behind it. -/
inductive Says (g : Grammar φ ν) : List String → List (Part φ ν) → Prop
  | nil : Says g [] []
  | flag {name : String} {f : φ} {isLetter : Bool} {words : List String} {parts : List (Part φ ν)}
      (hne : name ≠ "--") (hname : g.form name = .ok (.option (.flag f) isLetter none))
      (h : Says g words parts) : Says g (name :: words) (.flag f :: parts)
  | valued {name text : String} {v : ν} {isLetter : Bool} {words : List String}
      {parts : List (Part φ ν)}
      (hne : name ≠ "--") (hname : g.form name = .ok (.option (.valued v) isLetter none))
      (htext : g.form text = .ok .plain) (h : Says g words parts) :
      Says g (name :: text :: words) (.valued v text :: parts)

namespace Says

variable {words : List String} {parts : List (Part φ ν)}

theorem append {more : List String} {others : List (Part φ ν)} (h : Says g words parts)
    (hmore : Says g more others) : Says g (words ++ more) (parts ++ others) := by
  induction h with
  | nil => exact hmore
  | flag hne hname _ ih => exact .flag hne hname ih
  | valued hne hname htext _ ih => exact .valued hne hname htext ih

variable [DecidableEq φ] [DecidableEq ν]

/-- What is said does not depend on whether an operand has been met; the first word is no
separator, so it does not belong to an operand before it. -/
theorem exists_scan (h : Says g words parts) : ∃ ws, g.words words = .ok ws ∧
    (∀ w ∈ ws.head?, w.form ≠ .separator) ∧ ∀ free, g.scan free ws = ⟨parts, [], none⟩ := by
  induction h with
  | nil => exact ⟨[], rfl, by simp, fun _ => rfl⟩
  | flag hne hname _ ih =>
    obtain ⟨ws, hws, -, hscan⟩ := ih
    refine ⟨_, words_cons hne hname hws, ?_, fun free => ?_⟩
    · intro w hw
      obtain rfl := Option.some.inj hw
      simp
    · simp [scan, saidBy, Said.ofOpt, hscan, Reading.withParts, Reading.withExtra]
  | valued hne hname htext _ ih =>
    obtain ⟨ws, hws, -, hscan⟩ := ih
    refine ⟨_, words_cons hne hname (words_cons (ne_separator_of_plain htext) htext hws), ?_,
      fun free => ?_⟩
    · intro w hw
      obtain rfl := Option.some.inj hw
      simp
    · simp [scan, saidBy, Said.ofOpt, hscan, Reading.withParts, Reading.withExtra]

theorem read (h : Says g words parts) : g.read words = ⟨parts, [], none⟩ := by
  obtain ⟨ws, hws, -, hscan⟩ := h.exists_scan
  rw [Grammar.read, hws]
  exact hscan true

/-- An operand before the options is read first. -/
theorem read_operand (h : Says g words parts) (hone : g.operand = .one) {line : String}
    (hline : g.form line = .ok .plain) :
    g.read (line :: words) = ⟨.operand line [] :: parts, [], none⟩ := by
  obtain ⟨ws, hws, hhead, hscan⟩ := h.exists_scan
  rw [Grammar.read, words_cons (ne_separator_of_plain hline) hline hws]
  have hfirst : g.scan true (⟨line, .plain⟩ :: ws) =
      (g.scan false ws).withParts [.operand line []] := by
    cases ws with
    | nil => simp [scan, hone]
    | cons w ws =>
      obtain ⟨text, form⟩ := w
      have hform : form ≠ .separator := hhead _ rfl
      cases form with
      | separator => exact absurd rfl hform
      | plain => simp [scan, hone]
      | option o isLetter attached => simp only [scan, hone]
      | unknown => simp [scan, hone]
  exact hfirst.trans (by rw [hscan]; rfl)

end Says

end Grammar

end Arguments

namespace Action

open Arguments

/-- The names of the options for help come first in every grammar. -/
theorem grammar_names (a : Action) :
    a.grammar.names.map Prod.fst = "-h" :: "--help" :: a.options.map Prod.fst := rfl

/-- A word that is plain behind an action is at fault nowhere before it. -/
theorem exists_preamble_form {a : Action} {word : String} (h : a.grammar.form word = .ok .plain) :
    ∃ f, preamble.form word = .ok f := by
  cases hform : preamble.form word with
  | ok f => exact ⟨f, rfl⟩
  | error e =>
    obtain ⟨hdash, hlong, htwo⟩ := Grammar.form_eq_error hform
    have hnone := Grammar.candidates_names (g := a.grammar) word.toList
    rw [Grammar.candidates_of_plain hdash hlong h, grammar_names, List.map_nil, eq_comm,
      List.filter_eq_nil_iff] at hnone
    obtain ⟨hletter, hhelp, -⟩ := by simpa only [List.forall_mem_cons] using hnone
    have hpreamble : (preamble.candidates word.toList).map Prod.fst =
        ["-h", "--help", "--log-level"].filter (mayMean word.toList) :=
      Grammar.candidates_names word.toList
    -- Of the three names before an action only that of the level is left.
    rw [List.filter_cons_of_neg hletter, List.filter_cons_of_neg hhelp] at hpreamble
    have hone := List.length_filter_le (mayMean word.toList) ["--log-level"]
    rw [← hpreamble, List.length_map, List.length_singleton] at hone
    omega

theorem ofName?_name (a : Action) : ofName? a.name = some a := by
  cases a
  all_goals rfl

end Action

namespace Order

open Arguments

/-- An action with words that it can read makes the order that their parts add up to. -/
theorem ofLine_of_read {s : Settings} {files : Files} {a : Action} {words : List String}
    {parts : List (Part Toggle Item)} {o : Order}
    (hforms : ∀ w ∈ words, ∃ f, Action.preamble.form w = .ok f)
    (hread : a.grammar.read words = ⟨parts, [], none⟩)
    (hparts : parts.foldlM (take files) (plain s s.logLevel a) = .ok o) :
    ofLine s files (a.name :: words) = .ok o := by
  have hname : Action.preamble.form a.name = .ok .plain := by
    apply Grammar.form_eq_plain
    cases a
    all_goals decide
  have hextend : extend files (plain s s.logLevel a) words = .ok (o, []) := by
    have hread' : (plain s s.logLevel a).action.grammar.read words = ⟨parts, [], none⟩ := hread
    rw [extend, hread']
    dsimp only
    rw [hparts]
  rw [ofLine, Grammar.read_rest rfl hname hforms]
  simp only [ofParts?, Action.ofName?_name, hextend]
  rfl

end Order

end CurlSnippet
