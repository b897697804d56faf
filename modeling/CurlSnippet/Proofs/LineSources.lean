import CurlSnippet.Proofs.Conversions
import CurlSnippet.Proofs.OptionWords
import CurlSnippet.Proofs.RunFailures

/-!
Where a line comes from. A run can be given the same line as a word, in a file, or on standard
input, and what it leaves does not depend on which: it is a function of the line, of what is asked
for, of the settings, and of what the run stands on.
-/

namespace CurlSnippet

namespace Target

/-- A name by which a target is asked for. -/
structure Named where
  name : String
  target : Target
  ofName_eq : ofName name = .ok target

/-- No name of a target is taken for an option. -/
theorem Named.not_dashed (t : Named) : t.name.toList.head? ≠ some '-' := by
  intro hdash
  have hfound : names.lookup (lower (trim t.name)) = some t.target := by
    have hname := t.ofName_eq
    rw [ofName, ofName?] at hname
    split at hname
    · next found hfound =>
      rw [hfound, Except.ok.inj hname]
    · cases hname
  have hlower : (lower (trim t.name)).toList.head? = some '-' := by
    obtain ⟨cs, hcs⟩ := List.head?_eq_some_iff.mp hdash
    obtain ⟨ds, hds⟩ := List.head?_eq_some_iff.mp (Blank.head?_trim (c := '-') rfl cs)
    rw [lower, trim, hcs, hds, String.toList_ofList, String.toList_ofList]
    rfl
  obtain ⟨before, after, hsplit, -⟩ := List.lookup_eq_some_iff.mp hfound
  have hmem : (lower (trim t.name), t.target) ∈ names := hsplit ▸ by simp
  have hnames : ∀ n ∈ names, n.1.toList.head? ≠ some '-' := by decide
  exact hnames _ hmem hlower

end Target

/-- Where a line comes from: a word, a file, or standard input. -/
inductive Origin where
  | operand (line : String)
  | file (name : String)
  | input

/-- What is asked for a line: its code, for a target or for all of them, or its request. -/
inductive Wish where
  | code (target : Option Target.Named) (all : Bool)
  | request

namespace Origin

open Arguments

def words : Origin → List String
  | operand line => [line]
  | file name => ["--file", name]
  | input => []

def parts : Origin → List (Part Toggle Item)
  | operand line => [.operand line []]
  | file name => [.valued .file name]
  | input => []

/-- The order that takes its line from there. -/
def fill (o : Order) : Origin → Order
  | operand line => { o with line := line }
  | file name => { o with file := some (.ofString name) }
  | input => o

end Origin

namespace Wish

open Arguments

def action : Wish → Action
  | code _ _ => .convert
  | request => .parse

def options : Wish → List String
  | code target all =>
    (target.elim [] fun t => ["--target", t.name]) ++ if all then ["--all"] else []
  | request => []

def parts : Wish → List (Part Toggle Item)
  | code target all =>
    (target.elim [] fun t => [.valued .target t.name]) ++ if all then [.flag .all] else []
  | request => []

/-- The order that asks for this. -/
def fill (o : Order) : Wish → Order
  | code target all => { o with target := target.elim o.target (·.target), all := o.all || all }
  | request => o

/-- The command line with a wish for a line of some origin. -/
def words (w : Wish) (o : Origin) : List String := w.action.name :: (o.words ++ w.options)

def order (s : Settings) (w : Wish) (o : Origin) : Order :=
  w.fill (o.fill (.plain s s.logLevel w.action))

/-- What a wish makes of a line. -/
def answer (h : Host) (s : Settings) (line : Text) : Wish → Except Failure Text
  | code _ true => Session.codeForAll h line
  | code target false => Session.codeFor h line (target.elim s.target (·.target))
  | request => Session.requestText line

/-- What a run with a wish for a line prints. -/
def result (h : Host) (s : Settings) (line : String) (w : Wish) : Except Failure Text :=
  match LogLevel.fault? s.logLevel with
  | some f => .error (.logLevel f)
  | none => w.answer h s (.ofString line) >>= h.printed

end Wish

/-- What a run leaves that is not broken off: its status, what it has printed, and its message. -/
structure Ending where
  status : Nat
  output : Text
  message : Option String
  deriving DecidableEq

def Ending.of? : Except Failure Text → Option Ending
  | .ok text => some ⟨0, text, none⟩
  | .error f => f.report?.map fun message => ⟨f.status, [], some message⟩

/-- The session has the line at the place of origin. A file has to have a name that the action does
not take for an option. -/
def Session.Gives (n : Session) (a : Action) (line : String) : Origin → Prop
  | .operand word => word = line
  | .file name => a.grammar.form name = .ok .plain ∧
      n.files.find (.ofString name) = .file (Utf8.encode line)
  | .input => n.input = line

namespace Files

theorem unifyLineEnds_eq_self {cs : List Char} (h : '\r' ∉ cs) : unifyLineEnds cs = cs := by
  fun_induction unifyLineEnds cs
  case case1 => exact absurd List.mem_cons_self h
  case case2 => exact absurd List.mem_cons_self h
  case case3 ih => rw [ih fun hmem => h (List.mem_cons_of_mem _ hmem)]
  case case4 => rfl

theorem unified_eq_self {s : String} (h : '\r' ∉ s.toList) : unified s = s := by
  rw [unified, unifyLineEnds_eq_self h, String.ofList_toList]

end Files

namespace Wish

open Arguments

theorem form_file (w : Wish) :
    w.action.grammar.form "--file" = .ok (.option (.valued .file) false none) := by
  cases w
  all_goals rfl

theorem says_options (w : Wish) : w.action.grammar.Says w.options w.parts := by
  cases w with
  | request => exact .nil
  | code target all =>
    refine .append ?_ ?_
    · cases target with
      | none => exact .nil
      | some t => exact .valued (by decide) rfl (Grammar.form_eq_plain _ t.not_dashed) .nil
    · cases all with
      | false => exact .nil
      | true => exact .flag (by decide) rfl .nil

section Reading

variable {n : Session} {h : Host} {s : Settings} {line : String} {w : Wish} {o : Origin}

theorem read_words (hdash : line.toList.head? ≠ some '-') (hgives : n.Gives w.action line o) :
    w.action.grammar.read (o.words ++ w.options) = ⟨o.parts ++ w.parts, [], none⟩ := by
  have hoptions := w.says_options
  cases o with
  | operand word =>
    obtain rfl : word = line := hgives
    have hone : w.action.grammar.operand = .one := by
      cases w
      all_goals rfl
    exact hoptions.read_operand hone (Grammar.form_eq_plain _ hdash)
  | file name => exact Grammar.Says.read (.valued (by decide) w.form_file hgives.1 hoptions)
  | input => exact hoptions.read

theorem preamble_forms (hdash : line.toList.head? ≠ some '-') (hgives : n.Gives w.action line o) :
    ∀ x ∈ o.words ++ w.options, ∃ f, Action.preamble.form x = .ok f := by
  have hplain : ∀ {x : String}, x.toList.head? ≠ some '-' → ∃ f, Action.preamble.form x = .ok f :=
    fun hx => ⟨_, Grammar.form_eq_plain _ hx⟩
  have hoptions : ∀ x ∈ w.options, ∃ f, Action.preamble.form x = .ok f := by
    cases w with
    | request => exact nofun
    | code target all =>
      refine List.forall_mem_append.mpr ⟨?_, ?_⟩
      · cases target with
        | none => exact nofun
        | some t =>
          exact List.forall_mem_cons.mpr
            ⟨⟨.unknown, rfl⟩, List.forall_mem_singleton.mpr (hplain t.not_dashed)⟩
      · cases all with
        | false => exact nofun
        | true => exact List.forall_mem_singleton.mpr ⟨.unknown, rfl⟩
  refine List.forall_mem_append.mpr ⟨?_, hoptions⟩
  cases o with
  | operand word =>
    obtain rfl : word = line := hgives
    exact List.forall_mem_singleton.mpr (hplain hdash)
  | file name =>
    exact List.forall_mem_cons.mpr
      ⟨⟨.unknown, rfl⟩, List.forall_mem_singleton.mpr (Action.exists_preamble_form hgives.1)⟩
  | input => exact nofun

theorem foldlM_origin (hgives : n.Gives w.action line o) (order : Order) :
    o.parts.foldlM (Order.take n.files) order = .ok (o.fill order) := by
  cases o with
  | operand word => rfl
  | file name =>
    show (Order.take n.files order (.valued .file name) >>= pure) = _
    simp only [Order.take, Order.existing, hgives.2]
    rfl
  | input => rfl

theorem foldlM_wish (w : Wish) (files : Files) (order : Order) :
    w.parts.foldlM (Order.take files) order = .ok (w.fill order) := by
  cases w with
  | request => rfl
  | code target all =>
    have htarget : (target.elim [] fun t => [.valued .target t.name]).foldlM (Order.take files)
        order = .ok { order with target := target.elim order.target (·.target) } := by
      cases target with
      | none => rfl
      | some t =>
        show (Order.take files order (.valued .target t.name) >>= pure) = _
        simp only [Order.take, t.ofName_eq]
        rfl
    rw [parts, List.foldlM_append, htarget]
    cases all with
    | false =>
      show Except.ok _ = Except.ok _
      rw [fill, Bool.or_false]
    | true =>
      show Except.ok _ = Except.ok _
      rw [fill, Bool.or_true]

theorem ofLine_words (hdash : line.toList.head? ≠ some '-') (hgives : n.Gives w.action line o) :
    Order.ofLine s n.files (w.words o) = .ok (w.order s o) := by
  apply Order.ofLine_of_read (preamble_forms hdash hgives) (read_words hdash hgives)
  rw [List.foldlM_append, foldlM_origin hgives]
  exact foldlM_wish w n.files _

theorem line_order (hne : line ≠ "") (hreturn : '\r' ∉ line.toList)
    (hgives : n.Gives w.action line o) : n.line h s (w.order s o) = .ok (.ofString line) := by
  have hsource : (w.order s o).source = match o with
      | .operand _ => .operand line
      | .file name => .file (.ofString name)
      | .input => .input := by
    cases o with
    | operand word =>
      obtain rfl : word = line := hgives
      cases w
      all_goals exact if_pos hne
    | file name =>
      cases w
      all_goals rfl
    | input =>
      cases w
      all_goals rfl
  rw [Session.line, hsource]
  cases o with
  | operand word => rfl
  | file name =>
    dsimp only
    rw [Files.read, hgives.2]
    dsimp only
    rw [Files.textOf_encode, Files.unified_eq_self hreturn]
    rfl
  | input =>
    obtain rfl : n.input = line := hgives
    dsimp only
    rw [Files.unified_eq_self hreturn]

theorem made_order (h : Host) (w : Wish) (s : Settings) (o : Origin) (line : Text) :
    Session.made h (w.order s o) line = w.answer h s line := by
  cases w with
  | request => cases o <;> rfl
  | code target all => cases all <;> cases o <;> cases target <;> rfl

theorem run_words (hne : line ≠ "") (hreturn : '\r' ∉ line.toList)
    (hdash : line.toList.head? ≠ some '-')
    (hs : Settings.load n.environment n.files none = .ok s) (hgives : n.Gives w.action line o) :
    n.run h (w.words o) = w.result h s line := by
  have haction : (w.order s o).action.operand = .one := by
    cases w <;> cases o <;> rfl
  have hlevel : (w.order s o).logLevel = s.logLevel := by
    cases w <;> cases o <;> rfl
  have hanswer : n.answer h s (w.order s o) = w.answer h s (.ofString line) := by
    rw [Session.answer_of_line haction, line_order hne hreturn hgives]
    exact made_order h w s o (.ofString line)
  rw [Session.run_of_order hs (ofLine_words hdash hgives), hlevel, hanswer]
  rfl

end Reading

section Endings

variable {h : Host} {s : Settings} {line : String} {t : Target.Named}

theorem conversion_ofString
    (hwrites : ∀ r, Command.read line = .ok r → h.writes r t.target = true) :
    Session.conversion h (.ofString line) t.target = .ok (Conversion.ofLine line t.target) := by
  rw [Session.conversion, Conversion.ofLine, Text.isBlankText_ofString, Command.ofText_ofString]
  split_ifs
  · rfl
  · rcases Command.ofWords_cases (Words.split line) with ⟨r, hr⟩ | hr | hr
    · rw [Command.read, hr]
      simp [Host.code, hwrites r hr, Except.map]
    · rw [Command.read, hr]
    · rw [Command.read, hr]

/-- A conversion that is printed, and what is left of one that is not. -/
theorem ending_result (hlevel : LogLevel.fault? s.logLevel = none)
    (hwrites : ∀ r, Command.read line = .ok r → h.writes r t.target = true)
    (htakes : ∀ p ∈ (Conversion.ofLine line t.target).output, h.takes p = true) :
    Ending.of? ((Wish.code (some t) false).result h s line) =
      some (if (Conversion.ofLine line t.target).succeeded
        then ⟨0, (Conversion.ofLine line t.target).output ++ [.scalar '\n'], none⟩
        else ⟨1, [], some (if isBlankString line
          then "empty input (pass a curl command, --file, --sample or stdin)"
          else (Conversion.ofLine line t.target).error)⟩) := by
  rw [result, hlevel]
  show Ending.of? (Session.codeFor h (.ofString line) t.target >>= h.printed) = _
  have hcode : Session.codeFor h (.ofString line) t.target =
      (let c := Conversion.ofLine line t.target
      if c.error ≠ "" then .error .refused
      else if !c.succeeded then .error .emptyInput
      else .ok c.output) := by
    rw [Session.codeFor, conversion_ofString hwrites]
    rfl
  rw [hcode]
  obtain ⟨outcome, houtcome⟩ := Conversion.exists_answers line t.target
  cases outcome with
  | blank =>
    obtain ⟨hblank, hline, -⟩ := houtcome
    rw [hline, if_pos ((trim_eq_empty_iff line).mp hblank)]
    rfl
  | refused e =>
    obtain ⟨hblank, -, -, hline, -⟩ := houtcome
    rw [hline, if_neg fun h => hblank ((trim_eq_empty_iff line).mpr h)]
    rfl
  | request r =>
    obtain ⟨-, -, hline, hne, -⟩ := houtcome
    have hsucceeded : Conversion.succeeded ⟨r.code t.target, ""⟩ = true := by
      simpa [Conversion.succeeded] using hne
    rw [hline] at htakes ⊢
    simp only [hsucceeded]
    show Ending.of? (h.printed (r.code t.target)) = _
    rw [Host.printed, if_pos (List.all_eq_true.mpr htakes)]
    rfl

end Endings

end Wish

namespace Session

/-- A line with nothing that a word, a file or standard input would change has the same run from
wherever it comes, by the settings alone. If code for one target is asked for, and it can be written
and printed, the run leaves what the conversion has, or the message of the conversion, or one for a
blank line. -/
theorem run_of_origin {line : String} (hne : line ≠ "") (hreturn : '\r' ∉ line.toList)
    (hdash : line.toList.head? ≠ some '-') {n : Session} {s : Settings}
    (hs : Settings.load n.environment n.files none = .ok s) (h : Host) :
    (∀ (w : Wish) (o : Origin), n.Gives w.action line o →
        n.run h (w.words o) = w.result h s line) ∧
      ∀ (t : Target.Named) (o : Origin), n.Gives .convert line o →
        LogLevel.fault? s.logLevel = none →
        (∀ r, Command.read line = .ok r → h.writes r t.target = true) →
        (∀ p ∈ (Conversion.ofLine line t.target).output, h.takes p = true) →
        Ending.of? (n.run h ((Wish.code (some t) false).words o)) =
          some (if (Conversion.ofLine line t.target).succeeded
            then ⟨0, (Conversion.ofLine line t.target).output ++ [.scalar '\n'], none⟩
            else ⟨1, [], some (if isBlankString line
              then "empty input (pass a curl command, --file, --sample or stdin)"
              else (Conversion.ofLine line t.target).error)⟩) := by
  constructor
  · intro w o hgives
    exact Wish.run_words hne hreturn hdash hs hgives
  · intro t o hgives hlevel hwrites htakes
    have hrun : n.run h ((Wish.code (some t) false).words o) =
        (Wish.code (some t) false).result h s line := Wish.run_words hne hreturn hdash hs hgives
    rw [hrun]
    exact Wish.ending_result hlevel hwrites htakes

/-- A line with a quoted line feed, its code and its request, from each origin, with standard output
in UTF-8; the name of the file has a dash in front and is still no option. -/
theorem run_of_origin_fetch :
    let line := "curl http://h -d 'a\nb'"
    let n : Session := ⟨[("CURL_TRANSPILER_TARGET", "go")], .ofTexts [("-a b", line)], line⟩
    let code := "const response = await fetch(\"http://h\", \x7b\n  method: \"POST\",\n" ++
      "  body: \"a\\nb\",\n\x7d);\nconst data = await response.json();\nconsole.log(data);"
    (n.run .utf8 ["parse", line] = n.run .utf8 ["parse"] ∧
      n.run .utf8 ["convert", "--file", "-a b", "--all"] = n.run .utf8 ["convert", line, "--all"]) ∧
      ∀ words ∈ [["convert", line, "--target", " FETCH"],
        ["convert", "--file", "-a b", "--target", " FETCH"], ["convert", "--target", " FETCH"]],
        Ending.of? (n.run .utf8 words) = some ⟨0, .ofString (code.push '\n'), none⟩ := by
  intro line n code
  let t : Target.Named := ⟨" FETCH", .fetch, by decide +kernel⟩
  have hs : Settings.load n.environment n.files none = .ok ⟨.go, none, "WARNING"⟩ := by
    decide +kernel
  have hfile : n.Gives .convert line (.file "-a b") := ⟨by decide +kernel, by decide +kernel⟩
  obtain ⟨hsame, hprinted⟩ := @run_of_origin line (by decide) (by decide) (by decide) n _ hs .utf8
  have hconversion : Conversion.ofLine line t.target = ⟨.ofString code, ""⟩ := by
    decide +kernel
  have hending : ∀ o, n.Gives .convert line o →
      Ending.of? (n.run .utf8 ((Wish.code (some t) false).words o)) =
        some ⟨0, .ofString (code.push '\n'), none⟩ := by
    intro o hgives
    rw [hprinted t o hgives (by decide +kernel) (fun _ _ => rfl) (by decide +kernel), hconversion]
    decide +kernel
  refine ⟨⟨?_, ?_⟩, ?_⟩
  · exact (hsame .request (.operand line) rfl).trans (hsame .request .input rfl).symm
  · exact (hsame (.code none true) (.file "-a b") hfile).trans
      (hsame (.code none true) (.operand line) rfl).symm
  · simp only [List.forall_mem_cons]
    exact ⟨hending (.operand line) rfl, hending (.file "-a b") hfile, hending .input rfl, nofun⟩

/-- A file that holds the line, under a name that is taken for an option. -/
theorem run_of_origin_dashed :
    let n : Session := ⟨[], .ofTexts [("-f", "curl http://h")], ""⟩
    n.files.find (.ofString "-f") = .file (Utf8.encode "curl http://h") ∧
      Ending.of? (n.run .utf8 ["convert", "--file", "-f", "--target", "fetch"]) =
        some ⟨2, [], some "argument --file: expected one argument"⟩ ∧
      (Ending.of? (n.run .utf8 ["convert", "curl http://h", "--target", "fetch"])).map (·.status) =
        some 0 := by
  decide +kernel

end Session

end CurlSnippet
