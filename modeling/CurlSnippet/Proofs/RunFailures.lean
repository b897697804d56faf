import CurlSnippet.Proofs.CheckedPaths
import CurlSnippet.Proofs.TextCommands
import CurlSnippet.Run
import Mathlib.Tactic.SplitIfs

/-!
Runs that break off. Most failures of a run have a report for the person at the command line; what
breaks a run off is found stage by stage, from the settings to the text that is printed.
-/

namespace CurlSnippet

namespace Order

/-- The order asks for code for a target. -/
def Asks (o : Order) (t : Target) : Prop := o.action = .convert ∧ (o.all = true ∨ t = o.target)

theorem file_of_source {o : Order} {p : Path} (h : o.source = .file p) : o.file = some p := by
  rw [source] at h
  split at h
  · cases h
  · split at h
    · next q hq =>
      obtain rfl := Source.file.inj h
      exact hq
    · split at h
      · cases h
      · cases h

theorem action_of_operand {o : Order} (h : o.action.operand = .one) :
    o.action = .convert ∨ o.action = .parse := by
  revert h
  cases o.action <;> simp [Action.operand]

end Order

theorem LogLevel.fault?_ne_none_iff {name : String} :
    fault? name ≠ none ↔ upper name = "BASIC_FORMAT" ∨ upper name = "_STYLES" := by
  rw [fault?]
  split_ifs with hlayout hlayouts
  · simp [hlayout]
  · simp [hlayouts]
  · simp [hlayout, hlayouts]

/-- A result that breaks a run off: a failure without a report. -/
def BrokenOff {α : Type} (x : Except Failure α) : Prop := ∃ f, x = .error f ∧ f.report? = none

section BrokenOff

variable {α β : Type}

theorem not_brokenOff_ok (a : α) : ¬ BrokenOff (.ok a) := nofun

theorem brokenOff_error {f : Failure} :
    BrokenOff (.error f : Except Failure α) ↔ f.report? = none := by
  constructor
  · rintro ⟨g, hg, h⟩
    rwa [Except.error.inj hg]
  · exact fun h => ⟨f, rfl, h⟩

instance (x : Except Failure α) : Decidable (BrokenOff x) :=
  match x with
  | .ok a => isFalse (not_brokenOff_ok a)
  | .error _ => decidable_of_iff _ brokenOff_error.symm

theorem brokenOff_bind {x : Except Failure α} {f : α → Except Failure β} :
    BrokenOff (x >>= f) ↔ BrokenOff x ∨ ∃ a, x = .ok a ∧ BrokenOff (f a) := by
  cases x with
  | error e =>
    show BrokenOff (.error e) ↔ _
    simp [brokenOff_error]
  | ok a =>
    show BrokenOff (f a) ↔ _
    simp [not_brokenOff_ok]

theorem brokenOff_map {x : Except Failure α} {f : α → β} :
    BrokenOff (x.map f) ↔ BrokenOff x := by
  cases x with
  | error e => simp [Except.map, brokenOff_error]
  | ok a => simp [Except.map, not_brokenOff_ok]

theorem brokenOff_mapError {ε : Type} {x : Except ε α} {f : ε → Failure} :
    BrokenOff (x.mapError f) ↔ ∃ e, x = .error e ∧ (f e).report? = none := by
  cases x with
  | error e => simp [Except.mapError, brokenOff_error]
  | ok a => simp [Except.mapError, not_brokenOff_ok]

/-- If no step has a report for its failure, any that fails breaks the whole off. -/
theorem brokenOff_mapM {f : α → Except Failure β} (hf : ∀ a b, f a = .error b → b.report? = none)
    {as : List α} : BrokenOff (as.mapM f) ↔ ∃ a ∈ as, BrokenOff (f a) := by
  induction as with
  | nil =>
    rw [List.mapM_nil]
    simp [not_brokenOff_ok, pure, Except.pure]
  | cons a rest ih =>
    rw [List.mapM_cons, brokenOff_bind, List.exists_mem_cons_iff]
    have hrest : ∀ b, BrokenOff (do return b :: (← rest.mapM f)) ↔ ∃ a ∈ rest, BrokenOff (f a) := by
      intro b
      rw [brokenOff_bind, ih]
      simp [not_brokenOff_ok, pure, Except.pure]
    cases hfirst : f a with
    | error b => simp [brokenOff_error, hf a b hfirst]
    | ok b =>
      simp only [not_brokenOff_ok, false_or, Except.ok.injEq, exists_eq_left']
      exact hrest b

end BrokenOff

/-- A file that is there and of which no samples can be loaded, though not because a scalar in it
has no value: the text is no YAML, or the stack is not deep enough for it. -/
def Files.Unloadable (files : Files) (h : Host) (p : Path) : Prop :=
  ∃ text, files.read p = .ok text ∧ (h.loads text = false ∨
    ∃ e, Yaml.Content.ofText text = .error e ∧ e.isOfValue = false)

theorem Samples.report?_eq_none_iff {e : Samples.Error} :
    (Failure.samples e).report? = none ↔ ∃ y, e = .yaml y ∧ y.isOfValue = false := by
  cases e with
  | unreadable e => simp [Failure.report?, Samples.Error.isReported, Samples.Error.message?]
  | fault f => simp [Failure.report?, Samples.Error.isReported, Samples.Error.message?]
  | yaml y =>
    cases y <;> simp [Failure.report?, Samples.Error.isReported, Samples.Error.message?,
      Yaml.Error.isOfValue, Yaml.Error.message?]

theorem Samples.load_eq_yaml_iff {files : Files} {path : Option Path} {e : Yaml.Error} :
    load files path = .error (.yaml e) ↔
      ∃ p ∈ path, ∃ text, files.read p = .ok text ∧ Yaml.Content.ofText text = .error e := by
  cases path with
  | none => simp [load]
  | some p =>
    rw [load]
    cases hread : files.read p with
    | error e => simp [hread]
    | ok text =>
      simp only [ofText]
      cases hcontent : Yaml.Content.ofText text with
      | error e => simp [hread, hcontent]
      | ok c =>
        simp only [Option.mem_some_iff, exists_eq_left', hread, Except.ok.injEq, hcontent,
          reduceCtorEq, iff_false]
        cases ofContent p c <;> simp

namespace Host

variable {h : Host}

theorem loadsFrom_eq_false_iff {files : Files} {path : Option Path} :
    h.loadsFrom files path = false ↔
      ∃ p ∈ path, ∃ text, files.read p = .ok text ∧ h.loads text = false := by
  cases path with
  | none => simp [loadsFrom]
  | some p =>
    rw [loadsFrom, Option.all_some]
    cases hread : files.read p <;> simp [hread]

theorem report?_of_code {r : Request} {t : Target} {f : Failure} (hf : h.code r t = .error f) :
    f.report? = none := by
  rw [code] at hf
  split_ifs at hf
  obtain rfl := Except.error.inj hf
  rfl

theorem brokenOff_code {r : Request} {t : Target} :
    BrokenOff (h.code r t) ↔ h.writes r t = false := by
  rw [code]
  split_ifs with hwrites
  · simp [not_brokenOff_ok, hwrites]
  · simp [brokenOff_error, Failure.report?, hwrites]

theorem brokenOff_printed {t : Text} : BrokenOff (h.printed t) ↔ ∃ p ∈ t, h.takes p = false := by
  rw [printed]
  split_ifs with htakes
  · refine iff_of_false (not_brokenOff_ok _) ?_
    rintro ⟨p, hp, hnot⟩
    rw [List.all_eq_true.mp htakes p hp] at hnot
    cases hnot
  · simpa [brokenOff_error, Failure.report?] using htakes

end Host

namespace Session

variable {n : Session} {h : Host} {s : Settings} {o : Order}

theorem brokenOff_samples :
    BrokenOff (n.samples h s o) ↔ ∃ p ∈ o.samples.or s.samples, n.files.Unloadable h p := by
  rw [samples]
  simp only [Files.Unloadable]
  by_cases hloads : h.loadsFrom n.files (o.samples.or s.samples) = true
  · rw [if_pos hloads, brokenOff_mapError]
    simp only [Samples.report?_eq_none_iff]
    constructor
    · rintro ⟨_, hfails, e, rfl, hother⟩
      obtain ⟨p, hp, text, hread, hcontent⟩ := Samples.load_eq_yaml_iff.mp hfails
      exact ⟨p, hp, text, hread, .inr ⟨e, hcontent, hother⟩⟩
    · rintro ⟨p, hp, text, hread, hdeep | ⟨e, hcontent, hother⟩⟩
      · rw [Host.loadsFrom_eq_false_iff.mpr ⟨p, hp, text, hread, hdeep⟩] at hloads
        cases hloads
      · exact ⟨.yaml e, Samples.load_eq_yaml_iff.mpr ⟨p, hp, text, hread, hcontent⟩, e, rfl, hother⟩
  · rw [if_neg hloads]
    obtain ⟨p, hp, text, hread, hfails⟩ :=
      Host.loadsFrom_eq_false_iff.mp (Bool.eq_false_iff.mpr hloads)
    exact iff_of_true (brokenOff_error.mpr rfl) ⟨p, hp, text, hread, .inl hfails⟩

theorem brokenOff_sample {label : String} :
    BrokenOff (n.sample h s o label) ↔ BrokenOff (n.samples h s o) := by
  rw [sample, brokenOff_bind]
  refine or_iff_left ?_
  rintro ⟨samples, -, hcommand⟩
  obtain ⟨u, -, hreport⟩ := brokenOff_mapError.mp hcommand
  cases hreport

theorem brokenOff_line : BrokenOff (n.line h s o) ↔
    (∃ label, o.source = .sample label ∧ BrokenOff (n.samples h s o)) ∨
      ∃ p e, o.source = .file p ∧ n.files.read p = .error e := by
  rw [line]
  cases o.source with
  | sample label => simp [brokenOff_sample]
  | file p =>
    simp only [brokenOff_mapError, Except.map_eq_error]
    simp [Failure.report?]
  | operand line => simp [not_brokenOff_ok]
  | input => simp [not_brokenOff_ok]

section Lines

variable {refusal : CommandError → Failure} {line : Text}

theorem brokenOff_request (hrefusal : ∀ e, (refusal e).report? ≠ none) :
    BrokenOff (request refusal line) ↔ ∃ issues, Command.ofText line = .error (.invalid issues) := by
  rw [request]
  cases Command.ofText line with
  | ok r => simp [not_brokenOff_ok]
  | error e =>
    cases e with
    | invalid issues => exact iff_of_true (brokenOff_error.mpr rfl) ⟨issues, rfl⟩
    | _ => exact iff_of_false (brokenOff_error.not.mpr (hrefusal _)) nofun

theorem request_eq_ok_iff {r : Request} :
    request refusal line = .ok r ↔ Command.ofText line = .ok r := by
  rw [request]
  cases Command.ofText line with
  | ok r => simp
  | error e => cases e <;> simp

theorem ofText_of_isBlankText (hblank : isBlankText line = true) :
    Command.ofText line = .error .notACommand := by
  have hdrop : line.dropWhile CodePoint.isBlank = [] :=
    List.dropWhile_eq_nil_iff.mpr (List.all_eq_true.mp hblank)
  have htrim : line.trim = [] := by
    rw [Text.trim, hdrop]
    rfl
  rw [Command.ofText, Words.ofText, htrim]
  rfl

theorem brokenOff_conversion {t : Target} : BrokenOff (conversion h line t) ↔
    (∃ issues, Command.ofText line = .error (.invalid issues)) ∨
      ∃ r, Command.ofText line = .ok r ∧ h.writes r t = false := by
  rw [conversion]
  split_ifs with hblank
  · simp [ofText_of_isBlankText hblank, not_brokenOff_ok]
  · cases Command.ofText line with
    | ok r => simp [brokenOff_map, Host.brokenOff_code]
    | error e => cases e <;> simp [brokenOff_error, not_brokenOff_ok, Failure.report?]

theorem brokenOff_codeFor {t : Target} : BrokenOff (codeFor h line t) ↔
    (∃ issues, Command.ofText line = .error (.invalid issues)) ∨
      ∃ r, Command.ofText line = .ok r ∧ h.writes r t = false := by
  rw [codeFor, brokenOff_bind, brokenOff_conversion]
  refine or_iff_left ?_
  rintro ⟨c, -, hprinted⟩
  split_ifs at hprinted
  · exact absurd hprinted (brokenOff_error.not.mpr nofun)
  · exact absurd hprinted (brokenOff_error.not.mpr nofun)
  · exact not_brokenOff_ok _ hprinted

theorem brokenOff_codeForAll : BrokenOff (codeForAll h line) ↔
    (∃ issues, Command.ofText line = .error (.invalid issues)) ∨
      ∃ r, Command.ofText line = .ok r ∧ ∃ t, h.writes r t = false := by
  have hcodes : ∀ r, BrokenOff (do
      let codes ← Target.all.mapM fun t => (h.code r t).map (t, ·)
      return blocks codes) ↔ ∃ t, h.writes r t = false := by
    intro r
    have hfails : ∀ t f, (h.code r t).map (t, ·) = .error f → f.report? = none :=
      fun t f hf => Host.report?_of_code (Except.map_eq_error.mp hf)
    rw [brokenOff_bind, brokenOff_mapM hfails]
    simp only [brokenOff_map, Host.brokenOff_code]
    have hall : ∀ t, t ∈ Target.all := by
      intro t
      cases t <;> decide
    simp [hall, not_brokenOff_ok, pure, Except.pure]
  have hrefused : ∀ _ : CommandError, Failure.refused.report? ≠ none := nofun
  rw [codeForAll, brokenOff_bind, brokenOff_request hrefused]
  simp only [request_eq_ok_iff, hcodes]

theorem brokenOff_requestText : BrokenOff (requestText line) ↔
    ∃ issues, Command.ofText line = .error (.invalid issues) := by
  have hunparsed : ∀ e, (Failure.unparsed e).report? ≠ none := nofun
  rw [requestText, brokenOff_map, brokenOff_request hunparsed]

/-- What is asked of a line breaks off for a request that the checks refuse, and for code that the
stack is not deep enough for. -/
theorem brokenOff_made (hline : o.action.operand = .one) : BrokenOff (made h o line) ↔
    (∃ issues, Command.ofText line = .error (.invalid issues)) ∨
      ∃ r t, Command.ofText line = .ok r ∧ o.Asks t ∧ h.writes r t = false := by
  rw [made]
  rcases Order.action_of_operand hline with haction | haction
  · by_cases hall : o.all = true
    · simp [hall, Order.Asks, haction, brokenOff_codeForAll]
    · simp [hall, Order.Asks, haction, brokenOff_codeFor]
  · simp [Order.Asks, haction, brokenOff_requestText]

end Lines

theorem answer_of_line (hline : o.action.operand = .one) :
    n.answer h s o = n.line h s o >>= made h o := by
  rw [answer]
  rcases Order.action_of_operand hline with haction | haction
  · rw [haction]
  · rw [haction]

theorem brokenOff_answer : BrokenOff (n.answer h s o) ↔
    (o.action.operand = .one ∧ (BrokenOff (n.line h s o) ∨
      ∃ line, n.line h s o = .ok line ∧ BrokenOff (made h o line))) ∨
    (o.action = .samples ∧ BrokenOff (n.samples h s o)) := by
  by_cases hline : o.action.operand = .one
  · have hne : o.action ≠ .samples := by
      intro haction
      rw [haction] at hline
      cases hline
    rw [answer_of_line hline, brokenOff_bind]
    simp [hline, hne]
  · have hother : o.action = .samples ∨ o.action = .targets := by
      revert hline
      cases o.action <;> simp [Action.operand]
    rw [answer]
    rcases hother with haction | haction
    · rw [haction]
      by_cases hsample : o.sample = ""
      · simp [hsample, brokenOff_map, Action.operand]
      · simp [hsample, brokenOff_sample, Action.operand]
    · rw [haction]
      simp [not_brokenOff_ok, Action.operand]

/-- Why an order breaks its run off. -/
inductive Cause (n : Session) (h : Host) (s : Settings) (o : Order) : Prop
  /-- The name for the level of logging is that of a layout of log lines. -/
  | level (hname : upper o.logLevel = "BASIC_FORMAT" ∨ upper o.logLevel = "_STYLES")
  /-- The line has to be read from a folder, or from a file that is no text. -/
  | unreadable {p : Path} (hline : o.action.operand = .one) (hs : o.source = .file p)
      (hp : n.files.Textless p)
  /-- The samples are asked for, and their file cannot be loaded. -/
  | samples {p : Path} (hneeded : o.action = .samples ∨
        o.action.operand = .one ∧ ∃ label, o.source = .sample label)
      (hp : p ∈ o.samples.or s.samples) (hfile : n.files.Unloadable h p)
  /-- A lone surrogate of a sample would stand in its request. -/
  | broken {line : Text} {issues : List Issue} {k : Fin 0x800} (hline : o.action.operand = .one)
      (hread : n.line h s o = .ok line) (hk : .surrogate k ∈ line)
      (hissues : Command.ofText line = .error (.invalid issues))
      (hbroken : ∀ i ∈ issues, i.fault = .brokenText)
  /-- The stack is not deep enough for the code that is asked for. -/
  | exhausted {line : Text} {r : Request} {t : Target} (hread : n.line h s o = .ok line)
      (hr : Command.ofText line = .ok r) (ht : o.Asks t) (hdeep : h.writes r t = false)
  /-- Standard output does not take all of what is to be printed. -/
  | unprintable {t : Text} {p : CodePoint} (ht : n.answer h s o = .ok t) (hp : p ∈ t)
      (htakes : h.takes p = false)

theorem cause_of_line (hline : o.action.operand = .one) (hfile : o.FileHeld n.files)
    (hbreaks : BrokenOff (n.line h s o)) : n.Cause h s o := by
  rcases brokenOff_line.mp hbreaks with ⟨label, hs, hsamples⟩ | ⟨p, e, hs, hread⟩
  · obtain ⟨p, hp, hunloadable⟩ := brokenOff_samples.mp hsamples
    exact .samples (.inr ⟨hline, label, hs⟩) hp hunloadable
  · have hholds := hfile p (Order.file_of_source hs)
    exact .unreadable hline hs ((Files.textless_iff hholds).mpr ⟨e, hread⟩)

theorem cause_of_answer (hfile : o.FileHeld n.files) (hbreaks : BrokenOff (n.answer h s o)) :
    n.Cause h s o := by
  rcases brokenOff_answer.mp hbreaks with ⟨hline, hread | ⟨line, hread, hmade⟩⟩ | ⟨hsamples, hload⟩
  · exact cause_of_line hline hfile hread
  · rcases (brokenOff_made hline).mp hmade with ⟨issues, hissues⟩ | ⟨r, t, hr, ht, hdeep⟩
    · obtain ⟨hbroken, k, hk⟩ := Command.ofText_invalid hissues
      exact .broken hline hread hk hissues hbroken
    · exact .exhausted hread hr ht hdeep
  · obtain ⟨p, hp, hunloadable⟩ := brokenOff_samples.mp hload
    exact .samples (.inl hsamples) hp hunloadable

/-- Unless the level of logging is at fault already, every cause shows. -/
theorem Cause.brokenOff (hcause : n.Cause h s o) (hfile : o.FileHeld n.files)
    (hlevel : LogLevel.fault? o.logLevel = none) :
    BrokenOff (n.answer h s o >>= h.printed) := by
  rw [brokenOff_bind, brokenOff_answer, brokenOff_line, brokenOff_samples]
  cases hcause with
  | level hname => exact absurd hlevel (LogLevel.fault?_ne_none_iff.mpr hname)
  | unreadable hline hs hp =>
    obtain ⟨e, hread⟩ := (Files.textless_iff (hfile _ (Order.file_of_source hs))).mp hp
    exact .inl (.inl ⟨hline, .inl (.inr ⟨_, e, hs, hread⟩)⟩)
  | samples hneeded hp hload =>
    rcases hneeded with hsamples | ⟨hline, label, hs⟩
    · exact .inl (.inr ⟨hsamples, _, hp, hload⟩)
    · exact .inl (.inl ⟨hline, .inl (.inl ⟨label, hs, _, hp, hload⟩)⟩)
  | broken hline hread _ hissues _ =>
    have hmade := (brokenOff_made (h := h) hline).mpr (.inl ⟨_, hissues⟩)
    exact .inl (.inl ⟨hline, .inr ⟨_, hread, hmade⟩⟩)
  | exhausted hread hr ht hdeep =>
    have hline : o.action.operand = .one := by
      rw [ht.1]
      rfl
    have hmade := (brokenOff_made hline).mpr (.inr ⟨_, _, hr, ht, hdeep⟩)
    exact .inl (.inl ⟨hline, .inr ⟨_, hread, hmade⟩⟩)
  | unprintable ht hp htakes => exact .inr ⟨_, ht, Host.brokenOff_printed.mpr ⟨_, hp, htakes⟩⟩

theorem run_of_order {words : List String}
    (hs : Settings.load n.environment n.files none = .ok s)
    (ho : Order.ofLine s n.files words = .ok o) :
    n.run h words = match LogLevel.fault? o.logLevel with
      | some f => .error (.logLevel f)
      | none => n.answer h s o >>= h.printed := by
  rw [run, hs]
  dsimp only
  rewrite [ho]
  rfl

theorem brokenOff_of_order {words : List String}
    (hs : Settings.load n.environment n.files none = .ok s)
    (ho : Order.ofLine s n.files words = .ok o) : BrokenOff (n.run h words) ↔ n.Cause h s o := by
  have hfile : o.FileHeld n.files := by
    have hends := Order.ends_ofLine s n.files words
    rwa [ho, Except.ends_ok_iff] at hends
  rw [run_of_order hs ho]
  cases hlevel : LogLevel.fault? o.logLevel with
  | some f =>
    have hcause : n.Cause h s o := .level (LogLevel.fault?_ne_none_iff.mp (by simp [hlevel]))
    simp [brokenOff_error, Failure.report?, hcause]
  | none =>
    refine ⟨fun hbreaks => ?_, fun hcause => hcause.brokenOff hfile hlevel⟩
    rcases brokenOff_bind.mp hbreaks with hanswer | ⟨t, ht, hprinted⟩
    · exact cause_of_answer hfile hanswer
    · obtain ⟨p, hp, htakes⟩ := Host.brokenOff_printed.mp hprinted
      exact .unprintable ht hp htakes

theorem brokenOff_of_stop {words : List String} {stop : Stop}
    (hs : Settings.load n.environment n.files none = .ok s)
    (hstop : Order.ofLine s n.files words = .error stop) :
    BrokenOff (n.run h words) ↔ ∃ p, stop = .tooLong p := by
  rw [run, hs]
  simp only [hstop]
  cases stop with
  | help => simp [not_brokenOff_ok]
  | misuse m => simp [brokenOff_error, Failure.report?]
  | tooLong p => simp [brokenOff_error, Failure.report?]

end Session

end CurlSnippet
