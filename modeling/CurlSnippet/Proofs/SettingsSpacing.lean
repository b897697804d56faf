import CurlSnippet.Proofs.SettingsSources
import CurlSnippet.Proofs.Trimming

/-!
White space around the values of settings. The target and the file of samples are made of trimmed
values, and a blank one counts as none there. The level of logging is trimmed too, but only after an
empty value has been replaced by the usual level, so white space alone is a level without a name.
-/

namespace CurlSnippet.Settings

/-- The values are the same but for white space put before and after them, where a blank value
counts as none. -/
inductive Respaced : Option String → Option String → Prop
  | padded (s : String) {before after before' after' : String}
      (hbefore : isBlankString before = true) (hafter : isBlankString after = true)
      (hbefore' : isBlankString before' = true) (hafter' : isBlankString after' = true) :
    Respaced (some (before ++ s ++ after)) (some (before' ++ s ++ after'))
  | blank {v w : Option String} (hv : isBlankString (v.getD "") = true)
      (hw : isBlankString (w.getD "") = true) : Respaced v w

/-- The variables of settings have the same values but for white space around them. -/
structure SameButSpace (p q : Entries String String) : Prop where
  target : Respaced (p.get? targetVariable) (q.get? targetVariable)
  samples : Respaced (p.get? samplesVariable) (q.get? samplesVariable)
  logLevel : Respaced (p.get? logLevelVariable) (q.get? logLevelVariable)

/-- The value is there and is white space only. -/
def IsSpace (v : Option String) : Prop := v.getD "" ≠ "" ∧ isBlankString (v.getD "") = true

variable {v w : Option String}

theorem Respaced.trim_eq (h : Respaced v w) : trim (v.getD "") = trim (w.getD "") := by
  cases h with
  | padded s hbefore hafter hbefore' hafter' =>
    rw [Option.getD_some, Option.getD_some, trim_padded hbefore hafter,
      trim_padded hbefore' hafter']
  | blank hv hw => rw [(trim_eq_empty_iff _).mpr hv, (trim_eq_empty_iff _).mpr hw]

theorem Respaced.targetOf_eq (h : Respaced v w) : targetOf v = targetOf w := by
  rw [targetOf, targetOf, h.trim_eq]

theorem Respaced.samplesOf_eq (h : Respaced v w) : samplesOf v = samplesOf w := by
  rw [samplesOf, samplesOf, h.trim_eq]

theorem logLevelOf_of_space (h : IsSpace v) : logLevelOf v = "" := by
  rw [logLevelOf, if_neg h.1, (trim_eq_empty_iff _).mpr h.2]
  rfl

theorem logLevelOf_of_not_space (hv : isBlankString (v.getD "") = true) (h : ¬ IsSpace v) :
    logLevelOf v = "WARNING" := by
  have hempty : v.getD "" = "" := by
    by_contra hne
    exact h ⟨hne, hv⟩
  rw [logLevelOf, if_pos hempty]
  decide

theorem logLevelOf_of_not_blank (h : isBlankString (v.getD "") = false) :
    logLevelOf v = upper (trim (v.getD "")) := by
  have hne : v.getD "" ≠ "" := by
    intro hempty
    rw [hempty] at h
    cases h
  rw [logLevelOf, if_neg hne]

/-- White space around a level of logging matters only where there is nothing else. -/
theorem Respaced.logLevelOf_eq_iff (h : Respaced v w) :
    logLevelOf v = logLevelOf w ↔ (IsSpace v ↔ IsSpace w) := by
  have hblank : isBlankString (v.getD "") = isBlankString (w.getD "") := by
    rw [Bool.eq_iff_iff, ← trim_eq_empty_iff, ← trim_eq_empty_iff, h.trim_eq]
  cases hv : isBlankString (v.getD "") with
  | false =>
    have hw := hblank.symm.trans hv
    rw [logLevelOf_of_not_blank hv, logLevelOf_of_not_blank hw, h.trim_eq]
    exact iff_of_true rfl (iff_of_false (fun hs => by simp [hs.2] at hv)
      fun hs => by simp [hs.2] at hw)
  | true =>
    have hw := hblank.symm.trans hv
    by_cases hsv : IsSpace v <;> by_cases hsw : IsSpace w
    · simp [logLevelOf_of_space, hsv, hsw]
    · simp [logLevelOf_of_space hsv, logLevelOf_of_not_space hw hsw, hsv, hsw]
    · simp [logLevelOf_of_not_space hv hsv, logLevelOf_of_space hsw, hsv, hsw]
    · simp [logLevelOf_of_not_space hv hsv, logLevelOf_of_not_space hw hsw, hsv, hsw]

theorem load_of_no_source {files : Files} {envFile : Option String}
    (h : source files envFile = none) (process : Entries String String) :
    load process files envFile = ofValues process.get? := by
  rw [load, h]
  exact ofVariables_eq process

/-- Without a file, white space around the values of variables is no reason that there are settings
or none, and changes neither their target nor their file of samples. It changes their level of
logging exactly if that is white space only for one of them and not for the other; then it has no
name, and is the usual one otherwise. -/
theorem load_of_respaced {files : Files} {envFile : Option String}
    (hsource : source files envFile = none) {p q : Entries String String} (h : SameButSpace p q) :
    (∃ e, load p files envFile = .error e ∧ load q files envFile = .error e) ∨
    ∃ s t, load p files envFile = .ok s ∧ load q files envFile = .ok t ∧ s.target = t.target ∧
      s.samples = t.samples ∧
      (s = t ↔ (IsSpace (p.get? logLevelVariable) ↔ IsSpace (q.get? logLevelVariable))) ∧
      (IsSpace (p.get? logLevelVariable) → ¬ IsSpace (q.get? logLevelVariable) →
        s.logLevel = "" ∧ t.logLevel = "WARNING") := by
  rw [load_of_no_source hsource, load_of_no_source hsource, ofValues, ofValues,
    h.target.targetOf_eq, h.samples.samplesOf_eq, ← h.logLevel.logLevelOf_eq_iff]
  cases targetOf (q.get? targetVariable) with
  | error e => exact .inl ⟨e, rfl, rfl⟩
  | ok target =>
    refine .inr ⟨_, _, rfl, rfl, rfl, rfl, by simp, fun hp hq => ⟨logLevelOf_of_space hp, ?_⟩⟩
    have hblank : isBlankString ((q.get? logLevelVariable).getD "") = true := by
      rw [← trim_eq_empty_iff, ← h.logLevel.trim_eq, trim_eq_empty_iff]
      exact hp.2
    exact logLevelOf_of_not_space hblank hq

/-- White space of several kinds around the values. -/
theorem load_of_respaced_kinds :
    let files : Files := ⟨[], [], []⟩
    let p : Entries String String := [("CURL_TRANSPILER_TARGET", " GO\u2003"),
      ("CURL_TRANSPILER_SAMPLES", "\t"), ("CURL_TRANSPILER_LOG_LEVEL", "info\n")]
    let q : Entries String String := [("CURL_TRANSPILER_TARGET", "GO"),
      ("CURL_TRANSPILER_LOG_LEVEL", "\u00A0info")]
    source files none = none ∧ SameButSpace p q ∧ load p files none = load q files none := by
  intro files p q
  have hsame : SameButSpace p q := by
    constructor
    · have hp : p.get? targetVariable = some (" " ++ "GO" ++ "\u2003") := by decide +kernel
      have hq : q.get? targetVariable = some ("" ++ "GO" ++ "") := by decide +kernel
      rw [hp, hq]
      exact .padded "GO" (by decide) (by decide) (by decide) (by decide)
    · exact .blank (by decide +kernel) (by decide +kernel)
    · have hp : p.get? logLevelVariable = some ("" ++ "info" ++ "\n") := by decide +kernel
      have hq : q.get? logLevelVariable = some ("\u00A0" ++ "info" ++ "") := by decide +kernel
      rw [hp, hq]
      exact .padded "info" (by decide) (by decide) (by decide) (by decide)
  have hp : ¬ IsSpace (p.get? logLevelVariable) := fun h => absurd h.2 (by decide +kernel)
  have hq : ¬ IsSpace (q.get? logLevelVariable) := fun h => absurd h.2 (by decide +kernel)
  have hsource : source files none = none := rfl
  refine ⟨hsource, hsame, ?_⟩
  rcases load_of_respaced hsource hsame with ⟨e, he, he'⟩ | ⟨s, t, hs, ht, -, -, heq, -⟩
  · rw [he, he']
  · rw [hs, ht, heq.mpr (iff_of_false hp hq)]

/-- A level of white space and none. -/
theorem load_of_respaced_blank : ¬ ∀ p q, SameButSpace p q →
    load p ⟨[], [], []⟩ none = load q ⟨[], [], []⟩ none := by
  intro h
  have hsame : SameButSpace [("CURL_TRANSPILER_LOG_LEVEL", " ")] [] :=
    ⟨.blank (by decide) (by decide), .blank (by decide) (by decide),
      .blank (by decide) (by decide)⟩
  exact absurd (h _ _ hsame) (by decide +kernel)

end CurlSnippet.Settings
