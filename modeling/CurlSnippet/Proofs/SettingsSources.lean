import CurlSnippet.Proofs.LastWrites
import CurlSnippet.Proofs.Utf8Reading
import CurlSnippet.Settings

/-!
Where settings come from. At most one file of variables counts, whatever other files there are. A
variable of the process keeps its value, an empty one too; any other has the value that the file
binds it to. There are no settings exactly if the file is no text, if it binds a variable to what no
variable can be set to, or if the name of the target that results is none.
-/

namespace CurlSnippet

namespace EnvFile

variable {outer env : Entries String String}

/-- A variable can be set to the value. -/
structure Settable (name value : String) : Prop where
  name_null : '\x00' ∉ name.toList
  value_null : '\x00' ∉ value.toList
  name_equals : '=' ∉ name.toList

theorem check_eq_ok_iff {name value : String} : check name value = .ok () ↔ Settable name value := by
  rw [check]
  split_ifs with hnull hequals
  · refine iff_of_false nofun fun h => ?_
    simp [h.name_null, h.value_null] at hnull
  · refine iff_of_false nofun fun h => ?_
    simp [h.name_equals] at hequals
  · simp only [Bool.or_eq_true, List.contains_eq_mem, decide_eq_true_eq, not_or] at hnull hequals
    exact iff_of_true rfl ⟨hnull.1, hnull.2, hequals⟩

/-- The value that a text binds a variable to, if it binds it to any. -/
def bound? (outer : Entries String String) (text name : String) : Option String :=
  ((resolved outer text).get? name).join

theorem nodup_keys_resolved (outer : Entries String String) (text : String) :
    (Entries.keys (resolved outer text)).Nodup := by
  rw [resolved]
  exact List.foldlRecOn (motive := fun bound => (Entries.keys bound).Nodup) (bindings text) _
    List.nodup_nil fun bound h b _ => Entries.nodup_keys_put h _ _

/-- The step that merging takes for a binding. -/
def mergeStep (outer env : Entries String String) (b : Binding) :
    Except Fault (Entries String String) :=
  match outer.get? b.1, b.2 with
  | none, some v => match check b.1 v with
    | .ok () => .ok (env.put b.1 v)
    | .error f => .error f
  | _, _ => .ok env

theorem merge_eq (outer : Entries String String) (text : String) :
    merge outer text = (resolved outer text).foldlM (mergeStep outer) outer := rfl

/-- The variables with one more binding, unless the variable is set outside. -/
def added (outer env : Entries String String) (b : Binding) : Entries String String :=
  match outer.get? b.1, b.2 with
  | none, some v => env.put b.1 v
  | _, _ => env

/-- If the binding counts, the variable can be set. -/
def Allowed (outer : Entries String String) (b : Binding) : Prop :=
  ∀ v, b.2 = some v → outer.get? b.1 = none → Settable b.1 v

theorem mergeStep_eq_ok {b : Binding} {result : Entries String String} :
    mergeStep outer env b = .ok result ↔ Allowed outer b ∧ result = added outer env b := by
  obtain ⟨name, o⟩ := b
  rw [mergeStep, added, Allowed]
  cases houter : outer.get? name with
  | some u => simp [eq_comm]
  | none =>
    cases o with
    | none => simp [eq_comm]
    | some v =>
      cases hcheck : check name v with
      | ok u => simp [check_eq_ok_iff.mp hcheck, hcheck, eq_comm]
      | error f =>
        have hnot : ¬ Settable name v := fun h => by
          rw [check_eq_ok_iff.mpr h] at hcheck
          cases hcheck
        simp [hnot, hcheck]

theorem foldlM_mergeStep_eq_ok {bs : List Binding} {result : Entries String String} :
    bs.foldlM (mergeStep outer) env = .ok result ↔
      (∀ b ∈ bs, Allowed outer b) ∧ result = bs.foldl (added outer) env := by
  induction bs generalizing env with
  | nil => simp [pure, Except.pure, eq_comm]
  | cons b rest ih =>
    rw [List.foldlM_cons, Except.bind_eq_ok, List.forall_mem_cons, List.foldl_cons]
    simp only [mergeStep_eq_ok, ih]
    constructor
    · rintro ⟨_, ⟨hb, rfl⟩, hrest, rfl⟩
      exact ⟨⟨hb, hrest⟩, rfl⟩
    · rintro ⟨⟨hb, hrest⟩, rfl⟩
      exact ⟨_, ⟨hb, rfl⟩, hrest, rfl⟩

theorem get?_added (b : Binding) (name : String) : (added outer env b).get? name =
    ((if b.1 = name ∧ outer.get? name = none then b.2 else none)).or (env.get? name) := by
  obtain ⟨n, o⟩ := b
  rw [added]
  by_cases hname : n = name
  · subst hname
    cases outer.get? n with
    | some u => simp
    | none => cases o <;> simp
  · cases outer.get? n with
    | some u => simp [hname]
    | none => cases o <;> simp [hname]

/-- Of bindings to different variables each is found afterwards, unless its variable is set
outside. -/
theorem get?_foldl_added {bs : Entries String (Option String)} (h : (Entries.keys bs).Nodup)
    (name : String) : (bs.foldl (added outer) env).get? name =
      (if outer.get? name = none then (bs.get? name).join else none).or (env.get? name) := by
  induction bs generalizing env with
  | nil => simp [Entries.get?]
  | cons b rest ih =>
    obtain ⟨n, o⟩ := b
    rw [Entries.keys, List.map_cons, List.nodup_cons] at h
    rw [List.foldl_cons, ih h.2, get?_added]
    by_cases hname : n = name
    · subst hname
      have hrest : Entries.get? rest n = none := Entries.get?_eq_none_iff.mpr h.1
      by_cases houter : outer.get? n = none
      · simp [Entries.get?, hrest, houter]
      · simp [houter]
    · simp [Entries.get?, hname]

/-- Outer variables keep their values, and every other has the one that it is bound to. -/
theorem get?_of_merge {text : String} (h : merge outer text = .ok env) (name : String) :
    env.get? name = (outer.get? name).or (bound? outer text name) := by
  rw [merge_eq, foldlM_mergeStep_eq_ok] at h
  rw [h.2, get?_foldl_added (nodup_keys_resolved outer text), bound?]
  cases outer.get? name <;> simp

theorem exists_merge_iff {text : String} : (∃ env, merge outer text = .ok env) ↔
    ∀ name value, outer.get? name = none → bound? outer text name = some value →
      Settable name value := by
  have hmem (name value : String) : (name, some value) ∈ resolved outer text ↔
      bound? outer text name = some value := by
    rw [Entries.mem_iff_get? (nodup_keys_resolved outer text), bound?, Option.join_eq_some_iff]
  simp only [merge_eq, foldlM_mergeStep_eq_ok, exists_and_left, exists_eq, and_true, Allowed]
  constructor
  · intro h name value houter hbound
    exact h _ ((hmem name value).mpr hbound) value rfl houter
  · rintro h ⟨name, _⟩ hb value rfl houter
    exact h name value houter ((hmem name value).mp hb)

end EnvFile

/-- A name in the directory of the project is that of a file, of a folder, or of nothing. -/
theorem Files.inProject_cases (files : Files) (name : String) :
    (∃ bytes, files.inProject name = .file bytes) ∨ files.inProject name = .folder ∨
      files.inProject name = .missing := by
  rw [inProject]
  cases files.project.get? name with
  | some bytes => exact .inl ⟨bytes, rfl⟩
  | none =>
    dsimp only
    split_ifs
    · exact .inr (.inl rfl)
    · exact .inr (.inr rfl)

namespace Settings

variable {process env : Entries String String} {files : Files} {envFile : Option String}
  {file : Option Bytes} {bytes : Bytes}

/-- The file of variables that counts among all others, by what it holds; none if there is none or
what counts is no file. -/
inductive Chosen (files : Files) : Option String → Option Bytes → Prop
  | named {name : String} {bytes : Bytes} (h : files.find (.ofString name) = .file bytes) :
    Chosen files (some name) (some bytes)
  | absent {name : String} (h : ∀ bytes, files.find (.ofString name) ≠ .file bytes) :
    Chosen files (some name) none
  | project {bytes : Bytes} (h : files.inProject fileName = .file bytes) :
    Chosen files none (some bytes)
  | folder (h : files.inProject fileName = .folder) : Chosen files none none
  | nearest {near far : List (Entries String Bytes)} {folder : Entries String Bytes}
      {bytes : Bytes} (hproject : files.inProject fileName = .missing)
      (hsplit : files.upward = near ++ folder :: far)
      (hnear : ∀ nearer ∈ near, nearer.get? fileName = none)
      (h : folder.get? fileName = some bytes) : Chosen files none (some bytes)
  | nowhere (hproject : files.inProject fileName = .missing)
      (h : ∀ folder ∈ files.upward, folder.get? fileName = none) : Chosen files none none

theorem source_of_chosen (h : Chosen files envFile file) : source files envFile = file := by
  cases h with
  | named h => simp [source, h]
  | absent h =>
    rw [source]
    split
    · next bytes hfind => exact absurd hfind (h bytes)
    · rfl
  | project h => simp [source, h]
  | folder h => simp [source, h]
  | nearest hproject hsplit hnear h =>
    simp only [source, hproject]
    exact List.findSome?_eq_some_iff.mpr ⟨_, _, _, hsplit, h, hnear⟩
  | nowhere hproject h =>
    simp only [source, hproject]
    exact List.findSome?_eq_none_iff.mpr h

theorem chosen_source (files : Files) (envFile : Option String) :
    Chosen files envFile (source files envFile) := by
  cases envFile with
  | some name =>
    rw [source]
    split
    · next bytes hfind => exact .named hfind
    · next hother => exact .absent hother
  | none =>
    rw [source]
    rcases files.inProject_cases fileName with ⟨bytes, hproject⟩ | hproject | hproject
    · simp only [hproject]
      exact .project hproject
    · simp only [hproject]
      exact .folder hproject
    · simp only [hproject]
      cases hfound : files.upward.findSome? (·.get? fileName) with
      | none => exact .nowhere hproject (List.findSome?_eq_none_iff.mp hfound)
      | some bytes =>
        obtain ⟨near, folder, far, hsplit, h, hnear⟩ := List.findSome?_eq_some_iff.mp hfound
        exact .nearest hproject hsplit hnear h

/-- The file that counts is no text. -/
def Garbled (file : Option Bytes) : Prop := ∃ bytes ∈ file, Utf8.Garbled bytes

/-- The value that the file that counts binds a variable to, if it is a text. -/
def boundIn? (process : Entries String String) (file : Option Bytes) (name : String) :
    Option String :=
  file.bind fun bytes =>
    (Files.textOf bytes).toOption.bind fun text => EnvFile.bound? process text name

/-- The value of a variable of the process, or else the one that the file binds it to. -/
def effective? (process : Entries String String) (file : Option Bytes) (name : String) :
    Option String :=
  (process.get? name).or (boundIn? process file name)

/-- The file binds a variable that is not set to what no variable can be set to. -/
def Barred (process : Entries String String) (file : Option Bytes) : Prop :=
  ∃ name value, process.get? name = none ∧ boundIn? process file name = some value ∧
    ¬ EnvFile.Settable name value

/-- The target that a value names; a blank one names none. -/
def targetOf (value : Option String) : Except Error Target :=
  let name := trim (value.getD "")
  if name = "" then .ok .fallback else (Target.ofName name).mapError .unknownTarget

def samplesOf (value : Option String) : Option Path :=
  let path := trim (value.getD "")
  if path = "" then none else some (.ofString path)

/-- The level of logging of a value. Only the empty value stands for the usual level. -/
def logLevelOf (value : Option String) : String :=
  upper (trim (if value.getD "" = "" then "WARNING" else value.getD ""))

/-- The settings that the values of variables make. -/
def ofValues (value : String → Option String) : Except Error Settings :=
  (targetOf (value targetVariable)).map fun t =>
    ⟨t, samplesOf (value samplesVariable), logLevelOf (value logLevelVariable)⟩

theorem ofVariables_eq (env : Entries String String) : ofVariables env = ofValues env.get? := by
  rw [ofValues, targetOf]
  by_cases hempty : trim ((env.get? targetVariable).getD "") = ""
  · simp only [ofVariables, if_pos hempty]
    rfl
  · simp only [ofVariables, if_neg hempty]
    cases Target.ofName (trim ((env.get? targetVariable).getD "")) <;> rfl

theorem targetOf_eq_error_iff {value : Option String} : (∃ e, targetOf value = .error e) ↔
    trim (value.getD "") ≠ "" ∧ Target.ofName? (trim (value.getD "")) = none := by
  rw [targetOf]
  split_ifs with hempty
  · simp [hempty]
  · rw [Target.ofName]
    cases Target.ofName? (trim (value.getD "")) <;> simp [hempty, Except.mapError]

theorem boundIn?_eq {text : String} (h : Files.textOf bytes = .ok text) (name : String) :
    boundIn? process (some bytes) name = EnvFile.bound? process text name := by
  rw [boundIn?, Option.bind_some, h]
  rfl

theorem garbled_some_iff : Garbled (some bytes) ↔ ∃ f, Files.textOf bytes = .error f := by
  simp [Garbled, Files.textOf_eq_error_iff]

/-- A text bars the settings exactly if it cannot be merged. -/
theorem barred_iff {text : String} (h : Files.textOf bytes = .ok text) :
    Barred process (some bytes) ↔ ¬ ∃ env, EnvFile.merge process text = .ok env := by
  rw [EnvFile.exists_merge_iff, Barred]
  simp only [boundIn?_eq h]
  push Not
  rfl

theorem load_of_garbled (h : Garbled (source files envFile)) :
    ∃ f, load process files envFile = .error (.undecodable f) := by
  rw [load]
  cases hsource : source files envFile with
  | none =>
    obtain ⟨bytes, hbytes, -⟩ := h
    rw [hsource] at hbytes
    cases hbytes
  | some bytes =>
    rw [hsource, garbled_some_iff] at h
    obtain ⟨f, hf⟩ := h
    exact ⟨f, by simp [hf]⟩

theorem load_of_barred (h : Barred process (source files envFile)) :
    ∃ f, load process files envFile = .error (.badVariable f) := by
  rw [load]
  cases hsource : source files envFile with
  | none =>
    obtain ⟨name, value, -, hbound, -⟩ := h
    rw [hsource] at hbound
    cases hbound
  | some bytes =>
    rw [hsource] at h
    cases htext : Files.textOf bytes with
    | error f =>
      obtain ⟨name, value, -, hbound, -⟩ := h
      rw [boundIn?, Option.bind_some, htext] at hbound
      cases hbound
    | ok text =>
      rw [barred_iff htext] at h
      cases hmerge : EnvFile.merge process text with
      | ok env => exact absurd ⟨env, hmerge⟩ h
      | error f => exact ⟨f, by simp [htext, hmerge]⟩

theorem load_of_free (hgarbled : ¬ Garbled (source files envFile))
    (hbarred : ¬ Barred process (source files envFile)) :
    load process files envFile = ofValues (effective? process (source files envFile)) := by
  rw [load]
  cases hsource : source files envFile with
  | none =>
    have hvalues : effective? process none = process.get? := by
      funext name
      rw [effective?, boundIn?, Option.bind_none, Option.or_none]
    rw [hvalues]
    exact ofVariables_eq process
  | some bytes =>
    rw [hsource] at hgarbled hbarred
    cases htext : Files.textOf bytes with
    | error f => exact absurd (garbled_some_iff.mpr ⟨f, htext⟩) hgarbled
    | ok text =>
      rw [barred_iff htext, not_not] at hbarred
      obtain ⟨env, hmerge⟩ := hbarred
      have hvalues : effective? process (some bytes) = env.get? := by
        funext name
        rw [EnvFile.get?_of_merge hmerge, effective?, boundIn?_eq htext]
      rw [hvalues]
      simp only [htext, hmerge]
      exact ofVariables_eq env

/-- An empty variable hides the one in the file, and a file nearby hides one further up. -/
example : load [("CURL_TRANSPILER_TARGET", "")] ⟨[[],
    [(".env", Utf8.encode "CURL_TRANSPILER_TARGET=go\nCURL_TRANSPILER_LOG_LEVEL=info")],
    [(".env", Utf8.encode "CURL_TRANSPILER_SAMPLES=s.yaml")]], [], []⟩ none =
      .ok ⟨.fetch, none, "INFO"⟩ := by
  decide +kernel

end Settings

end CurlSnippet
