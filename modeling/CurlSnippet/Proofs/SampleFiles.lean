import CurlSnippet.Proofs.LastWrites
import CurlSnippet.Proofs.Results
import CurlSnippet.Samples
import Mathlib.Data.List.Forall2

/-!
Files of samples. A mapping is loaded exactly if it has members, every value is a text with
something in it and every label has a text; then it leaves the last writes of its members under the
texts of their labels. So a file keeps all its samples exactly if no two labels have one text. The
keys of a YAML mapping differ as values, which tells texts apart, but not a text from the number
that it spells.
-/

namespace CurlSnippet

namespace Yaml

theorem Atom.sameKey_str {t u : Text} : sameKey (.str t) (.str u) = false ↔ t ≠ u := by
  simp [sameKey, number?]

namespace Content

/-- No key stands twice. -/
def DistinctKeys (members : List (Atom × Value)) : Prop :=
  (members.map Prod.fst).Pairwise fun j k => j.sameKey k = false

theorem keys_putMember (members : List (Atom × Value)) (k : Atom) (v : Value) :
    (putMember members k v).map Prod.fst =
      if members.any fun m => m.1.sameKey k then members.map Prod.fst
      else members.map Prod.fst ++ [k] := by
  induction members with
  | nil => rfl
  | cons m rest ih =>
    obtain ⟨j, w⟩ := m
    by_cases hj : j.sameKey k = true
    · simp [putMember, hj]
    · rw [putMember, if_neg hj, List.map_cons, ih, List.any_cons, Bool.eq_false_iff.mpr hj,
        Bool.false_or]
      split_ifs <;> rfl

theorem distinctKeys_putMember {members : List (Atom × Value)} (h : DistinctKeys members)
    (k : Atom) (v : Value) : DistinctKeys (putMember members k v) := by
  rw [DistinctKeys, keys_putMember]
  split_ifs with hany
  · exact h
  · refine List.pairwise_append.mpr ⟨h, List.pairwise_singleton _ _, ?_⟩
    intro j hj k' hk'
    obtain rfl := List.mem_singleton.mp hk'
    obtain ⟨m, hm, rfl⟩ := List.mem_map.mp hj
    rw [List.any_eq_true, not_exists] at hany
    exact Bool.eq_false_iff.mpr fun hsame => hany m ⟨hm, hsame⟩

theorem distinctKeys_members {id : Nat} {b b' : Builder} {entries : List (Atom × Value)}
    (h : (members id).run b = .ok (entries, b')) : DistinctKeys entries := by
  rw [members, StateT.run_bind] at h
  obtain ⟨⟨g, b₁⟩, -, h⟩ := Except.bind_eq_ok.mp h
  rw [StateT.run_bind] at h
  obtain ⟨⟨⟨ms, g'⟩, b₂⟩, -, h⟩ := Except.bind_eq_ok.mp h
  rw [StateT.run_bind] at h
  obtain ⟨⟨u, b₃⟩, -, h⟩ := Except.bind_eq_ok.mp h
  have hnil : DistinctKeys [] := List.Pairwise.nil
  refine foldlM_run_invariant ?_ hnil h
  intro entries m entries' s s' hentries hstep
  rw [StateT.run_bind] at hstep
  obtain ⟨⟨key, s₁⟩, -, hstep⟩ := Except.bind_eq_ok.mp hstep
  cases key with
  | collection => cases hstep
  | atom k =>
    rw [StateT.run_bind] at hstep
    obtain ⟨⟨v, s₂⟩, -, hstep⟩ := Except.bind_eq_ok.mp hstep
    obtain ⟨rfl, -⟩ := Prod.mk.inj (Except.ok.inj hstep)
    exact distinctKeys_putMember hentries k v

theorem distinctKeys_ofRoot {root : Nat} {b b' : Builder} {entries : List (Atom × Value)}
    (h : (ofRoot root).run b = .ok (.mapping entries, b')) : DistinctKeys entries := by
  rw [ofRoot, StateT.run_bind] at h
  obtain ⟨⟨b₁, b₂⟩, -, h⟩ := Except.bind_eq_ok.mp h
  dsimp only at h
  split_ifs at h
  · rw [StateT.run_bind] at h
    obtain ⟨⟨u, b₃⟩, -, h⟩ := Except.bind_eq_ok.mp h
    rw [StateT.run_bind] at h
    obtain ⟨⟨found, b₄⟩, hfound, h⟩ := Except.bind_eq_ok.mp h
    rw [StateT.run_bind] at h
    obtain ⟨⟨u', b₅⟩, -, h⟩ := Except.bind_eq_ok.mp h
    obtain ⟨hmapping, -⟩ := Prod.mk.inj (Except.ok.inj h)
    obtain rfl := Content.mapping.inj hmapping
    exact distinctKeys_members hfound
  · rw [StateT.run_bind] at h
    obtain ⟨⟨v, b₃⟩, -, h⟩ := Except.bind_eq_ok.mp h
    rw [StateT.run_bind] at h
    obtain ⟨⟨u, b₄⟩, -, h⟩ := Except.bind_eq_ok.mp h
    cases h

/-- The keys of a mapping that has been read differ. -/
theorem distinctKeys_ofText {text : String} {entries : List (Atom × Value)}
    (h : ofText text = .ok (.mapping entries)) : DistinctKeys entries := by
  obtain ⟨⟨tokens, ending⟩, -, h⟩ := Except.bind_eq_ok.mp h
  obtain ⟨⟨g, root⟩, -, h⟩ := Except.bind_eq_ok.mp h
  cases root with
  | none => cases h
  | some root =>
    obtain ⟨⟨c, b⟩, hroot, h⟩ := Except.bind_eq_ok.mp h
    obtain rfl : c = .mapping entries := Except.ok.inj h
    exact distinctKeys_ofRoot hroot

end Content

end Yaml

namespace Samples

variable {members : List (Yaml.Atom × Yaml.Value)} {pairs : List (Text × Text)}

/-- The sample that a member of a mapping says: the text of its label, and its value as it is. -/
structure Says (m : Yaml.Atom × Yaml.Value) (s : Text × Text) : Prop where
  label : s.1 = m.1.label
  command : m.2 = .atom (.str s.2)

/-- The sample is taken over from the member. -/
structure Taken (m : Yaml.Atom × Yaml.Value) (s : Text × Text) : Prop extends Says m s where
  isShort : m.1.isLong = false
  isFilled : isBlankText s.2 = false

/-- What the members of a mapping have to be: there are some, every value is a text with something
in it, and no label is a whole number with more digits than are ever written. -/
structure Loadable (members : List (Yaml.Atom × Yaml.Value)) : Prop where
  nonempty : members ≠ []
  commands : ∀ m ∈ members, ∃ t, m.2 = .atom (.str t) ∧ isBlankText t = false
  labels : ∀ m ∈ members, m.1.isLong = false

theorem command?_eq_some {v : Yaml.Value} {t : Text} :
    command? v = some t ↔ v = .atom (.str t) ∧ isBlankText t = false := by
  constructor
  · intro h
    unfold command? at h
    split at h
    · split_ifs at h with hblank
      obtain rfl := Option.some.inj h
      exact ⟨rfl, Bool.eq_false_iff.mpr hblank⟩
    · cases h
  · rintro ⟨rfl, hfilled⟩
    simp [command?, hfilled]

/-- Members are added exactly if a sample is taken over from each of them. -/
theorem addMembers_eq_ok {samples s : Samples} :
    addMembers samples members = .ok s ↔
      ∃ pairs, List.Forall₂ Taken members pairs ∧
        s = pairs.foldl (fun m p => Entries.put m p.1 p.2) samples := by
  induction members generalizing samples with
  | nil =>
    simp only [addMembers, Except.ok.injEq, List.forall₂_nil_left_iff, exists_eq_left,
      List.foldl_nil]
    exact eq_comm
  | cons m rest ih =>
    obtain ⟨label, v⟩ := m
    simp only [List.forall₂_cons_left_iff]
    constructor
    · intro h
      rw [addMembers] at h
      split_ifs at h with hlong
      split at h
      · next c hc =>
        obtain ⟨pairs, hrest, rfl⟩ := ih.mp h
        obtain ⟨hv, hfilled⟩ := command?_eq_some.mp hc
        exact ⟨_, ⟨(label.label, c), pairs, ⟨⟨rfl, hv⟩, Bool.eq_false_iff.mpr hlong, hfilled⟩,
          hrest, rfl⟩, rfl⟩
      · cases h
    · rintro ⟨_, ⟨⟨l, c⟩, pairs, ⟨⟨hl, hv⟩, hshort, hfilled⟩, hrest, rfl⟩, rfl⟩
      obtain rfl : l = label.label := hl
      have hlong : ¬ label.isLong = true := Bool.eq_false_iff.mp hshort
      rw [addMembers, if_neg hlong, command?_eq_some.mpr ⟨hv, hfilled⟩]
      exact ih.mpr ⟨pairs, hrest, rfl⟩

theorem ofContent_eq_ok {path : Path} {c : Yaml.Content} {s : Samples} :
    ofContent path c = .ok s ↔ ∃ members pairs, c = .mapping members ∧ members ≠ [] ∧
      List.Forall₂ Taken members pairs ∧ s = Entries.ofPairs pairs := by
  cases c with
  | other => simp [ofContent]
  | mapping members =>
    cases members with
    | nil => simp [ofContent]
    | cons m rest => simp [ofContent, addMembers_eq_ok, Entries.ofPairs]

theorem exists_taken_iff :
    (∃ pairs, List.Forall₂ Taken members pairs) ↔
      ∀ m ∈ members, (∃ t, m.2 = .atom (.str t) ∧ isBlankText t = false) ∧ m.1.isLong = false := by
  induction members with
  | nil => simp
  | cons m rest ih =>
    simp only [List.forall_mem_cons, ← ih, List.forall₂_cons_left_iff]
    constructor
    · rintro ⟨_, s, pairs, h, hrest, rfl⟩
      exact ⟨⟨⟨s.2, h.command, h.isFilled⟩, h.isShort⟩, pairs, hrest⟩
    · rintro ⟨⟨⟨t, ht, hfilled⟩, hshort⟩, pairs, hrest⟩
      exact ⟨_, (m.1.label, t), pairs, ⟨⟨rfl, ht⟩, hshort, hfilled⟩, hrest, rfl⟩

theorem keys_of_says (h : List.Forall₂ Says members pairs) :
    Entries.keys pairs = members.map fun m => m.1.label := by
  induction h with
  | nil => rfl
  | cons h _ ih =>
    rw [Entries.keys] at ih ⊢
    rw [List.map_cons, List.map_cons, h.label, ih]

/-- Samples that are written one after the other are all kept exactly if no two have one label. -/
theorem says_ofPairs_iff (h : List.Forall₂ Says members pairs) :
    List.Forall₂ Says members (Entries.ofPairs pairs) ↔
      (members.map fun m => m.1.label).Nodup := by
  constructor
  · intro hall
    rw [← keys_of_says hall]
    exact Entries.nodup_keys_ofPairs pairs
  · intro hnodup
    rw [← keys_of_says h] at hnodup
    rwa [Entries.ofPairs_eq_self hnodup]

/-- Keys that are texts and differ are labels that differ. -/
theorem nodup_labels (hkeys : Yaml.Content.DistinctKeys members)
    (htexts : ∀ m ∈ members, ∃ t, m.1 = .str t) : (members.map fun m => m.1.label).Nodup := by
  rw [Yaml.Content.DistinctKeys, List.pairwise_map] at hkeys
  rw [List.Nodup, List.pairwise_map]
  refine hkeys.imp_of_mem ?_
  intro m n hm hn hdiffer
  obtain ⟨t, ht⟩ := htexts m hm
  obtain ⟨u, hu⟩ := htexts n hn
  rw [ht, hu] at hdiffer ⊢
  exact Yaml.Atom.sameKey_str.mp hdiffer

theorem load_eq_ok {files : Files} {path : Path} {s : Samples} :
    load files (some path) = .ok s ↔ ∃ text c, files.read path = .ok text ∧
      Yaml.Content.ofText text = .ok c ∧ ofContent path c = .ok s := by
  rw [load]
  cases hread : files.read path with
  | error e => simp
  | ok text =>
    simp only [ofText]
    cases hcontent : Yaml.Content.ofText text with
    | error e => simp [hcontent]
    | ok c =>
      simp only [Except.ok.injEq, exists_and_left, exists_eq_left', hcontent]
      cases ofContent path c <;> simp

/-- The content of a file gives samples exactly if it is a mapping with members, all values are
texts with something in them, and no label is too long a number to have a text. They are the last
writes of the members under the texts of their labels, in the order of the first writes. So there is
a sample for every member, in the same order, with the text of its label and its command as it is,
exactly if no two labels have one text. Two labels that are texts never have; a text and a number
can. -/
theorem ofContent_samples (path : Path) :
    (∀ c, (∃ s, ofContent path c = .ok s) ↔ ∃ members, c = .mapping members ∧ Loadable members) ∧
    (∀ members s, ofContent path (.mapping members) = .ok s →
      (∃ pairs, List.Forall₂ Says members pairs ∧ s = Entries.lastWrites pairs) ∧
      (List.Forall₂ Says members s ↔ (members.map fun m => m.1.label).Nodup)) ∧
    (∀ text members, Yaml.Content.ofText text = .ok (.mapping members) →
      (∀ m ∈ members, ∃ t, m.1 = .str t) → (members.map fun m => m.1.label).Nodup) ∧
    ∀ files s, load files (some path) = .ok s ↔ ∃ text c, files.read path = .ok text ∧
      Yaml.Content.ofText text = .ok c ∧ ofContent path c = .ok s := by
  refine ⟨fun c => ?_, fun members s h => ?_, fun text members h htexts => ?_,
    fun files s => load_eq_ok⟩
  · simp only [ofContent_eq_ok]
    constructor
    · rintro ⟨s, members, pairs, rfl, hne, hpairs, rfl⟩
      have hall := exists_taken_iff.mp ⟨pairs, hpairs⟩
      exact ⟨members, rfl, hne, fun m hm => (hall m hm).1, fun m hm => (hall m hm).2⟩
    · rintro ⟨members, rfl, hne, hcommands, hlabels⟩
      obtain ⟨pairs, hpairs⟩ := exists_taken_iff.mpr fun m hm => ⟨hcommands m hm, hlabels m hm⟩
      exact ⟨_, members, pairs, rfl, hne, hpairs, rfl⟩
  · obtain ⟨members', pairs, hmapping, -, hpairs, rfl⟩ := ofContent_eq_ok.mp h
    obtain rfl := Yaml.Content.mapping.inj hmapping
    have hsays := hpairs.imp fun _ _ htaken => htaken.toSays
    exact ⟨⟨pairs, hsays, Entries.ofPairs_eq_lastWrites pairs⟩, says_ofPairs_iff hsays⟩
  · exact nodup_labels (Yaml.Content.distinctKeys_ofText h) htexts

/-- A number, null and a text that are no one label. -/
theorem ofContent_samples_kept :
    let path : Path := .ofString "s.yaml"
    let text := "1.50: curl a\n~: curl b\n'1.50': curl c\n"
    let said (s : String) : Yaml.Value := .atom (.str (.ofString s))
    let members := [(Yaml.Atom.finite ⟨false, ⟨0x3FF8000000000000, by decide⟩⟩, said "curl a"),
      (.null, said "curl b"), (.str (.ofString "1.50"), said "curl c")]
    let s : Samples := [(.ofString "1.5", .ofString "curl a"),
      (.ofString "None", .ofString "curl b"), (.ofString "1.50", .ofString "curl c")]
    load (.ofTexts [("s.yaml", text)]) (some path) = .ok s ∧ List.Forall₂ Says members s := by
  intro path text said members s
  have hcontent : Yaml.Content.ofText text = .ok (.mapping members) := by decide +kernel
  have hloaded : ofContent path (.mapping members) = .ok s := by decide +kernel
  have hread : Files.read (.ofTexts [("s.yaml", text)]) path = .ok text := by decide +kernel
  obtain ⟨-, hsamples, -, hload⟩ := ofContent_samples path
  have hnodup : (members.map fun m => m.1.label).Nodup := by decide +kernel
  exact ⟨(hload _ s).mpr ⟨text, _, hread, hcontent, hloaded⟩,
    (hsamples members s hloaded).2.mpr hnodup⟩

/-- A number and a text that spells it are one label, and the first command is lost; a number of
more digits than are ever written is no label at all. -/
theorem ofContent_samples_lost :
    let path : Path := .ofString "s.yaml"
    let said (s : String) : Yaml.Value := .atom (.str (.ofString s))
    let members := [(Yaml.Atom.int 1, said "curl x"), (.str (.ofString "1"), said "curl y")]
    Yaml.Content.ofText "1: curl x\n'1': curl y\n" = .ok (.mapping members) ∧
      ofContent path (.mapping members) = .ok [(.ofString "1", .ofString "curl y")] ∧
      ofContent path (.mapping [(.int (.ofNat (Nat.pow 10 4300)), said "curl x")]) =
        .error .longLabel := by
  decide +kernel

end Samples

end CurlSnippet
