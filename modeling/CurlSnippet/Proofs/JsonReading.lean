import CurlSnippet.Json.Decode
import CurlSnippet.Proofs.LastWrites
import CurlSnippet.Proofs.NumberSpelling

/-!
The values that reading gives, and the tokens that give them back. A decoded value has no repeated
key and no overlong whole number, because the reader keeps both out of everything it holds; such a
value is built again from its own tokens.
-/

namespace CurlSnippet

namespace Json

/-- No object repeats a key, and no whole number is too long to be read. -/
inductive Regular : Json → Prop
  | null : Regular .null
  | bool (b : Bool) : Regular (.bool b)
  | int {n : Int} (h : (Nat.toDigits 10 n.natAbs).length ≤ maxIntDigits) : Regular (.int n)
  | float (x : Binary64) : Regular (.float x)
  | str (t : Text) : Regular (.str t)
  | arr {items : List Json} (h : ∀ v ∈ items, Regular v) : Regular (.arr items)
  | obj {members : Entries Text Json} (hkeys : members.keys.Nodup)
      (h : ∀ m ∈ members, Regular m.2) : Regular (.obj members)

mutual

/-- The tokens of a value. -/
def tokens : Json → List Token
  | str t => [.text t]
  | arr items => .arrOpen :: (itemTokens items ++ [.arrClose])
  | obj members => .objOpen :: (memberTokens members ++ [.objClose])
  | v => [.atom v]

def itemTokens : List Json → List Token
  | [] => []
  | [v] => tokens v
  | v :: rest => tokens v ++ .comma :: itemTokens rest

def memberTokens : List (Text × Json) → List Token
  | [] => []
  | [(k, v)] => .text k :: .colon :: tokens v
  | (k, v) :: rest => .text k :: .colon :: (tokens v ++ .comma :: memberTokens rest)

end

namespace Reader

/-- The reader after a run of tokens. -/
def run (r : Reader) (ks : List Token) : Option Reader := ks.foldlM step r

theorem run_append (r : Reader) (ks ls : List Token) :
    r.run (ks ++ ls) = (r.run ks).bind fun r' => r'.run ls :=
  List.foldlM_append

theorem run_cons (r : Reader) (k : Token) (ks : List Token) :
    r.run (k :: ks) = (r.step k).bind fun r' => r'.run ks :=
  List.foldlM_cons

/-- The tokens of a value put the value in the place where it is waited for. -/
def Takes (v : Json) : Prop := ∀ stack, run ⟨stack, .value⟩ (tokens v) = some ⟨stack, .after v⟩

theorem run_items {v : Json} {rest : List Json} (h : ∀ w ∈ v :: rest, Takes w)
    (before : List Json) (stack : List Frame) :
    run ⟨.item before :: stack, .value⟩ (itemTokens (v :: rest) ++ [.arrClose]) =
      some ⟨stack, .after (.arr (before.reverse ++ v :: rest))⟩ := by
  induction rest generalizing v before with
  | nil =>
    rw [itemTokens, run_append, h v List.mem_cons_self]
    simp [run, step]
  | cons w rest ih =>
    have hrest : ∀ u ∈ w :: rest, Takes u := fun u hu => h u (List.mem_cons_of_mem v hu)
    have hnext := ih hrest (v :: before)
    rw [itemTokens, List.append_assoc, run_append, h v List.mem_cons_self]
    · rw [Option.bind_some, List.cons_append, run_cons]
      rw [List.reverse_cons, List.append_assoc, List.singleton_append] at hnext
      exact hnext
    · simp

theorem run_member {k : Text} {v : Json} (h : Takes v) (before : Entries Text Json)
    (stack : List Frame) (ks : List Token) :
    run ⟨stack, .nextKey before⟩ (.text k :: .colon :: (tokens v ++ ks)) =
      run ⟨.member before k :: stack, .after v⟩ ks := by
  have hopen : run ⟨stack, .nextKey before⟩ (.text k :: .colon :: (tokens v ++ ks)) =
      run ⟨.member before k :: stack, .value⟩ (tokens v ++ ks) := rfl
  rw [hopen, run_append, h, Option.bind_some]

theorem not_mem_keys_of_nodup {before rest : Entries Text Json} {k : Text} {v : Json}
    (h : (Entries.keys (before ++ (k, v) :: rest)).Nodup) : k ∉ before.keys := by
  rw [Entries.keys, List.map_append, List.nodup_append] at h
  intro hk
  exact h.2.2 k hk k List.mem_cons_self rfl

theorem run_members {m : Text × Json} {rest : List (Text × Json)}
    (h : ∀ n ∈ m :: rest, Takes n.2) {before : Entries Text Json}
    (hkeys : (Entries.keys (before ++ m :: rest)).Nodup) (stack : List Frame) :
    run ⟨stack, .nextKey before⟩ (memberTokens (m :: rest) ++ [.objClose]) =
      some ⟨stack, .after (.obj (before ++ m :: rest))⟩ := by
  induction rest generalizing m before with
  | nil =>
    obtain ⟨k, v⟩ := m
    have hput := Entries.put_of_not_mem (not_mem_keys_of_nodup hkeys) v
    rw [← hput]
    exact run_member (h (k, v) List.mem_cons_self) before stack [.objClose]
  | cons n rest ih =>
    obtain ⟨k, v⟩ := m
    have hput := Entries.put_of_not_mem (not_mem_keys_of_nodup hkeys) v
    have hrest : ∀ u ∈ n :: rest, Takes u.2 := fun u hu => h u (List.mem_cons_of_mem _ hu)
    have hnodup : (Entries.keys ((before ++ [(k, v)]) ++ n :: rest)).Nodup := by
      simpa using hkeys
    have hnext := ih hrest hnodup
    rw [← hput, hput, List.append_assoc, ← hput] at hnext
    have hmember := run_member (k := k) (h (k, v) List.mem_cons_self) before stack
      (.comma :: (memberTokens (n :: rest) ++ [.objClose]))
    rw [memberTokens]
    · rw [List.cons_append, List.cons_append, List.append_assoc, List.cons_append, hmember]
      exact hnext
    · simp

/-- The first token of a value opens it after the bracket of an array as it does elsewhere. -/
theorem run_firstItem (v : Json) (ks : List Token) (stack : List Frame) :
    run ⟨stack, .firstItem⟩ (tokens v ++ ks) =
      run ⟨.item [] :: stack, .value⟩ (tokens v ++ ks) := by
  cases v with
  | null | bool _ | int _ | float _ | str _ => rfl
  | arr _ | obj _ =>
    rw [tokens]
    rfl

theorem run_firstItems (v : Json) (rest : List Json) (ks : List Token) (stack : List Frame) :
    run ⟨stack, .firstItem⟩ (itemTokens (v :: rest) ++ ks) =
      run ⟨.item [] :: stack, .value⟩ (itemTokens (v :: rest) ++ ks) := by
  cases rest with
  | nil => exact run_firstItem v ks stack
  | cons w rest =>
    rw [itemTokens, List.append_assoc]
    · exact run_firstItem v _ stack
    · simp

theorem run_firstKey (m : Text × Json) (rest : List (Text × Json)) (ks : List Token)
    (stack : List Frame) :
    run ⟨stack, .firstKey⟩ (memberTokens (m :: rest) ++ ks) =
      run ⟨stack, .nextKey []⟩ (memberTokens (m :: rest) ++ ks) := by
  obtain ⟨k, v⟩ := m
  cases rest with
  | nil => rfl
  | cons n rest =>
    rw [memberTokens]
    · rfl
    · simp

theorem takes_of_regular {v : Json} (h : Regular v) : Takes v := by
  induction h with
  | null | bool _ | int _ | float _ | str _ =>
    intro stack
    rfl
  | @arr items _ ih =>
    intro stack
    cases items with
    | nil => rfl
    | cons w rest =>
      have hopen : run ⟨stack, .value⟩ (tokens (.arr (w :: rest))) =
          run ⟨stack, .firstItem⟩ (itemTokens (w :: rest) ++ [.arrClose]) := by
        rw [tokens]
        rfl
      rw [hopen, run_firstItems, run_items ih]
      rfl
  | @obj members hkeys _ ih =>
    intro stack
    cases members with
    | nil => rfl
    | cons m rest =>
      have hopen : run ⟨stack, .value⟩ (tokens (.obj (m :: rest))) =
          run ⟨stack, .firstKey⟩ (memberTokens (m :: rest) ++ [.objClose]) := by
        rw [tokens]
        rfl
      rw [hopen, run_firstKey]
      exact run_members ih hkeys stack

end Reader

/-- A regular value is built again from its tokens. -/
theorem ofTokens?_tokens {v : Json} (h : Regular v) : ofTokens? (tokens v) = some v := by
  have hrun : (tokens v).foldlM Reader.step Reader.start = some ⟨[], .after v⟩ :=
    Reader.takes_of_regular h []
  rw [ofTokens?, hrun]
  rfl

/-- A value that one token holds. -/
def Atomic (v : Json) : Prop := Regular v ∧ tokens v = [.atom v]

/-- Properties of values and of texts that pass through every way in which a reader puts a value
together. -/
structure ReadRules (value : Json → Prop) (text : Text → Prop) : Prop where
  atom : ∀ {v}, Atomic v → value v
  str : ∀ {t}, text t → value (.str t)
  arr : ∀ {items}, (∀ v ∈ items, value v) → value (.arr items)
  obj : ∀ {members : Entries Text Json}, members.keys.Nodup →
    (∀ m ∈ members, text m.1 ∧ value m.2) → value (.obj members)

/-- Regular values need nothing of their texts. -/
theorem readRules_regular : ReadRules Regular fun _ => True where
  atom h := h.1
  str _ := .str _
  arr h := .arr h
  obj hkeys h := .obj hkeys fun m hm => (h m hm).2

/-- A token holds a value of its own, or a text with the property. -/
def Token.Sound (text : Text → Prop) : Token → Prop
  | .atom v => Atomic v
  | .text t => text t
  | _ => True

section Reading

variable {value : Json → Prop} {text : Text → Prop}

/-- What a reader has taken of an object so far. -/
def SoundEntries (value : Json → Prop) (text : Text → Prop) (m : Entries Text Json) : Prop :=
  m.keys.Nodup ∧ ∀ p ∈ m, text p.1 ∧ value p.2

theorem SoundEntries.put {m : Entries Text Json} (h : SoundEntries value text m) {k : Text}
    (hk : text k) {v : Json} (hv : value v) : SoundEntries value text (m.put k v) := by
  refine ⟨Entries.nodup_keys_put h.1 k v, fun p hp => ?_⟩
  rcases Entries.mem_put hp with hold | rfl
  · exact h.2 p hold
  · exact ⟨hk, hv⟩

def Frame.Sound (value : Json → Prop) (text : Text → Prop) : Frame → Prop
  | .item before => ∀ v ∈ before, value v
  | .member before key => SoundEntries value text before ∧ text key

def Phase.Sound (value : Json → Prop) (text : Text → Prop) : Phase → Prop
  | .value | .firstItem | .firstKey => True
  | .nextKey before => SoundEntries value text before
  | .colon before key => SoundEntries value text before ∧ text key
  | .after v => value v

def Reader.Sound (value : Json → Prop) (text : Text → Prop) (r : Reader) : Prop :=
  (∀ f ∈ r.stack, f.Sound value text) ∧ r.phase.Sound value text

namespace Reader

theorem sound_open? (rules : ReadRules value text) {stack : List Frame} {k : Token} {r : Reader}
    (hstack : ∀ f ∈ stack, f.Sound value text) (hk : k.Sound text) (h : open? stack k = some r) :
    r.Sound value text := by
  cases k with
  | atom v =>
    obtain rfl := Option.some.inj h
    exact ⟨hstack, rules.atom hk⟩
  | text t =>
    obtain rfl := Option.some.inj h
    exact ⟨hstack, rules.str hk⟩
  | arrOpen | objOpen =>
    obtain rfl := Option.some.inj h
    exact ⟨hstack, trivial⟩
  | arrClose | objClose | comma | colon => cases h

/-- After a value, a comma or a closing bracket files it in the innermost container. -/
theorem sound_file (rules : ReadRules value text) {stack : List Frame} {v : Json} {k : Token}
    {r : Reader} (hstack : ∀ f ∈ stack, f.Sound value text) (hv : value v)
    (h : step ⟨stack, .after v⟩ k = some r) : r.Sound value text := by
  cases stack with
  | nil => cases k <;> cases h
  | cons f stack =>
    obtain ⟨hf, hrest⟩ := List.forall_mem_cons.mp hstack
    cases f with
    | item before =>
      have hitems : ∀ w ∈ v :: before, value w := List.forall_mem_cons.mpr ⟨hv, hf⟩
      cases k with
      | comma =>
        obtain rfl := Option.some.inj h
        exact ⟨List.forall_mem_cons.mpr ⟨hitems, hrest⟩, trivial⟩
      | arrClose =>
        obtain rfl := Option.some.inj h
        exact ⟨hrest, rules.arr fun w hw => hitems w (List.mem_reverse.mp hw)⟩
      | _ => cases h
    | member before key =>
      have hentries : SoundEntries value text (before.put key v) := hf.1.put hf.2 hv
      cases k with
      | comma =>
        obtain rfl := Option.some.inj h
        exact ⟨hrest, hentries⟩
      | objClose =>
        obtain rfl := Option.some.inj h
        exact ⟨hrest, rules.obj hentries.1 hentries.2⟩
      | _ => cases h

theorem sound_step (rules : ReadRules value text) {r r' : Reader} {k : Token}
    (hr : r.Sound value text) (hk : k.Sound text) (h : r.step k = some r') :
    r'.Sound value text := by
  obtain ⟨stack, phase⟩ := r
  obtain ⟨hstack, hphase⟩ := hr
  have hitem : ∀ f ∈ Frame.item [] :: stack, f.Sound value text :=
    List.forall_mem_cons.mpr ⟨by simp [Frame.Sound], hstack⟩
  have hempty : SoundEntries value text [] := ⟨List.nodup_nil, by simp⟩
  cases phase with
  | value => exact sound_open? rules hstack hk h
  | firstItem =>
    cases k with
    | arrClose =>
      obtain rfl := Option.some.inj h
      exact ⟨hstack, rules.arr (by simp)⟩
    | _ => exact sound_open? rules hitem hk h
  | firstKey =>
    cases k with
    | objClose =>
      obtain rfl := Option.some.inj h
      exact ⟨hstack, rules.obj hempty.1 hempty.2⟩
    | text key =>
      obtain rfl := Option.some.inj h
      exact ⟨hstack, hempty, hk⟩
    | _ => cases h
  | nextKey before =>
    cases k with
    | text key =>
      obtain rfl := Option.some.inj h
      exact ⟨hstack, hphase, hk⟩
    | _ => cases h
  | colon before key =>
    cases k with
    | colon =>
      obtain rfl := Option.some.inj h
      exact ⟨List.forall_mem_cons.mpr ⟨hphase, hstack⟩, trivial⟩
    | _ => cases h
  | after v => exact sound_file rules hstack hphase h

theorem sound_run (rules : ReadRules value text) {ks : List Token} (hks : ∀ k ∈ ks, k.Sound text)
    {r r' : Reader} (hr : r.Sound value text) (h : r.run ks = some r') : r'.Sound value text := by
  induction ks generalizing r with
  | nil =>
    obtain rfl := Option.some.inj h
    exact hr
  | cons k ks ih =>
    obtain ⟨hk, hrest⟩ := List.forall_mem_cons.mp hks
    rw [run_cons] at h
    obtain ⟨mid, hstep, hrun⟩ := Option.bind_eq_some_iff.mp h
    exact ih hrest (sound_step rules hr hk hstep) hrun

end Reader

/-- What the rules pass through holds of every value that is put together from sound tokens. -/
theorem ReadRules.ofTokens? (rules : ReadRules value text) {ks : List Token} {v : Json}
    (hks : ∀ k ∈ ks, k.Sound text) (h : ofTokens? ks = some v) : value v := by
  obtain ⟨r, hrun, hresult⟩ := Option.bind_eq_some_iff.mp h
  have hstart : Reader.start.Sound value text := ⟨by simp [Reader.start], trivial⟩
  have hr : r.Sound value text := Reader.sound_run rules hks hstart hrun
  obtain ⟨stack, phase⟩ := r
  cases stack with
  | cons f stack => cases hresult
  | nil =>
    cases phase with
    | after w =>
      obtain rfl := Option.some.inj hresult
      exact hr.2
    | _ => cases hresult

end Reading

theorem ofDigitChars_lt {cs : List Char} (h : ∀ c ∈ cs, c.isDigit = true) (init : Nat) :
    Nat.ofDigitChars 10 cs init < (init + 1) * 10 ^ cs.length := by
  induction cs generalizing init with
  | nil => simp
  | cons c cs ih =>
    obtain ⟨hc, hcs⟩ := List.forall_mem_cons.mp h
    have hdigit : c.toNat - '0'.toNat < 10 := by
      have hrange : 48 ≤ c.toNat ∧ c.toNat ≤ 57 := by
        simpa [Char.isDigit, Char.le_def, UInt32.le_iff_toNat_le] using hc
      have hzero : '0'.toNat = 48 := rfl
      omega
    have hstep : 10 * init + (c.toNat - '0'.toNat) + 1 ≤ (init + 1) * 10 := by omega
    rw [Nat.ofDigitChars_cons, List.length_cons, Nat.pow_succ']
    calc
      _ < (10 * init + (c.toNat - '0'.toNat) + 1) * 10 ^ cs.length := ih hcs _
      _ ≤ (init + 1) * 10 * 10 ^ cs.length := Nat.mul_le_mul_right _ hstep
      _ = (init + 1) * (10 * 10 ^ cs.length) := Nat.mul_assoc _ _ _

theorem length_toDigits_ofDigits {cs : List Char} (h : Digits cs) :
    (Nat.toDigits 10 (ofDigits cs)).length ≤ cs.length := by
  have hpos : 0 < cs.length := List.length_pos_iff.mpr h.ne_nil
  rw [Nat.length_toDigits_le_iff (by decide) hpos]
  have hlt := ofDigitChars_lt h.all 0
  rwa [Nat.zero_add, Nat.one_mul] at hlt

theorem atomic_unsigned? {negative : Bool} {cs : List Char} {v : Json}
    (h : unsigned? negative cs = some v) : Atomic v := by
  let whole := cs.takeWhile Char.isDigit
  by_cases hempty : (cs.dropWhile Char.isDigit).isEmpty = true
  · simp only [unsigned?, if_pos hempty] at h
    by_cases hbad : (whole.isEmpty || (whole.length != 1 && whole.head? == some '0')) = true
    · rw [if_pos hbad] at h
      cases h
    rw [if_neg hbad] at h
    by_cases hlong : maxIntDigits < whole.length
    · rw [if_pos hlong] at h
      cases h
    rw [if_neg hlong] at h
    have hwhole : Digits whole := ⟨fun c hc => List.mem_takeWhile_imp hc, by
      intro hnil
      exact hbad (by simp [hnil])⟩
    have hfew := length_toDigits_ofDigits hwhole
    obtain rfl := Option.some.inj h
    refine ⟨.int ?_, rfl⟩
    have hmagnitude : (if negative then -(ofDigits whole : Int) else ofDigits whole).natAbs =
        ofDigits whole := by
      split_ifs
      · omega
      · omega
    rw [hmagnitude]
    omega
  · simp only [unsigned?, if_neg hempty] at h
    split_ifs at h
    simp only [Option.bind_eq_bind, Option.bind_eq_some_iff] at h
    obtain ⟨_, -, e, -, x, -, hx⟩ := h
    obtain rfl := Option.some.inj hx
    exact ⟨.float x, rfl⟩

theorem atomic_number? {cs : List Char} {v : Json} (h : number? cs = some v) : Atomic v := by
  unfold number? at h
  split at h
  · exact atomic_unsigned? h
  · exact atomic_unsigned? h

section Tokens

variable {text : Text → Prop}

theorem eq_atom_of_wordToken? {w : List Char} {v : Json} {t rest : Text} {k : Token}
    (h : Token.wordToken? w v t = some (k, rest)) : k = .atom v := by
  obtain ⟨rest', -, heq⟩ := Option.map_eq_some_iff.mp h
  exact (congrArg Prod.fst heq).symm

theorem exists_atom_of_numberToken? {t rest : Text} {k : Token}
    (h : Token.numberToken? t = some (k, rest)) : ∃ v, Atomic v ∧ k = .atom v := by
  simp only [Token.numberToken?, Option.bind_eq_bind, Option.bind_eq_some_iff] at h
  obtain ⟨cs, -, v, hv, heq⟩ := h
  exact ⟨v, atomic_number? hv, (congrArg Prod.fst (Option.some.inj heq)).symm⟩

theorem sound_wordToken? {w : List Char} {v : Json} (hv : Atomic v) {t rest : Text} {k : Token}
    (h : Token.wordToken? w v t = some (k, rest)) : k.Sound text := by
  obtain rfl := eq_atom_of_wordToken? h
  exact hv

theorem sound_numberToken? {t rest : Text} {k : Token}
    (h : Token.numberToken? t = some (k, rest)) : k.Sound text := by
  obtain ⟨v, hv, rfl⟩ := exists_atom_of_numberToken? h
  exact hv

theorem sound_next? {t rest : Text} {k : Token}
    (hstring : ∀ {u}, readString t.tail = some u → text u.1)
    (h : Token.next? t = some (k, rest)) : k.Sound text := by
  cases t with
  | nil => cases h
  | cons p t =>
    cases p with
    | surrogate o => cases h
    | scalar c =>
      simp only [Token.next?] at h
      split_ifs at h
      -- six brackets and marks, a string, three words, and the numbers
      iterate 6
        · obtain ⟨rfl, -⟩ := Prod.mk.inj (Option.some.inj h)
          trivial
      · obtain ⟨r, hr, heq⟩ := Option.map_eq_some_iff.mp h
        obtain rfl : .text r.1 = k := congrArg Prod.fst heq
        exact hstring hr
      · exact sound_wordToken? ⟨.null, rfl⟩ h
      · exact sound_wordToken? ⟨.bool true, rfl⟩ h
      · exact sound_wordToken? ⟨.bool false, rfl⟩ h
      · exact sound_numberToken? h

end Tokens

theorem readSpelled_suffix {m : StringMode} {t rest : Text} {l : List Spelled}
    (h : readSpelled m t = some (l, rest)) : rest <:+ t := by
  induction t generalizing m l with
  | nil => cases m <;> cases h
  | cons p t ih =>
    have hpass : ∀ {m' : StringMode}, readSpelled m' t = some (l, rest) → rest <:+ p :: t :=
      fun h' => (ih h').trans (List.suffix_cons p t)
    have hmap : ∀ {m' : StringMode} {s : Spelled},
        (readSpelled m' t).map (fun r => (s :: r.1, r.2)) = some (l, rest) → rest <:+ p :: t := by
      intro m' s h'
      obtain ⟨r, hr, heq⟩ := Option.map_eq_some_iff.mp h'
      obtain ⟨-, rfl⟩ := Prod.mk.inj heq
      exact (ih hr).trans (List.suffix_cons p t)
    have hend : some ([], t) = some (l, rest) → rest <:+ p :: t := by
      intro h'
      obtain ⟨-, rfl⟩ := Prod.mk.inj (Option.some.inj h')
      exact List.suffix_cons p t
    cases m <;> simp only [readSpelled] at h <;> repeat' split at h
    all_goals first
      | exact hmap h
      | exact hpass h
      | exact hend h
      | cases h

theorem afterWord?_suffix {w : List Char} {t rest : Text} (h : Token.afterWord? w t = some rest) :
    rest <:+ t := by
  induction w generalizing t with
  | nil =>
    obtain rfl := Option.some.inj h
    exact List.suffix_rfl
  | cons c cs ih =>
    cases t with
    | nil => cases h
    | cons p t =>
      rw [Token.afterWord?] at h
      split_ifs at h
      exact (ih h).trans (List.suffix_cons p t)

/-- What follows a token is the end of the text. -/
theorem next?_suffix {t rest : Text} {k : Token} (h : Token.next? t = some (k, rest)) :
    rest <:+ t := by
  cases t with
  | nil => cases h
  | cons p t =>
    have htail : ∀ {u : Text}, u <:+ t → u <:+ p :: t := fun hu => hu.trans (List.suffix_cons p t)
    have hword : ∀ {w : List Char} {v : Json}, Token.wordToken? w v t = some (k, rest) →
        rest <:+ p :: t := by
      intro w v h'
      obtain ⟨u, hu, heq⟩ := Option.map_eq_some_iff.mp h'
      obtain ⟨-, rfl⟩ := Prod.mk.inj heq
      exact htail (afterWord?_suffix hu)
    cases p with
    | surrogate o => cases h
    | scalar c =>
      simp only [Token.next?] at h
      split_ifs at h
      iterate 6
        · obtain ⟨-, rfl⟩ := Prod.mk.inj (Option.some.inj h)
          exact htail List.suffix_rfl
      · obtain ⟨r, hr, heq⟩ := Option.map_eq_some_iff.mp h
        obtain ⟨-, rfl⟩ := Prod.mk.inj heq
        obtain ⟨l, hl, rfl⟩ := Option.map_eq_some_iff.mp hr
        exact htail (readSpelled_suffix hl)
      · exact hword h
      · exact hword h
      · exact hword h
      · simp only [Token.numberToken?, Option.bind_eq_bind, Option.bind_eq_some_iff] at h
        obtain ⟨cs, -, v, -, heq⟩ := h
        obtain ⟨-, rfl⟩ := Prod.mk.inj (Option.some.inj heq)
        exact List.dropWhile_suffix _

/-- The tokens of a text are sound if every string in the text is read with the property. -/
theorem sound_scan {text : Text → Prop} {t : Text} {ks : List Token}
    (hstring : ∀ {s u}, s <:+ t → readString s = some u → text u.1)
    (h : Token.scan t = some ks) : ∀ k ∈ ks, k.Sound text := by
  fun_induction Token.scan t generalizing ks with
  | case1 =>
    obtain rfl := Option.some.inj h
    simp
  | case2 p rest hspace ih => exact ih (fun hs => hstring (hs.trans (List.suffix_cons p rest))) h
  | case3 p rest hspace hnext => cases h
  | case4 p rest hspace k rest' hnext ih =>
    obtain ⟨ks', hks', rfl⟩ := Option.map_eq_some_iff.mp h
    have hk : k.Sound text :=
      sound_next? (t := p :: rest) (fun hu => hstring (List.suffix_cons p rest) hu) hnext
    refine List.forall_mem_cons.mpr ⟨hk, ?_⟩
    exact ih (fun hs => hstring (hs.trans (next?_suffix hnext))) hks'

/-- What the rules pass through holds of every decoded value. -/
theorem ReadRules.decode? {value : Json → Prop} {text : Text → Prop}
    (rules : ReadRules value text) {t : Text} {v : Json}
    (hstring : ∀ {s u}, s <:+ t → readString s = some u → text u.1) (h : decode? t = some v) :
    value v := by
  obtain ⟨ks, hscan, hread⟩ := Option.bind_eq_some_iff.mp h
  exact rules.ofTokens? (sound_scan hstring hscan) hread

/-- Decoding gives regular values. -/
theorem regular_of_decode? {t : Text} {v : Json} (h : decode? t = some v) : Regular v :=
  readRules_regular.decode? (fun _ _ => trivial) h

end Json

end CurlSnippet
