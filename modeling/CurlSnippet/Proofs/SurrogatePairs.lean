import CurlSnippet.Proofs.LiteralCharacters

/-!
Texts by their 16-bit units. A code point past U+FFFF is a pair of surrogates, so a text is given
back by its units as long as no two lone surrogates stand in it side by side as such a pair. The
reader of a JSON text joins pairs itself, so decoded texts are of that kind.
-/

namespace CurlSnippet

namespace CodePoint

/-- The surrogates that come first in a pair. -/
def isHigh : CodePoint → Bool
  | scalar _ => false
  | surrogate o => o.val < 0x400

/-- The surrogates that come second in a pair. -/
def isLow : CodePoint → Bool
  | scalar _ => false
  | surrogate o => 0x400 ≤ o.val

theorem mod_unit_lt (n : Nat) : n % 0x10000 < 0x10000 := Nat.mod_lt n (by decide)

/-- A number as a unit. -/
def asUnit (n : Nat) : Fin 0x10000 := ⟨n % 0x10000, mod_unit_lt n⟩

theorem val_asUnit {n : Nat} (hn : n < 0x10000) : (asUnit n).val = n := Nat.mod_eq_of_lt hn

/-- The units of a code point. -/
def units (p : CodePoint) : List (Fin 0x10000) :=
  if p.toNat < 0x10000 then [asUnit p.toNat]
  else [asUnit (0xD800 + (p.toNat - 0x10000) / 0x400),
    asUnit (0xDC00 + (p.toNat - 0x10000) % 0x400)]

/-- A character is no surrogate. -/
theorem toNat_char (c : Char) : c.toNat < 0xD800 ∨ 0xDFFF < c.toNat ∧ c.toNat < 0x110000 :=
  c.valid

theorem ofNat_toNat (p : CodePoint) : ofNat p.toNat = p := by
  cases p with
  | scalar c =>
    have hrange : ¬ (0xD800 ≤ c.toNat ∧ c.toNat < 0xE000) := by
      have hchar := toNat_char c
      omega
    rw [toNat, ofNat, dif_neg hrange, Char.ofNat_toNat]
  | surrogate o =>
    have hrange : 0xD800 ≤ 0xD800 + o.val ∧ 0xD800 + o.val < 0xE000 := by omega
    have hoffset : 0xD800 + o.val - 0xD800 = o.val := Nat.add_sub_cancel_left ..
    simp only [toNat, ofNat, dif_pos hrange, hoffset]

theorem isHigh_ofNat (n : Nat) : (ofNat n).isHigh = Json.isHighUnit n := by
  rw [Bool.eq_iff_iff, Json.isHighUnit_iff]
  by_cases h : 0xD800 ≤ n ∧ n < 0xE000
  · have hoffset : n - 0xD800 < 0x400 ↔ 0xD800 ≤ n ∧ n < 0xDC00 := by omega
    rw [ofNat, dif_pos h, isHigh, decide_eq_true_eq]
    exact hoffset
  · rw [ofNat, dif_neg h, isHigh]
    exact iff_of_false Bool.false_ne_true (by omega)

theorem isLow_ofNat (n : Nat) : (ofNat n).isLow = Json.isLowUnit n := by
  rw [Bool.eq_iff_iff, Json.isLowUnit_iff]
  by_cases h : 0xD800 ≤ n ∧ n < 0xE000
  · have hoffset : 0x400 ≤ n - 0xD800 ↔ 0xDC00 ≤ n ∧ n < 0xE000 := by omega
    rw [ofNat, dif_pos h, isLow, decide_eq_true_eq]
    exact hoffset
  · rw [ofNat, dif_neg h, isLow]
    exact iff_of_false Bool.false_ne_true (by omega)

theorem isHighUnit_toNat (p : CodePoint) : Json.isHighUnit p.toNat = p.isHigh := by
  rw [← isHigh_ofNat, ofNat_toNat]

theorem isLowUnit_toNat (p : CodePoint) : Json.isLowUnit p.toNat = p.isLow := by
  rw [← isLow_ofNat, ofNat_toNat]

/-- A code point past U+FFFF is a character. -/
theorem exists_char {p : CodePoint} (h : ¬ p.toNat < 0x10000) :
    ∃ c : Char, p = .scalar c ∧ 0x10000 ≤ c.toNat := by
  cases p with
  | scalar c => exact ⟨c, rfl, Nat.not_lt.mp h⟩
  | surrogate o =>
    rw [toNat] at h
    omega

end CodePoint

namespace Text

/-- No two surrogates stand side by side as a pair. -/
def Joined (t : Text) : Prop := t.IsChain fun p q => ¬ (p.isHigh = true ∧ q.isLow = true)

def units (t : Text) : List (Fin 0x10000) := t.flatMap CodePoint.units

/-- The text of units, each pair joined. -/
def ofUnits (us : List (Fin 0x10000)) : Text := Json.pairUnits (us.map .unit)

end Text

namespace Json

/-- The units of a code point past U+FFFF are joined. -/
theorem ofPair_units {c : Char} (hc : 0x10000 ≤ c.toNat) :
    let high := 0xD800 + (c.toNat - 0x10000) / 0x400
    let low := 0xDC00 + (c.toNat - 0x10000) % 0x400
    isHighUnit high = true ∧ isLowUnit low = true ∧ high < 0x10000 ∧ low < 0x10000 ∧
      ofPair high low = c := by
  intro high low
  have hchar := CodePoint.toNat_char c
  have hvalue : 0x10000 + (high - 0xD800) * 0x400 + (low - 0xDC00) = c.toNat := by omega
  refine ⟨?_, ?_, by omega, by omega, ?_⟩
  · rw [isHighUnit_iff]
    omega
  · rw [isLowUnit_iff]
    omega
  · rw [ofPair, hvalue, Char.ofNat_toNat]

/-- The units of a code point are one place of a text, unless they pair with what follows. -/
theorem pairUnits_units {p : CodePoint} {l : List Spelled}
    (h : (p.isHigh && beginsLow l) = false) :
    pairUnits (p.units.map .unit ++ l) = p :: pairUnits l := by
  by_cases hp : p.toNat < 0x10000
  · have hunit := CodePoint.val_asUnit hp
    rw [← p.isHighUnit_toNat, ← hunit] at h
    rw [CodePoint.units, if_pos hp, List.map_singleton, List.singleton_append,
      pairUnits_unpaired h, hunit, p.ofNat_toNat]
  · obtain ⟨c, rfl, hc⟩ := CodePoint.exists_char hp
    obtain ⟨hhigh, hlow, hhigh', hlow', hpair⟩ := ofPair_units hc
    rw [CodePoint.units, if_neg hp]
    simp only [CodePoint.toNat, List.map_cons, List.map_nil, List.cons_append, List.nil_append,
      pairUnits, CodePoint.val_asUnit hhigh', CodePoint.val_asUnit hlow', hhigh, hlow,
      hpair, Bool.and_true, if_true]

theorem beginsLow_units (p : CodePoint) (l : List Spelled) :
    beginsLow (p.units.map .unit ++ l) = p.isLow := by
  by_cases hp : p.toNat < 0x10000
  · have hunit := CodePoint.val_asUnit hp
    rw [CodePoint.units, if_pos hp, List.map_singleton, List.singleton_append, beginsLow, hunit,
      p.isLowUnit_toNat]
  · obtain ⟨c, rfl, hc⟩ := CodePoint.exists_char hp
    have hlow : isLowUnit (0xD800 + (c.toNat - 0x10000) / 0x400) = false := by
      rw [Bool.eq_false_iff, ne_eq, isLowUnit_iff]
      have hchar := CodePoint.toNat_char c
      omega
    have hunit := (ofPair_units hc).2.2.1
    rw [CodePoint.units, if_neg hp, List.map_cons, List.cons_append, beginsLow,
      CodePoint.toNat, CodePoint.val_asUnit hunit, hlow, CodePoint.isLow]

end Json

namespace Text

theorem beginsLow_units (t : Text) :
    Json.beginsLow ((units t).map .unit) = (t.head?.map CodePoint.isLow).getD false := by
  cases t with
  | nil => rfl
  | cons p t =>
    rw [units, List.flatMap_cons, List.map_append, Json.beginsLow_units]
    rfl

/-- A joined text is given back by its units. -/
theorem ofUnits_units {t : Text} (h : t.Joined) : ofUnits (units t) = t := by
  induction t with
  | nil => rfl
  | cons p t ih =>
    have hapart : (p.isHigh && Json.beginsLow ((units t).map .unit)) = false := by
      rw [beginsLow_units]
      cases t with
      | nil => exact Bool.and_false _
      | cons q t =>
        have hpair := (List.isChain_cons_cons.mp h).1
        rwa [← Bool.and_eq_true, Bool.not_eq_true] at hpair
    have hrest : ofUnits (units t) = t := ih h.tail
    rw [ofUnits] at hrest ⊢
    rw [units, List.flatMap_cons, List.map_append]
    exact (Json.pairUnits_units hapart).trans (congrArg (p :: ·) hrest)

end Text

namespace Json

/-- The places that stand for themselves are no surrogates. -/
def ScalarPoints (l : List Spelled) : Prop := ∀ o, .point (.surrogate o) ∉ l

theorem beginsLow_of_isLow {l : List Spelled} (h : ScalarPoints l) {p : CodePoint}
    (hp : p ∈ (pairUnits l).head?) (hlow : p.isLow = true) : beginsLow l = true := by
  fun_cases pairUnits l with
  | case1 => cases hp
  | case2 c rest =>
    obtain rfl : c = p := Option.some.inj hp
    cases c with
    | scalar c => cases hlow
    | surrogate o => exact absurd List.mem_cons_self (h o)
  | case3 u v rest hpair =>
    rw [pairUnits, if_pos hpair] at hp
    obtain rfl := Option.some.inj hp
    cases hlow
  | case4 u v rest hpair =>
    rw [pairUnits, if_neg hpair] at hp
    obtain rfl := Option.some.inj hp
    rwa [CodePoint.isLow_ofNat] at hlow
  | case5 u rest hunit =>
    rw [pairUnits] at hp
    · obtain rfl := Option.some.inj hp
      rwa [CodePoint.isLow_ofNat] at hlow
    · exact hunit

/-- Joining leaves no pair. -/
theorem joined_pairUnits {l : List Spelled} (h : ScalarPoints l) : Text.Joined (pairUnits l) := by
  fun_induction pairUnits l with
  | case1 => exact List.isChain_nil
  | case2 c rest ih =>
    have hrest : ScalarPoints rest := fun o ho => h o (List.mem_cons_of_mem _ ho)
    refine List.isChain_cons.mpr ⟨fun q _ hpair => ?_, ih hrest⟩
    cases c with
    | scalar c => cases hpair.1
    | surrogate o => exact h o List.mem_cons_self
  | case3 u v rest hpair ih =>
    have hrest : ScalarPoints rest := fun o ho =>
      h o (List.mem_cons_of_mem _ (List.mem_cons_of_mem _ ho))
    exact List.isChain_cons.mpr ⟨fun q _ hpair => (nomatch hpair.1), ih hrest⟩
  | case4 u v rest hunpaired ih =>
    have hrest : ScalarPoints (.unit v :: rest) := fun o ho => h o (List.mem_cons_of_mem _ ho)
    refine List.isChain_cons.mpr ⟨fun q hq hpair => hunpaired ?_, ih hrest⟩
    rw [CodePoint.isHigh_ofNat] at hpair
    exact Bool.and_eq_true_iff.mpr ⟨hpair.1, beginsLow_of_isLow hrest hq hpair.2⟩
  | case5 u rest hunit ih =>
    have hrest : ScalarPoints rest := fun o ho => h o (List.mem_cons_of_mem _ ho)
    refine List.isChain_cons.mpr ⟨fun q hq hpair => ?_, ih hrest⟩
    have hbegins := beginsLow_of_isLow hrest hq hpair.2
    match rest, hbegins with
    | .unit v :: rest, _ => exact hunit v rest rfl

/-- The units of a text come from its pairs. -/
theorem joined_ofUnits (us : List (Fin 0x10000)) : Text.Joined (Text.ofUnits us) := by
  apply joined_pairUnits
  intro o ho
  obtain ⟨u, -, hu⟩ := List.mem_map.mp ho
  cases hu

/-- A surrogate that stands for itself in a string stands so in its source. -/
theorem mem_of_readSpelled {m : StringMode} {t rest : Text} {l : List Spelled} {o : Fin 0x800}
    (h : readSpelled m t = some (l, rest)) (ho : .point (.surrogate o) ∈ l) :
    .surrogate o ∈ t := by
  induction t generalizing m l with
  | nil => cases m <;> cases h
  | cons p t ih =>
    have hpass : ∀ {m' : StringMode}, readSpelled m' t = some (l, rest) → .surrogate o ∈ p :: t :=
      fun h' => List.mem_cons_of_mem p (ih h' ho)
    have hmap : ∀ {m' : StringMode} {s : Spelled},
        (readSpelled m' t).map (fun r => (s :: r.1, r.2)) = some (l, rest) →
        (s = .point (.surrogate o) → p = .surrogate o) → .surrogate o ∈ p :: t := by
      intro m' s h' hs
      obtain ⟨r, hr, heq⟩ := Option.map_eq_some_iff.mp h'
      obtain ⟨rfl, rfl⟩ := Prod.mk.inj heq
      rcases List.mem_cons.mp ho with hfirst | hlater
      · rw [hs hfirst.symm]
        exact List.mem_cons_self
      · exact List.mem_cons_of_mem p (ih hr hlater)
    have hend : some ([], t) = some (l, rest) → .surrogate o ∈ p :: t := by
      intro h'
      obtain ⟨rfl, -⟩ := Prod.mk.inj (Option.some.inj h')
      cases ho
    cases m <;> simp only [readSpelled] at h <;> repeat' split at h
    all_goals first
      | exact hmap h Spelled.point.inj
      | exact hmap h (fun heq => by cases heq)
      | exact hpass h
      | exact hend h
      | cases h

theorem mem_itemTexts {vs : List Json} {t : Text} :
    t ∈ itemTexts vs ↔ ∃ v ∈ vs, t ∈ v.texts := by
  induction vs with
  | nil => simp [itemTexts]
  | cons v vs ih => simp [itemTexts, ih]

theorem mem_memberTexts {ms : List (Text × Json)} {t : Text} :
    t ∈ memberTexts ms ↔ ∃ m ∈ ms, t = m.1 ∨ t ∈ m.2.texts := by
  induction ms with
  | nil => simp [memberTexts]
  | cons m ms ih =>
    obtain ⟨k, v⟩ := m
    simp [memberTexts, ih, or_assoc]

/-- A property of all strings that are read is one of all texts of the value. -/
theorem readRules_texts (text : Text → Prop) :
    ReadRules (fun v => ∀ t ∈ v.texts, text t) text where
  atom {v} h t ht := by
    cases h.1 with
    | null | bool _ | int _ | float _ => cases ht
    | str u => cases h.2
    | arr _ => cases h.2
    | obj _ _ => cases h.2
  str hu t ht := List.mem_singleton.mp ht ▸ hu
  arr h t ht := by
    obtain ⟨v, hv, htext⟩ := mem_itemTexts.mp ht
    exact h v hv t htext
  obj _ h t ht := by
    obtain ⟨m, hm, rfl | htext⟩ := mem_memberTexts.mp ht
    · exact (h m hm).1
    · exact (h m hm).2 t htext

/-- The texts of a value that is decoded from a string hold no pair. -/
theorem joined_of_decode? {s : String} {v : Json} (h : decode? (Text.ofString s) = some v) :
    ∀ t ∈ v.texts, Text.Joined t := by
  refine (readRules_texts Text.Joined).decode? (fun hsuffix hread => ?_) h
  obtain ⟨⟨l, rest⟩, hspelled, rfl⟩ := Option.map_eq_some_iff.mp hread
  refine joined_pairUnits fun o ho => ?_
  obtain ⟨c, -, hc⟩ := List.mem_map.mp (hsuffix.subset (mem_of_readSpelled hspelled ho))
  cases hc

end Json

end CurlSnippet
