import CurlSnippet.Letter.Case
import CurlSnippet.Proofs.Trimming
import Mathlib

/-!
Upper case is final: no letter of an upper-case text has another upper case. The tables are compared
range by range; what a range is moved to lies apart from every range and every letter that moves.
It also lies apart from white space, so that upper case leaves the ends of a trimmed text tight.
-/

namespace CurlSnippet.Letter

/-- The letters that the letters of a range become. -/
def CaseRange.shifted (r : CaseRange) : CaseRange :=
  match r.distance with
  | .ofNat d => ⟨r.first + d, r.last + d, r.step, 0⟩
  | .negSucc d => ⟨r.first - (d + 1), r.last - (d + 1), r.step, 0⟩

/-- No range moves its letters below zero. -/
def CaseRange.fits (r : CaseRange) : Bool :=
  match r.distance with
  | .ofNat _ => true
  | .negSucc d => Nat.ble (d + 1) r.first

/-- Two ranges that share no letter, because they do not overlap, because they step over each
other's letters, or because one of them is a single letter that the other leaves out. -/
def CaseRange.apart (r s : CaseRange) : Bool :=
  Nat.blt r.last s.first || (Nat.blt s.last r.first ||
    (Nat.beq r.step 2 && Nat.beq s.step 2 && Nat.beq ((r.first + s.first) % 2) 1) ||
    (Nat.beq r.first r.last && !s.holds r.first) || (Nat.beq s.first s.last && !r.holds s.first))

theorem CaseRange.holds_iff (r : CaseRange) (n : Nat) :
    r.holds n = true ↔ (r.first ≤ n ∧ n ≤ r.last) ∧ (n - r.first) % r.step = 0 := by
  simp [CaseRange.holds]

theorem CaseRange.not_holds_of_apart {r s : CaseRange} (h : r.apart s = true) {n : Nat}
    (hr : r.holds n = true) : s.holds n = false := by
  rw [← Bool.not_eq_true]
  intro hs
  have hrn := (r.holds_iff n).mp hr
  have hsn := (s.holds_iff n).mp hs
  simp only [CaseRange.apart, Bool.or_eq_true, Bool.and_eq_true, Nat.blt_eq, Nat.beq_eq,
    Bool.not_eq_true'] at h
  rcases h with h | ((h | ⟨⟨hr2, hs2⟩, hodd⟩) | ⟨hsingle, hout⟩) | ⟨hsingle, hout⟩
  · omega
  · omega
  · rw [hr2] at hrn
    rw [hs2] at hsn
    omega
  · have hn : n = r.first := by omega
    rw [hn, hout] at hs
    simp at hs
  · have hn : n = s.first := by omega
    rw [hn, hout] at hr
    simp at hr

theorem CaseRange.holds_shifted {r : CaseRange} (hfits : r.fits = true) {n : Nat}
    (h : r.holds n = true) : r.shifted.holds (n + r.distance).toNat = true := by
  obtain ⟨first, last, step, distance⟩ := r
  rw [CaseRange.holds_iff] at h ⊢
  cases distance with
  | ofNat d =>
    have hn : ((n : Int) + Int.ofNat d).toNat = n + d := by
      rw [Int.ofNat_eq_natCast]
      omega
    have hsub : n + d - (first + d) = n - first := by omega
    simp only [CaseRange.shifted] at h ⊢
    rw [hn, hsub]
    exact ⟨by omega, h.2⟩
  | negSucc d =>
    have hle : d + 1 ≤ first := by simpa [CaseRange.fits] using hfits
    have hn : ((n : Int) + Int.negSucc d).toNat = n - (d + 1) := by omega
    have hsub : n - (d + 1) - (first - (d + 1)) = n - first := by
      simp only at h
      omega
    simp only [CaseRange.shifted] at h ⊢
    rw [hn, hsub]
    exact ⟨by omega, h.2⟩

/-- The small letters of ASCII as a range. -/
def asciiRange : CaseRange := ⟨97, 122, 1, -32⟩

/-- A letter as a range of its own. -/
def CaseRange.single (n : Nat) : CaseRange := ⟨n, n, 1, 0⟩

/-- Everything that has another upper case. -/
def movers : List CaseRange :=
  asciiRange :: (upperRanges ++ upperSequences.map fun s => .single s.1)

def moves (n : Nat) : Bool := movers.any fun r => r.holds n

set_option maxRecDepth 4000 in
theorem upperRanges_apart : ((asciiRange :: upperRanges).all fun r =>
    r.fits && movers.all fun s => r.shifted.apart s) = true := by
  decide +kernel

set_option maxRecDepth 4000 in
theorem upperSequences_apart : (upperSequences.all fun s => s.2.all fun n =>
    decide n.isValidChar && movers.all fun r => (CaseRange.single n).apart r) = true := by
  decide +kernel

set_option maxRecDepth 4000 in
theorem not_moves_zero : moves 0 = false := by
  decide +kernel

theorem holds_single (n : Nat) : (CaseRange.single n).holds n = true := by
  rw [CaseRange.holds_iff]
  exact ⟨⟨le_refl n, le_refl n⟩, Nat.mod_one _⟩

theorem not_moves_of_apart {r : CaseRange} (h : (movers.all fun s => r.apart s) = true) {n : Nat}
    (hn : r.holds n = true) : moves n = false := by
  rw [moves, List.any_eq_false]
  intro s hs
  simp [CaseRange.not_holds_of_apart (List.all_eq_true.mp h s hs) hn]

theorem not_moves_shifted {r : CaseRange} (hr : r ∈ asciiRange :: upperRanges) {n : Nat}
    (hn : r.holds n = true) : moves (n + r.distance).toNat = false := by
  have hall := List.all_eq_true.mp upperRanges_apart r hr
  rw [Bool.and_eq_true] at hall
  exact not_moves_of_apart hall.2 (CaseRange.holds_shifted hall.1 hn)

theorem upperSequences_spec {s : Nat × List Nat} (hs : s ∈ upperSequences) {n : Nat}
    (hn : n ∈ s.2) : n.isValidChar ∧ moves n = false := by
  have hall := List.all_eq_true.mp upperSequences_apart s hs
  have hn := List.all_eq_true.mp hall n hn
  rw [Bool.and_eq_true, decide_eq_true_eq] at hn
  exact ⟨hn.1, not_moves_of_apart hn.2 (holds_single n)⟩

theorem asciiRange_holds_iff (c : Char) : asciiRange.holds c.toNat = true ↔ c.isLower = true := by
  rw [CaseRange.holds_iff, asciiRange, Nat.mod_one, Char.isLower]
  simp [UInt32.le_iff_toNat_le]

/-- A letter that does not move is its own upper case. -/
theorem upperChar_eq_self {c : Char} (h : moves c.toNat = false) : upperChar c = [c] := by
  rw [moves, List.any_eq_false] at h
  unfold upperChar
  split_ifs with hascii
  · have hsmall := h asciiRange (List.mem_cons_self ..)
    rw [asciiRange_holds_iff] at hsmall
    rw [Char.toUpper_eq_of_not_isLower hsmall]
  · unfold otherCase
    have hsequence : upperSequences.find? (fun s => s.1 == c.toNat) = none := by
      rw [List.find?_eq_none]
      intro s hs heq
      rw [beq_iff_eq] at heq
      apply h (.single s.1)
      · exact List.mem_cons_of_mem _ (List.mem_append_right _ (List.mem_map.mpr ⟨s, hs, rfl⟩))
      · rw [← heq]
        exact holds_single s.1
    have hrange : upperRanges.find? (fun r => r.holds c.toNat) = none := by
      rw [List.find?_eq_none]
      intro r hr
      exact h r (List.mem_cons_of_mem _ (List.mem_append_left _ hr))
    rw [hsequence, hrange]

/-- The upper case of a letter is the letter, the letter that its range moves it to, or the
sequence of the table. -/
theorem upperChar_cases (c : Char) : upperChar c = [c] ∨
    (∃ r ∈ asciiRange :: upperRanges, r.holds c.toNat = true ∧
      upperChar c = [Char.ofNat (c.toNat + r.distance).toNat]) ∨
    ∃ s ∈ upperSequences, upperChar c = s.2.map Char.ofNat := by
  unfold upperChar
  split_ifs with hascii
  · by_cases hlower : c.isLower = true
    · have hheld := (asciiRange_holds_iff c).mpr hlower
      refine Or.inr (Or.inl ⟨asciiRange, List.mem_cons_self .., hheld, ?_⟩)
      have hle := ((CaseRange.holds_iff _ _).mp hheld).1.1
      have hnumber : ((c.toNat : Int) + asciiRange.distance).toNat = c.toNat - 32 := by
        simp only [asciiRange] at hle ⊢
        omega
      rw [Char.toUpper_eq_of_isLower hlower, hnumber]
    · exact Or.inl (by rw [Char.toUpper_eq_of_not_isLower hlower])
  · unfold otherCase
    split
    · next s hs => exact Or.inr (Or.inr ⟨s, List.mem_of_find?_eq_some hs, rfl⟩)
    · split
      · next r hr =>
        have hmem := List.mem_cons_of_mem asciiRange (List.mem_of_find?_eq_some hr)
        exact Or.inr (Or.inl ⟨r, hmem, by simpa using List.find?_some hr, rfl⟩)
      · exact Or.inl rfl

/-- The letters of an upper case are their own upper case. -/
theorem upperChar_of_mem {c d : Char} (hd : d ∈ upperChar c) : upperChar d = [d] := by
  rcases upperChar_cases c with h | ⟨r, hr, hheld, h⟩ | ⟨s, hs, h⟩
  · rw [h, List.mem_singleton] at hd
    rw [hd, h]
  · rw [h, List.mem_singleton] at hd
    apply upperChar_eq_self
    rw [hd, Char.toNat_ofNat]
    split_ifs
    · exact not_moves_shifted hr hheld
    · exact not_moves_zero
  · rw [h, List.mem_map] at hd
    obtain ⟨n, hn, rfl⟩ := hd
    obtain ⟨hvalid, hn⟩ := upperSequences_spec hs hn
    apply upperChar_eq_self
    rwa [Char.toNat_ofNat, if_pos hvalid]

/-- A text all of whose letters are their own upper case. -/
def IsUpper (cs : List Char) : Prop := ∀ c ∈ cs, upperChar c = [c]

theorem isUpper_upper (cs : List Char) : IsUpper (upper cs) := by
  intro d hd
  obtain ⟨c, -, hc⟩ := List.mem_flatMap.mp hd
  exact upperChar_of_mem hc

theorem IsUpper.upper_eq {cs : List Char} (h : IsUpper cs) : upper cs = cs := by
  rw [upper, List.flatMap_congr h, List.flatMap_singleton']

/-- White space by its ranges. -/
def blankRanges : List CaseRange := [⟨9, 13, 1, 0⟩, ⟨28, 32, 1, 0⟩, .single 0x85, .single 0xA0,
  .single 0x1680, ⟨0x2000, 0x200A, 1, 0⟩, ⟨0x2028, 0x2029, 1, 0⟩, .single 0x202F, .single 0x205F,
  .single 0x3000]

theorem isBlank_iff (c : Char) : isBlank c = true ↔ ∃ r ∈ blankRanges, r.holds c.toNat = true := by
  simp only [blankRanges, List.exists_mem_cons_iff, CaseRange.holds_iff, CaseRange.single, isBlank,
    Nat.mod_one, Bool.or_eq_true, Bool.and_eq_true, decide_eq_true_eq, beq_iff_eq, and_true,
    List.not_mem_nil, false_and, exists_false, or_false]
  omega

theorem not_isBlank_of_apart {r : CaseRange} (h : (blankRanges.all fun s => r.apart s) = true)
    {c : Char} (hc : r.holds c.toNat = true) : isBlank c = false := by
  rw [← Bool.not_eq_true, isBlank_iff]
  rintro ⟨s, hs, hheld⟩
  rw [CaseRange.not_holds_of_apart (List.all_eq_true.mp h s hs) hc] at hheld
  cases hheld

set_option maxRecDepth 4000 in
theorem upperRanges_apart_blanks : ((asciiRange :: upperRanges).all fun r =>
    blankRanges.all fun s => r.shifted.apart s) = true := by
  decide +kernel

set_option maxRecDepth 4000 in
theorem upperSequences_apart_blanks : (upperSequences.all fun s => !s.2.isEmpty &&
    s.2.all fun n => blankRanges.all fun r => (CaseRange.single n).apart r) = true := by
  decide +kernel

theorem upperSequence_spec {s : Nat × List Nat} (hs : s ∈ upperSequences) :
    s.2 ≠ [] ∧ ∀ n ∈ s.2, (blankRanges.all fun r => (CaseRange.single n).apart r) = true := by
  have hall := List.all_eq_true.mp upperSequences_apart_blanks s hs
  rw [Bool.and_eq_true, List.all_eq_true] at hall
  exact ⟨by simpa using hall.1, hall.2⟩

theorem upperChar_ne_nil (c : Char) : upperChar c ≠ [] := by
  rcases upperChar_cases c with h | ⟨r, -, -, h⟩ | ⟨s, hs, h⟩
  · rw [h]
    simp
  · rw [h]
    simp
  · rw [h]
    simpa using (upperSequence_spec hs).1

/-- Upper case makes no white space. -/
theorem not_isBlank_of_mem_upperChar {c d : Char} (hd : d ∈ upperChar c)
    (hc : isBlank c = false) : isBlank d = false := by
  rcases upperChar_cases c with h | ⟨r, hr, hheld, h⟩ | ⟨s, hs, h⟩
  · rw [h, List.mem_singleton] at hd
    rw [hd, hc]
  · rw [h, List.mem_singleton] at hd
    rw [hd]
    have hfits : r.fits = true := by
      have hall := List.all_eq_true.mp upperRanges_apart r hr
      rw [Bool.and_eq_true] at hall
      exact hall.1
    by_cases hvalid : (c.toNat + r.distance).toNat.isValidChar
    · apply not_isBlank_of_apart (List.all_eq_true.mp upperRanges_apart_blanks r hr)
      rw [Char.toNat_ofNat, if_pos hvalid]
      exact CaseRange.holds_shifted hfits hheld
    · rw [Char.ofNat, dif_neg hvalid]
      decide
  · rw [h, List.mem_map] at hd
    obtain ⟨n, hn, rfl⟩ := hd
    apply not_isBlank_of_apart ((upperSequence_spec hs).2 n hn)
    rw [Char.toNat_ofNat, if_pos (upperSequences_spec hs hn).1]
    exact holds_single n

theorem tight_upper {cs : List Char} (h : Blank.Tight cs) : Blank.Tight (upper cs) := by
  constructor
  · intro d hd
    cases cs with
    | nil => cases hd
    | cons c rest =>
      rw [upper, List.flatMap_cons, List.head?_append_of_ne_nil _ (upperChar_ne_nil c)] at hd
      exact not_isBlank_of_mem_upperChar (List.mem_of_mem_head? hd) (h.1 c rfl)
  · intro d hd
    rcases List.eq_nil_or_concat cs with rfl | ⟨front, c, rfl⟩
    · cases hd
    · rw [List.concat_eq_append, upper, List.flatMap_append, List.flatMap_singleton,
        List.getLast?_append_of_ne_nil _ (upperChar_ne_nil c)] at hd
      exact not_isBlank_of_mem_upperChar (List.mem_of_getLast? hd) (h.2 c (by simp))

end CurlSnippet.Letter

namespace CurlSnippet

/-- Upper case leaves nothing to trim where nothing was left. -/
theorem trim_upper_trim (s : String) : trim (upper (trim s)) = upper (trim s) := by
  have htight : Blank.Tight (upper (trim s)).toList := by
    rw [upper, String.toList_ofList, trim, String.toList_ofList]
    exact Letter.tight_upper (Blank.tight_trim _)
  rw [trim, Blank.trim_eq_self htight, String.ofList_toList]

theorem upper_upper (s : String) : upper (upper s) = upper s := by
  rw [upper, upper, String.toList_ofList, (Letter.isUpper_upper _).upper_eq]

end CurlSnippet
