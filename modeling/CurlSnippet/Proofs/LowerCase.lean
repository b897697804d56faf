import CurlSnippet.Proofs.UpperCase

/-!
Lower case and ASCII. The lower case of ASCII text is that of its letters one by one, and a letter
outside ASCII becomes nothing of ASCII but letters; so lower case brings no other ASCII characters
into a text than it held.
-/

namespace CurlSnippet.Letter

/-- The small letters, or everything past ASCII up to the last character. -/
def CaseRange.isClear (r : CaseRange) : Bool :=
  r.fits && (Nat.ble 97 r.shifted.first && Nat.ble r.shifted.last 122 ||
    Nat.ble 128 r.shifted.first && Nat.blt r.shifted.last 0xD800 ||
    Nat.ble 0xE000 r.shifted.first && Nat.blt r.shifted.last 0x110000)

set_option maxRecDepth 4000 in
theorem lowerRanges_clear : (lowerRanges.all CaseRange.isClear) = true := by
  decide +kernel

theorem CaseRange.isClear_of_mem {r : CaseRange} (h : r ∈ lowerRanges) {n : Nat}
    (hn : r.holds n = true) : (n + r.distance).toNat.isValidChar ∧
      (asciiRange.holds (n + r.distance).toNat = true ∨ 128 ≤ (n + r.distance).toNat) := by
  have hclear := List.all_eq_true.mp lowerRanges_clear r h
  simp only [isClear, Bool.and_eq_true, Bool.or_eq_true, Nat.ble_eq, Nat.blt_eq] at hclear
  have hshifted := ((r.shifted.holds_iff _).mp (holds_shifted hclear.1 hn)).1
  have hascii := asciiRange.holds_iff (n + r.distance).toNat
  simp only [asciiRange, Nat.mod_one, and_true] at hascii
  rw [asciiRange, hascii, Nat.isValidChar]
  omega

/-- A letter becomes one or more letters, of which those in ASCII are small. -/
theorem lowerChar_spec (c : Char) : lowerChar c ≠ [] ∧ ∀ d ∈ lowerChar c, d.toNat < 128 →
    d.isUpper = false ∧ (d = c ∨ d.isAlpha = true) := by
  unfold lowerChar
  split_ifs with hascii
  · refine ⟨by simp, fun d hd _ => ?_⟩
    rw [List.mem_singleton.mp hd]
    refine ⟨Char.isUpper_toLower_eq_false c, ?_⟩
    by_cases hupper : c.isUpper = true
    · exact .inr (by rw [Char.isAlpha_toLower_eq_isAlpha, Char.isAlpha, hupper, Bool.true_or])
    · exact .inl (Char.toLower_eq_of_not_isUpper hupper)
  · unfold otherCase
    split
    · next s hs =>
      obtain rfl := List.mem_singleton.mp (List.mem_of_find?_eq_some hs)
      refine ⟨by simp, fun d hd hsmall => ?_⟩
      -- A small i, and a mark above it that is not ASCII.
      rcases List.mem_pair.mp hd with rfl | rfl
      · exact ⟨rfl, .inr rfl⟩
      · exact absurd hsmall (by decide)
    · split
      · next r hr =>
        have hheld : r.holds c.toNat = true := by simpa using List.find?_some hr
        obtain ⟨hvalid, hclear⟩ := CaseRange.isClear_of_mem (List.mem_of_find?_eq_some hr) hheld
        refine ⟨by simp, fun d hd hsmall => ?_⟩
        have hnumber : d.toNat = (c.toNat + r.distance).toNat := by
          rw [List.mem_singleton.mp hd, Char.toNat_ofNat, if_pos hvalid]
        have hlower : d.isLower = true := by
          rw [← asciiRange_holds_iff, hnumber]
          exact hclear.resolve_right (by omega)
        have hupper : d.isUpper = false := by
          rw [← Bool.not_eq_true]
          exact Char.not_isUpper_of_isLower hlower
        exact ⟨hupper, .inr (by rw [Char.isAlpha, hlower, Bool.or_true])⟩
      · refine ⟨by simp, fun d hd hsmall => ?_⟩
        rw [List.mem_singleton.mp hd] at hsmall
        exact absurd hsmall hascii

theorem mem_lowerAfter {before cs : List Char} {d : Char} (h : d ∈ lowerAfter before cs)
    (hd : d.toNat < 128) : ∃ c ∈ cs, d ∈ lowerChar c := by
  induction cs generalizing before with
  | nil => cases h
  | cons c cs ih =>
    rw [lowerAfter, List.mem_append] at h
    rcases h with h | h
    · refine ⟨c, List.mem_cons_self, ?_⟩
      split_ifs at h with hsigma hfinal
      · rw [List.mem_singleton.mp h] at hd
        exact absurd hd (by decide)
      · rw [List.mem_singleton.mp h] at hd
        exact absurd hd (by decide)
      · exact h
    · obtain ⟨e, he, hde⟩ := ih h
      exact ⟨e, List.mem_cons_of_mem c he, hde⟩

/-- Lower case brings nothing of ASCII into a text but small letters. -/
theorem mem_lower {cs : List Char} {d : Char} (h : d ∈ lower cs) (hd : d.toNat < 128) :
    d.isUpper = false ∧ (d ∈ cs ∨ d.isAlpha = true) := by
  obtain ⟨c, hc, hdc⟩ := mem_lowerAfter h hd
  obtain ⟨hupper, rfl | halpha⟩ := (lowerChar_spec c).2 d hdc hd
  · exact ⟨hupper, .inl hc⟩
  · exact ⟨hupper, .inr halpha⟩

theorem lower_ne_nil {cs : List Char} (h : cs ≠ []) : lower cs ≠ [] := by
  cases cs with
  | nil => exact absurd rfl h
  | cons c cs =>
    rw [lower, lowerAfter]
    split_ifs
    · exact List.cons_ne_nil _ _
    · exact List.cons_ne_nil _ _
    · exact List.append_ne_nil_of_left_ne_nil (lowerChar_spec c).1 _

theorem lowerAfter_of_ascii {cs : List Char} (h : ∀ c ∈ cs, c.toNat < 128) (before : List Char) :
    lowerAfter before cs = cs.map Char.toLower := by
  induction cs generalizing before with
  | nil => rfl
  | cons c cs ih =>
    obtain ⟨hc, hcs⟩ := List.forall_mem_cons.mp h
    have hsigma : c ≠ 'Σ' := by
      rintro rfl
      exact absurd hc (by decide)
    rw [lowerAfter, if_neg hsigma, lowerChar, if_pos hc, ih hcs]
    rfl

theorem lower_of_ascii {cs : List Char} (h : ∀ c ∈ cs, c.toNat < 128) :
    lower cs = cs.map Char.toLower :=
  lowerAfter_of_ascii h []

/-- A lower case that is ASCII is final. -/
theorem lower_lower {cs : List Char} (h : ∀ d ∈ lower cs, d.toNat < 128) :
    lower (lower cs) = lower cs := by
  have hsmall : ∀ d ∈ lower cs, d.toLower = d := by
    intro d hd
    have hupper := (mem_lower hd (h d hd)).1
    exact Char.toLower_eq_of_not_isUpper (by simp [hupper])
  rw [lower_of_ascii h, List.map_congr_left hsmall, List.map_id']

end CurlSnippet.Letter
