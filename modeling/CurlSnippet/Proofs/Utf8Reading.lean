import CurlSnippet.Files
import CurlSnippet.Proofs.Results
import Mathlib.Tactic.SplitIfs

/-!
Bytes that are UTF-8. Reading gives back every text from its bytes, and gives a text for no other
bytes: each place inside a character knows which bytes complete it, and no step forgets that.
-/

namespace CurlSnippet

namespace Utf8

variable {position value more low high : Nat} {taken rest : Bytes} {b : UInt8} {cs : List Char}

theorem opening?_eq_none (h : b.toNat < 0xC2 ∨ 0xF5 ≤ b.toNat) : opening? b = none := by
  dsimp only [opening?]
  split_ifs <;> first | rfl | omega

theorem opening?_two (hlow : 0xC2 ≤ b.toNat) (hhigh : b.toNat < 0xE0) :
    opening? b = some (.inside [b] (b.toNat - 0xC0) 0 0x80 0xBF) := by
  dsimp only [opening?]
  rw [if_neg (by omega), if_pos hhigh]

theorem opening?_three (hlow : 0xE0 ≤ b.toNat) (hhigh : b.toNat < 0xF0) :
    opening? b = some (.inside [b] (b.toNat - 0xE0) 1 (if b.toNat = 0xE0 then 0xA0 else 0x80)
      (if b.toNat = 0xED then 0x9F else 0xBF)) := by
  dsimp only [opening?]
  rw [if_neg (by omega), if_neg (by omega), if_pos hhigh]

theorem opening?_four (hlow : 0xF0 ≤ b.toNat) (hhigh : b.toNat < 0xF5) :
    opening? b = some (.inside [b] (b.toNat - 0xF0) 2 (if b.toNat = 0xF0 then 0x90 else 0x80)
      (if b.toNat = 0xF4 then 0x8F else 0xBF)) := by
  dsimp only [opening?]
  rw [if_neg (by omega), if_neg (by omega), if_neg (by omega), if_pos hhigh]

theorem scan_opening {mode : Mode} (hb : 0x80 ≤ b.toNat) (h : opening? b = some mode) :
    scan position .start (b :: rest) = scan position mode rest := by
  rw [scan, if_neg (by omega), h]

theorem scan_last (hlow : low ≤ b.toNat) (hhigh : b.toNat ≤ high) :
    scan position (.inside taken value 0 low high) (b :: rest) =
      (scan (position + taken.length + 1) .start rest).map
        (Char.ofNat (value * 64 + (b.toNat - 0x80)) :: ·) := by
  rw [scan, if_neg (by omega)]

theorem scan_more (hlow : low ≤ b.toNat) (hhigh : b.toNat ≤ high) :
    scan position (.inside taken value (more + 1) low high) (b :: rest) =
      scan position (.inside (taken ++ [b]) (value * 64 + (b.toNat - 0x80)) more 0x80 0xBF)
        rest := by
  rw [scan, if_neg (by omega)]

/-- The bytes of a character are read as that character. -/
theorem scan_char (c : Char) : scan position .start (String.utf8EncodeChar c ++ rest) =
    (scan (position + (String.utf8EncodeChar c).length) .start rest).map (c :: ·) := by
  have hvalid : c.toNat < 0xD800 ∨ 0xDFFF < c.toNat ∧ c.toNat < 0x110000 := c.valid
  have hc : ∀ n, n = c.toNat → Char.ofNat n = c := by
    rintro n rfl
    exact Char.ofNat_toNat c
  have hbyte : ∀ k < 256, (UInt8.ofNat k).toNat = k := fun _ h => UInt8.toNat_ofNat_of_lt' h
  have htail : ∀ k, (UInt8.ofNat (k % 64 + 128)).toNat = k % 64 + 128 := fun k =>
    hbyte _ (by omega)
  rw [String.utf8EncodeChar, Char.toNat_val]
  generalize c.toNat = n at hvalid hc
  split_ifs with hone htwo hthree
  · have hfirst := hbyte n (by omega)
    rw [List.singleton_append, scan, hfirst, if_pos (by omega), hc n rfl]
    rfl
  · have hfirst := hbyte (n / 64 % 32 + 192) (by omega)
    rw [List.cons_append, List.singleton_append,
      scan_opening (by omega) (opening?_two (by omega) (by omega)),
      scan_last (by rw [htail]; omega) (by rw [htail]; omega), hfirst, htail, hc _ (by omega)]
    rfl
  · have hfirst := hbyte (n / 4096 % 16 + 224) (by omega)
    rw [List.cons_append, List.cons_append, List.singleton_append,
      scan_opening (by omega) (opening?_three (by omega) (by omega)),
      scan_more (by rw [htail, hfirst]; split_ifs <;> omega)
        (by rw [htail, hfirst]; split_ifs <;> omega),
      scan_last (by rw [htail]; omega) (by rw [htail]; omega), hfirst, htail, htail,
      hc _ (by omega)]
    rfl
  · have hfirst := hbyte (n / 262144 % 8 + 240) (by omega)
    rw [List.cons_append, List.cons_append, List.cons_append, List.singleton_append,
      scan_opening (by omega) (opening?_four (by omega) (by omega)),
      scan_more (by rw [htail, hfirst]; split_ifs <;> omega)
        (by rw [htail, hfirst]; split_ifs <;> omega),
      scan_more (by rw [htail]; omega) (by rw [htail]; omega),
      scan_last (by rw [htail]; omega) (by rw [htail]; omega), hfirst, htail, htail, htail,
      hc _ (by omega)]
    rfl

theorem scan_utf8 (position : Nat) (cs : List Char) : scan position .start (utf8 cs) = .ok cs := by
  induction cs generalizing position with
  | nil => rfl
  | cons c cs ih =>
    show scan position .start (String.utf8EncodeChar c ++ utf8 cs) = _
    rw [scan_char, ih]
    rfl

/-- Whatever bytes come within the bounds, those taken and they are the bytes of the character of
their value. -/
def Completes (taken : Bytes) (value : Nat) : Nat → Nat → Nat → Prop
  | 0, low, high => ∀ b : UInt8, low ≤ b.toNat → b.toNat ≤ high →
    String.utf8EncodeChar (Char.ofNat (value * 64 + (b.toNat - 0x80))) = taken ++ [b]
  | more + 1, low, high => ∀ b : UInt8, low ≤ b.toNat → b.toNat ≤ high →
    Completes (taken ++ [b]) (value * 64 + (b.toNat - 0x80)) more 0x80 0xBF

theorem val_ofNat {n : Nat} (h : n < 0xD800 ∨ 0xDFFF < n ∧ n < 0x110000) :
    (Char.ofNat n).val.toNat = n := by
  rw [Char.ofNat, dif_pos h]
  rfl

theorem ofNat_eq {n : Nat} (h : n = b.toNat) : UInt8.ofNat n = b := by
  rw [h, UInt8.ofNat_toNat]

theorem completes_opening (h : opening? b = some (.inside taken value more low high)) :
    taken = [b] ∧ Completes taken value more low high := by
  have hcases : (b.toNat < 0xC2 ∨ 0xF5 ≤ b.toNat) ∨ (0xC2 ≤ b.toNat ∧ b.toNat < 0xE0) ∨
      (0xE0 ≤ b.toNat ∧ b.toNat < 0xF0) ∨ (0xF0 ≤ b.toNat ∧ b.toNat < 0xF5) := by omega
  rcases hcases with hnone | ⟨hleast, hmost⟩ | ⟨hleast, hmost⟩ | ⟨hleast, hmost⟩
  · rw [opening?_eq_none hnone] at h
    cases h
  · rw [opening?_two hleast hmost] at h
    obtain ⟨rfl, rfl, rfl, rfl, rfl⟩ := Mode.inside.inj (Option.some.inj h)
    refine ⟨rfl, fun c hlow hhigh => ?_⟩
    rw [String.utf8EncodeChar, val_ofNat (by omega), if_neg (by omega), if_pos (by omega),
      ofNat_eq (b := b) (by omega), ofNat_eq (b := c) (by omega)]
    rfl
  · rw [opening?_three hleast hmost] at h
    obtain ⟨rfl, rfl, rfl, rfl, rfl⟩ := Mode.inside.inj (Option.some.inj h)
    refine ⟨rfl, fun c hlow hhigh d hlow' hhigh' => ?_⟩
    split_ifs at hlow hhigh
    all_goals rw [String.utf8EncodeChar, val_ofNat (by omega), if_neg (by omega),
      if_neg (by omega), if_pos (by omega), ofNat_eq (b := b) (by omega),
      ofNat_eq (b := c) (by omega), ofNat_eq (b := d) (by omega)]
    all_goals rfl
  · rw [opening?_four hleast hmost] at h
    obtain ⟨rfl, rfl, rfl, rfl, rfl⟩ := Mode.inside.inj (Option.some.inj h)
    refine ⟨rfl, fun c hlow hhigh d hlow' hhigh' e hlow'' hhigh'' => ?_⟩
    split_ifs at hlow hhigh
    all_goals rw [String.utf8EncodeChar, val_ofNat (by omega), if_neg (by omega),
      if_neg (by omega), if_neg (by omega), ofNat_eq (b := b) (by omega),
      ofNat_eq (b := c) (by omega), ofNat_eq (b := d) (by omega), ofNat_eq (b := e) (by omega)]
    all_goals rfl

/-- What the bytes are from a place on, if they are read to the end. -/
def Mode.Spells (bytes : Bytes) (cs : List Char) : Mode → Prop
  | start => bytes = utf8 cs
  | inside taken value more low high =>
    Completes taken value more low high → taken ++ bytes = utf8 cs

theorem spells_of_scan {mode : Mode} {bytes : Bytes} (h : scan position mode bytes = .ok cs) :
    mode.Spells bytes cs := by
  induction bytes generalizing position mode cs with
  | nil =>
    cases mode with
    | start =>
      obtain rfl := Except.ok.inj h
      rfl
    | inside => cases h
  | cons b rest ih =>
    cases mode with
    | start =>
      rw [scan] at h
      split_ifs at h with hone
      · obtain ⟨ds, hds, rfl⟩ := Except.map_eq_ok.mp h
        obtain rfl : rest = utf8 ds := ih hds
        show b :: utf8 ds = String.utf8EncodeChar (Char.ofNat b.toNat) ++ utf8 ds
        rw [String.utf8EncodeChar, val_ofNat (by omega), if_pos (by omega), UInt8.ofNat_toNat]
        rfl
      · split at h
        · next mode hmode =>
          cases mode with
          | start =>
            dsimp only [opening?] at hmode
            split_ifs at hmode <;> cases hmode
          | inside taken value more low high =>
            obtain ⟨rfl, hcompletes⟩ := completes_opening hmode
            exact ih h hcompletes
        · cases h
    | inside taken value more low high =>
      intro hcompletes
      rw [scan] at h
      split_ifs at h with hbounds
      obtain ⟨hlow, hhigh⟩ := not_or.mp hbounds
      cases more with
      | zero =>
        obtain ⟨ds, hds, rfl⟩ := Except.map_eq_ok.mp h
        obtain rfl : rest = utf8 ds := ih hds
        show taken ++ ([b] ++ utf8 ds) = String.utf8EncodeChar _ ++ utf8 ds
        rw [hcompletes b (by omega) (by omega), List.append_assoc]
      | succ more =>
        have hrest := ih h (hcompletes b (by omega) (by omega))
        rwa [List.append_assoc] at hrest

/-- Bytes are read as a text exactly if they are its own. -/
theorem decode_eq_ok_iff {bytes : Bytes} {s : String} : decode bytes = .ok s ↔ bytes = encode s := by
  rw [decode, encode, Except.map_eq_ok]
  constructor
  · rintro ⟨cs, hcs, rfl⟩
    rw [String.toList_ofList]
    exact spells_of_scan hcs
  · rintro rfl
    exact ⟨s.toList, scan_utf8 0 s.toList, String.ofList_toList⟩

@[simp] theorem decode_encode (s : String) : decode (encode s) = .ok s := decode_eq_ok_iff.mpr rfl

/-- Bytes of no text. -/
def Garbled (bytes : Bytes) : Prop := ∀ s, bytes ≠ encode s

theorem garbled_iff {bytes : Bytes} : Garbled bytes ↔ ∃ f, decode bytes = .error f := by
  constructor
  · intro h
    cases hdecode : decode bytes with
    | ok s => exact absurd (decode_eq_ok_iff.mp hdecode) (h s)
    | error f => exact ⟨f, rfl⟩
  · rintro ⟨f, hf⟩ s hs
    rw [decode_eq_ok_iff.mpr hs] at hf
    cases hf

end Utf8

namespace Files

@[simp] theorem textOf_encode (s : String) : textOf (Utf8.encode s) = .ok (unified s) := by
  rw [textOf, Utf8.decode_encode]
  rfl

theorem textOf_eq_error_iff {bytes : Bytes} :
    (∃ f, textOf bytes = .error f) ↔ Utf8.Garbled bytes := by
  simp only [Utf8.garbled_iff, textOf, Except.map_eq_error]

end Files

end CurlSnippet
