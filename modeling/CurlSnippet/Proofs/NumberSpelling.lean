import CurlSnippet.Proofs.Runs
import CurlSnippet.Proofs.ShortestDecimal

/-!
The written form of a number is read back as the number. A spelling moves the point through the
digits, fills up with zeros or writes an exponent; the reader counts the digits after the point
against the exponent, so each of these is undone.
-/

namespace CurlSnippet

namespace Json

/-- A nonempty list of digits. -/
structure Digits (cs : List Char) : Prop where
  all : ∀ c ∈ cs, c.isDigit = true
  ne_nil : cs ≠ []

theorem digits_toDigits (n : Nat) : Digits (Nat.toDigits 10 n) where
  all := fun _ => Nat.isDigit_of_mem_toDigits (by decide) (by decide)
  ne_nil := Nat.toDigits_ne_nil

theorem Digits.append {cs ds : List Char} (hcs : Digits cs) (hds : ∀ c ∈ ds, c.isDigit = true) :
    Digits (cs ++ ds) where
  all := by
    intro c hc
    rcases List.mem_append.mp hc with hc | hc
    · exact hcs.all c hc
    · exact hds c hc
  ne_nil := by
    intro h
    exact hcs.ne_nil (List.append_eq_nil_iff.mp h).1

theorem Digits.append_left {cs ds : List Char} (hcs : ∀ c ∈ cs, c.isDigit = true)
    (hds : Digits ds) : Digits (cs ++ ds) where
  all := by
    intro c hc
    rcases List.mem_append.mp hc with hc | hc
    · exact hcs c hc
    · exact hds.all c hc
  ne_nil := by
    intro h
    exact hds.ne_nil (List.append_eq_nil_iff.mp h).2

theorem isDigit_of_mem_zeros {n : Nat} {c : Char} (h : c ∈ Binary64.zeros n) :
    c.isDigit = true := by
  rw [List.eq_of_mem_replicate h]
  decide

theorem ofDigits_zeros_append (n : Nat) (cs : List Char) :
    ofDigits (Binary64.zeros n ++ cs) = ofDigits cs := by
  rw [ofDigits, Nat.ofDigitChars_append, Binary64.zeros, Nat.ofDigitChars_replicate_zero,
    Nat.mul_zero]
  rfl

theorem ofDigits_append_zeros (cs : List Char) (n : Nat) :
    ofDigits (cs ++ Binary64.zeros n) = ofDigits cs * 10 ^ n := by
  rw [ofDigits, Nat.ofDigitChars_append, Binary64.zeros, Nat.ofDigitChars_replicate_zero,
    Nat.mul_comm]
  rfl

/-- The first digit of a number is not a zero, unless the number is zero. -/
theorem head?_toDigits_ne_zero {n : Nat} (hn : n ≠ 0) :
    (Nat.toDigits 10 n).head? ≠ some '0' := by
  induction n using Nat.strongRecOn with
  | ind n ih =>
    rw [Nat.toDigits_eq_if (by decide)]
    split_ifs with h
    · intro hzero
      exact hn (Nat.digitChar_eq_zero.mp (Option.some.inj hzero))
    · have hdiv : n / 10 ≠ 0 := by omega
      have hhead := ih (n / 10) (by omega) hdiv
      rwa [List.head?_append_of_ne_nil _ Nat.toDigits_ne_nil]

/-- What stands before the point: digits, and no zero in front of others. -/
structure WholePart (cs : List Char) : Prop extends Digits cs where
  noZero : cs.length = 1 ∨ cs.head? ≠ some '0'

theorem wholePart_toDigits (n : Nat) : WholePart (Nat.toDigits 10 n) where
  toDigits := digits_toDigits n
  noZero := by
    by_cases hn : n = 0
    · left
      rw [hn, Nat.toDigits_zero]
      rfl
    · exact Or.inr (head?_toDigits_ne_zero hn)

theorem digits?_eq_some {cs : List Char} (h : Digits cs) : digits? cs = some (ofDigits cs) := by
  have hall : cs.all Char.isDigit = true := List.all_eq_true.mpr h.all
  have hempty : cs.isEmpty = false := by simpa using h.ne_nil
  rw [digits?, hall, hempty]
  rfl

/-- A number starts with a digit. -/
theorem exists_head?_of_unsigned? {negative : Bool} {cs : List Char} {v : Json}
    (h : unsigned? negative cs = some v) : ∃ c ∈ cs.head?, c.isDigit = true := by
  cases cs with
  | nil => simp [unsigned?] at h
  | cons c cs =>
    refine ⟨c, rfl, ?_⟩
    by_contra hc
    simp [unsigned?, hc] at h

theorem number?_signed {negative : Bool} {cs : List Char} {v : Json}
    (h : unsigned? negative cs = some v) :
    number? (if negative then '-' :: cs else cs) = some v := by
  cases negative with
  | true => exact h
  | false =>
    obtain ⟨c, hc, hdigit⟩ := exists_head?_of_unsigned? h
    have hplain : number? cs = unsigned? false cs := by
      rw [number?]
      rintro cs' rfl
      obtain rfl : '-' = c := Option.some.inj hc
      exact absurd hdigit (by decide)
    exact hplain.trans h

/-- A number whose whole part ends where something other than a digit begins. -/
theorem unsigned?_append (negative : Bool) {whole : List Char} (rest : List Char)
    (h : WholePart whole) (hrest : ∀ c ∈ rest.head?, c.isDigit = false) :
    unsigned? negative (whole ++ rest) =
      if rest.isEmpty then
        if maxIntDigits < whole.length then none
        else some (.int (if negative then -(ofDigits whole : Int) else ofDigits whole))
      else do
        let (fraction, rest) ← fraction? rest
        let e ← exponent? rest
        let x ← Binary64.ofDecimal negative (ofDigits (whole ++ fraction)) (e - fraction.length)
        return .float x := by
  obtain ⟨htake, hdrop⟩ := span_append h.all hrest
  have hempty : whole.isEmpty = false := by simpa using h.ne_nil
  have hlead : (whole.length != 1 && whole.head? == some '0') = false := by
    rcases h.noZero with hone | hhead
    · simp [hone]
    · simp [hhead]
  rw [unsigned?, htake, hdrop, hempty, hlead]
  rfl

theorem unsigned?_whole (negative : Bool) {cs : List Char} (h : WholePart cs)
    (hfew : cs.length ≤ maxIntDigits) :
    unsigned? negative cs =
      some (.int (if negative then -(ofDigits cs : Int) else ofDigits cs)) := by
  have hread := unsigned?_append negative [] h (by simp)
  rw [List.append_nil] at hread
  rw [hread]
  exact if_neg (Nat.not_lt.mpr hfew)

/-- A number with a fraction, an exponent or both. -/
theorem unsigned?_fraction (negative : Bool) {whole frac : List Char} (tail : List Char) {e : Int}
    (hwhole : WholePart whole) (hfrac : Digits frac)
    (htail : ∀ c ∈ tail.head?, c.isDigit = false) (he : exponent? tail = some e) :
    unsigned? negative (whole ++ '.' :: (frac ++ tail)) =
      (Binary64.ofDecimal negative (ofDigits (whole ++ frac)) (e - frac.length)).map .float := by
  obtain ⟨htake, hdrop⟩ := span_append hfrac.all htail
  have hempty : frac.isEmpty = false := by simpa using hfrac.ne_nil
  have hfraction : fraction? ('.' :: (frac ++ tail)) = some (frac, tail) := by
    rw [fraction?, htake, hdrop, hempty]
    rfl
  rw [unsigned?_append negative _ hwhole (by simp), hfraction]
  simp [he, Option.map_eq_bind]

theorem unsigned?_exponent (negative : Bool) {whole tail : List Char} {e : Int}
    (hwhole : WholePart whole) (htail : ∃ c ∈ tail.head?, c = 'e') (he : exponent? tail = some e) :
    unsigned? negative (whole ++ tail) =
      (Binary64.ofDecimal negative (ofDigits whole) e).map .float := by
  obtain ⟨c, hc, rfl⟩ := htail
  cases tail with
  | nil => cases hc
  | cons d tail =>
    obtain rfl : d = 'e' := Option.some.inj hc
    rw [unsigned?_append negative _ hwhole (by simp), fraction?]
    · simp [he, Option.map_eq_bind]
    · simp

theorem exponent?_spellExponent (s : Binary64.Spelling) (k : Int) :
    exponent? (Binary64.spellExponent s k) = some k := by
  let digits := Nat.toDigits 10 k.natAbs
  let padded := Binary64.zeros (s.exponentDigits - digits.length) ++ digits
  have hdigits : Digits padded :=
    .append_left (fun _ => isDigit_of_mem_zeros) (digits_toDigits k.natAbs)
  have hvalue : ofDigits padded = k.natAbs := by
    rw [ofDigits_zeros_append]
    exact Nat.ofDigitChars_ten_toDigits
  have hread : digits? padded = some k.natAbs := by
    rw [digits?_eq_some hdigits, hvalue]
  have hspell : Binary64.spellExponent s k =
      'e' :: (if k < 0 then '-' else '+') :: padded := rfl
  rw [hspell]
  split_ifs with h
  · have hminus : -(k.natAbs : Int) = k := by omega
    simp only [exponent?, hread, true_or, if_true]
    exact congrArg some hminus
  · have hplus : Int.ofNat k.natAbs = k := Int.natAbs_of_nonneg (Int.not_lt.mp h)
    simp only [exponent?, hread, true_or, if_true, Option.map_some, hplus]

theorem wholePart_singleton {c : Char} (h : c.isDigit = true) : WholePart [c] where
  all := by
    intro d hd
    rwa [List.mem_singleton.mp hd]
  ne_nil := List.cons_ne_nil c []
  noZero := .inl rfl

theorem WholePart.append {cs ds : List Char} (hcs : Digits cs) (hhead : cs.head? ≠ some '0')
    (hds : ∀ c ∈ ds, c.isDigit = true) : WholePart (cs ++ ds) where
  toDigits := hcs.append hds
  noZero := by
    rw [List.head?_append_of_ne_nil _ hcs.ne_nil]
    exact .inr hhead

theorem WholePart.take {cs : List Char} (h : Digits cs) (hhead : cs.head? ≠ some '0') (n : Nat) :
    WholePart (cs.take (n + 1)) where
  all := fun c hc => h.all c (List.mem_of_mem_take hc)
  ne_nil := by
    intro hnil
    rcases List.take_eq_nil_iff.mp hnil with hzero | hempty
    · omega
    · exact h.ne_nil hempty
  noZero := by
    rw [List.head?_take, if_neg (by omega)]
    exact .inr hhead

theorem Digits.drop {cs : List Char} (h : Digits cs) {n : Nat} (hn : n < cs.length) :
    Digits (cs.drop n) where
  all := fun c hc => h.all c (List.mem_of_mem_drop hc)
  ne_nil := by
    intro hnil
    have hle := List.drop_eq_nil_iff.mp hnil
    omega

/-- A point at or after the last digit, or among the digits. -/
theorem unsigned?_positional (negative : Bool) {digits : List Char} (h : Digits digits)
    (hhead : digits.head? ≠ some '0') {k : Int} (hk : 0 ≤ k) :
    unsigned? negative (digits.take (k.toNat + 1) ++
        Binary64.zeros (k.toNat + 1 - digits.length) ++
        '.' :: (if digits.length ≤ k.toNat + 1 then ['0'] else digits.drop (k.toNat + 1))) =
      (Binary64.ofDecimal negative (ofDigits digits) (k + 1 - digits.length)).map .float := by
  split_ifs with hlen
  · let filling := k.toNat + 1 - digits.length
    have hzeros : ∀ c ∈ Binary64.zeros filling, c.isDigit = true := fun _ => isDigit_of_mem_zeros
    have hwhole : WholePart (digits ++ Binary64.zeros filling) := .append h hhead hzeros
    have hfrac : Digits ['0'] := (wholePart_singleton (by decide)).toDigits
    have hread := unsigned?_fraction negative [] hwhole hfrac (by simp) rfl
    have hvalue : ofDigits (digits ++ Binary64.zeros filling ++ ['0']) =
        ofDigits digits * 10 ^ (filling + 1) := by
      rw [← ofDigits_append_zeros, List.append_assoc]
      congr 2
      exact (List.replicate_succ' ).symm
    have hexponent : (0 : Int) - (['0'] : List Char).length + (filling + 1 : Nat) =
        k + 1 - digits.length := by
      simp only [List.length_singleton, filling]
      omega
    rw [hvalue, Binary64.ofDecimal_mul_pow, hexponent, List.append_nil] at hread
    rw [List.take_of_length_le hlen]
    exact hread
  · have hfilling : k.toNat + 1 - digits.length = 0 := by omega
    have htake : WholePart (digits.take (k.toNat + 1)) := .take h hhead k.toNat
    have hdrop : Digits (digits.drop (k.toNat + 1)) := h.drop (Nat.not_le.mp hlen)
    have hread := unsigned?_fraction negative [] htake hdrop (by simp) rfl
    have hexponent : 0 - ((digits.drop (k.toNat + 1)).length : Int) = k + 1 - digits.length := by
      rw [List.length_drop]
      omega
    rw [List.take_append_drop, hexponent, List.append_nil] at hread
    rw [hfilling, Binary64.zeros, List.replicate_zero, List.append_nil]
    exact hread

/-- Digits that spell a value other than zero, the first of them worth `10 ^ k`, read back with the
exponent of the last. -/
theorem unsigned?_spellDigits (negative : Bool) (s : Binary64.Spelling) {digits : List Char}
    (h : Digits digits) (hhead : digits.head? ≠ some '0') (k : Int) :
    unsigned? negative (Binary64.spellDigits s digits k) =
      (Binary64.ofDecimal negative (ofDigits digits) (k + 1 - digits.length)).map .float := by
  have htail : ∀ c ∈ (Binary64.spellExponent s k).head?, c.isDigit = false := by
    intro c hc
    obtain rfl : 'e' = c := Option.some.inj hc
    decide
  unfold Binary64.spellDigits
  split_ifs with hexp hneg
  · -- one digit before the point, an exponent after the others
    cases digits with
    | nil => exact absurd rfl h.ne_nil
    | cons d rest =>
      have hd : WholePart [d] := wholePart_singleton (h.all d List.mem_cons_self)
      cases rest with
      | nil =>
        have hread := unsigned?_exponent negative hd ⟨'e', rfl, rfl⟩
          (exponent?_spellExponent s k)
        simpa using hread
      | cons d' rest =>
        have hrest : Digits (d' :: rest) :=
          ⟨fun c hc => h.all c (List.mem_cons_of_mem d hc), List.cons_ne_nil d' rest⟩
        have hread := unsigned?_fraction negative _ hd hrest htail
          (exponent?_spellExponent s k)
        have hexponent : k + 1 - ((d :: d' :: rest).length : Int) =
            k - ((d' :: rest).length : Int) := by
          simp only [List.length_cons]
          omega
        rw [hexponent]
        exact hread
  · -- zeros between the point and the first digit
    have hzero : WholePart ['0'] := wholePart_singleton (by decide)
    have hfrac : Digits (Binary64.zeros ((-k).toNat - 1) ++ digits) :=
      .append_left (fun _ => isDigit_of_mem_zeros) h
    have hread := unsigned?_fraction negative [] hzero hfrac (by simp) rfl
    have hvalue : ofDigits (['0'] ++ (Binary64.zeros ((-k).toNat - 1) ++ digits)) =
        ofDigits digits := by
      rw [← ofDigits_zeros_append ((-k).toNat - 1) digits]
      exact ofDigits_zeros_append 1 _
    have hexponent : 0 - ((Binary64.zeros ((-k).toNat - 1) ++ digits).length : Int) =
        k + 1 - digits.length := by
      rw [List.length_append, Binary64.zeros, List.length_replicate]
      omega
    rw [hvalue, hexponent, List.append_nil] at hread
    exact hread
  · exact unsigned?_positional negative h hhead (by omega)

theorem number?_spellInt {n : Int} (h : (Nat.toDigits 10 n.natAbs).length ≤ maxIntDigits) :
    number? (spellInt n) = some (.int n) := by
  have hread := number?_signed
    (unsigned?_whole (decide (n < 0)) (wholePart_toDigits n.natAbs) h)
  have hvalue : ofDigits (Nat.toDigits 10 n.natAbs) = n.natAbs := Nat.ofDigitChars_ten_toDigits
  have hsign : (if n < 0 then -(n.natAbs : Int) else n.natAbs) = n := by omega
  simp only [decide_eq_true_eq, hvalue, hsign] at hread
  exact hread

theorem eq_zero_of_isZero {x : Binary64} (h : x.isZero = true) : x = .zero x.negative := by
  obtain ⟨negative, rank, hrank⟩ := x
  obtain rfl : rank = 0 := by simpa [Binary64.isZero] using h
  rfl

theorem unsigned?_zero (negative : Bool) :
    unsigned? negative ['0', '.', '0'] = some (.float (.zero negative)) := by
  cases negative
  · rfl
  · rfl

/-- A finite number is read back from its spelling. -/
theorem number?_spell (x : Binary64) : number? (x.spell .standard) = some (.float x) := by
  by_cases hx : x.isZero = true
  · have hread := number?_signed (unsigned?_zero x.negative)
    rw [← eq_zero_of_isZero hx] at hread
    rw [Binary64.spell, if_pos hx]
    exact hread
  · have hzero : x.isZero = false := Bool.eq_false_iff.mpr hx
    let digits := Nat.toDigits 10 x.shortest.coefficient
    have hread := unsigned?_spellDigits x.negative .standard
      (digits_toDigits x.shortest.coefficient)
      (head?_toDigits_ne_zero (Binary64.coefficient_shortest_ne_zero hzero))
      (x.shortest.exponent + digits.length - 1)
    have hvalue : ofDigits digits = x.shortest.coefficient := Nat.ofDigitChars_ten_toDigits
    have hexponent : x.shortest.exponent + digits.length - 1 + 1 - digits.length =
        x.shortest.exponent := by omega
    rw [hvalue, hexponent, Binary64.ofDecimal_shortest hzero] at hread
    rw [Binary64.spell, if_neg hx]
    exact number?_signed hread

theorem isNumberChar_of_isDigit {c : Char} (h : c.isDigit = true) : isNumberChar c = true := by
  simp [isNumberChar, h]

theorem isNumberChar_cons {c : Char} {cs : List Char} (hc : isNumberChar c = true)
    (hcs : ∀ d ∈ cs, isNumberChar d = true) : ∀ d ∈ c :: cs, isNumberChar d = true := by
  intro d hd
  rcases List.mem_cons.mp hd with rfl | hd
  · exact hc
  · exact hcs d hd

theorem isNumberChar_of_digits? {cs : List Char} {n : Nat} (h : digits? cs = some n) :
    ∀ c ∈ cs, isNumberChar c = true := by
  rw [digits?] at h
  split_ifs at h with hbad
  simp only [Bool.or_eq_true, not_or, Bool.not_eq_true, Bool.not_eq_false',
    List.all_eq_true] at hbad
  intro c hc
  exact isNumberChar_of_isDigit (hbad.2 c hc)

theorem isNumberChar_of_exponent? {cs : List Char} {e : Int} (h : exponent? cs = some e) :
    ∀ c ∈ cs, isNumberChar c = true := by
  cases cs with
  | nil => simp
  | cons c rest =>
    simp only [exponent?] at h
    split_ifs at h with hc
    have hmark : isNumberChar c = true := by
      rcases hc with rfl | rfl
      · decide
      · decide
    have hrest : ∀ d ∈ rest, isNumberChar d = true := by
      split at h
      · obtain ⟨n, hn, -⟩ := Option.map_eq_some_iff.mp h
        obtain ⟨m, hm, -⟩ := Option.bind_eq_some_iff.mp hn
        exact isNumberChar_cons (by decide) (isNumberChar_of_digits? hm)
      · obtain ⟨n, hn, -⟩ := Option.map_eq_some_iff.mp h
        exact isNumberChar_cons (by decide) (isNumberChar_of_digits? hn)
      · obtain ⟨n, hn, -⟩ := Option.map_eq_some_iff.mp h
        exact isNumberChar_of_digits? hn
    exact isNumberChar_cons hmark hrest

theorem span_isNumberChar {cs : List Char}
    (hrest : ∀ c ∈ cs.dropWhile Char.isDigit, isNumberChar c = true) :
    ∀ c ∈ cs, isNumberChar c = true := by
  intro c hc
  rw [← List.takeWhile_append_dropWhile (p := Char.isDigit) (l := cs)] at hc
  rcases List.mem_append.mp hc with hc | hc
  · exact isNumberChar_of_isDigit (List.mem_takeWhile_imp hc)
  · exact hrest c hc

theorem isNumberChar_of_fraction? {cs digits rest : List Char}
    (h : fraction? cs = some (digits, rest)) (hrest : ∀ c ∈ rest, isNumberChar c = true) :
    ∀ c ∈ cs, isNumberChar c = true := by
  unfold fraction? at h
  split at h
  · dsimp only at h
    split_ifs at h
    simp only [Option.some.injEq, Prod.mk.injEq] at h
    have hall := span_isNumberChar (h.2 ▸ hrest)
    exact isNumberChar_cons (by decide) hall
  · simp only [Option.some.injEq, Prod.mk.injEq] at h
    rw [h.2]
    exact hrest

/-- A number is made of the characters that its token takes. -/
theorem isNumberChar_of_unsigned? {negative : Bool} {cs : List Char} {v : Json}
    (h : unsigned? negative cs = some v) : ∀ c ∈ cs, isNumberChar c = true := by
  have hrest : ∀ c ∈ cs.dropWhile Char.isDigit, isNumberChar c = true := by
    by_cases hempty : (cs.dropWhile Char.isDigit).isEmpty = true
    · simp [List.isEmpty_iff.mp hempty]
    · simp only [unsigned?, if_neg hempty] at h
      split_ifs at h
      simp only [Option.bind_eq_bind, Option.bind_eq_some_iff] at h
      obtain ⟨⟨fraction, rest⟩, hfraction, e, he, -⟩ := h
      exact isNumberChar_of_fraction? hfraction (isNumberChar_of_exponent? he)
  exact span_isNumberChar hrest

theorem number?_spec {cs : List Char} {v : Json} (h : number? cs = some v) :
    (∀ c ∈ cs, isNumberChar c = true) ∧ ∃ c ∈ cs.head?, c.isDigit = true ∨ c = '-' := by
  unfold number? at h
  split at h
  · exact ⟨isNumberChar_cons (by decide) (isNumberChar_of_unsigned? h), '-', rfl, .inr rfl⟩
  · obtain ⟨c, hc, hdigit⟩ := exists_head?_of_unsigned? h
    exact ⟨isNumberChar_of_unsigned? h, c, hc, .inl hdigit⟩

end Json

end CurlSnippet
