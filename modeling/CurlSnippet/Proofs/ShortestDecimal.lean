import CurlSnippet.Json.Number
import CurlSnippet.Proofs.Rounding
import Mathlib.Data.List.TakeWhile

/-!
The written form of a binary64 number is read back as that number. The shortest decimal reads back
because every candidate is tried, and the exact value stands in when no short one does; the spelling
then only moves the point, fills up with zeros or writes an exponent, and the reader undoes each.
-/

namespace CurlSnippet

namespace Binary64

theorem scaled_ne_zero {x : Binary64} (h : x.isZero = false) : x.scaled ≠ 0 := by
  obtain ⟨hsum, -, hge⟩ := x.significand_spec
  have hrank : x.rank.val ≠ 0 := by simpa [isZero] using h
  have hne : x.significand ≠ 0 := by
    intro h0
    rcases hge with hge | hzero
    · omega
    · rw [hzero, h0] at hsum
      omega
  exact Nat.mul_ne_zero hne (Nat.pow_pos (by decide)).ne'

theorem scaled_lt_of_shift_le {x : Binary64} {k : Nat} (h : x.shift ≤ k) :
    x.scaled < 2 ^ (53 + k) := by
  obtain ⟨-, hlt, -⟩ := x.significand_spec
  have hpow : 2 ^ x.shift ≤ 2 ^ k := Nat.pow_le_pow_right (by decide) h
  calc
    x.scaled < 2 ^ 53 * 2 ^ x.shift := Nat.mul_lt_mul_of_pos_right hlt (Nat.pow_pos (by decide))
    _ ≤ 2 ^ 53 * 2 ^ k := Nat.mul_le_mul_left _ hpow
    _ = 2 ^ (53 + k) := by rw [Nat.pow_add]

theorem shift_le (x : Binary64) : x.shift ≤ 2045 := by
  have hrank := x.rank.isLt
  unfold shift
  simp only [pow_eq] at hrank ⊢
  omega

theorem lt_length_toDigits {c k : Nat} (hk : 0 < k) (h : 10 ^ k ≤ c) :
    k < (Nat.toDigits 10 c).length := by
  by_contra hshort
  have hlt := (Nat.length_toDigits_le_iff (b := 10) (by decide) hk).mp (Nat.not_lt.mp hshort)
  omega

theorem ten_pow_le_five_pow : 10 ^ 750 ≤ 5 ^ 1074 := by
  decide +kernel

theorem two_pow_mul_five_pow_lt : 2 ^ (53 + 2045) * 5 ^ 1074 < 10 ^ 1383 := by
  decide +kernel

/-- The exact value has between 751 and 1383 digits, so it is neither too small nor too large. -/
theorem length_exactDecimal {x : Binary64} (hx : x.scaled ≠ 0) :
    750 < (Nat.toDigits 10 (x.scaled * 5 ^ 1074)).length ∧
      (Nat.toDigits 10 (x.scaled * 5 ^ 1074)).length ≤ 1383 := by
  constructor
  · have hle : 5 ^ 1074 ≤ x.scaled * 5 ^ 1074 := Nat.le_mul_of_pos_left _ (Nat.pos_of_ne_zero hx)
    exact lt_length_toDigits (by decide) (ten_pow_le_five_pow.trans hle)
  · apply (Nat.length_toDigits_le_iff (by decide) (by decide)).mpr
    have hlt := scaled_lt_of_shift_le x.shift_le
    exact (Nat.mul_lt_mul_of_pos_right hlt (by positivity)).trans two_pow_mul_five_pow_lt

theorem mul_five_pow_mul_two_pow (n k : Nat) : n * 5 ^ k * 2 ^ k = n * 10 ^ k := by
  rw [Nat.mul_assoc, ← Nat.mul_pow]

/-- A decimal of moderate size that equals a number reads back as it. -/
theorem readsBack_of_eq {x : Binary64} {c k : Nat} (hx : x.scaled ≠ 0) (hc : c ≠ 0)
    (hlow : k < (Nat.toDigits 10 c).length + 324) (hhigh : (Nat.toDigits 10 c).length ≤ k + 309)
    (h : c * 2 ^ 1074 = x.scaled * 10 ^ k) : x.readsBack ⟨c, -(k : Int)⟩ = true := by
  have hwhole : (-(k : Int)).toNat = 0 := by omega
  have hpart : (-(-(k : Int))).toNat = k := by omega
  have hquotient : ofDecimal x.negative c (-(k : Int)) = ofQuotient x.negative c (10 ^ k) := by
    simp only [ofDecimal, pow_eq]
    rw [if_neg (by omega), if_neg (by omega), hwhole, hpart, Nat.pow_zero, Nat.mul_one]
  have hexact := ofQuotient_eq_some x hx (Nat.pow_pos (by decide)) h
  exact beq_iff_eq.mpr (hquotient.trans hexact)

theorem exactDecimal_eq (x : Binary64) :
    x.exactDecimal = ⟨x.scaled * 5 ^ 1074, -((1074 : Nat) : Int)⟩ := rfl

theorem readsBack_exactDecimal {x : Binary64} (hx : x.scaled ≠ 0) :
    x.readsBack x.exactDecimal = true := by
  obtain ⟨hmany, hfew⟩ := length_exactDecimal hx
  have hne : x.scaled * 5 ^ 1074 ≠ 0 := Nat.mul_ne_zero hx (by positivity)
  rw [exactDecimal_eq]
  refine readsBack_of_eq hx hne ?_ ?_ (mul_five_pow_mul_two_pow x.scaled 1074)
  · omega
  · omega

theorem readsBack_of_nearestOnGrid? {x : Binary64} {n : Nat} {d : Decimal}
    (h : x.nearestOnGrid? n = some d) : x.readsBack d = true := by
  simp only [nearestOnGrid?] at h
  split_ifs at h with h1 h2 h3
  · obtain rfl := Option.some.inj h
    exact h1
  · obtain rfl := Option.some.inj h
    exact h2
  · obtain rfl := Option.some.inj h
    exact h3

/-- Zeros at the end of a coefficient are a factor of it. -/
theorem ten_pow_dvd (c : Nat) :
    10 ^ ((Nat.toDigits 10 c).reverse.takeWhile (· == '0')).length ∣ c := by
  let zeros := (Nat.toDigits 10 c).reverse.takeWhile (· == '0')
  let front := ((Nat.toDigits 10 c).reverse.dropWhile (· == '0')).reverse
  have hzeros : zeros = List.replicate zeros.length '0' := by
    rw [List.eq_replicate_iff]
    exact ⟨rfl, fun d hd => by simpa using List.mem_takeWhile_imp hd⟩
  have hdigits : Nat.toDigits 10 c = front ++ List.replicate zeros.length '0' := by
    rw [← List.reverse_replicate, ← hzeros, ← List.reverse_append,
      List.takeWhile_append_dropWhile, List.reverse_reverse]
  have hvalue := congrArg (Nat.ofDigitChars 10 · 0) hdigits
  simp only [Nat.ofDigitChars_ten_toDigits, Nat.ofDigitChars_append,
    Nat.ofDigitChars_replicate_zero] at hvalue
  exact ⟨_, hvalue⟩

theorem readsBack_reduce (x : Binary64) (d : Decimal) : x.readsBack d.reduce = x.readsBack d := by
  by_cases hc : d.coefficient = 0
  · rw [Decimal.reduce, if_pos hc]
  · have hfactor := Nat.div_mul_cancel (ten_pow_dvd d.coefficient)
    simp only [Decimal.reduce, if_neg hc, readsBack, pow_eq]
    rw [← ofDecimal_mul_pow, hfactor]

/-- The decimal that is spelled stands for the number it is spelled for. -/
theorem ofDecimal_shortest {x : Binary64} (hx : x.isZero = false) :
    ofDecimal x.negative x.shortest.coefficient x.shortest.exponent = some x := by
  have hreads : x.readsBack x.shortest = true := by
    rw [shortest, readsBack_reduce]
    cases hfound : (List.range 17).findSome? fun i => x.nearestOnGrid? (i + 1) with
    | none => exact readsBack_exactDecimal (scaled_ne_zero hx)
    | some d =>
      obtain ⟨i, -, hi⟩ := List.exists_of_findSome?_eq_some hfound
      exact readsBack_of_nearestOnGrid? hi
  simpa [readsBack] using hreads

theorem coefficient_shortest_ne_zero {x : Binary64} (hx : x.isZero = false) :
    x.shortest.coefficient ≠ 0 := by
  intro hc
  have hreads := ofDecimal_shortest hx
  rw [hc, ofDecimal_zero] at hreads
  rw [← Option.some.inj hreads] at hx
  exact absurd hx (by simp [isZero, zero])

end Binary64

end CurlSnippet
