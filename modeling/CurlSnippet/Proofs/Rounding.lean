import CurlSnippet.Decimal.Shortest
import Mathlib.Algebra.Order.Ring.Nat
import Mathlib.Tactic.Positivity
import Mathlib.Tactic.Ring
import Mathlib.Tactic.SplitIfs

/-!
Rounding to binary64. The number nearest a quotient depends on the quotient alone, not on how it is
written, and a number that is itself binary64 is nearest to itself. For decimals this means that
zeros may be moved between the coefficient and the exponent.
-/

namespace CurlSnippet.Binary64

/-- The definitions name the power of natural numbers, the lemmas of the library its operator. -/
theorem pow_eq (b n : Nat) : Nat.pow b n = b ^ n := rfl

theorem roundQuotient_mul_left {k : Nat} (hk : 0 < k) (num den : Nat) :
    roundQuotient (k * num) (k * den) = roundQuotient num den := by
  have hdiv : k * num / (k * den) = num / den := Nat.mul_div_mul_left num den hk
  have hmod : k * num % (k * den) = k * (num % den) := Nat.mul_mod_mul_left k num den
  have hbelow : 2 * (k * (num % den)) < k * den ↔ 2 * (num % den) < den := by
    rw [Nat.mul_left_comm, Nat.mul_lt_mul_left hk]
  have habove : k * den < 2 * (k * (num % den)) ↔ den < 2 * (num % den) := by
    rw [Nat.mul_left_comm, Nat.mul_lt_mul_left hk]
  simp only [roundQuotient, hdiv, hmod, hbelow, habove]

theorem roundQuotient_mul_right {den : Nat} (hden : 0 < den) (n : Nat) :
    roundQuotient (n * den) den = n := by
  have hdiv : n * den / den = n := Nat.mul_div_cancel n hden
  have hmod : n * den % den = 0 := Nat.mul_mod_left n den
  simp only [roundQuotient, hdiv, hmod, Nat.mul_zero, if_pos hden]

theorem ofQuotient_mul_left {k : Nat} (hk : 0 < k) (negative : Bool) (num den : Nat) :
    ofQuotient negative (k * num) (k * den) = ofQuotient negative num den := by
  have hdiv : k * num * 2 ^ 1074 / (k * den) = num * 2 ^ 1074 / den := by
    rw [Nat.mul_assoc, Nat.mul_div_mul_left _ _ hk]
  have hround (s : Nat) : roundQuotient (k * num * 2 ^ 1074) (k * den * s) =
      roundQuotient (num * 2 ^ 1074) (den * s) := by
    rw [Nat.mul_assoc, Nat.mul_assoc, roundQuotient_mul_left hk]
  simp only [ofQuotient, pow_eq, hdiv, hround]

theorem log2_mul_two_pow {m : Nat} (hm : m ≠ 0) (s : Nat) :
    (m * 2 ^ s).log2 = m.log2 + s := by
  induction s with
  | zero => simp
  | succ s ih =>
    have hne : m * 2 ^ s ≠ 0 := Nat.mul_ne_zero hm (by positivity)
    rw [Nat.pow_succ, ← Nat.mul_assoc, Nat.mul_comm, Nat.log2_two_mul hne, ih]
    omega

/-- A rank splits into the shift of its binade and its significand, which is short only in the
lowest binade. -/
theorem significand_spec (x : Binary64) :
    x.shift * 2 ^ 52 + x.significand = x.rank.val ∧ x.significand < 2 ^ 53 ∧
      (2 ^ 52 ≤ x.significand ∨ x.shift = 0) := by
  unfold significand shift
  simp only [pow_eq]
  omega

/-- The shift is read off the size of the magnitude. -/
theorem log2_scaled (x : Binary64) (hx : x.scaled ≠ 0) : x.scaled.log2 - 52 = x.shift := by
  obtain ⟨-, hlt, hge⟩ := x.significand_spec
  have hne : x.significand ≠ 0 := by
    intro h
    exact hx (by rw [scaled, h, Nat.zero_mul])
  have hhigh : x.significand.log2 < 53 := (Nat.log2_lt hne).mpr hlt
  rw [scaled, pow_eq, log2_mul_two_pow hne]
  rcases hge with hge | hzero
  · have hlow : 52 ≤ x.significand.log2 := (Nat.le_log2 hne).mpr hge
    omega
  · omega

/-- A quotient that is exactly a binary64 number is rounded to it. -/
theorem ofQuotient_eq_some (x : Binary64) (hx : x.scaled ≠ 0) {num den : Nat} (hden : 0 < den)
    (h : num * 2 ^ 1074 = x.scaled * den) : ofQuotient x.negative num den = some x := by
  have hshift : (num * 2 ^ 1074 / den).log2 - 52 = x.shift := by
    rw [h, Nat.mul_div_cancel _ hden, log2_scaled x hx]
  have hround : roundQuotient (num * 2 ^ 1074) (den * 2 ^ x.shift) = x.significand := by
    have hpos : 0 < den * 2 ^ x.shift := Nat.mul_pos hden (by positivity)
    have hunits : num * 2 ^ 1074 = x.significand * (den * 2 ^ x.shift) := by
      rw [h, scaled, pow_eq]
      ring
    rw [hunits, roundQuotient_mul_right hpos]
  have hrank := x.significand_spec.1
  simp only [ofQuotient, pow_eq, hshift, hround, hrank]
  exact dif_pos x.rank.isLt

theorem length_toDigits_mul_ten {c : Nat} (hc : c ≠ 0) :
    (Nat.toDigits 10 (c * 10)).length = (Nat.toDigits 10 c).length + 1 := by
  have h := Nat.toDigits_append_toDigits (b := 10) (n := c) (d := 0) (by decide) (by omega)
    (by decide)
  rw [Nat.mul_comm c 10, ← Nat.add_zero (10 * c), ← h, List.length_append, Nat.toDigits_zero]
  rfl

theorem length_toDigits_mul_pow {c : Nat} (hc : c ≠ 0) (n : Nat) :
    (Nat.toDigits 10 (c * 10 ^ n)).length = (Nat.toDigits 10 c).length + n := by
  induction n with
  | zero => rw [Nat.pow_zero, Nat.mul_one, Nat.add_zero]
  | succ n ih =>
    have hne : c * 10 ^ n ≠ 0 := by positivity
    rw [Nat.pow_succ, ← Nat.mul_assoc, length_toDigits_mul_ten hne, ih, Nat.add_assoc]

theorem ofDecimal_zero (negative : Bool) (e : Int) :
    ofDecimal negative 0 e = some (zero negative) := by
  rw [ofDecimal]
  exact if_pos (.inl rfl)

/-- A zero at the end of the coefficient counts as one in the exponent. -/
theorem ofDecimal_mul_ten (negative : Bool) (c : Nat) (e : Int) :
    ofDecimal negative (c * 10) e = ofDecimal negative c (e + 1) := by
  by_cases hc : c = 0
  · simp [ofDecimal, hc]
  have hpoint : e + ((Nat.toDigits 10 (c * 10)).length : Int) =
      e + 1 + (Nat.toDigits 10 c).length := by
    rw [length_toDigits_mul_ten hc]
    omega
  have hquotient : ofQuotient negative (c * 10 * 10 ^ e.toNat) (10 ^ (-e).toNat) =
      ofQuotient negative (c * 10 ^ (e + 1).toNat) (10 ^ (-(e + 1)).toNat) := by
    by_cases he : 0 ≤ e
    · have h1 : (e + 1).toNat = e.toNat + 1 := by omega
      have h2 : (-e).toNat = 0 := by omega
      have h3 : (-(e + 1)).toNat = 0 := by omega
      rw [h1, h2, h3, Nat.pow_succ]
      congr 1
      ring
    · have h1 : e.toNat = 0 := by omega
      have h2 : (e + 1).toNat = 0 := by omega
      have h3 : (-e).toNat = (-(e + 1)).toNat + 1 := by omega
      have hscale := ofQuotient_mul_left (k := 10) (by decide) negative (c * 10 ^ 0)
        (10 ^ (-(e + 1)).toNat)
      rw [h1, h2, h3, ← hscale, Nat.pow_succ]
      congr 1 <;> ring
  have hne : c * 10 ≠ 0 := by omega
  simp only [ofDecimal, pow_eq, hpoint, hquotient, hc, hne]

theorem ofDecimal_mul_pow (negative : Bool) (c k : Nat) (e : Int) :
    ofDecimal negative (c * 10 ^ k) e = ofDecimal negative c (e + k) := by
  induction k generalizing e with
  | zero => simp
  | succ k ih =>
    rw [Nat.pow_succ, ← Nat.mul_assoc, ofDecimal_mul_ten, ih]
    congr 1
    omega

/-- A decimal without a fraction is rounded as the whole number that it is. -/
theorem ofQuotient_of_ofDecimal {negative : Bool} {c : Nat} {e : Int} {x : Binary64} (hc : c ≠ 0)
    (he : 0 ≤ e) (h : ofDecimal negative c e = some x) :
    ofQuotient negative (c * 10 ^ e.toNat) 1 = some x := by
  have hden : (-e).toNat = 0 := by omega
  have hlarge : ¬ (c = 0 ∨ e + (Nat.toDigits 10 c).length ≤ -324) := by omega
  simp only [ofDecimal, pow_eq, hden, Nat.pow_zero, if_neg hlarge] at h
  split_ifs at h
  exact h

end CurlSnippet.Binary64
