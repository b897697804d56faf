import CurlSnippet.Proofs.ScriptBody

/-!
Whole numbers that outlive a script. Up to 2 ^ 53 every whole number is a binary64 number. A shorter
decimal on a coarser grid is an even number below 2 ^ 54, so it is one too and cannot be taken for
another; so the number is printed with its own digits.
-/

namespace CurlSnippet

namespace Binary64

/-- Every significand of 53 bits is that of a number, at every shift. -/
theorem exists_scaled (negative : Bool) {m s : Nat} (hlow : 2 ^ 52 ≤ m) (hhigh : m < 2 ^ 53)
    (hs : s ≤ 2045) : ∃ x : Binary64, x.negative = negative ∧ x.scaled = m * 2 ^ s := by
  have hrank : s * 2 ^ 52 + m < 2047 * 2 ^ 52 := by omega
  let x : Binary64 := ⟨negative, ⟨s * 2 ^ 52 + m, hrank⟩⟩
  have hshift : x.shift = s := by
    show (s * 2 ^ 52 + m) / 2 ^ 52 - 1 = s
    omega
  have hsignificand : x.significand = m := by
    have hsum := x.significand_spec.1
    have hval : x.rank.val = s * 2 ^ 52 + m := rfl
    rw [hshift, hval] at hsum
    exact Nat.add_left_cancel hsum
  exact ⟨x, rfl, by rw [scaled, pow_eq, hshift, hsignificand]⟩

/-- A whole number up to 2 ^ 53, or twice one, is that of a number. -/
theorem exists_exact (negative : Bool) {m s : Nat} (hpos : 0 < m) (hm : m ≤ 2 ^ 53) (hs : s ≤ 1) :
    ∃ x : Binary64, x.negative = negative ∧ x.scaled = m * 2 ^ s * 2 ^ 1074 := by
  rcases Nat.lt_or_eq_of_le hm with hlt | rfl
  · have hlog : m.log2 ≤ 52 := Nat.lt_succ_iff.mp ((Nat.log2_lt hpos.ne').mpr hlt)
    have hsum : m.log2 + (52 - m.log2) = 52 := by omega
    have hlow : 2 ^ 52 ≤ m * 2 ^ (52 - m.log2) := by
      calc
        2 ^ 52 = 2 ^ m.log2 * 2 ^ (52 - m.log2) := by rw [← Nat.pow_add, hsum]
        _ ≤ m * 2 ^ (52 - m.log2) := Nat.mul_le_mul_right _ (Nat.log2_self_le hpos.ne')
    have hhigh : m * 2 ^ (52 - m.log2) < 2 ^ 53 := by
      calc
        m * 2 ^ (52 - m.log2) < 2 ^ (m.log2 + 1) * 2 ^ (52 - m.log2) :=
          Nat.mul_lt_mul_of_pos_right Nat.lt_log2_self (by positivity)
        _ = 2 ^ 53 := by rw [← Nat.pow_add, Nat.add_right_comm, hsum]
    obtain ⟨x, hx, hscaled⟩ := exists_scaled negative hlow hhigh (s := s + 1022 + m.log2) (by omega)
    have hexponent : 52 - m.log2 + (s + 1022 + m.log2) = s + 1074 := by omega
    refine ⟨x, hx, hscaled.trans ?_⟩
    rw [Nat.mul_assoc, ← Nat.pow_add, hexponent, Nat.mul_assoc, ← Nat.pow_add]
  · obtain ⟨x, hx, hscaled⟩ := exists_scaled negative (m := 2 ^ 52) (s := s + 1075) (by omega)
      (by omega) (by omega)
    have hexponent : 52 + (s + 1075) = 53 + s + 1074 := by omega
    refine ⟨x, hx, hscaled.trans ?_⟩
    rw [← Nat.pow_add, ← Nat.pow_add, ← Nat.pow_add, hexponent]

/-- Such a number is rounded to itself. -/
theorem ofQuotient_exact (negative : Bool) {m s : Nat} (hpos : 0 < m) (hm : m ≤ 2 ^ 53)
    (hs : s ≤ 1) : ∃ x, ofQuotient negative (m * 2 ^ s) 1 = some x ∧ x.negative = negative ∧
      x.scaled = m * 2 ^ s * 2 ^ 1074 := by
  obtain ⟨x, rfl, hscaled⟩ := exists_exact negative hpos hm hs
  have hne : x.scaled ≠ 0 := by
    rw [hscaled]
    positivity
  have hround := ofQuotient_eq_some x hne Nat.one_pos ((Nat.mul_one x.scaled).trans hscaled).symm
  exact ⟨x, hround, rfl, hscaled⟩

section Whole

variable {x : Binary64} {k : Nat}

theorem decimalExponent_whole (hpos : 0 < k) (hx : x.scaled = k * 2 ^ 1074) :
    x.decimalExponent = (Nat.toDigits 10 k).length - 1 := by
  have hdiv : x.scaled * 10 ^ 400 / 2 ^ 1074 = k * 10 ^ 400 := by
    rw [hx, Nat.mul_right_comm, Nat.mul_div_cancel _ (by positivity)]
  simp only [decimalExponent, pow_eq, hdiv, length_toDigits_mul_pow hpos.ne']
  omega

/-- On a grid whose unit is a whole number the neighbours of the number are found by division. -/
theorem nearestOnGrid?_whole (hpos : 0 < k) (hx : x.scaled = k * 2 ^ 1074) {i u : Nat}
    (hu : i + u = (Nat.toDigits 10 k).length) :
    x.nearestOnGrid? i =
      let near (c : Nat) : Option Decimal := if x.readsBack ⟨c, u⟩ then some ⟨c, u⟩ else none
      (near (roundQuotient k (10 ^ u))).or ((near (k / 10 ^ u)).or (near (k / 10 ^ u + 1))) := by
  have hunit : x.decimalExponent - i + 1 = u := by
    rw [decimalExponent_whole hpos hx]
    omega
  have hwhole : (-(u : Int)).toNat = 0 := by omega
  have hden : x.scaled * 10 ^ 0 = 2 ^ 1074 * k := by
    rw [hx, Nat.pow_zero, Nat.mul_one, Nat.mul_comm]
  simp only [nearestOnGrid?, hunit, hwhole, pow_eq, hden, Int.toNat_natCast,
    roundQuotient_mul_left (show 0 < 2 ^ 1074 by positivity),
    Nat.mul_div_mul_left _ _ (show 0 < 2 ^ 1074 by positivity)]
  split_ifs <;> rfl

theorem roundQuotient_le (num den : Nat) : roundQuotient num den ≤ num / den + 1 := by
  simp only [roundQuotient]
  split_ifs
  · omega
  · omega
  · omega

theorem length_toDigits_whole (hk : k ≤ 2 ^ 53) : (Nat.toDigits 10 k).length ≤ 16 := by
  rw [Nat.length_toDigits_le_iff (by decide) (by decide)]
  omega

/-- A decimal on a grid of tens or more is twice another whole number. -/
theorem mul_ten_pow_succ (c u : Nat) : c * 10 ^ (u + 1) = c * (5 * 10 ^ u) * 2 ^ 1 := by
  rw [Nat.pow_succ]
  ring

/-- A neighbour on such a grid is below 2 ^ 54. -/
theorem half_le (hk : k ≤ 2 ^ 53) {c u : Nat} (hu : u + 1 ≤ 15)
    (hle : c ≤ k / 10 ^ (u + 1) + 1) : c * (5 * 10 ^ u) ≤ 2 ^ 53 := by
  have hunit : 10 ^ (u + 1) ≤ 10 ^ 15 := Nat.pow_le_pow_right (by decide) hu
  have hbound : c * 10 ^ (u + 1) ≤ k + 10 ^ 15 := by
    calc
      c * 10 ^ (u + 1) ≤ (k / 10 ^ (u + 1) + 1) * 10 ^ (u + 1) := Nat.mul_le_mul_right _ hle
      _ = k / 10 ^ (u + 1) * 10 ^ (u + 1) + 10 ^ (u + 1) := Nat.succ_mul _ _
      _ ≤ k + 10 ^ 15 := Nat.add_le_add (Nat.div_mul_le_self _ _) hunit
  rw [mul_ten_pow_succ] at hbound
  omega

theorem scaled_zero (negative : Bool) : (zero negative).scaled = 0 := by
  have hrank : (zero negative).rank.val = 0 := rfl
  rw [scaled, significand, hrank, Nat.zero_sub, Nat.zero_mul]

/-- Such a neighbour is a binary64 number, so it does not read back as another one. -/
theorem eq_of_readsBack (hpos : 0 < k) (hk : k ≤ 2 ^ 53) (hx : x.scaled = k * 2 ^ 1074) {c u : Nat}
    (hu : u + 1 ≤ 15) (hle : c ≤ k / 10 ^ (u + 1) + 1)
    (h : x.readsBack ⟨c, (u + 1 : Nat)⟩ = true) : c * 10 ^ (u + 1) = k := by
  have hunit : 0 < 2 ^ 1074 := by positivity
  have hread : ofDecimal x.negative c (u + 1 : Nat) = some x := beq_iff_eq.mp h
  have hc : c ≠ 0 := by
    rintro rfl
    have hzero := scaled_zero x.negative
    rw [Option.some.inj ((ofDecimal_zero _ _).symm.trans hread), hx] at hzero
    exact (Nat.mul_pos hpos hunit).ne' hzero
  have hquotient := ofQuotient_of_ofDecimal hc (Int.natCast_nonneg _) hread
  rw [Int.toNat_natCast, mul_ten_pow_succ] at hquotient
  have hhalf : 0 < c * (5 * 10 ^ u) :=
    Nat.mul_pos (Nat.pos_of_ne_zero hc) (Nat.mul_pos (by decide) (Nat.pow_pos (by decide)))
  obtain ⟨y, hy, -, hscaled⟩ :=
    ofQuotient_exact x.negative (s := 1) hhalf (half_le hk hu hle) (Nat.le_refl 1)
  obtain rfl := Option.some.inj (hy.symm.trans hquotient)
  rw [hx, ← mul_ten_pow_succ] at hscaled
  exact (Nat.eq_of_mul_eq_mul_right hunit hscaled).symm

theorem readsBack_whole (hpos : 0 < k) (hk : k ≤ 2 ^ 53) (hx : x.scaled = k * 2 ^ 1074) :
    x.readsBack ⟨k, (0 : Nat)⟩ = true := by
  have hfew := length_toDigits_whole hk
  have hne : x.scaled ≠ 0 := by
    rw [hx]
    positivity
  have hexact : k * 2 ^ 1074 = x.scaled * 10 ^ 0 := by rw [hx, Nat.pow_zero, Nat.mul_one]
  exact readsBack_of_eq hne hpos.ne' (by omega) (by omega) hexact

/-- On the grid of ones the number itself is taken. -/
theorem nearestOnGrid?_digits (hpos : 0 < k) (hk : k ≤ 2 ^ 53) (hx : x.scaled = k * 2 ^ 1074) :
    x.nearestOnGrid? (Nat.toDigits 10 k).length = some ⟨k, (0 : Nat)⟩ := by
  have hround : roundQuotient k (10 ^ 0) = k := by
    have hmul := roundQuotient_mul_right Nat.one_pos k
    rwa [Nat.mul_one] at hmul
  rw [nearestOnGrid?_whole hpos hx (Nat.add_zero _)]
  simp only [hround, readsBack_whole hpos hk hx, if_true, Option.some_or]

/-- What is taken on a grid whose unit is a whole number is the number. -/
theorem value_of_nearestOnGrid? (hpos : 0 < k) (hk : k ≤ 2 ^ 53) (hx : x.scaled = k * 2 ^ 1074)
    {i : Nat} (hi : 0 < i) (hle : i ≤ (Nat.toDigits 10 k).length) {d : Decimal}
    (h : x.nearestOnGrid? i = some d) : ∃ u : Nat, d.exponent = u ∧ d.coefficient * 10 ^ u = k := by
  have hfew := length_toDigits_whole hk
  obtain ⟨u, hu⟩ := Nat.exists_eq_add_of_le hle
  cases u with
  | zero =>
    rw [Nat.add_zero] at hu
    rw [← hu, nearestOnGrid?_digits hpos hk hx] at h
    obtain rfl := Option.some.inj h
    exact ⟨0, rfl, Nat.mul_one k⟩
  | succ u =>
    rw [nearestOnGrid?_whole hpos hx hu.symm] at h
    have hcoarse : u + 1 ≤ 15 := by omega
    have hnear : ∀ {c : Nat}, c ≤ k / 10 ^ (u + 1) + 1 →
        (if x.readsBack ⟨c, (u + 1 : Nat)⟩ then some (⟨c, (u + 1 : Nat)⟩ : Decimal) else none) =
          some d →
        ∃ u : Nat, d.exponent = u ∧ d.coefficient * 10 ^ u = k := by
      intro c hc hd
      split_ifs at hd with hreads
      obtain rfl := Option.some.inj hd
      exact ⟨u + 1, rfl, eq_of_readsBack hpos hk hx hcoarse hc hreads⟩
    rcases Option.or_eq_some_iff.mp h with h | ⟨-, h⟩
    · exact hnear (roundQuotient_le _ _) h
    rcases Option.or_eq_some_iff.mp h with h | ⟨-, h⟩
    · exact hnear (Nat.le_succ _) h
    · exact hnear (Nat.le_refl _) h

/-- Moving zeros into the exponent of a whole number leaves it the same. -/
theorem value_reduce {d : Decimal} {u : Nat} (hexponent : d.exponent = u)
    (hvalue : d.coefficient * 10 ^ u = k) (hpos : 0 < k) :
    ∃ v : Nat, d.reduce.exponent = v ∧ d.reduce.coefficient * 10 ^ v = k := by
  have hc : d.coefficient ≠ 0 := by
    rintro h0
    rw [h0, Nat.zero_mul] at hvalue
    exact hpos.ne hvalue
  let zeros := ((Nat.toDigits 10 d.coefficient).reverse.takeWhile (· == '0')).length
  have hreduce : d.reduce = ⟨d.coefficient / 10 ^ zeros, d.exponent + zeros⟩ := by
    rw [Decimal.reduce, if_neg hc]
    rfl
  have hfactor : d.coefficient / 10 ^ zeros * 10 ^ zeros = d.coefficient :=
    Nat.div_mul_cancel (ten_pow_dvd d.coefficient)
  refine ⟨zeros + u, ?_, ?_⟩
  · rw [hreduce, hexponent]
    exact (Int.add_comm _ _).trans (Nat.cast_add zeros u).symm
  · rw [hreduce, Nat.pow_add, ← Nat.mul_assoc, hfactor, hvalue]

/-- The decimal that is printed for the number is the number. -/
theorem shortest_whole (hpos : 0 < k) (hk : k ≤ 2 ^ 53) (hx : x.scaled = k * 2 ^ 1074) :
    ∃ v : Nat, x.shortest.exponent = v ∧ x.shortest.coefficient * 10 ^ v = k := by
  let grid (i : Nat) := x.nearestOnGrid? (i + 1)
  let n := (Nat.toDigits 10 k).length
  have hfew : n ≤ 16 := length_toDigits_whole hk
  have hdigits : 0 < n := List.length_pos_iff.mpr Nat.toDigits_ne_nil
  have hvalue : ∀ {i : Nat} {d : Decimal}, i < n → grid i = some d →
      ∃ u : Nat, d.exponent = u ∧ d.coefficient * 10 ^ u = k := fun hi hd =>
    value_of_nearestOnGrid? hpos hk hx (Nat.succ_pos _) hi hd
  have hlast : grid (n - 1) = some ⟨k, (0 : Nat)⟩ := by
    have hn : n - 1 + 1 = n := Nat.sub_add_cancel hdigits
    show x.nearestOnGrid? (n - 1 + 1) = _
    rw [hn, nearestOnGrid?_digits hpos hk hx]
  have hrange : List.range 17 = List.range n ++ (List.range (17 - n)).map (n + ·) := by
    rw [← List.range_add, Nat.add_sub_of_le (hfew.trans (by decide))]
  cases hfound : (List.range n).findSome? grid with
  | none =>
    have hmem : n - 1 ∈ List.range n := List.mem_range.mpr (Nat.sub_one_lt_of_lt hdigits)
    have hnone := List.findSome?_eq_none_iff.mp hfound (n - 1) hmem
    rw [hlast] at hnone
    cases hnone
  | some d =>
    obtain ⟨i, hi, hd⟩ := List.exists_of_findSome?_eq_some hfound
    obtain ⟨u, hexponent, hd⟩ := hvalue (List.mem_range.mp hi) hd
    have hshortest : x.shortest = d.reduce := by
      rw [shortest, hrange, List.findSome?_append, hfound]
      rfl
    rw [hshortest]
    exact value_reduce hexponent hd hpos

end Whole

end Binary64

namespace Script

theorem isWhole_of_value {x : Binary64} {k v : Nat} (hpos : 0 < k) (hk : k ≤ 2 ^ 53)
    (hexponent : x.shortest.exponent = v) (hvalue : x.shortest.coefficient * 10 ^ v = k) :
    isWhole x = true := by
  have hc : x.shortest.coefficient ≠ 0 := by
    intro h0
    rw [h0, Nat.zero_mul] at hvalue
    exact hpos.ne hvalue
  have hlength := Binary64.length_toDigits_mul_pow hc v
  have hfew := Binary64.length_toDigits_whole hk
  rw [hvalue] at hlength
  rw [isWhole, hexponent, Bool.and_eq_true, decide_eq_true_eq, decide_eq_true_eq]
  exact ⟨Int.natCast_nonneg v, by omega⟩

/-- A whole number up to 2 ^ 53 is printed as it is. -/
theorem read_ofInt {n : Int} (h : n.natAbs ≤ 2 ^ 53) : (Number.ofInt n).read = .int n := by
  by_cases hn : n = 0
  · have hzero : (Binary64.zero false).isZero = true := rfl
    rw [hn, ofInt_zero, Number.read, if_pos hzero]
  have hpos : 0 < n.natAbs := Int.natAbs_pos.mpr hn
  have hsigned : (if n < 0 then -(n.natAbs : Int) else n.natAbs) = n := by omega
  obtain ⟨x, hround, hsign, hscaled⟩ :=
    Binary64.ofQuotient_exact (decide (n < 0)) (s := 0) hpos h (Nat.zero_le 1)
  rw [Nat.pow_zero, Nat.mul_one] at hround hscaled
  obtain ⟨v, hexponent, hvalue⟩ := Binary64.shortest_whole hpos h hscaled
  have hx : x.isZero = false := by
    rw [Bool.eq_false_iff]
    intro hzero
    rw [Json.eq_zero_of_isZero hzero, Binary64.scaled_zero] at hscaled
    have hunit : 0 < 2 ^ 1074 := by positivity
    exact (Nat.mul_pos hpos hunit).ne hscaled
  have hmagnitude : (x.shortest.coefficient : Int) * 10 ^ v = n.natAbs := by
    exact_mod_cast hvalue
  have hwhole := isWhole_of_value hpos h hexponent hvalue
  rw [ofInt_eq_finite rfl rfl hround]
  simp only [Number.read, hx, hwhole, hexponent, hsign, Int.toNat_natCast, hmagnitude, if_true,
    Bool.false_eq_true, if_false, decide_eq_true_eq, hsigned]

end Script

namespace Json

/-- Whole numbers up to 2 ^ 53 survive. -/
theorem survives_int {n : Int} (h : n.natAbs ≤ 2 ^ 53) : (Json.int n).survives = true := by
  rw [survives, Script.read_ofInt h, denotedBy, beq_self_eq_true]

end Json

end CurlSnippet
