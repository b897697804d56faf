import CurlSnippet.Base64
import Mathlib

/-!
Base64 text by its bits. Bytes are spelled by the digits that hold their bits in the same order,
filled up to a whole digit, and padding fills up the last group of four characters. What has been
written that way is read back as the bytes, for any number of them.
-/

namespace CurlSnippet.Base64

/-- The digits in the order of their numbers. -/
def alphabet : List Char :=
  "ABCDEFGHIJKLMNOPQRSTUVWXYZabcdefghijklmnopqrstuvwxyz0123456789+/".toList

/-- The lowest bits of a number, as many as asked for, beginning with the highest of them. -/
def bits : Nat → Nat → List Bool
  | 0, _ => []
  | count + 1, n => bits count (n / 2) ++ [decide (n % 2 = 1)]

/-- The bits of bytes in their order. -/
def byteBits (bytes : List UInt8) : List Bool := bytes.flatMap fun b => bits 8 b.toNat

/-- The bits of digits in their order. -/
def digitBits (digits : List Char) : List Bool := digits.flatMap fun c => bits 6 (alphabet.idxOf c)

/-- Digits that hold the bits of the bytes, with as many zeros as the last digit has left over, and
the padding that fills up the last group of four. -/
def Spells (bytes : List UInt8) (cs : List Char) : Prop :=
  ∃ digits zeros padding,
    cs = digits ++ List.replicate padding '=' ∧ (∀ c ∈ digits, c ∈ alphabet) ∧
    digitBits digits = byteBits bytes ++ List.replicate zeros false ∧ zeros < 6 ∧
    padding < 4 ∧ 4 ∣ cs.length

section Bits

theorem bits_add (j k n : Nat) : bits (j + k) n = bits j (n / 2 ^ k) ++ bits k n := by
  induction k generalizing n with
  | zero => simp [bits]
  | succ k ih =>
    have hhalf : n / 2 / 2 ^ k = n / 2 ^ (k + 1) := by rw [Nat.div_div_eq_div_mul, Nat.pow_succ']
    rw [← Nat.add_assoc, bits, bits, ih, hhalf, List.append_assoc]

/-- Higher bits than those asked for do not matter. -/
theorem bits_mod (k n : Nat) : bits k (n % 2 ^ k) = bits k n := by
  induction k generalizing n with
  | zero => rfl
  | succ k ih =>
    rw [bits, bits, Nat.pow_succ', Nat.mod_mul_right_mod, Nat.mod_mul_right_div_self, ih]

/-- A number that is shifted has zeros for its last bits. -/
theorem bits_shift (j k n : Nat) :
    bits (j + k) (n * 2 ^ k) = bits j n ++ List.replicate k false := by
  have hzero : bits k 0 = List.replicate k false := by
    induction k with
    | zero => rfl
    | succ k ih => rw [bits, Nat.zero_div, ih, List.replicate_succ']; rfl
  rw [bits_add, Nat.mul_div_cancel _ (Nat.two_pow_pos k), ← bits_mod k (n * 2 ^ k),
    Nat.mul_mod_left, hzero]

theorem byteBits_append (bs cs : List UInt8) : byteBits (bs ++ cs) = byteBits bs ++ byteBits cs :=
  List.flatMap_append

/-- The number that bytes stand for in their order. -/
def number (bytes : List UInt8) : Nat := bytes.foldl (fun n b => n * 256 + b.toNat) 0

theorem bits_number (bytes : List UInt8) :
    bits (8 * bytes.length) (number bytes) = byteBits bytes := by
  induction bytes using List.reverseRecOn with
  | nil => rfl
  | append_singleton bytes b ih =>
    have hb := b.toNat_lt
    have hnumber : number (bytes ++ [b]) = number bytes * 256 + b.toNat := by
      rw [number, List.foldl_append]
      rfl
    have hhigh : (number bytes * 256 + b.toNat) / 2 ^ 8 = number bytes := by omega
    have hlow : (number bytes * 256 + b.toNat) % 2 ^ 8 = b.toNat := by omega
    rw [List.length_append, List.length_singleton, Nat.mul_succ, bits_add, hnumber, hhigh,
      ← bits_mod 8, hlow, ih, byteBits_append, byteBits, byteBits, List.flatMap_singleton]

end Bits

section Digits

/-- The lowest digits of a number, as many as asked for. -/
def digits : Nat → Nat → List Char
  | 0, _ => []
  | count + 1, n => digits count (n / 64) ++ [digit (n % 64)]

theorem digit_spec : ∀ n < 64, digit n ∈ alphabet ∧ alphabet.idxOf (digit n) = n ∧
    value? (digit n) = some n ∧ digit n ≠ '=' := by
  decide +kernel

theorem length_digits (count n : Nat) : (digits count n).length = count := by
  induction count generalizing n with
  | zero => rfl
  | succ count ih => rw [digits, List.length_append, ih, List.length_singleton]

theorem mem_alphabet_of_mem_digits {count n : Nat} {c : Char} (h : c ∈ digits count n) :
    c ∈ alphabet := by
  induction count generalizing n with
  | zero => cases h
  | succ count ih =>
    rcases List.mem_append.mp h with h | h
    · exact ih h
    · rw [List.mem_singleton.mp h]
      exact (digit_spec _ (Nat.mod_lt n (by decide))).1

theorem digitBits_append (cs ds : List Char) :
    digitBits (cs ++ ds) = digitBits cs ++ digitBits ds :=
  List.flatMap_append

/-- Six bits to a digit. -/
theorem digitBits_digits (count n : Nat) : digitBits (digits count n) = bits (6 * count) n := by
  induction count generalizing n with
  | zero => rfl
  | succ count ih =>
    have hlast : digitBits [digit (n % 64)] = bits 6 n := by
      rw [digitBits, List.flatMap_singleton, (digit_spec _ (Nat.mod_lt n (by decide))).2.1]
      exact bits_mod 6 n
    rw [digits, digitBits_append, ih, hlast, Nat.mul_succ, bits_add]
    rfl

end Digits

section Encode

variable {a b c : UInt8}

theorem encode_one : encode [a] = digits 2 (number [a] * 2 ^ 4) ++ List.replicate 2 '=' := by
  have ha := a.toNat_lt
  have hnumber : number [a] = a.toNat := by simp [number]
  have hfirst : a.toNat * 2 ^ 4 / 64 % 64 = a.toNat * 16 / 64 := by omega
  rw [hnumber]
  simp only [digits, hfirst]
  rfl

theorem encode_two : encode [a, b] = digits 3 (number [a, b] * 2 ^ 2) ++ List.replicate 1 '=' := by
  have ha := a.toNat_lt
  have hb := b.toNat_lt
  have hnumber : number [a, b] * 2 ^ 2 = a.toNat * 1024 + b.toNat * 4 := by
    simp [number]
    omega
  rw [hnumber]
  generalize hn : a.toNat * 1024 + b.toNat * 4 = n
  have hfirst : n / 64 / 64 % 64 = n / 4096 := by omega
  simp only [digits, hfirst, encode, hn]
  rfl

theorem encode_three (rest : List UInt8) :
    encode (a :: b :: c :: rest) = digits 4 (number [a, b, c]) ++ encode rest := by
  have ha := a.toNat_lt
  have hb := b.toNat_lt
  have hc := c.toNat_lt
  have hnumber : number [a, b, c] = a.toNat * 65536 + b.toNat * 256 + c.toNat := by
    simp [number]
    omega
  rw [hnumber]
  generalize hn : a.toNat * 65536 + b.toNat * 256 + c.toNat = n
  have hfirst : n / 64 / 64 / 64 % 64 = n / 262144 := by omega
  have hsecond : n / 64 / 64 % 64 = n / 4096 % 64 := by omega
  simp only [digits, hfirst, hsecond, encode, hn]
  rfl

end Encode

/-- The last group, of fewer bytes than three. -/
theorem spells_last {bytes : List UInt8} {count zeros padding : Nat}
    (hbits : 6 * count = 8 * bytes.length + zeros) (hzeros : zeros < 6) (hpadding : padding < 4)
    (hlength : 4 ∣ count + padding) :
    Spells bytes (digits count (number bytes * 2 ^ zeros) ++ List.replicate padding '=') := by
  refine ⟨_, zeros, padding, rfl, fun _ => mem_alphabet_of_mem_digits, ?_, hzeros, hpadding, ?_⟩
  · rw [digitBits_digits, hbits, bits_shift, bits_number]
  · rwa [List.length_append, length_digits, List.length_replicate]

theorem Spells.three {a b c : UInt8} {rest : List UInt8} {cs : List Char} (h : Spells rest cs) :
    Spells (a :: b :: c :: rest) (digits 4 (number [a, b, c]) ++ cs) := by
  obtain ⟨ds, zeros, padding, rfl, hdigits, hbits, hzeros, hpadding, hlength⟩ := h
  refine ⟨digits 4 (number [a, b, c]) ++ ds, zeros, padding, ?_, ?_, ?_, hzeros, hpadding, ?_⟩
  · rw [List.append_assoc]
  · intro d hd
    exact (List.mem_append.mp hd).elim mem_alphabet_of_mem_digits (hdigits d)
  · have hgroup : byteBits (a :: b :: c :: rest) = byteBits [a, b, c] ++ byteBits rest :=
      byteBits_append [a, b, c] rest
    rw [digitBits_append, digitBits_digits, hbits, hgroup, ← bits_number [a, b, c],
      List.append_assoc]
    rfl
  · rw [List.length_append, length_digits]
    exact Nat.dvd_add (Nat.dvd_refl 4) hlength

/-- What is written spells the bytes. -/
theorem spells_encode (bytes : List UInt8) : Spells bytes (encode bytes) := by
  induction bytes using encode.induct with
  | case1 a b c rest ih =>
    rw [encode_three]
    exact ih.three
  | case2 a b =>
    rw [encode_two]
    exact spells_last rfl (by decide) (by decide) (by decide)
  | case3 a =>
    rw [encode_one]
    exact spells_last rfl (by decide) (by decide) (by decide)
  | case4 => exact ⟨[], 0, 0, rfl, nofun, rfl, by decide, by decide, by decide⟩

section Decode

variable (bytes : List UInt8) (left padding n : Nat) (rest : List Char)

theorem decodeFrom_first : decodeFrom bytes 0 left padding (digit (n % 64) :: rest) =
    decodeFrom bytes 1 (n % 64) 0 rest := by
  obtain ⟨-, -, hvalue, hne⟩ := digit_spec _ (Nat.mod_lt n (by decide))
  rw [decodeFrom, if_neg hne, hvalue]
  rfl

theorem decodeFrom_next {place : Nat} (hplace : place ≠ 0) :
    decodeFrom bytes place left padding (digit (n % 64) :: rest) =
      decodeFrom (UInt8.ofNat ((left * 64 + n % 64) / 2 ^ (6 - 2 * place)) :: bytes)
        ((place + 1) % 4) ((left * 64 + n % 64) % 2 ^ (6 - 2 * place)) 0 rest := by
  obtain ⟨-, -, hvalue, hne⟩ := digit_spec _ (Nat.mod_lt n (by decide))
  rw [decodeFrom, if_neg hne, hvalue]
  exact if_neg hplace

variable {a b c : UInt8}

/-- Two digits hold a byte and four bits more. -/
theorem decodeFrom_two (ha : n / 16 % 256 = a.toNat) :
    decodeFrom bytes 0 left padding (digits 2 n ++ rest) =
      decodeFrom (a :: bytes) 2 (n % 16) 0 rest := by
  have hbyte : (n / 64 % 64 * 64 + n % 64) / 2 ^ (6 - 2 * 1) = a.toNat := by omega
  have hleft : (n / 64 % 64 * 64 + n % 64) % 2 ^ (6 - 2 * 1) = n % 16 := by omega
  show decodeFrom bytes 0 left padding (digit (n / 64 % 64) :: digit (n % 64) :: rest) = _
  rw [decodeFrom_first, decodeFrom_next _ _ _ _ _ (by decide), hbyte, hleft, UInt8.ofNat_toNat]

/-- Three digits hold two bytes and two bits more. -/
theorem decodeFrom_three (ha : n / 1024 % 256 = a.toNat) (hb : n / 4 % 256 = b.toNat) :
    decodeFrom bytes 0 left padding (digits 3 n ++ rest) =
      decodeFrom (b :: a :: bytes) 3 (n % 4) 0 rest := by
  have hbyte : (n / 64 % 16 * 64 + n % 64) / 2 ^ (6 - 2 * 2) = b.toNat := by omega
  have hleft : (n / 64 % 16 * 64 + n % 64) % 2 ^ (6 - 2 * 2) = n % 4 := by omega
  rw [digits, List.append_assoc, decodeFrom_two _ _ _ _ _ (a := a) (by omega)]
  show decodeFrom (a :: bytes) 2 (n / 64 % 16) 0 (digit (n % 64) :: rest) = _
  rw [decodeFrom_next _ _ _ _ _ (by decide), hbyte, hleft, UInt8.ofNat_toNat]

/-- Four digits hold three bytes. -/
theorem decodeFrom_four (ha : n / 65536 % 256 = a.toNat) (hb : n / 256 % 256 = b.toNat)
    (hc : n % 256 = c.toNat) :
    decodeFrom bytes 0 left padding (digits 4 n ++ rest) =
      decodeFrom (c :: b :: a :: bytes) 0 0 0 rest := by
  have hbyte : (n / 64 % 4 * 64 + n % 64) / 2 ^ (6 - 2 * 3) = c.toNat := by omega
  have hleft : (n / 64 % 4 * 64 + n % 64) % 2 ^ (6 - 2 * 3) = 0 := by omega
  rw [digits, List.append_assoc, decodeFrom_three _ _ _ _ _ (a := a) (b := b) (by omega) (by omega)]
  show decodeFrom (b :: a :: bytes) 3 (n / 64 % 4) 0 (digit (n % 64) :: rest) = _
  rw [decodeFrom_next _ _ _ _ _ (by decide), hbyte, hleft, UInt8.ofNat_toNat]

end Decode

/-- Reading goes on behind the bytes that have been read. -/
theorem decodeFrom_encode (read : List UInt8) (left padding : Nat) (bytes : List UInt8) :
    decodeFrom read 0 left padding (encode bytes) = some (read.reverse ++ bytes) := by
  induction bytes using encode.induct generalizing read left padding with
  | case1 a b c rest ih =>
    have ha := a.toNat_lt
    have hb := b.toNat_lt
    have hc := c.toNat_lt
    have hnumber : number [a, b, c] = (a.toNat * 256 + b.toNat) * 256 + c.toNat := by simp [number]
    rw [encode_three, decodeFrom_four _ _ _ _ _ (a := a) (b := b) (c := c) (by omega) (by omega)
      (by omega), ih]
    simp
  | case2 a b =>
    have ha := a.toNat_lt
    have hb := b.toNat_lt
    have hnumber : number [a, b] = a.toNat * 256 + b.toNat := by simp [number]
    rw [encode_two, decodeFrom_three _ _ _ _ _ (a := a) (b := b) (by omega) (by omega)]
    show some (b :: a :: read).reverse = _
    simp
  | case3 a =>
    have ha := a.toNat_lt
    have hnumber : number [a] = a.toNat := by simp [number]
    rw [encode_one, decodeFrom_two _ _ _ _ _ (a := a) (by omega)]
    show some (a :: read).reverse = _
    simp
  | case4 => simp [encode, decodeFrom]

/-- What is written is read back. -/
theorem decode?_encode (bytes : List UInt8) : decode? (encode bytes) = some bytes :=
  decodeFrom_encode [] 0 0 bytes

theorem encode_injective {bytes bytes' : List UInt8} (h : encode bytes = encode bytes') :
    bytes = bytes' := by
  have hread := decode?_encode bytes
  rw [h, decode?_encode] at hread
  exact (Option.some.inj hread).symm

end CurlSnippet.Base64
