import CurlSnippet.Url.Percent
import Mathlib

/-!
Percent-encoded text. Encoding leaves only characters that are kept, as long as the percent sign and
the digits are among them; so it leaves encoded text as it is.
-/

namespace CurlSnippet.Url.Percent

variable {keep : Char → Bool}

/-- The characters of an escape are kept. -/
def KeepsEscapes (keep : Char → Bool) : Prop :=
  keep '%' = true ∧ ∀ n < 16, keep (hexDigit n) = true

theorem keepsEscapes_path : KeepsEscapes isPathChar := ⟨rfl, by decide⟩

theorem keepsEscapes_query : KeepsEscapes isQueryChar := ⟨rfl, by decide⟩

theorem encode_eq_self {cs : List Char} (h : ∀ c ∈ cs, keep c = true) : encode keep cs = cs := by
  have hsame : ∀ c ∈ cs, (if keep c then [c] else (utf8 [c]).flatMap encodeByte) = [c] :=
    fun c hc => if_pos (h c hc)
  rw [encode, List.flatMap_congr hsame, List.flatMap_singleton']

theorem encode_cons_of_keep {c : Char} (h : keep c = true) (cs : List Char) :
    encode keep (c :: cs) = c :: encode keep cs := by
  rw [encode, List.flatMap_cons, if_pos h]
  rfl

theorem keep_of_mem_encodeByte (h : KeepsEscapes keep) {b : UInt8} {c : Char}
    (hc : c ∈ encodeByte b) : keep c = true := by
  have hhigh := h.2 (b.toNat / 16) (by have := b.toNat_lt; omega)
  have hlow := h.2 (b.toNat % 16) (by omega)
  rw [encodeByte] at hc
  simp only [List.mem_cons, List.not_mem_nil, or_false] at hc
  rcases hc with rfl | rfl | rfl
  · exact h.1
  · exact hhigh
  · exact hlow

theorem keep_of_mem_encode (h : KeepsEscapes keep) {cs : List Char} {d : Char}
    (hd : d ∈ encode keep cs) : keep d = true := by
  obtain ⟨c, -, hd⟩ := List.mem_flatMap.mp hd
  split_ifs at hd with hc
  · rw [List.mem_singleton.mp hd, hc]
  · obtain ⟨b, -, hb⟩ := List.mem_flatMap.mp hd
    exact keep_of_mem_encodeByte h hb

theorem encode_encode (h : KeepsEscapes keep) (cs : List Char) :
    encode keep (encode keep cs) = encode keep cs :=
  encode_eq_self fun _ => keep_of_mem_encode h

theorem utf8_singleton_ne_nil (c : Char) : utf8 [c] ≠ [] := by
  have hsize : 0 < (utf8 [c]).length := by
    rw [utf8, List.flatMap_singleton, String.length_utf8EncodeChar]
    exact c.utf8Size_pos
  exact List.ne_nil_of_length_pos hsize

theorem encode_ne_nil {cs : List Char} (h : cs ≠ []) : encode keep cs ≠ [] := by
  cases cs with
  | nil => exact absurd rfl h
  | cons c cs =>
    rw [encode, List.flatMap_cons]
    split_ifs
    · simp
    · cases hb : utf8 [c] with
      | nil => exact absurd hb (utf8_singleton_ne_nil c)
      | cons b bs => simp [encodeByte]

end CurlSnippet.Url.Percent
