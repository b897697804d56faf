/-!
Maps that keep their keys in the order of the first write. Writing a known key again replaces its
value and leaves its place alone. `keys_put` says which keys a write leaves, `get?_put` what is
read afterwards.
-/

namespace CurlSnippet

/-- Keys with their values, oldest key first. -/
abbrev Entries (κ α : Type) := List (κ × α)

namespace Entries

variable {κ α : Type} [DecidableEq κ]

/-- Replaces the value of a known key in place, or adds the key at the end. -/
def put : Entries κ α → κ → α → Entries κ α
  | [], k, v => [(k, v)]
  | (k', v') :: rest, k, v => if k' = k then (k', v) :: rest else (k', v') :: put rest k v

def get? : Entries κ α → κ → Option α
  | [], _ => none
  | (k', v') :: rest, k => if k' = k then some v' else get? rest k

def keys (m : Entries κ α) : List κ := m.map Prod.fst

/-- Writes the pairs one after the other, so that of two equal keys the later value stays. -/
def ofPairs (pairs : List (κ × α)) : Entries κ α :=
  pairs.foldl (fun m p => put m p.1 p.2) []

@[simp] theorem get?_put (m : Entries κ α) (k j : κ) (v : α) :
    get? (put m k v) j = if k = j then some v else get? m j := by
  induction m with
  | nil => simp [put, get?]
  | cons p rest ih =>
    obtain ⟨k', v'⟩ := p
    by_cases hk : k' = k
    · subst hk
      by_cases hj : k' = j <;> simp [put, get?, hj]
    · by_cases hj : k' = j
      · subst hj
        simp [put, get?, hk, Ne.symm hk]
      · simp [put, get?, hk, hj, ih]

theorem keys_put (m : Entries κ α) (k : κ) (v : α) :
    keys (put m k v) = if k ∈ keys m then keys m else keys m ++ [k] := by
  induction m with
  | nil => simp [put, keys]
  | cons p rest ih =>
    obtain ⟨k', v'⟩ := p
    simp only [keys] at ih
    by_cases hk : k' = k
    · simp [put, keys, hk]
    · by_cases hm : k ∈ rest.map Prod.fst
      · simp [put, keys, hk, ih, hm]
      · simp [put, keys, hk, ih, hm, Ne.symm hk]

end Entries

end CurlSnippet
