import CurlSnippet.Entries
import Mathlib.Data.List.Induction
import Mathlib.Data.List.Nodup
import Mathlib.Tactic.SplitIfs

/-!
Maps written pair by pair. What is left of a series of writes is one entry for every key that was
written, in the order of the first writes, with the value of the last write; no key stands twice.
-/

namespace CurlSnippet.Entries

variable {κ α : Type} [DecidableEq κ]

/-- The keys in the order of their first write, each with the value of its last. -/
def lastWrites (writes : List (κ × α)) : List (κ × α) :=
  (writes.map Prod.fst).eraseDups.filterMap fun k => (writes.filter fun w => w.1 = k).getLast?

theorem ofPairs_concat (ps : List (κ × α)) (p : κ × α) :
    ofPairs (ps ++ [p]) = put (ofPairs ps) p.1 p.2 := by
  simp [ofPairs]

theorem keys_ofPairs (ps : List (κ × α)) : keys (ofPairs ps) = (ps.map Prod.fst).eraseDups := by
  induction ps using List.reverseRecOn with
  | nil => rfl
  | append_singleton ps p ih =>
    rw [ofPairs_concat, keys_put, ih, List.map_append, List.eraseDups_append]
    by_cases hmem : p.1 ∈ ps.map Prod.fst
    · rw [if_pos (List.mem_eraseDups.mpr hmem)]
      simp [List.removeAll, List.mem_map.mp hmem]
    · rw [if_neg (fun h => hmem (List.mem_eraseDups.mp h))]
      have hkeep : [p.1].removeAll (ps.map Prod.fst) = [p.1] := by
        simp only [List.removeAll, List.filter_cons, List.elem_eq_contains, List.contains_eq_mem,
          hmem, decide_false, Bool.not_false, if_true, List.filter_nil]
      rw [List.map_singleton, hkeep]
      rfl

theorem get?_ofPairs (ps : List (κ × α)) (k : κ) :
    get? (ofPairs ps) k = (ps.filter fun p => p.1 = k).getLast?.map Prod.snd := by
  induction ps using List.reverseRecOn with
  | nil => rfl
  | append_singleton ps p ih =>
    rw [ofPairs_concat, get?_put, ih]
    by_cases hk : p.1 = k <;> simp [hk]

theorem put_of_not_mem {m : Entries κ α} {k : κ} (h : k ∉ keys m) (v : α) :
    put m k v = m ++ [(k, v)] := by
  induction m with
  | nil => rfl
  | cons p rest ih =>
    obtain ⟨k', v'⟩ := p
    rw [keys, List.map_cons, List.mem_cons, not_or] at h
    rw [put, if_neg (Ne.symm h.1), ih h.2, List.cons_append]

theorem mem_put {m : Entries κ α} {k : κ} {v : α} {p : κ × α} (h : p ∈ put m k v) :
    p ∈ m ∨ p = (k, v) := by
  induction m with
  | nil => exact .inr (List.mem_singleton.mp h)
  | cons q rest ih =>
    obtain ⟨k', v'⟩ := q
    rw [put] at h
    split_ifs at h with hk
    · rcases List.mem_cons.mp h with rfl | hrest
      · exact .inr (by rw [hk])
      · exact .inl (List.mem_cons_of_mem _ hrest)
    · rcases List.mem_cons.mp h with rfl | hrest
      · exact .inl List.mem_cons_self
      · rcases ih hrest with hold | hnew
        · exact .inl (List.mem_cons_of_mem _ hold)
        · exact .inr hnew

theorem nodup_keys_put {m : Entries κ α} (h : (keys m).Nodup) (k : κ) (v : α) :
    (keys (put m k v)).Nodup := by
  rw [keys_put]
  split_ifs with hmem
  · exact h
  · rw [List.nodup_append]
    refine ⟨h, List.nodup_singleton _, ?_⟩
    intro a ha b hb hab
    rw [List.mem_singleton] at hb
    rw [hab, hb] at ha
    exact hmem ha

theorem nodup_keys_ofPairs (ps : List (κ × α)) : (keys (ofPairs ps)).Nodup := by
  induction ps using List.reverseRecOn with
  | nil => exact List.nodup_nil
  | append_singleton ps p ih =>
    rw [ofPairs_concat]
    exact nodup_keys_put ih p.1 p.2

/-- Pairs with distinct keys are all kept, in their order. -/
theorem ofPairs_eq_self {ps : List (κ × α)} (h : (keys ps).Nodup) : ofPairs ps = ps := by
  induction ps using List.reverseRecOn with
  | nil => rfl
  | append_singleton ps p ih =>
    rw [keys, List.map_append, List.nodup_append] at h
    obtain ⟨hps, -, hdisjoint⟩ := h
    have hp : p.1 ∉ keys ps := fun hmem => hdisjoint _ hmem p.1 List.mem_cons_self rfl
    rw [ofPairs_concat, ih hps, put_of_not_mem hp]

theorem get?_eq_none_iff {m : Entries κ α} {k : κ} : get? m k = none ↔ k ∉ keys m := by
  induction m with
  | nil => simp [get?, keys]
  | cons p rest ih =>
    obtain ⟨k', v⟩ := p
    by_cases hk : k' = k
    · simp [get?, keys, hk]
    · rw [get?, if_neg hk, ih, keys, keys, List.map_cons, List.mem_cons, not_or]
      exact ⟨fun h => ⟨Ne.symm hk, h⟩, fun h => h.2⟩

/-- Where no key stands twice, every entry is the one that is found by its key. -/
theorem get?_of_mem {m : Entries κ α} (h : (keys m).Nodup) {k : κ} {v : α} (hmem : (k, v) ∈ m) :
    get? m k = some v := by
  induction m with
  | nil => cases hmem
  | cons p rest ih =>
    obtain ⟨k', v'⟩ := p
    rw [keys, List.map_cons, List.nodup_cons] at h
    rcases List.mem_cons.mp hmem with heq | hrest
    · obtain ⟨rfl, rfl⟩ := Prod.mk.inj heq
      rw [get?, if_pos rfl]
    · have hne : k' ≠ k := by
        rintro rfl
        exact h.1 (List.mem_map.mpr ⟨_, hrest, rfl⟩)
      rw [get?, if_neg hne, ih h.2 hrest]

/-- Among distinct keys an entry is there exactly if it is found by its key. -/
theorem mem_iff_get? {m : Entries κ α} (h : (keys m).Nodup) {k : κ} {v : α} :
    (k, v) ∈ m ↔ get? m k = some v := by
  refine ⟨get?_of_mem h, fun hget => ?_⟩
  have hkey : k ∈ keys m := by
    by_contra hnot
    rw [get?_eq_none_iff.mpr hnot] at hget
    cases hget
  obtain ⟨e, he, rfl⟩ := List.mem_map.mp hkey
  rw [get?_of_mem h he] at hget
  obtain rfl := Option.some.inj hget
  exact he

/-- Entries with distinct keys are what their keys and their readings say. -/
theorem eq_filterMap_keys (m : Entries κ α) (h : (keys m).Nodup) :
    m = (keys m).filterMap fun k => (get? m k).map fun v => (k, v) := by
  induction m with
  | nil => rfl
  | cons p rest ih =>
    obtain ⟨k, v⟩ := p
    rw [keys, List.map_cons, List.nodup_cons] at h
    have hrest : (keys rest).filterMap (fun j => (get? ((k, v) :: rest) j).map fun u => (j, u)) =
        (keys rest).filterMap fun j => (get? rest j).map fun u => (j, u) := by
      apply List.filterMap_congr
      intro j hj
      have hne : k ≠ j := by
        rintro rfl
        exact h.1 hj
      rw [get?, if_neg hne]
    have hfirst : get? ((k, v) :: rest) k = some v := by rw [get?, if_pos rfl]
    rw [keys, List.map_cons, List.filterMap_cons, hfirst, ← keys, hrest, ← ih h.2]
    rfl

/-- Writing pairs one after the other leaves the last writes in the order of the first. -/
theorem ofPairs_eq_lastWrites (ps : List (κ × α)) : ofPairs ps = lastWrites ps := by
  rw [eq_filterMap_keys (ofPairs ps) (nodup_keys_ofPairs ps), keys_ofPairs, lastWrites]
  apply List.filterMap_congr
  intro k _
  rw [get?_ofPairs, Option.map_map]
  cases hlast : (ps.filter fun p => p.1 = k).getLast? with
  | none => rfl
  | some p =>
    have hp := List.mem_of_getLast? hlast
    have hk : p.1 = k := by simpa using (List.mem_filter.mp hp).2
    subst k
    rfl

end CurlSnippet.Entries
