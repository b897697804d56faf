import CurlSnippet.Proofs.CommandMeaning

/-!
Headers that a call forces. A JSON body comes with two headers, each written under one spelling of
its name. Unless a header flag follows, these keep their values to the end of the call, and no other
spelling of their names is written any more; so a header under another spelling stays beside them
with the value it had before.
-/

namespace CurlSnippet

namespace Entries

variable {κ α : Type} [DecidableEq κ]

theorem mem_ofPairs_iff {ws : List (κ × α)} {k : κ} {v : α} :
    (k, v) ∈ ofPairs ws ↔ (ws.filter fun w => w.1 = k).getLast?.map Prod.snd = some v := by
  rw [mem_iff_get? (nodup_keys_ofPairs ws), get?_ofPairs]

/-- Writes to other keys leave an entry alone. -/
theorem mem_ofPairs_append_of_not_mem {ws later : List (κ × α)} {k : κ} {v : α}
    (h : k ∉ later.map Prod.fst) : (k, v) ∈ ofPairs (ws ++ later) ↔ (k, v) ∈ ofPairs ws := by
  have hnone : later.filter (fun w => w.1 = k) = [] := by
    rw [List.filter_eq_nil_iff]
    intro w hw hk
    exact h (List.mem_map.mpr ⟨w, hw, by simpa using hk⟩)
  rw [mem_ofPairs_iff, mem_ofPairs_iff, List.filter_append, hnone, List.append_nil]

/-- If all later writes to a key give it one value, its entry has that value. -/
theorem mem_ofPairs_append_of_forall {ws later : List (κ × α)} {k : κ} {u v : α}
    (hsome : (k, u) ∈ later) (hall : ∀ w ∈ later, w.1 = k → w.2 = u) :
    (k, v) ∈ ofPairs (ws ++ later) ↔ v = u := by
  have hlast : ((ws ++ later).filter fun w => w.1 = k).getLast?.map Prod.snd = some u := by
    rw [List.filter_append, List.getLast?_append]
    have hmem : (k, u) ∈ later.filter fun w => w.1 = k :=
      List.mem_filter.mpr ⟨hsome, decide_eq_true rfl⟩
    cases hw : (later.filter fun w => w.1 = k).getLast? with
    | none =>
      rw [List.getLast?_eq_none_iff.mp hw] at hmem
      cases hmem
    | some w =>
      obtain ⟨hmem, hk⟩ := List.mem_filter.mp (List.mem_of_getLast? hw)
      exact congrArg some (hall w hmem (by simpa using hk))
  rw [mem_ofPairs_iff, hlast, Option.some.injEq, eq_comm]

end Entries

namespace Command

/-- The headers that come with a JSON body. -/
def forced : List (String × String) :=
  [("Content-Type", "application/json"), ("Accept", "application/json")]

/-- Two names that are the same but for case. -/
def SameName (a b : String) : Prop := lower a = lower b

/-- All headers of the name, in whatever case, have the value. -/
def Uniform (headers : List (String × String)) (name value : String) : Prop :=
  ∀ h ∈ headers, SameName h.1 name → h.2 = value

theorem sameName_forced : ∀ f ∈ forced, ∀ g ∈ forced, SameName f.1 g.1 → f = g := by
  unfold SameName
  decide

/-- Without a header line a part writes forced headers, or headers of other names. -/
theorem forced_or_of_mem_writes {p : Part} (hp : ∀ line, p ≠ .flag .header line)
    {w : String × String} (hw : w ∈ p.writes) : w ∈ forced ∨ ∀ f ∈ forced, ¬ SameName w.1 f.1 := by
  have hother : ∀ name ∈ ["Cookie", "User-Agent", "Referer"], ∀ f ∈ forced,
      ¬ SameName name f.1 := by
    unfold SameName
    decide
  cases p with
  | positional word => cases hw
  | ignored word => cases hw
  | flag f a =>
    cases f with
    | header => exact absurd rfl (hp a)
    | json => exact .inl hw
    | cookie =>
      obtain rfl := List.mem_singleton.mp hw
      exact .inr (hother "Cookie" (by decide))
    | userAgent =>
      obtain rfl := List.mem_singleton.mp hw
      exact .inr (hother "User-Agent" (by decide))
    | referer =>
      obtain rfl := List.mem_singleton.mp hw
      exact .inr (hother "Referer" (by decide))
    | _ => cases hw

/-- What is written from a JSON body on, if no header line follows it. -/
theorem forced_or_of_mem_later {body : String} {after : List Part}
    (hafter : ∀ line, .flag .header line ∉ after) {w : String × String}
    (hw : w ∈ (.flag .json body :: after).flatMap Part.writes) :
    w ∈ forced ∨ ∀ f ∈ forced, ¬ SameName w.1 f.1 := by
  obtain ⟨p, hp, hwrites⟩ := List.mem_flatMap.mp hw
  refine forced_or_of_mem_writes (fun line heq => ?_) hwrites
  rw [heq] at hp
  rcases List.mem_cons.mp hp with h | h
  · cases h
  · exact hafter line h

section Forced

variable {before after : List Part} {body : String} {f : String × String}

theorem mem_headers_iff (hafter : ∀ line, .flag .header line ∉ after) (hf : f ∈ forced)
    {k v : String} (hk : SameName k f.1) :
    (k, v) ∈ Entries.ofPairs ((before ++ .flag .json body :: after).flatMap Part.writes) ↔
      if k = f.1 then v = f.2 else (k, v) ∈ Entries.ofPairs (before.flatMap Part.writes) := by
  rw [List.flatMap_append]
  split_ifs with heq
  · subst k
    have hjson : f ∈ (.flag .json body :: after).flatMap Part.writes :=
      List.mem_append_left _ hf
    refine Entries.mem_ofPairs_append_of_forall hjson fun w hw hkey => ?_
    rcases forced_or_of_mem_later hafter hw with h | h
    · rw [sameName_forced w h f hf (congrArg lower hkey)]
    · exact absurd (congrArg lower hkey) (h f hf)
  · apply Entries.mem_ofPairs_append_of_not_mem
    intro hmem
    obtain ⟨w, hw, rfl⟩ := List.mem_map.mp hmem
    rcases forced_or_of_mem_later hafter hw with h | h
    · exact heq (by rw [sameName_forced w h f hf hk])
    · exact h f hf hk

end Forced

/-- Behind a JSON body that no header line follows, the two headers that it forces have their
values, and other spellings of their names stay as they were before it. So all spellings of such a
name have the forced value exactly if the others had it already. -/
theorem forced_of_ofWords {ws : List String} {r : Request} (h : ofWords ws = .ok r)
    {before after : List Part} {body : String}
    (hparts : FallsInto ws.tail (before ++ .flag .json body :: after))
    (hafter : ∀ line, .flag .header line ∉ after) :
    ∀ f ∈ forced,
      (∀ k v, SameName k f.1 → ((k, v) ∈ r.headers ↔
        if k = f.1 then v = f.2 else (k, v) ∈ Entries.lastWrites (before.flatMap Part.writes))) ∧
      (Uniform r.headers f.1 f.2 ↔
        ∀ w ∈ Entries.lastWrites (before.flatMap Part.writes),
          SameName w.1 f.1 → w.1 ≠ f.1 → w.2 = f.2) := by
  intro f hf
  obtain ⟨w, rest, rfl, hr⟩ := describes_of_ofWords h
  have hheaders : r.headers =
      Entries.ofPairs ((before ++ .flag .json body :: after).flatMap Part.writes) := by
    rw [hr.headers, ← Entries.ofPairs_eq_lastWrites, (fallsInto_iff _ _).mp hparts]
    rfl
  have hmem : ∀ k v, SameName k f.1 → ((k, v) ∈ r.headers ↔
      if k = f.1 then v = f.2 else (k, v) ∈ Entries.lastWrites (before.flatMap Part.writes)) := by
    intro k v hk
    rw [hheaders, ← Entries.ofPairs_eq_lastWrites]
    exact mem_headers_iff hafter hf hk
  refine ⟨hmem, ?_, ?_⟩
  · intro huniform w hw hname hne
    exact huniform w ((hmem w.1 w.2 hname).mpr (by rwa [if_neg hne])) hname
  · intro hbefore e he hname
    have hentry := (hmem e.1 e.2 hname).mp he
    split_ifs at hentry with heq
    · exact hentry
    · exact hbefore e hentry hname heq

/-- One name of the two was written in small letters before, the other in capitals. -/
theorem forced_of_ofWords_respelled :
    let ws := ["curl", "-H", "content-type: text/plain", "-H", "ACCEPT: application/json",
      "http://h", "--json", "x", "-A", "me", "--json", "y"]
    let before := [.flag .header "content-type: text/plain",
      .flag .header "ACCEPT: application/json", .positional "http://h"]
    let after := [.flag .userAgent "me", .flag .json "y"]
    ∃ r, ofWords ws = .ok r ∧ FallsInto ws.tail (before ++ .flag .json "x" :: after) ∧
      (∀ line, .flag .header line ∉ after) ∧
      ∀ f ∈ forced,
        (∀ k v, SameName k f.1 → ((k, v) ∈ r.headers ↔ if k = f.1 then v = f.2
          else (k, v) ∈ Entries.lastWrites (before.flatMap Part.writes))) ∧
        (Uniform r.headers f.1 f.2 ↔
          ∀ w ∈ Entries.lastWrites (before.flatMap Part.writes),
            SameName w.1 f.1 → w.1 ≠ f.1 → w.2 = f.2) := by
  intro ws before after
  have hparts : FallsInto ws.tail (before ++ .flag .json "x" :: after) :=
    (fallsInto_iff _ _).mpr rfl
  have hafter : ∀ line, .flag .header line ∉ after := by simp [after]
  exact ⟨_, rfl, hparts, hafter, forced_of_ofWords rfl hparts hafter⟩

/-- A name that was written in small letters keeps its own value beside the forced one. -/
theorem forced_of_ofWords_beside :
    let ws := ["curl", "http://h", "-H", "content-type: text/plain", "--json", "x"]
    let before := [.positional "http://h", .flag .header "content-type: text/plain"]
    FallsInto ws.tail (before ++ .flag .json "x" :: []) ∧
      ∃ r, ofWords ws = .ok r ∧
        r.headers = [("content-type", "text/plain"), ("Content-Type", "application/json"),
          ("Accept", "application/json")] ∧
        ¬ Uniform r.headers "Content-Type" "application/json" := by
  intro ws before
  refine ⟨(fallsInto_iff _ _).mpr rfl, _, rfl, rfl, fun h => ?_⟩
  have hsame : SameName "content-type" "Content-Type" := by
    unfold SameName
    decide
  have hvalue := h ("content-type", "text/plain") List.mem_cons_self hsame
  simp at hvalue

end Command

end CurlSnippet
