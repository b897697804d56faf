import CurlSnippet.Proofs.BodyOpening
import CurlSnippet.Proofs.CommandMeaning

/-!
What kind of body a call is taken to have. Headers are kept by their exact names, while the content
type is looked for in any case; so of several spellings the one that came up last decides, with the
value it was last given. That is the value written last exactly when the last write was to that
spelling, and a spelling that is taken up again is passed over.
-/

namespace CurlSnippet

namespace Search

/-- A text occurs in another where it is a part of it. -/
theorem occursIn_iff (w cs : List Char) : occursIn w cs = true ↔ w <:+: cs := by
  induction cs with
  | nil => rw [occursIn, List.isEmpty_iff, List.infix_nil]
  | cons c cs ih =>
    rw [occursIn, Bool.or_eq_true, ih, List.isPrefixOf_iff_prefix, List.infix_cons_iff]

end Search

namespace Entries

variable {κ α : Type} [DecidableEq κ]

theorem filter_put (p : κ → Bool) (m : Entries κ α) (k : κ) (v : α) :
    (put m k v).filter (fun e => p e.1) =
      if p k then put (m.filter fun e => p e.1) k v else m.filter fun e => p e.1 := by
  induction m with
  | nil => by_cases hk : p k <;> simp [put, hk]
  | cons e rest ih =>
    obtain ⟨k', v'⟩ := e
    by_cases heq : k' = k
    · subst k'
      by_cases hk : p k <;> simp [put, hk]
    · rw [put, if_neg heq, List.filter_cons, ih, List.filter_cons]
      by_cases hk : p k <;> by_cases hk' : p k' <;> simp [put, hk, hk', heq]

/-- Writes to some of the keys can be told apart before or after writing. -/
theorem filter_ofPairs (p : κ → Bool) (ws : List (κ × α)) :
    (ofPairs ws).filter (fun e => p e.1) = ofPairs (ws.filter fun w => p w.1) := by
  induction ws using List.reverseRecOn with
  | nil => rfl
  | append_singleton ws w ih =>
    rw [ofPairs_concat, filter_put, ih, List.filter_append]
    by_cases hw : p w.1
    · have hkeep : [w].filter (fun w => p w.1) = [w] := by simp [hw]
      rw [if_pos hw, hkeep, ofPairs_concat]
    · have hdrop : [w].filter (fun w => p w.1) = [] := by simp [hw]
      rw [if_neg hw, hdrop, List.append_nil]

/-- The last entry has the key that came up last. -/
theorem getLast?_keys_ofPairs (ws : List (κ × α)) :
    (ofPairs ws).getLast?.map Prod.fst = (ws.map Prod.fst).eraseDups.getLast? := by
  rw [← keys_ofPairs, keys, List.getLast?_map]

/-- The last entry is the last write exactly if the last write was to the key that came up last. -/
theorem getLast?_ofPairs_iff (ws : List (κ × α)) :
    (ofPairs ws).getLast? = ws.getLast? ↔
      ws.getLast?.map Prod.fst = (ws.map Prod.fst).eraseDups.getLast? := by
  rw [← getLast?_keys_ofPairs]
  constructor
  · exact fun h => congrArg (Option.map Prod.fst) h.symm
  · intro h
    rcases List.eq_nil_or_concat ws with rfl | ⟨front, w, rfl⟩
    · rfl
    · rw [List.concat_eq_append, List.getLast?_concat] at h ⊢
      cases hlast : (ofPairs (front ++ [w])).getLast? with
      | none =>
        rw [hlast] at h
        cases h
      | some e =>
        rw [hlast] at h
        have hkey : w.1 = e.1 := Option.some.inj h
        have hmem : (e.1, e.2) ∈ ofPairs (front ++ [w]) := List.mem_of_getLast? hlast
        have hvalue := get?_of_mem (nodup_keys_ofPairs _) hmem
        rw [ofPairs_concat, get?_put, if_pos hkey] at hvalue
        rw [Prod.ext hkey (Option.some.inj hvalue)]

end Entries

namespace Content

def isContentType (name : String) : Bool := lower name = "content-type"

theorem contentType_eq (headers : Entries String String) :
    contentType headers =
      ((headers.filter fun h => isContentType h.1).getLast?.map Prod.snd).getD "" := by
  induction headers using List.reverseRecOn with
  | nil => rfl
  | append_singleton headers h ih =>
    rw [contentType, List.foldl_append, ← contentType, ih, List.filter_append]
    by_cases hname : lower h.1 = "content-type"
    · simp [isContentType, hname]
    · simp [isContentType, hname]

/-- The text occurs in the value of a header. -/
def Mentions (text : String) (h : String × String) : Prop := text.toList <:+: h.2.toList

theorem occursIn_contentType_iff (text : String) (htext : text ≠ "")
    (headers : Entries String String) :
    Search.occursIn text.toList (contentType headers).toList = true ↔
      ∃ h ∈ (headers.filter fun h => isContentType h.1).getLast?, Mentions text h := by
  rw [Search.occursIn_iff, contentType_eq]
  cases (headers.filter fun h => isContentType h.1).getLast? with
  | none => simpa using htext
  | some h => simp [Mentions]

end Content

namespace Command

/-- The writes to headers that name the content type in any case, in the order of the call. -/
def contentTypes (ps : List Part) : List (String × String) :=
  (ps.flatMap Part.writes).filter fun w => Content.isContentType w.1

/-- The content type that was written last. -/
def newest? (ps : List Part) : Option (String × String) := (contentTypes ps).getLast?

/-- The content type that is taken: among its spellings the one that came up last, with the value
that this spelling was last given. -/
def governing? (ps : List Part) : Option (String × String) :=
  (Entries.lastWrites (contentTypes ps)).getLast?

/-- The content types of the finished headers are what their writes leave. -/
theorem Describes.governing {ps : List Part} {r : Request} (h : Describes ps r) :
    (r.headers.filter fun h => Content.isContentType h.1).getLast? = governing? ps := by
  rw [h.headers, ← Entries.ofPairs_eq_lastWrites, Entries.filter_ofPairs,
    Entries.ofPairs_eq_lastWrites]
  rfl

/-- A request is taken for JSON if its body opens an object or an array, or by its governing content
type, and for a form by that content type alone. The content type that governs is the one written
last exactly if the last write was to the spelling that came up last. -/
theorem kinds_of_ofWords {ws : List String} {r : Request} (h : ofWords ws = .ok r) :
    ∃ ps, (∀ qs, FallsInto ws.tail qs ↔ qs = ps) ∧
      (r.isJson = true ↔ (∃ b ∈ r.body, Content.Opens b) ∨
        ∃ w ∈ governing? ps, Content.Mentions "application/json" w) ∧
      (r.isForm = true ↔
        ∃ w ∈ governing? ps, Content.Mentions "application/x-www-form-urlencoded" w) ∧
      (governing? ps = newest? ps ↔
        (newest? ps).map Prod.fst = ((contentTypes ps).map Prod.fst).eraseDups.getLast?) := by
  obtain ⟨w, rest, rfl, hr⟩ := describes_of_ofWords h
  refine ⟨parts rest, fallsInto_iff rest, ?_, ?_, ?_⟩
  · rw [hr.isJson, Content.isJson, Bool.or_eq_true,
      Content.occursIn_contentType_iff _ (by decide), hr.governing, or_comm]
    simp only [Option.any_eq_true, Content.opensContainer_iff, Option.mem_def]
  · rw [hr.isForm, Content.isForm, Content.occursIn_contentType_iff _ (by decide), hr.governing]
  · rw [governing?, ← Entries.ofPairs_eq_lastWrites]
    exact Entries.getLast?_ofPairs_iff _

/-- Of two spellings the one that came up last was written last. -/
theorem kinds_of_ofWords_relabelled :
    let ws := ["curl", "http://h", "--json", "x", "-H", "content-type: text/plain"]
    ∃ r, ofWords ws = .ok r ∧ ∃ ps, (∀ qs, FallsInto ws.tail qs ↔ qs = ps) ∧
      (r.isJson = true ↔ (∃ b ∈ r.body, Content.Opens b) ∨
        ∃ w ∈ governing? ps, Content.Mentions "application/json" w) ∧
      (r.isForm = true ↔
        ∃ w ∈ governing? ps, Content.Mentions "application/x-www-form-urlencoded" w) ∧
      (governing? ps = newest? ps ↔
        (newest? ps).map Prod.fst = ((contentTypes ps).map Prod.fst).eraseDups.getLast?) :=
  ⟨_, rfl, kinds_of_ofWords rfl⟩

/-- A spelling that is taken up again is passed over: here the call writes a JSON content type last,
its body opens nothing, and it is not taken for JSON. -/
theorem kinds_of_ofWords_taken_up :
    let ws := ["curl", "http://h", "-H", "Content-Type: text/plain", "-H",
      "content-type: text/plain", "--json", "x"]
    newest? (parts ws.tail) = some ("Content-Type", "application/json") ∧
      ∃ r, ofWords ws = .ok r ∧ r.isJson = false := by
  exact ⟨rfl, _, rfl, rfl⟩

end Command

end CurlSnippet
