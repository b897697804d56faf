import CurlSnippet.Json.Token

/-!
Decoding a JSON text. The reader runs over the tokens once and keeps the containers that are still
open, the innermost first; a repeated key of an object keeps its first place and its last value.
-/

namespace CurlSnippet.Json

/-- An open container with what it holds so far: the items of an array, newest first, or the
members of an object and the key whose value is being read. -/
inductive Frame where
  | item (before : List Json)
  | member (before : Entries Text Json) (key : Text)

/-- What the reader waits for. -/
inductive Phase where
  | value
  | firstItem
  | firstKey
  | nextKey (before : Entries Text Json)
  | colon (before : Entries Text Json) (key : Text)
  | after (v : Json)

structure Reader where
  stack : List Frame
  phase : Phase

namespace Reader

def start : Reader := ⟨[], .value⟩

/-- Takes the first token of a value. -/
def open? (stack : List Frame) : Token → Option Reader
  | .atom v => some ⟨stack, .after v⟩
  | .text t => some ⟨stack, .after (.str t)⟩
  | .arrOpen => some ⟨stack, .firstItem⟩
  | .objOpen => some ⟨stack, .firstKey⟩
  | _ => none

def step (r : Reader) (k : Token) : Option Reader :=
  match r.phase, k with
  | .value, k => open? r.stack k
  | .firstItem, .arrClose => some ⟨r.stack, .after (.arr [])⟩
  | .firstItem, k => open? (.item [] :: r.stack) k
  | .firstKey, .objClose => some ⟨r.stack, .after (.obj [])⟩
  | .firstKey, .text key => some ⟨r.stack, .colon [] key⟩
  | .nextKey before, .text key => some ⟨r.stack, .colon before key⟩
  | .colon before key, .colon => some ⟨.member before key :: r.stack, .value⟩
  | .after v, k => match r.stack, k with
    | .item before :: stack, .comma => some ⟨.item (v :: before) :: stack, .value⟩
    | .item before :: stack, .arrClose => some ⟨stack, .after (.arr (v :: before).reverse)⟩
    | .member before key :: stack, .comma => some ⟨stack, .nextKey (before.put key v)⟩
    | .member before key :: stack, .objClose => some ⟨stack, .after (.obj (before.put key v))⟩
    | _, _ => none
  | _, _ => none

def result? : Reader → Option Json
  | ⟨[], .after v⟩ => some v
  | _ => none

end Reader

def ofTokens? (ks : List Token) : Option Json :=
  (ks.foldlM Reader.step Reader.start).bind Reader.result?

/-- The value that a text spells, if it is a JSON text. -/
def decode? (t : Text) : Option Json := (Token.scan t).bind ofTokens?

end CurlSnippet.Json
