import CurlSnippet.Yaml.Atom
import CurlSnippet.Yaml.Merge

/-!
What a YAML text says. Only the members of a mapping at the root are kept, but every node has to
have a value. A collection inside another one is filled after it: first the collections met in the
root, then those met in these, and so on, which decides which of several faults is found.
-/

namespace CurlSnippet.Yaml

/-- The value of a member; collections are not told apart. -/
inductive Value where
  | atom (a : Atom)
  | collection
  deriving DecidableEq, Repr

/-- A mapping keeps the first place and the last value of a key. -/
inductive Content where
  | mapping (members : List (Atom × Value))
  | other
  deriving DecidableEq, Repr

namespace Content

/-- Replaces the value of a known key, or adds the member at the end. -/
def putMember (members : List (Atom × Value)) (k : Atom) (v : Value) : List (Atom × Value) :=
  match members with
  | [] => [(k, v)]
  | (k', v') :: rest =>
    if k'.sameKey k then (k', v) :: rest else (k', v') :: putMember rest k v

/-- The table of nodes, the collections that have been met, and those of them that are still to be
filled, newest first. -/
structure Builder where
  graph : Graph
  met : Array Bool
  waiting : List Nat

abbrev Build (α : Type) := StateT Builder (Except Error) α

/-- Meets a collection. -/
def meet (id : Nat) : Build Unit := modify fun b =>
  if b.met.getD id true then b
  else { b with met := b.met.setIfInBounds id true, waiting := id :: b.waiting }

/-- The text of a scalar. The member whose key is an equals sign speaks for a mapping. -/
def textOf (g : Graph) : Nat → Nat → Except Error Text
  | 0, _ => .error .endless
  | fuel + 1, id => match g.shapeAt id with
    | .scalar t => .ok t
    | .map members => match members.find? fun m => g.kindAt m.1 = .value with
      | some m => textOf g fuel m.2
      | none => .error .malformed
    | .seq _ => .error .malformed

/-- The value of a node of one of the kinds that scalars have. -/
def atomOf (g : Graph) (id : Nat) : Except Error Atom := do
  let t ← textOf g (g.size + 1) id
  match g.kindAt id, g.shapeAt id with
  | .timestamp, .map _ => .error .timestampOfMapping
  | kind, _ => Atom.ofText id kind t

def value (id : Nat) : Build Value := do
  let g := (← get).graph
  match g.kindAt id with
  | .seq | .map | .set | .omap | .pairs =>
    meet id
    return .collection
  | .merge | .value | .unknown => throw .malformed
  | _ => return .atom (← atomOf g id)

/-- The members of a mapping or a set. Collections are no keys. -/
def members (id : Nat) : Build (List (Atom × Value)) := do
  let b ← get
  let (ms, g) ← b.graph.flatten id
  set { b with graph := g }
  ms.foldlM (fun entries m => do
    match ← value m.1 with
    | .atom k => return putMember entries k (← value m.2)
    | .collection => throw .malformed) []

/-- The only member of a mapping in an ordered collection, as key and value. -/
def pair (id : Nat) : Build Unit := do
  match (← get).graph.members? id with
  | some [(k, v)] =>
    let _ ← value k
    let _ ← value v
  | _ => throw .malformed

/-- Finds the values of what a collection holds. -/
def fill (id : Nat) : Build Unit := do
  let g := (← get).graph
  match g.kindAt id, g.shapeAt id with
  | .map, _ | .set, _ =>
    let _ ← members id
  | .omap, .seq items | .pairs, .seq items => items.forM pair
  | _, .seq items => items.forM fun i => do
    let _ ← value i
  | _, _ => throw .malformed

/-- Fills all collections that are waiting, and then those that have been met meanwhile. -/
def fillAll : Nat → Build Unit
  | 0 => throw .malformed
  | fuel + 1 => do
    let b ← get
    if b.waiting.isEmpty then return ()
    set { b with waiting := [] }
    b.waiting.reverse.forM fill
    fillAll fuel

/-- The content of a document by its root. -/
def ofRoot (root : Nat) : Build Content := do
  let b ← get
  let generations := b.graph.size + 1
  if b.graph.kindAt root = .map then
    set { b with met := b.met.setIfInBounds root true }
    let entries ← members root
    fillAll generations
    return .mapping entries
  else
    let _ ← value root
    fillAll generations
    return .other

/-- The content of a text; a text without a document says nothing. -/
def ofText (text : String) : Except Error Content := do
  let (tokens, ending) ← Token.scan text.toList
  match ← Node.ofTokens tokens ending with
  | (_, none) => return .other
  | (g, some root) =>
    return (← ofRoot root ⟨g, .replicate g.size false, []⟩).1

end Content

end CurlSnippet.Yaml
