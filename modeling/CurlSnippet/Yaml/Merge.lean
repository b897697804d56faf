import CurlSnippet.Yaml.Node

/-!
Mappings that take over members of others. A merge key is replaced by the members of the mapping at
its value, or of several mappings of which the first counts most; they come before the members of
the mapping itself. The table of nodes keeps the outcome, so that a mapping is changed only once.
-/

namespace CurlSnippet.Yaml.Graph

/-- A change of the table that may fail. -/
abbrev Change (α : Type) := StateT Graph (Except Error) α

def nodeAt (g : Graph) (id : Nat) : Node := g.getD id .empty

def kindAt (g : Graph) (id : Nat) : Kind := (g.nodeAt id).kind

def shapeAt (g : Graph) (id : Nat) : Shape := (g.nodeAt id).shape

/-- The members of a mapping. -/
def members? (g : Graph) (id : Nat) : Option (List (Nat × Nat)) :=
  match g.shapeAt id with
  | .map members => some members
  | _ => none

def setMembers (g : Graph) (id : Nat) (members : List (Nat × Nat)) : Graph :=
  g.modify id fun n => { n with shape := .map members }

/-- The same nodes, but an equals sign among the given keys is a text. -/
def nameKeys (g : Graph) (keys : List Nat) : Graph :=
  let named (n : Node) : Node := if n.kind = .value then { n with kind := .str } else n
  keys.foldl (fun g k => g.modify k named) g

/-- The value of the first merge key, with the members before and after. -/
def cutMerge? (g : Graph) : List (Nat × Nat) → Option (List (Nat × Nat) × Nat × List (Nat × Nat))
  | [] => none
  | m :: rest =>
    if g.kindAt m.1 = .merge then some ([], m.2, rest)
    else (g.cutMerge? rest).map fun r => (m :: r.1, r.2)

mutual

/-- Replaces the merge keys of a mapping one after the other; `taken` holds the members that it has
taken over so far. -/
def flattenFrom : Nat → Nat → List (Nat × Nat) → Change (List (Nat × Nat))
  | 0, _, _ => throw .malformed
  | fuel + 1, id, taken => do
    let g ← get
    match g.members? id with
    | none => throw .malformed
    | some members => match g.cutMerge? members with
      | none =>
        let all := taken ++ members
        set ((g.setMembers id all).nameKeys (members.map Prod.fst))
        return all
      | some (before, source, after) =>
        set (g.setMembers id (before ++ after))
        let more ← takenFrom fuel source
        flattenFrom fuel id (taken ++ more)

/-- The members that a merge key with this value stands for. -/
def takenFrom : Nat → Nat → Change (List (Nat × Nat))
  | 0, _ => throw .malformed
  | fuel + 1, source => do
    match (← get).shapeAt source with
    | .map _ => flattenFrom fuel source []
    | .seq items => return (← items.mapM fun id => flattenFrom fuel id []).reverse.flatten
    | .scalar _ => throw .malformed

end

/-- The number of members of all mappings, which bounds how often members can be taken over one
inside the other. -/
def memberCount (g : Graph) : Nat :=
  g.foldl (fun n node => match node.shape with
    | .map members => n + members.length
    | _ => n) 0

/-- The members of a mapping, with those it takes over in front. -/
def flatten (id : Nat) : Change (List (Nat × Nat)) := do
  flattenFrom (2 * (← get).memberCount + 2) id []

end CurlSnippet.Yaml.Graph
