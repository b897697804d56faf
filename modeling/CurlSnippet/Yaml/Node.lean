import CurlSnippet.Yaml.Plain
import CurlSnippet.Yaml.Token

/-!
The nodes of a YAML document. They lie in a table and name each other by their places there, so that
an alias is the place of the node it stands for, and a node may hold itself. A text holds at most
one document.
-/

namespace CurlSnippet.Yaml

/-- What a node holds; items and members are given by their places. -/
inductive Shape where
  | scalar (text : Text)
  | seq (items : List Nat)
  | map (members : List (Nat × Nat))
  deriving DecidableEq, Repr

structure Node where
  kind : Kind
  shape : Shape
  deriving DecidableEq, Repr

abbrev Graph := Array Node

namespace Node

def empty : Node := ⟨.null, .scalar []⟩

/-- The tokens still to read and what ends them if not the text does, the nodes read so far, those
that have a name, and what the handles of tags stand for. -/
structure Reader where
  tokens : List Token
  ending : Option Error
  graph : Graph
  anchors : Entries String Nat
  handles : Entries String String

abbrev Read (α : Type) := StateT Reader (Except Error) α

/-- The next token, none at the end of the text. -/
def peek : Read (Option Token) := do
  let r ← get
  match r.tokens, r.ending with
  | [], some e => throw e
  | ks, _ => return ks.head?

def skip : Read Unit := modify fun r => { r with tokens := r.tokens.tail }

/-- Takes a token if it is the next one. -/
def take (k : Token) : Read Bool := do
  if (← peek) == some k then
    skip
    return true
  else return false

def require (k : Token) : Read Unit := do
  if ← take k then return () else throw .malformed

def nextIsOneOf (ks : List Token) : Read Bool := do
  return (← peek).any ks.contains

def anchor? : Read (Option String) := do
  match ← peek with
  | some (.anchor name) =>
    skip
    return some name
  | _ => return none

/-- A tag as it is written: a handle and the rest. -/
def writtenTag? : Read (Option (Option String × String)) := do
  match ← peek with
  | some (.tag handle suffix) =>
    skip
    return some (handle, suffix)
  | _ => return none

/-- A written tag in full. -/
def fullTag : Option String × String → Read String
  | (none, suffix) => return suffix
  | (some handle, suffix) => do
    match (← get).handles.get? handle with
    | some start => return start ++ suffix
    | none => throw .malformed

/-- An anchor and a tag, in any order. -/
def properties : Read (Option String × Option String) := do
  match ← anchor? with
  | some a => return (some a, ← (← writtenTag?).mapM fullTag)
  | none =>
    match ← writtenTag? with
    | some t =>
      let a ← anchor?
      return (a, some (← fullTag t))
    | none => return (none, none)

/-- The kind that a tag gives to a node, if it does not leave it open. -/
def taggedKind (tag : Option String) (fallback : Kind) : Kind :=
  match tag with
  | none | some "!" => fallback
  | some t => .ofTag t

/-- The kind of a scalar. A tag that leaves it open leaves it to the text, as does a plain text. -/
def scalarKind (tag : Option String) (plain : Bool) (text : Text) : Kind :=
  taggedKind tag (if plain || tag.isSome then Plain.kind text else .str)

/-- Adds a node under a name that is not taken. -/
def add (anchor : Option String) (n : Node) : Read Nat := do
  let r ← get
  let id := r.graph.size
  let anchors ← match anchor with
    | none => pure r.anchors
    | some a => if (r.anchors.get? a).isSome then throw .malformed else pure (r.anchors.put a id)
  set { r with graph := r.graph.push n, anchors := anchors }
  return id

def addEmpty : Read Nat := add none empty

/-- Puts in what a node holds, once it is read. -/
def fill (id : Nat) (shape : Shape) : Read Nat := do
  modify fun r => { r with graph := r.graph.modify id fun n => { n with shape := shape } }
  return id

def aliased (name : String) : Read Nat := do
  match (← get).anchors.get? name with
  | some id => return id
  | none => throw .malformed

mutual

/-- A node. Block collections are refused inside brackets; the value of a member may be a sequence
that is not indented. -/
def node (block unindented : Bool) : Nat → Read Nat
  | 0 => throw .malformed
  | fuel + 1 => do
    match ← peek with
    | some (.alias name) =>
      skip
      aliased name
    | _ =>
      let (anchor, tag) ← properties
      content block unindented anchor tag fuel

/-- What follows the properties of a node. With any of them it may be empty. -/
def content (block unindented : Bool) (anchor tag : Option String) : Nat → Read Nat
  | 0 => throw .malformed
  | fuel + 1 => do
    let next ← peek
    if next == some .entry && unindented then
      let id ← add anchor ⟨taggedKind tag .seq, .seq []⟩
      fill id (.seq (← unindentedEntries fuel))
    else match next, block with
      | some (.scalar text plain), _ =>
        skip
        add anchor ⟨scalarKind tag plain text, .scalar text⟩
      | some .flowSequence, _ =>
        let id ← add anchor ⟨taggedKind tag .seq, .seq []⟩
        skip
        fill id (.seq (← flowItems true fuel))
      | some .flowMapping, _ =>
        let id ← add anchor ⟨taggedKind tag .map, .map []⟩
        skip
        fill id (.map (← flowMembers true fuel))
      | some .blockSequence, true =>
        let id ← add anchor ⟨taggedKind tag .seq, .seq []⟩
        skip
        fill id (.seq (← blockEntries fuel))
      | some .blockMapping, true =>
        let id ← add anchor ⟨taggedKind tag .map, .map []⟩
        skip
        fill id (.map (← blockMembers fuel))
      | _, _ =>
        if anchor.isSome || tag.isSome then add anchor ⟨scalarKind tag true [], .scalar []⟩
        else throw .malformed

def blockEntries : Nat → Read (List Nat)
  | 0 => throw .malformed
  | fuel + 1 => do
    if ← take .entry then
      let n ← if ← nextIsOneOf [.entry, .blockEnd] then addEmpty else node true false fuel
      return n :: (← blockEntries fuel)
    else
      require .blockEnd
      return []

def unindentedEntries : Nat → Read (List Nat)
  | 0 => throw .malformed
  | fuel + 1 => do
    if ← take .entry then
      let n ← if ← nextIsOneOf [.entry, .key, .value, .blockEnd] then addEmpty
        else node true false fuel
      return n :: (← unindentedEntries fuel)
    else return []

/-- The key or the value of a member of a block mapping. -/
def memberPart : Nat → Read Nat
  | 0 => throw .malformed
  | fuel + 1 => do
    if ← nextIsOneOf [.key, .value, .blockEnd] then addEmpty else node true true fuel

def blockMembers : Nat → Read (List (Nat × Nat))
  | 0 => throw .malformed
  | fuel + 1 => do
    if ← take .key then
      let k ← memberPart fuel
      let v ← if ← take .value then memberPart fuel else addEmpty
      return (k, v) :: (← blockMembers fuel)
    else
      require .blockEnd
      return []

/-- The items of a sequence in brackets; an item with a key is a mapping of one member. -/
def flowItems (first : Bool) : Nat → Read (List Nat)
  | 0 => throw .malformed
  | fuel + 1 => do
    if ← take .flowSequenceEnd then return []
    if !first then require .comma
    if ← take .flowSequenceEnd then return []
    let ending := [Token.comma, .flowSequenceEnd]
    let n ← if ← take .key then
        let id ← add none ⟨.map, .map []⟩
        let k ← if ← nextIsOneOf (.value :: ending) then addEmpty else node false false fuel
        let v ← flowValue ending fuel
        fill id (.map [(k, v)])
      else node false false fuel
    return n :: (← flowItems false fuel)

def flowMembers (first : Bool) : Nat → Read (List (Nat × Nat))
  | 0 => throw .malformed
  | fuel + 1 => do
    if ← take .flowMappingEnd then return []
    if !first then require .comma
    if ← take .flowMappingEnd then return []
    let ending := [Token.comma, .flowMappingEnd]
    if ← take .key then
      let k ← if ← nextIsOneOf (.value :: ending) then addEmpty else node false false fuel
      let v ← flowValue ending fuel
      return (k, v) :: (← flowMembers false fuel)
    else
      let k ← node false false fuel
      let v ← addEmpty
      return (k, v) :: (← flowMembers false fuel)

/-- The value after a key in brackets, empty without a colon. -/
def flowValue (ending : List Token) : Nat → Read Nat
  | 0 => throw .malformed
  | fuel + 1 => do
    if ← take .value then
      if ← nextIsOneOf ending then addEmpty else node false false fuel
    else addEmpty

end

def standardHandles : Entries String String := [("!", "!"), ("!!", Kind.standardStart)]

/-- The directives before a document. Handles that they do not name keep their meaning. -/
def directives (versionSeen : Bool) : Nat → Read Unit
  | 0 => throw .malformed
  | fuel + 1 => do
    match ← peek with
    | some (.version major) =>
      if versionSeen || major != 1 then throw .malformed
      skip
      directives true fuel
    | some (.tagHandle handle start) =>
      if ((← get).handles.get? handle).isSome then throw .malformed
      skip
      modify fun r => { r with handles := r.handles.put handle start }
      directives versionSeen fuel
    | some .otherDirective =>
      skip
      directives versionSeen fuel
    | _ => modify fun r =>
      let missing := standardHandles.filter fun h => (r.handles.get? h.1).isNone
      { r with handles := r.handles ++ missing }

def startsDirectly : Token → Bool
  | .version _ | .tagHandle _ _ | .otherDirective | .documentStart => false
  | _ => true

def endsContent : Token → Bool
  | .documentEnd => true
  | k => !startsDirectly k

/-- What stands before a document that does not start directly. -/
def preamble (fuel : Nat) : Read Unit := do
  modify fun r => { r with handles := [] }
  directives false fuel
  require .documentStart

/-- The first document of a text; an empty text has none. -/
def firstDocument (fuel : Nat) : Read (Option Nat) := do
  match ← peek with
  | none => return none
  | some k =>
    if startsDirectly k then node true false fuel
    else
      preamble fuel
      if (← peek).all endsContent then addEmpty else node true false fuel

def skipEnds : Nat → Read Unit
  | 0 => throw .malformed
  | fuel + 1 => do if ← take .documentEnd then skipEnds fuel

/-- The only document of a text. -/
def document (fuel : Nat) : Read (Option Nat) := do
  let root ← firstDocument fuel
  if root.isSome then skipEnds fuel
  match ← peek with
  | none => return root
  | some _ =>
    preamble fuel
    throw .malformed

/-- The nodes that tokens spell, and the place of the root. -/
def ofTokens (tokens : List Token) (ending : Option Error) : Except Error (Graph × Option Nat) :=
  let start : Reader := ⟨tokens, ending, #[], [], standardHandles⟩
  (document (4 * tokens.length + 4) start).map fun r => (r.2.graph, r.1)

end Node

end CurlSnippet.Yaml
