import SchemaTypes.Yaml.Lexer

/-! # Nodes

The tree of a document. An anchor takes a slot; the number of the slot is the number of different
names that had an anchor before, so that a name that is used again takes a slot that the next new
name takes too. An alias names the slot that its name has taken last.
-/

namespace SchemaTypes.Yaml

/-- What is said of a node beside its content. -/
structure Properties where
  slot : Option Nat := none
  tag : Option String := none

inductive Node where
  | scalar (properties : Properties) (text : String) (plain : Bool)
  | sequence (properties : Properties) (items : List Node)
  | mapping (properties : Properties) (entries : List (Node × Node))
  | alias (slot : Nat)

/-- Where the reading of nodes stands: the tokens that are left, the slots of names, and the
meanings of tag handles. -/
structure Composer where
  tokens : List Token
  slots : List (String × Nat) := []
  handles : List (String × String) := []

abbrev Compose := StateT Composer Option

namespace Compose

def peek : Compose (Option Token) := do return (← get).tokens.head?

def skip : Compose Unit := modify fun s => { s with tokens := s.tokens.drop 1 }

def takeSlot (name : String) : Compose Nat := do
  let s ← get
  let slot := s.slots.length
  set { s with slots := (name, slot) :: s.slots.filter (·.1 != name) }
  return slot

def resolveTag (tag : Tag) : Compose String := do
  if tag.handle = "" then return tag.suffix
  let some meaning := (← get).handles.lookup tag.handle | failure
  return meaning ++ tag.suffix

def properties : Compose Properties := do
  match ← peek with
  | some (.anchor name) =>
    skip
    match ← peek with
    | some (.tag tag) =>
      skip
      let tag ← resolveTag tag
      return { slot := some (← takeSlot name), tag := some tag }
    | _ => return { slot := some (← takeSlot name) }
  | some (.tag tag) =>
    skip
    match ← peek with
    | some (.anchor name) =>
      skip
      let tag ← resolveTag tag
      return { slot := some (← takeSlot name), tag := some tag }
    | _ => return { tag := some (← resolveTag tag) }
  | _ => return {}

def emptyNode : Node := .scalar {} "" true

/-! ## Collections

Every loop reads entries until the collection ends, given a reader of one node; it ends after at
most as many entries as there are tokens. -/

def nodeUnless (node : Compose Node) (ends : Token → Bool) : Compose Node := do
  match ← peek with
  | some token => if ends token then return emptyNode else node
  | none => node

def blockItems (node : Compose Node) : Nat → Compose (List Node)
  | 0 => failure
  | fuel + 1 => do
    match ← peek with
    | some .blockEntry =>
      skip
      let item ← nodeUnless node fun
        | .blockEntry | .blockEnd => true
        | _ => false
      return item :: (← blockItems node fuel)
    | some .blockEnd => skip; return []
    | _ => failure

/-- The items of a sequence that stands at the column of the mapping around it. -/
def unindentedItems (node : Compose Node) : Nat → Compose (List Node)
  | 0 => failure
  | fuel + 1 => do
    match ← peek with
    | some .blockEntry =>
      skip
      let item ← nodeUnless node fun
        | .blockEntry | .key | .value | .blockEnd => true
        | _ => false
      return item :: (← unindentedItems node fuel)
    | _ => return []

def endsBlockPart : Token → Bool
  | .key | .value | .blockEnd => true
  | _ => false

def blockEntries (node : Compose Node) : Nat → Compose (List (Node × Node))
  | 0 => failure
  | fuel + 1 => do
    match ← peek with
    | some .key =>
      skip
      let key ← nodeUnless node endsBlockPart
      let value ← match ← peek with
        | some .value => do skip; nodeUnless node endsBlockPart
        | _ => pure emptyNode
      return (key, value) :: (← blockEntries node fuel)
    | some .blockEnd => skip; return []
    | _ => failure

def flowSeparator (first : Bool) : Compose Unit := do
  if !first then
    let some .flowEntry ← peek | failure
    skip

def endsFlowItem : Token → Bool
  | .flowEntry | .flowSequenceEnd => true
  | _ => false

/-- The single entry of a mapping that stands without braces in a sequence, after its mark. If
nothing is there in place of the key, the token that shows it is passed. -/
def singleEntry (node : Compose Node) : Compose Node := do
  let key ← match ← peek with
    | some .value | some .flowEntry | some .flowSequenceEnd => do skip; pure emptyNode
    | _ => node
  let value ← match ← peek with
    | some .value => do skip; nodeUnless node endsFlowItem
    | _ => pure emptyNode
  return .mapping {} [(key, value)]

def flowItems (node : Compose Node) (first : Bool) : Nat → Compose (List Node)
  | 0 => failure
  | fuel + 1 => do
    match ← peek with
    | some .flowSequenceEnd => skip; return []
    | _ =>
      flowSeparator first
      match ← peek with
      | some .flowSequenceEnd => skip; return []
      | some .key =>
        skip
        let item ← singleEntry node
        return item :: (← flowItems node false fuel)
      | _ =>
        let item ← node
        return item :: (← flowItems node false fuel)

def endsFlowEntry : Token → Bool
  | .flowEntry | .flowMappingEnd => true
  | _ => false

def flowEntries (node : Compose Node) (first : Bool) : Nat → Compose (List (Node × Node))
  | 0 => failure
  | fuel + 1 => do
    match ← peek with
    | some .flowMappingEnd => skip; return []
    | _ =>
      flowSeparator first
      match ← peek with
      | some .flowMappingEnd => skip; return []
      | some .key =>
        skip
        let key ← nodeUnless node fun token =>
          endsFlowEntry token || (match token with | .value => true | _ => false)
        let value ← match ← peek with
          | some .value => do skip; nodeUnless node endsFlowEntry
          | _ => pure emptyNode
        return (key, value) :: (← flowEntries node false fuel)
      | _ =>
        let key ← node
        return (key, emptyNode) :: (← flowEntries node false fuel)

/-! ## Nodes -/

/-- The greatest number of collections around a node. -/
def deepest : Nat := 128

/-- Where a node stands: in a block mapping, elsewhere in a block, or inside brackets. -/
inductive Position where
  | blockPart
  | block
  | flow
deriving DecidableEq

def opens (position : Position) : Token → Bool
  | .flowSequenceStart | .flowMappingStart => true
  | .blockSequenceStart | .blockMappingStart => position != .flow
  | .blockEntry => position == .blockPart
  | _ => false

/-- Read a collection at the token that opens it, given a reader of the nodes in it. -/
def collection (limit : Nat) (inner : Position → Compose Node) (properties : Properties) :
    Token → Compose Node
  | .flowSequenceStart => do
    skip
    return .sequence properties (← flowItems (inner .flow) true limit)
  | .flowMappingStart => do
    skip
    return .mapping properties (← flowEntries (inner .flow) true limit)
  | .blockSequenceStart => do
    skip
    return .sequence properties (← blockItems (inner .block) limit)
  | .blockMappingStart => do
    skip
    return .mapping properties (← blockEntries (inner .blockPart) limit)
  | _ => return .sequence properties (← unindentedItems (inner .block) limit)

/-- Read a node that may hold at most `depth` levels of collections, given a bound on the number of
entries. -/
def node (limit : Nat) : Nat → Position → Compose Node
  | depth, position => do
    match ← peek with
    | some (.alias name) =>
      skip
      let some slot := (← get).slots.lookup name | failure
      return .alias slot
    | _ =>
      let properties ← properties
      match ← peek with
      | some (.scalar text plain) =>
        skip
        -- The tag that is a single mark says nothing of a scalar.
        return .scalar { properties with tag := properties.tag.filter (· != "!") } text plain
      | token =>
        match token.filter (opens position) with
        | some token =>
          match depth with
          | 0 => failure
          | depth + 1 => collection limit (node limit depth) properties token
        | none =>
          -- A node may be nothing but an anchor or a tag.
          if properties.slot.isSome || properties.tag.isSome then
            return .scalar properties "" true
          else failure

/-! ## Documents -/

def defaultHandles : List (String × String) := [("!", "!"), ("!!", "tag:yaml.org,2002:")]

/-- Read the directives of a document: the version at most once, which must be known, and each
handle at most once. Tells whether there were any. -/
def directives (versionSeen : Bool) : Nat → Compose Bool
  | 0 => failure
  | fuel + 1 => do
    match ← peek with
    | some (.directive (.version major minor)) =>
      if versionSeen || major != 1 || (minor != 1 && minor != 2) then failure
      skip
      let _ ← directives true fuel
      return true
    | some (.directive (.handle handle meaning)) =>
      if ((← get).handles.lookup handle).isSome then failure
      modify fun s => { s with handles := s.handles ++ [(handle, meaning)] }
      skip
      let _ ← directives versionSeen fuel
      return true
    | _ => return false

/-- Read the only document of a text; none if there is no document at all. -/
def document (limit : Nat) : Compose (Option Node) := do
  if (← get).tokens.isEmpty then return none
  let directed ← directives false limit
  modify fun s => { s with handles := s.handles ++ defaultHandles }
  let root ← match ← peek with
    | some .documentStart => do
      skip
      match ← peek with
      | none | some (.directive _) | some .documentStart | some .documentEnd => pure emptyNode
      | _ => node limit deepest .block
    | _ => if directed then failure else node limit deepest .block
  modify fun s => { s with tokens := s.tokens.dropWhile fun
    | .documentEnd => true
    | _ => false }
  if (← get).tokens.isEmpty then return some root else failure

end Compose

end SchemaTypes.Yaml
