import SchemaTypes.Yaml.Node
import SchemaTypes.Yaml.Scalar

/-! # Reading YAML

The JSON value of a document. Keys are the texts of scalars, whatever these would stand for as
values. An alias stands for a copy of the node that holds its slot at the end of the document; the
number of copies is limited by the size of the document, and their nesting by the same depth as the
document itself.
-/

namespace SchemaTypes.Yaml

open SchemaTypes.Json

namespace Node

mutual

def anchored : Node → List (Nat × Node)
  | .scalar properties text plain =>
    properties.slot.toList.map fun slot => (slot, .scalar properties text plain)
  | .sequence properties items =>
    (properties.slot.toList.map fun slot => (slot, .sequence properties items)) ++
      anchoredItems items
  | .mapping properties entries =>
    (properties.slot.toList.map fun slot => (slot, .mapping properties entries)) ++
      anchoredEntries entries
  | .alias _ => []

def anchoredItems : List Node → List (Nat × Node)
  | [] => []
  | item :: items => anchored item ++ anchoredItems items

def anchoredEntries : List (Node × Node) → List (Nat × Node)
  | [] => []
  | (key, value) :: entries => anchored key ++ anchored value ++ anchoredEntries entries

end

mutual

/-- The size of a node: one for a scalar or an alias, two for a collection beside its content. -/
def size : Node → Nat
  | .scalar .. => 1
  | .alias _ => 1
  | .sequence _ items => 2 + sizeItems items
  | .mapping _ entries => 2 + sizeEntries entries

def sizeItems : List Node → Nat
  | [] => 0
  | item :: items => size item + sizeItems items

def sizeEntries : List (Node × Node) → Nat
  | [] => 0
  | (key, value) :: entries => size key + size value + sizeEntries entries

end

end Node

/-- A step of the evaluation of a document, which counts the copies that may still be made. -/
abbrev Evaluate := StateT Nat Option

namespace Evaluate

/-- The node itself, or the node that an alias stands for, of which one more copy is made. -/
def resolved (slots : List (Nat × Node)) : Node → Evaluate Node
  | .alias slot => do
    let copies + 1 ← get | failure
    set copies
    let some node := slots.lookup slot | failure
    return node
  | node => return node

def key (slots : List (Nat × Node)) (node : Node) : Evaluate String := do
  let .scalar _ text _ ← resolved slots node | failure
  return text

/-- Whether a collection may have a tag: only tags of one's own have no value. -/
def isPlainTag (tag : Option String) : Bool := tag.all fun text => text.toList.head? != some '!'

def value (slots : List (Nat × Node)) : Nat → Node → Evaluate Value
  | depth, node => do
    match ← resolved slots node with
    | .scalar properties text plain =>
      match properties.tag with
      | some tag => Scalar.tagged? tag text
      | none => if plain then Scalar.plain? text else return .string text
    | .sequence properties items =>
      match depth with
      | 0 => failure
      | depth + 1 =>
        if !isPlainTag properties.tag then failure
        return .array (← items.mapM (value slots depth))
    | .mapping properties entries =>
      match depth with
      | 0 => failure
      | depth + 1 =>
        if !isPlainTag properties.tag then failure
        let fields ← entries.mapM fun entry => do
          return (← key slots entry.1, ← value slots depth entry.2)
        return .object (Fields.ofList fields)
    | .alias _ => failure

end Evaluate

/-- The number of copies per unit of the size of a document. -/
def copiesPerSize : Nat := 100

def Node.value? (root : Node) : Option Value :=
  -- Of the nodes that take one slot the last one holds it.
  let slots := root.anchored.reverse
  ((Evaluate.value slots Compose.deepest root).run (copiesPerSize * root.size)).map (·.1)

/-- The value of a YAML text: null if it holds no document; none if it is not well formed, has no
value or holds several documents. -/
def value? (text : String) : Option Value := do
  let tokens ← tokens? text
  let (root, _) ← (Compose.document (tokens.length + 1)).run { tokens := tokens }
  match root with
  | none => some .null
  | some root => root.value?

end SchemaTypes.Yaml
