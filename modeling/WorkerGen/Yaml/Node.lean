import WorkerGen.Yaml.Token

/-!
# YAML nodes

The tree of a document: scalars, sequences, mappings, and aliases that stand for a node elsewhere
in the document.  Every node knows the byte offset where it starts.

An alias refers to its node by a number, under which the document lists the node.  The entries of
a mapping are kept as written, repeated keys included.
-/

namespace WorkerGen.Yaml

/-- What the tag of a node says about reading it. -/
inductive Tag where
  | null
  | bool
  | int
  | float
  /-- A tag of an application, written with a single `!`. -/
  | custom
  /-- A tag of an application that is no text. -/
  | customBytes
  /-- Any other tag. -/
  | other
deriving DecidableEq, Inhabited, Repr

/-- The bytes of a text. -/
def bytesOf (s : String) : List UInt8 := s.toUTF8.toList

/-- Classifies the full form of a tag. -/
def Tag.ofBytes (bytes : List UInt8) : Tag :=
  if bytes == bytesOf "tag:yaml.org,2002:null" then .null
  else if bytes == bytesOf "tag:yaml.org,2002:bool" then .bool
  else if bytes == bytesOf "tag:yaml.org,2002:int" then .int
  else if bytes == bytesOf "tag:yaml.org,2002:float" then .float
  else if bytes.head? == some 33 then
    if (ByteArray.mk bytes.toArray).validateUTF8 then .custom else .customBytes
  else .other

/-- A node of a document. -/
inductive Node where
  | scalar (start : Nat) (tag : Option Tag) (style : Style) (text : String)
  | sequence (start : Nat) (tag : Option Tag) (items : List Node)
  | mapping (start : Nat) (tag : Option Tag) (entries : List (Node × Node))
  | alias (start : Nat) (target : Nat)
deriving Inhabited

namespace Node

/-- The byte offset where a node starts. -/
def start : Node → Nat
  | .scalar start .. | .sequence start .. | .mapping start .. | .alias start .. => start

/-- A scalar with no text where a node is missing. -/
def empty (start : Nat) : Node := .scalar start none .plain ""

mutual

/-- A node and all nodes in it, in the order in which they start. -/
def subnodes : Node → List Node
  | .scalar s t y x => [.scalar s t y x]
  | .alias s a => [.alias s a]
  | .sequence s t items => .sequence s t items :: subnodesOfItems items
  | .mapping s t entries => .mapping s t entries :: subnodesOfEntries entries

/-- The nodes in the items of a sequence. -/
def subnodesOfItems : List Node → List Node
  | [] => []
  | node :: rest => subnodes node ++ subnodesOfItems rest

/-- The nodes in the entries of a mapping. -/
def subnodesOfEntries : List (Node × Node) → List Node
  | [] => []
  | (key, value) :: rest => subnodes key ++ subnodes value ++ subnodesOfEntries rest

end

/-- The size of a node as reading it in order counts: one for a scalar or alias, and two for a
collection besides what is in it. -/
def weight (node : Node) : Nat :=
  node.subnodes.foldr (fun n size => match n with
    | .scalar .. | .alias .. => 1 + size
    | .sequence .. | .mapping .. => 2 + size) 0

end Node

/-- A document: its root, unless the text is empty, and the nodes that aliases refer to. -/
structure Document where
  root : Option Node
  anchored : List (Nat × Node)
deriving Inhabited

/-- The size of a document as reading it in order counts. -/
def Document.weight (d : Document) : Nat := (d.root.map Node.weight).getD 1

end WorkerGen.Yaml
