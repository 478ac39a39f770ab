import OfflineSupply.Yaml.Tag
import OfflineSupply.Yaml.Token

/-!
# Nodes

The nodes of a document are numbered, and a collection refers to its parts by their numbers.
An alias is the number of the node that its anchor names, so that one node may be part of
several collections, and even of itself.
-/

namespace OfflineSupply.Yaml

/-- The number of a node. -/
abbrev NodeId := Nat

/-- A key with its value. -/
abbrev Entry := NodeId × NodeId

/-- What a node is made of. -/
inductive Content where
  | scalar (text : RawText)
  | sequence (items : List NodeId)
  | mapping (entries : List Entry)
  deriving DecidableEq, Repr, Inhabited

/-- A node of a document. -/
structure Node where
  tag : Tag
  content : Content
  deriving DecidableEq, Repr

/-- The node that nothing is written for. -/
def Node.empty : Node :=
  { tag := .null, content := .scalar (.ofString "") }

/-- The nodes of a document by their numbers. -/
structure NodeTable where
  nodes : Array Node := #[]

namespace NodeTable

/-- How many nodes there are. -/
def size (t : NodeTable) : Nat := t.nodes.size

/-- The node of a number. -/
def node (t : NodeTable) (id : NodeId) : Node :=
  t.nodes[id]?.getD Node.empty

/-- The entries of a mapping. -/
def entries (t : NodeTable) (id : NodeId) : List Entry :=
  match (t.node id).content with
  | .mapping entries => entries
  | _ => []

/-- The table with one more node. -/
def push (t : NodeTable) (node : Node) : NodeTable :=
  { nodes := t.nodes.push node }

/-- The table with another content for a node. -/
def setContent (t : NodeTable) (id : NodeId) (content : Content) : NodeTable :=
  { nodes := t.nodes.modify id fun node => { node with content } }

/-- The table with another tag for a node. -/
def setTag (t : NodeTable) (id : NodeId) (tag : Tag) : NodeTable :=
  { nodes := t.nodes.modify id fun node => { node with tag } }

end NodeTable

end OfflineSupply.Yaml
