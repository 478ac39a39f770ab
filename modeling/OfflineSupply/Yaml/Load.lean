import OfflineSupply.Yaml.Node.Merge
import OfflineSupply.Yaml.Node.Reader
import OfflineSupply.Yaml.Token.Lexer
import OfflineSupply.Yaml.Value

/-!
# Loading documents

A written document becomes a loaded one, in which every collection has the number of its node.
A node is looked at once and is the same part wherever it is used.  Collections are found
first and filled later, in the order in which they were found, so that the trouble of an outer
one comes before that of an inner one, and a mapping is merged when it is filled.
-/

namespace OfflineSupply.Yaml

/-! ## Scalars -/

/-- The text of a scalar, or of what stands at the first default key of a mapping, followed at
most so many levels. -/
def NodeTable.scalarText (t : NodeTable) : Nat → NodeId → Except Trouble RawText
  | 0, _ => .error (.breakdown .nestedTooDeeply)
  | levels + 1, id =>
    match (t.node id).content with
    | .scalar text => .ok text
    | .mapping entries =>
      match entries.find? (t.hasKey .defaultKey) with
      | some (_, value) => t.scalarText levels value
      | none => .error .malformed
    | .sequence _ => .error .malformed

/-- What tells a double from those of other nodes: the word for what is no number always means
the same one. -/
def doubleOrigin (id : NodeId) (cs : List Char) : Nat :=
  if isNoNumberWord cs then 0 else id + 1

/-- The scalar that a node stands for. -/
def NodeTable.scalar (t : NodeTable) (id : NodeId) : Except Trouble Scalar := do
  let text := t.scalarText Document.nestingLimit id
  match (t.node id).tag with
  | .null => return (fun _ => Scalar.null) (← text)
  | .bool => return .bool (← truthValue (← text).chars)
  | .integer => return .integer (← integerValue (← text).chars)
  | .double =>
    let cs := (← text).chars
    return .double (← doubleValue cs) (doubleOrigin id cs)
  | .binary => return .octets (← octetsValue (← text).chars)
  | .timestamp =>
    let cs := (← text).chars
    match (t.node id).content with
    | .scalar _ =>
      match ← momentValue cs with
      | .day date => return .date date
      | .time instant => return .instant instant
    | _ => breakOff .momentOfCollection
  | .text => return .text (← text)
  | _ => .error .malformed

/-! ## Collections -/

/-- A document that is being loaded. -/
structure Loading where
  table : NodeTable
  /-- What is known to be the parts of some nodes. -/
  parts : Array (Option Part)
  collections : Array Collection
  /-- The collections that were found and not filled yet, the last one first. -/
  found : List NodeId := []

/-- Whether a tag asks for a collection. -/
def Tag.isCollection : Tag → Bool
  | .sequence | .mapping | .set | .orderedMap | .pairs => true
  | _ => false

namespace Loading

/-- A document of which nothing is known yet. -/
def start (table : NodeTable) : Loading :=
  { table
    parts := Array.replicate table.size none
    collections := Array.replicate table.size (.list []) }

/-- The part that is known for a node. -/
def known? (l : Loading) (id : NodeId) : Option Part :=
  l.parts[id]?.join

/-- The part that a node is.  A collection that was not known is found. -/
def part (l : Loading) (id : NodeId) : Except Trouble (Part × Loading) :=
  match l.known? id with
  | some part => .ok (part, l)
  | none =>
    if (l.table.node id).tag.isCollection then
      let part := Part.collection id
      .ok (part, { l with parts := l.parts.setIfInBounds id part, found := id :: l.found })
    else
      match l.table.scalar id with
      | .ok value =>
        let part := Part.scalar value
        .ok (part, { l with parts := l.parts.setIfInBounds id part })
      | .error trouble => .error trouble

/-- The parts that some nodes are. -/
def partsOf (l : Loading) : List NodeId → Except Trouble (List Part × Loading)
  | [] => .ok ([], l)
  | id :: ids => do
    let (part, l) ← l.part id
    let (parts, l) ← l.partsOf ids
    return (part :: parts, l)

/-- The one entry of each node, for an ordered map or a list of pairs. -/
def pairsOf (l : Loading) : List NodeId → Except Trouble (List (Part × Part) × Loading)
  | [] => .ok ([], l)
  | id :: ids =>
    match (l.table.node id).content with
    | .mapping [(key, value)] => do
      let (key, l) ← l.part key
      let (value, l) ← l.part value
      let (pairs, l) ← l.pairsOf ids
      return ((key, value) :: pairs, l)
    | _ => .error .malformed

/-- The entries of a map with some more put in, one after the other.  A collection is no
key. -/
def entriesOf (l : Loading) (entries : List (Scalar × Part)) :
    List Entry → Except Trouble (List (Scalar × Part) × Loading)
  | [] => .ok (entries, l)
  | (key, value) :: rest => do
    match ← l.part key with
    | (.collection _, _) => .error .malformed
    | (.scalar key, l) =>
      let (value, l) ← l.part value
      l.entriesOf (Scalar.putKey entries key value) rest

/-- The entries of a mapping, once it is merged. -/
def mappingEntries (l : Loading) (id : NodeId) :
    Except Trouble (List (Scalar × Part) × Loading) := do
  let { table, parts, collections, found } := l
  let table ← table.merge Document.nestingLimit id
  let entries := table.entries id
  entriesOf { table, parts, collections, found } [] entries

/-- The collection that is the inside of a node. -/
def inside (l : Loading) (id : NodeId) : Except Trouble (Collection × Loading) :=
  let node := l.table.node id
  match node.tag, node.content with
  | .sequence, .sequence items =>
    (l.partsOf items).map fun (parts, l) => (.list parts, l)
  | .orderedMap, .sequence items =>
    (l.pairsOf items).map fun (pairs, l) => (.pairs pairs, l)
  | .pairs, .sequence items =>
    (l.pairsOf items).map fun (pairs, l) => (.pairs pairs, l)
  | .mapping, .mapping _ =>
    (l.mappingEntries id).map fun (entries, l) => (.map entries, l)
  | .set, .mapping _ =>
    (l.mappingEntries id).map fun (entries, l) => (.set (entries.map (·.1)), l)
  | _, _ => .error .malformed

/-- Fills a collection. -/
def fill (l : Loading) (id : NodeId) : Except Trouble Loading :=
  (l.inside id).map fun (c, l) =>
    { l with collections := l.collections.setIfInBounds id c }

/-- Fills the collections that were found, and those that are found by that, for so many
rounds. -/
def fillAll : Nat → Loading → Except Trouble Loading
  | 0, l => .ok l
  | rounds + 1, l =>
    match l.found.reverse with
    | [] => .ok l
    | ids => do
      let l ← ids.foldlM fill { l with found := [] }
      fillAll rounds l

end Loading

/-! ## Streams -/

/-- The document that was written.  Every round finds another node, so that there are fewer of
them than nodes. -/
def Composition.load (c : Composition) : Except Trouble Document := do
  let (root, l) ← (Loading.start c.table).part c.root
  let l ← l.fillAll c.table.size
  return { root, collections := l.collections }

/-- The documents of a stream from some tokens on, each loaded before the next one is read.
There are fewer of them than tokens. -/
def loadFrom : Nat → Bool → List Token → Except Trouble (List Document)
  | 0, _, _ => .error .malformed
  | fuel + 1, first, tokens =>
    match readDocument first tokens with
    | .error trouble => .error trouble
    | .ok none => .ok []
    | .ok (some (written, rest)) => do
      let document ← written.load
      let documents ← loadFrom fuel false rest
      return document :: documents

/-- The documents of a stream. -/
def load (text : String) : Except Trouble (List Document) :=
  let tokens := Token.ofText text
  loadFrom (tokens.length + 1) true tokens

end OfflineSupply.Yaml
