import OfflineSupply.Yaml.Node

/-!
# Reading nodes

The tokens of a stream make up documents, and those of a document one node.  Every reading
takes the tokens in order and gives back those that are left, which are fewer whenever a node
was read.  A collection gets its number before its inside is read, so that an alias inside may
mean it.  Anchors hold within a document, and no two of them have one name.
-/

namespace OfflineSupply.Yaml

/-- The tokens that are left, and the nodes and the anchors of the document so far. -/
structure Remaining where
  tokens : List Token
  table : NodeTable := {}
  anchors : List (String × NodeId) := []

/-- What handles are short for. -/
abbrev Handles := List (String × String)

/-- The handles that need no directive. -/
def defaultHandles : Handles :=
  [("!", "!"), ("!!", tagLead)]

/-- The properties in front of a node: its anchor and its tag. -/
structure Properties where
  anchor : Option String := none
  /-- The name of the tag; a lone exclamation mark asks for no tag. -/
  tag : Option String := none

/-- Whether there are no properties. -/
def Properties.isEmpty (p : Properties) : Bool :=
  p.anchor.isNone && p.tag.isNone

/-- Whether the tag of the node follows from its form. -/
def Properties.isImplicit (p : Properties) : Bool :=
  p.tag.isNone || p.tag = some "!"

/-- The trouble before a token that does not belong there. -/
def unexpected (tokens : List Token) : Trouble :=
  match tokens with
  | .impossible cause :: _ => .breakdown cause
  | _ => .malformed

namespace Remaining

/-- The next token. -/
def next (r : Remaining) : Option Token := r.tokens.head?

/-- What is left behind the next token. -/
def drop (r : Remaining) : Remaining := { r with tokens := r.tokens.tail }

/-- Whether the next token is one of some. -/
def nextIs (r : Remaining) (tokens : List Token) : Bool :=
  r.next.any tokens.contains

/-- A new node under its anchor. -/
def add (r : Remaining) (anchor : Option String) (node : Node) : NodeId × Remaining :=
  let id := r.table.size
  (id,
    { r with
      table := r.table.push node
      anchors := (anchor.toList.map fun name => (name, id)) ++ r.anchors })

/-- A new node that nothing is written for. -/
def addEmpty (r : Remaining) : NodeId × Remaining :=
  r.add none Node.empty

/-- What remains once the inside of a collection has been read. -/
def close (r : Remaining) (id : NodeId) (content : Content) : Remaining :=
  { r with table := r.table.setContent id content }

end Remaining

/-- The full name of a tag. -/
def tagName (handles : Handles) (handle : Option String) (suffix : String) :
    Except Trouble String :=
  match handle with
  | none => .ok suffix
  | some handle =>
    match handles.lookup handle with
    | some lead => .ok (lead ++ suffix)
    | none => .error .malformed

/-- The properties at the front: an anchor, a tag, or both in either order. -/
def properties (handles : Handles) (tokens : List Token) :
    Except Trouble (Properties × List Token) :=
  match tokens with
  | .anchor name :: .tag handle suffix :: rest =>
    (tagName handles handle suffix).map fun tag =>
      ({ anchor := some name, tag := some tag }, rest)
  | .anchor name :: rest => .ok ({ anchor := some name }, rest)
  | .tag handle suffix :: .anchor name :: rest =>
    (tagName handles handle suffix).map fun tag =>
      ({ anchor := some name, tag := some tag }, rest)
  | .tag .. :: .impossible cause :: _ => .error (.breakdown cause)
  | .tag handle suffix :: rest =>
    (tagName handles handle suffix).map fun tag => ({ tag := some tag }, rest)
  | _ => .ok ({}, tokens)

/-- A scalar's node.  A lone exclamation mark makes a quoted scalar be read like a plain
one. -/
def Properties.scalar (p : Properties) (text : RawText) (plain : Bool) : Node :=
  let tag := match p.tag with
    | none => if plain then Tag.ofPlain text.text else .text
    | some "!" => Tag.ofPlain text.text
    | some name => Tag.ofName name
  { tag, content := .scalar text }

/-- The tag of a collection. -/
def Properties.collection (p : Properties) (default : Tag) : Tag :=
  match p.tag with
  | none => default
  | some "!" => default
  | some name => Tag.ofName name

/-- Where a node stands, which decides the collections that it can be. -/
inductive Position where
  | flow
  | block
  /-- The key or the value of a block mapping, where a sequence need not be indented. -/
  | blockEntry
  deriving DecidableEq

/-- The node that an anchor names. -/
def aliased (r : Remaining) (name : String) : Except Trouble NodeId :=
  match r.anchors.lookup name with
  | some id => .ok id
  | none => .error .malformed

/-- A node's reading: its number and what is left. -/
abbrev NodeRead := Except Trouble (NodeId × Remaining)

abbrev ItemsRead := Except Trouble (List NodeId × Remaining)

abbrev EntriesRead := Except Trouble (List Entry × Remaining)

/-- A sequence with its properties, whose items are read by a function. -/
def readSequence (p : Properties) (read : Remaining → ItemsRead) (r : Remaining) : NodeRead := do
  let (id, r) := r.add p.anchor { tag := p.collection .sequence, content := .sequence [] }
  let (items, r) ← read r
  return (id, r.close id (.sequence items))

/-- A mapping with its properties, whose entries are read by a function. -/
def readMapping (p : Properties) (read : Remaining → EntriesRead) (r : Remaining) : NodeRead := do
  let (id, r) := r.add p.anchor { tag := p.collection .mapping, content := .mapping [] }
  let (entries, r) ← read r
  return (id, r.close id (.mapping entries))

/-! Each of the following takes fuel, one unit for each call inside another.  Of three calls in
a row at least one takes a token, so that three times the number of tokens is enough. -/

mutual

/-- The node at the front. -/
def readNode (handles : Handles) : Nat → Position → Remaining → NodeRead
  | 0, _, _ => .error .malformed
  | fuel + 1, position, r =>
    match r.tokens with
    | .alias name :: _ => (aliased r name).map fun id => (id, r.drop)
    | tokens => do
      let (p, tokens) ← properties handles tokens
      if p.anchor.any fun name => (r.anchors.lookup name).isSome then .error (unexpected tokens)
      else
        let r := { r with tokens }
        match r.next with
        | some (.scalar text plain) => return r.drop.add p.anchor (p.scalar text plain)
        | some .flowSequenceStart => readSequence p (readFlowItems handles fuel true) r.drop
        | some .flowMappingStart => readMapping p (readFlowEntries handles fuel true) r.drop
        | token =>
          if position = .blockEntry && token = some .blockEntry then
            readSequence p (readIndentlessItems handles fuel) r
          else if position ≠ .flow && token = some .blockSequenceStart then
            readSequence p (readBlockItems handles fuel) r.drop
          else if position ≠ .flow && token = some .blockMappingStart then
            readMapping p (readBlockEntries handles fuel) r.drop
          else if p.isEmpty then .error (unexpected r.tokens)
          else match r.next with
            | none => .error .malformed
            | some (.impossible cause) => .error (.breakdown cause)
            | some _ =>
              let tag := if p.isImplicit then .null else (p.tag.map Tag.ofName).getD .unknown
              return r.add p.anchor { tag, content := .scalar (.ofString "") }

/-- The items of a block sequence up to its end. -/
def readBlockItems (handles : Handles) : Nat → Remaining → ItemsRead
  | 0, _ => .error .malformed
  | fuel + 1, r =>
    match r.next with
    | some .blockEntry => do
      let (item, r) ←
        readPart handles fuel .block [.blockEntry, .blockEnd] r.drop
      let (items, r) ← readBlockItems handles fuel r
      return (item :: items, r)
    | some .blockEnd => return ([], r.drop)
    | _ => .error (unexpected r.tokens)

/-- The items of a sequence that is not indented below its mapping. -/
def readIndentlessItems (handles : Handles) : Nat → Remaining → ItemsRead
  | 0, _ => .error .malformed
  | fuel + 1, r =>
    match r.next with
    | some .blockEntry => do
      let (item, r) ←
        readPart handles fuel .block [.blockEntry, .key, .value, .blockEnd] r.drop
      let (items, r) ← readIndentlessItems handles fuel r
      return (item :: items, r)
    | none => .error .malformed
    | some (.impossible cause) => .error (.breakdown cause)
    | some _ => return ([], r)

/-- The entries of a block mapping up to its end. -/
def readBlockEntries (handles : Handles) : Nat → Remaining → EntriesRead
  | 0, _ => .error .malformed
  | fuel + 1, r =>
    match r.next with
    | some .key => do
      let (key, r) ← readPart handles fuel .blockEntry [.key, .value, .blockEnd] r.drop
      let (value, r) ← readValue handles fuel .blockEntry [.key, .value, .blockEnd] r
      let (entries, r) ← readBlockEntries handles fuel r
      return ((key, value) :: entries, r)
    | some .blockEnd => return ([], r.drop)
    | _ => .error (unexpected r.tokens)

/-- The items of a flow sequence up to its end.  A key makes an item a mapping of one
entry. -/
def readFlowItems (handles : Handles) : Nat → Bool → Remaining → ItemsRead
  | 0, _, _ => .error .malformed
  | fuel + 1, first, r =>
    if r.nextIs [.flowSequenceEnd] then return ([], r.drop)
    else if !first && !r.nextIs [.flowEntry] then .error (unexpected r.tokens)
    else
      let r := if first then r else r.drop
      match r.next with
      | some .key => do
        let stops := [.flowEntry, .flowSequenceEnd]
        let (item, r) ← readMapping {} (fun r => do
          let (key, r) ← readPart handles fuel .flow (.value :: stops) r
          let (value, r) ← readValue handles fuel .flow stops r
          return ([(key, value)], r)) r.drop
        let (items, r) ← readFlowItems handles fuel false r
        return (item :: items, r)
      | some .flowSequenceEnd => return ([], r.drop)
      | _ => do
        let (item, r) ← readNode handles fuel .flow r
        let (items, r) ← readFlowItems handles fuel false r
        return (item :: items, r)

/-- The entries of a flow mapping up to its end.  An item without a key mark is a key without
a value. -/
def readFlowEntries (handles : Handles) : Nat → Bool → Remaining → EntriesRead
  | 0, _, _ => .error .malformed
  | fuel + 1, first, r =>
    if r.nextIs [.flowMappingEnd] then return ([], r.drop)
    else if !first && !r.nextIs [.flowEntry] then .error (unexpected r.tokens)
    else
      let r := if first then r else r.drop
      match r.next with
      | some .key => do
        let stops := [.flowEntry, .flowMappingEnd]
        let (key, r) ← readPart handles fuel .flow (.value :: stops) r.drop
        let (value, r) ← readValue handles fuel .flow stops r
        let (entries, r) ← readFlowEntries handles fuel false r
        return ((key, value) :: entries, r)
      | some .flowMappingEnd => return ([], r.drop)
      | _ => do
        let (key, r) ← readNode handles fuel .flow r
        let (value, r) := r.addEmpty
        let (entries, r) ← readFlowEntries handles fuel false r
        return ((key, value) :: entries, r)

/-- The value of a key, behind its mark; without the mark it is empty. -/
def readValue (handles : Handles) :
    Nat → Position → List Token → Remaining → NodeRead
  | 0, _, _, _ => .error .malformed
  | fuel + 1, position, stops, r =>
    match r.next with
    | some .value => readPart handles fuel position stops r.drop
    | none => .error .malformed
    | some (.impossible cause) => .error (.breakdown cause)
    | some _ => return r.addEmpty

/-- The node at the front, or the empty one before certain tokens. -/
def readPart (handles : Handles) :
    Nat → Position → List Token → Remaining → NodeRead
  | 0, _, _, _ => .error .malformed
  | fuel + 1, position, stops, r =>
    if r.nextIs stops then return r.addEmpty
    else readNode handles fuel position r

end

/-! ## Documents -/

/-- The handles that the directives at the front declare, and the tokens behind them.  A
document has at most one version, of the first generation, and no handle twice. -/
def readDirectives (versioned : Bool) (handles : Handles) :
    List Token → Except Trouble (Handles × List Token)
  | .versionDirective major :: rest =>
    if versioned || major ≠ 1 then .error .malformed else readDirectives true handles rest
  | .tagDirective handle lead :: rest =>
    if (handles.lookup handle).isSome then .error .malformed
    else readDirectives versioned ((handle, lead) :: handles) rest
  | .otherDirective :: rest => readDirectives versioned handles rest
  | tokens => .ok (handles ++ defaultHandles, tokens)

/-- Whether a token ends a document that holds nothing. -/
def endsDocument : Token → Bool
  | .versionDirective _ | .tagDirective .. | .otherDirective => true
  | .documentStart | .documentEnd | .streamEnd => true
  | _ => false

/-- A document as it is written: its outermost node, and all its nodes. -/
structure Composition where
  root : NodeId
  table : NodeTable

/-- The document with nothing but the node that nothing is written for. -/
def Composition.empty : Composition :=
  { root := 0, table := { nodes := #[Node.empty] } }

/-- A document from the tokens of its node, which must be followed by another token. -/
def readRoot (handles : Handles) (tokens : List Token) :
    Except Trouble (Composition × List Token) := do
  let (root, r) ← readNode handles (3 * tokens.length + 3) .block { tokens }
  let document : Composition := { root, table := r.table }
  match r.tokens with
  | .documentEnd :: rest => return (document, rest)
  | [] => .error .malformed
  | .impossible cause :: _ => .error (.breakdown cause)
  | rest => return (document, rest)

/-- The next document, and the tokens behind it; `none` at the end of the stream.  Only the
first document may begin without a mark. -/
def readDocument (first : Bool) (tokens : List Token) :
    Except Trouble (Option (Composition × List Token)) := do
  let implicit := first && match tokens with
    | .documentEnd :: _ => true
    | token :: _ => !endsDocument token
    | [] => false
  if implicit then (readRoot defaultHandles tokens).map some
  else
    let tokens := tokens.dropWhile (· = .documentEnd)
    match tokens with
    | [.streamEnd] => return none
    | _ =>
      let (handles, tokens) ← readDirectives false [] tokens
      match tokens with
      | .documentStart :: rest =>
        if rest.head?.any endsDocument then
          let rest := match rest with
            | .documentEnd :: rest => rest
            | rest => rest
          return some (Composition.empty, rest)
        else (readRoot handles rest).map some
      | _ => .error (unexpected tokens)

end OfflineSupply.Yaml
