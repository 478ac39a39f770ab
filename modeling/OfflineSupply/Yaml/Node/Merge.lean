import OfflineSupply.Datum.Document
import OfflineSupply.Yaml.Node

/-!
# Merging

A mapping may merge in the entries of other mappings.  They come before its own, so that its
own values win, and of several merged mappings the first one wins.  The nodes themselves are
changed: once a mapping is merged, its merge keys are gone wherever it is used, and its
default keys are texts.
-/

namespace OfflineSupply.Yaml.NodeTable

/-- Whether an entry has a key of some tag. -/
def hasKey (t : NodeTable) (tag : Tag) (entry : Entry) : Bool :=
  (t.node entry.1).tag = tag

/-- The table in which the default keys of a mapping are texts. -/
def withTextKeys (t : NodeTable) (id : NodeId) : NodeTable :=
  ((t.entries id).filter (t.hasKey .defaultKey)).foldl (fun t entry => t.setTag entry.1 .text) t

/-- The value of the first merge key of a mapping, and the entries without that one. -/
def firstMerge? (t : NodeTable) (id : NodeId) : Option (NodeId × List Entry) :=
  let (before, rest) := (t.entries id).span fun entry => !t.hasKey .merge entry
  match rest with
  | [] => none
  | (_, value) :: after => some (value, before ++ after)

/-- The entries that some mappings bring, of each once it is merged, the last one first. -/
def bringAll (merge : NodeId → NodeTable → Except Trouble NodeTable) (t : NodeTable) :
    List NodeId → Except Trouble (List Entry × NodeTable)
  | [] => .ok ([], t)
  | item :: items =>
    match (t.node item).content with
    | .mapping _ => do
      let t ← merge item t
      let entries := t.entries item
      let (later, t) ← bringAll merge t items
      return (later ++ entries, t)
    | _ => .error .malformed

/-- The entries that the value of a merge key brings: those of a mapping, or of the mappings of
a sequence. -/
def bring (merge : NodeId → NodeTable → Except Trouble NodeTable) (value : NodeId)
    (t : NodeTable) : Except Trouble (List Entry × NodeTable) :=
  match (t.node value).content with
  | .mapping _ => bringAll merge t [value]
  | .sequence items => bringAll merge t items
  | .scalar _ => .error .malformed

/-- The table in which a mapping is merged, and whatever it merges in, at most so many levels
deep.  Its merge keys are followed from the first one on, each once it is gone. -/
def merge : Nat → NodeId → NodeTable → Except Trouble NodeTable
  | 0, _, _ => .error (.breakdown .nestedTooDeeply)
  | levels + 1, id, t => do
    let t := t.withTextKeys id
    let count := (t.entries id).countP (t.hasKey .merge)
    let step : List Entry × NodeTable → Unit → Except Trouble (List Entry × NodeTable)
      | (brought, t), _ =>
        match t.firstMerge? id with
        | none => .ok (brought, t)
        | some (value, rest) =>
          (bring (merge levels) value (t.setContent id (.mapping rest))).map
            fun (entries, t) => (brought ++ entries, t)
    let (brought, t) ← (List.replicate count ()).foldlM step ([], t)
    return t.setContent id (.mapping (brought ++ t.entries id))

end OfflineSupply.Yaml.NodeTable
