import OfflineSupply.Datum.Basic

/-!
# Documents

A loaded document is a scalar or a collection, and the parts of a collection are again one or
the other.  Collections have numbers, so that one collection may be part of several, and even
of itself.  What lies below a part is a tree wherever a collection inside itself is cut off.
-/

namespace OfflineSupply

/-- A part of a document: a scalar, or the collection of a number. -/
inductive Part where
  | scalar (value : Scalar)
  | collection (number : Nat)
  deriving DecidableEq, Inhabited

/-- A collection of parts.  Only scalars are keys and members of sets. -/
inductive Collection where
  | list (items : List Part)
  | pairs (entries : List (Part × Part))
  | map (entries : List (Scalar × Part))
  | set (members : List Scalar)
  deriving DecidableEq, Inhabited

/-- Whether a collection is a map. -/
def Collection.isMap : Collection → Bool
  | map _ => true
  | _ => false

/-- A loaded document: its outermost part, and its collections by their numbers. -/
structure Document where
  root : Part
  collections : Array Collection

namespace Document

/-- How many levels deep a document is followed. -/
def nestingLimit : Nat := 980

/-- The collection of a number. -/
def collection (d : Document) (number : Nat) : Collection :=
  d.collections[number]?.getD (.list [])

/-- The tree below a part that is inside the collections `around`, unless it is more than so
many levels deep. -/
def tree? (d : Document) : Nat → List Nat → Part → Option Datum
  | _, _, .scalar value => some (.scalar value)
  | 0, _, .collection _ => none
  | levels + 1, around, .collection number =>
    let c := d.collection number
    if around.contains number then some (.cycle c.isMap)
    else
      let below := d.tree? levels (number :: around)
      match c with
      | .list items => (items.mapM below).map .list
      | .pairs entries =>
        (entries.mapM fun (a, b) => do return (← below a, ← below b)).map .pairs
      | .map entries =>
        (entries.mapM fun entry => (below entry.2).map fun tree => (entry.1, tree)).map .map
      | .set members => some (.set members)

end Document

end OfflineSupply
