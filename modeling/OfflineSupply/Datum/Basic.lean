import OfflineSupply.Datum.Scalar
import OfflineSupply.Json.Basic

/-!
# Data

A datum is a loaded value as a tree: a scalar, a list, a list of pairs, a map or a set.  The
entries of a map are in the order in which their keys first came.  A collection that is inside
itself has no tree; it is cut off where it comes again.
-/

namespace OfflineSupply

/-- A loaded value as a tree. -/
inductive Datum where
  | scalar (value : Scalar)
  | list (items : List Datum)
  | pairs (entries : List (Datum × Datum))
  | map (entries : List (Scalar × Datum))
  | set (members : List Scalar)
  /-- A list or a map inside itself, cut off. -/
  | cycle (ofMap : Bool)
  deriving Inhabited

/-- The name of a datum's kind, as messages give it. -/
def Datum.kind : Datum → String
  | scalar value => value.kind
  | list _ => "list"
  | pairs _ => "list"
  | map _ => "dict"
  | set _ => "set"
  | cycle ofMap => if ofMap then "dict" else "list"

mutual

/-- A JSON document as a datum. -/
def Json.datum : Json → Datum
  | .null => .scalar .null
  | .bool b => .scalar (.bool b)
  | .integer n => .scalar (.integer n)
  | .double d => .scalar (.double d 0)
  | .string s => .scalar (.text s)
  | .array items => .list (Json.itemData items)
  | .object members => .map (Json.memberData members)

/-- The data of the items of a list. -/
def Json.itemData : List Json → List Datum
  | [] => []
  | item :: items => item.datum :: Json.itemData items

/-- The data of the members of an object. -/
def Json.memberData : List (RawText × Json) → List (Scalar × Datum)
  | [] => []
  | (name, member) :: members => (.text name, member.datum) :: Json.memberData members

end

end OfflineSupply
