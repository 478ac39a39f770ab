import OfflineSupply.Number.Double
import OfflineSupply.Text.Raw

/-!
# JSON documents

A document is null, a truth value, a number, a text, a list or an object.  Whole numbers are
kept exactly and all others as doubles, and texts are raw ones.  The members of an object are
in the order in which their names first came, each name once: a name that comes again takes the
later value and keeps its place.
-/

namespace OfflineSupply

/-- A JSON document. -/
inductive Json where
  | null
  | bool (value : Bool)
  | integer (value : Int)
  | double (value : Double)
  | string (value : RawText)
  | array (items : List Json)
  | object (members : List (RawText × Json))
  deriving Inhabited

/-- An association list in order of first insertion. -/
def putEntry {α β : Type} [BEq α] (entries : List (α × β)) (key : α) (value : β) : List (α × β) :=
  if entries.any (·.1 == key) then
    entries.map fun entry => if entry.1 == key then (entry.1, value) else entry
  else entries ++ [(key, value)]

/-- The entries with each of some new ones put in, in their order. -/
def putEntries {α β : Type} [BEq α] (entries added : List (α × β)) : List (α × β) :=
  added.foldl (fun entries entry => putEntry entries entry.1 entry.2) entries

/-- The value of a key. -/
def getEntry? {α β : Type} [BEq α] (entries : List (α × β)) (key : α) : Option β :=
  (entries.find? (·.1 == key)).map (·.2)

namespace Json

/-- The document of a text. -/
def ofString (text : String) : Json :=
  string (.ofString text)

/-- The object of some members, which have different names. -/
def ofMembers (members : List (String × Json)) : Json :=
  object (members.map fun (name, member) => (.ofString name, member))

/-- The member of an object with a given name. -/
def get? (doc : Json) (name : String) : Option Json :=
  match doc with
  | object members => getEntry? members (.ofString name)
  | _ => none

/-- The raw text of a string document. -/
def raw? : Json → Option RawText
  | string s => some s
  | _ => none

/-- The text of a string document. -/
def text? (doc : Json) : Option String :=
  doc.raw?.map RawText.text

/-- The raw texts of a list of string documents: `none` when some item is not one. -/
def texts? : Json → Option (List RawText)
  | array items => items.mapM raw?
  | _ => none

/-- Whether a document says anything: null, false, zero and whatever is empty do not. -/
def isSubstantial : Json → Bool
  | null => false
  | bool b => b
  | integer n => n != 0
  | double d => !d.isZero
  | string s => !s.isEmpty
  | array items => !items.isEmpty
  | object members => !members.isEmpty

end Json

end OfflineSupply
