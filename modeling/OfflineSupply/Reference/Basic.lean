import OfflineSupply.Text.Cut

/-!
# References

A reference names an image, a policy or a chart: the authority that serves it, its path there,
and what else pins it.  Pointing a reference at another registry replaces the authority and
nothing else.
-/

namespace OfflineSupply

/-- The parts of a reference. -/
structure Reference where
  /-- The registry with its port, or the repository of a chart. -/
  authority : Option String
  /-- The path below the authority. -/
  path : String
  /-- The tag of an image or a policy, the version of a chart. -/
  version : Option String := none
  /-- The transport of a policy. -/
  scheme : Option String := none
  /-- The content digest that pins an image. -/
  digest : Option String := none
  deriving DecidableEq, Repr

namespace Reference

/-- The last name of the path. -/
def name (ref : Reference) : String :=
  String.ofList (Text.afterLast '/' ref.path.toList)

/-- The same reference at another authority. -/
def retarget (ref : Reference) (authority : String) : Reference :=
  { ref with authority := some authority }

/-- A part behind its mark; a part that is absent or empty is not written. -/
def marked (mark : String) (part : Option String) : String :=
  match part with
  | none => ""
  | some text => if text = "" then "" else mark ++ text

/-- Where a reference lies: scheme, authority and path.  A scheme is followed by an authority
even if that is empty; without one an empty authority is left out. -/
def place (ref : Reference) : String :=
  let scheme := ref.scheme.getD ""
  let authority := ref.authority.getD ""
  if scheme ≠ "" then scheme ++ "://" ++ authority ++ "/" ++ ref.path
  else if authority ≠ "" then authority ++ "/" ++ ref.path
  else ref.path

/-- The text of a reference. -/
def text (ref : Reference) : String :=
  ref.place ++ marked ":" ref.version ++ marked "@" ref.digest

/-- The name of the file that holds a pulled chart. -/
def archiveName (ref : Reference) : String :=
  ref.name ++ "-" ++ ref.version.getD "None" ++ ".tgz"

/-- Text before a last separator put back in front of what followed it. -/
def rejoin (before : Option (List Char)) (after : List Char) : List Char :=
  match before with
  | none => after
  | some cs => cs ++ '/' :: after

/-- A path and the version behind the first colon of its last name. -/
def splitVersion (cs : List Char) : List Char × Option (List Char) :=
  let last := Text.cutLast '/' cs
  match Text.cutFirst ':' last.2 with
  | (_, none) => (cs, none)
  | (name, some version) => (rejoin last.1 name, some version)

end Reference

end OfflineSupply
