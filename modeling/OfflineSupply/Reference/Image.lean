import OfflineSupply.Reference.Basic
import OfflineSupply.Reference.Error

/-!
# Image references

An image is named by an optional registry, a path, an optional tag and an optional digest.
The first name of the path is a registry if it holds a dot or a colon or is the local host;
otherwise it belongs to the path.
-/

namespace OfflineSupply.Reference

/-- The name of the machine itself. -/
def localHost : String := "localhost"

/-- Whether the first name of an image is a registry. -/
def isAuthority (name : List Char) : Bool :=
  name.contains '.' || name.contains ':' || name == localHost.toList

/-- The registry in front of an image's name, and the rest of the name. -/
def splitAuthority (cs : List Char) : Option (List Char) × List Char :=
  match Text.cutFirst '/' cs with
  | (first, some rest) => if isAuthority first then (some first, rest) else (none, cs)
  | (_, none) => (none, cs)

/-- The reference to an image that a text spells. -/
def ofImage (value : String) : Except Error Reference :=
  if value = "" then .error .emptyImage
  else
    let (name, digest) := Text.cutFirst '@' value.toList
    if digest = some [] then .error (.imageWithEmptyDigest value)
    else
      let (authority, name) := splitAuthority name
      let (path, version) := splitVersion name
      if path.isEmpty || version = some [] then .error (.malformedImage value)
      else .ok
        { authority := authority.map String.ofList
          path := String.ofList path
          version := version.map String.ofList
          digest := digest.map String.ofList }

/-- An image reference at a private registry. -/
def retargetImage (value registry : String) : Except Error String :=
  (ofImage value).map fun ref => (ref.retarget registry).text

end OfflineSupply.Reference
