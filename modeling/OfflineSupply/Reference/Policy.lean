import OfflineSupply.Reference.Basic
import OfflineSupply.Reference.Error

/-!
# Policy references

A policy is named by a scheme, an authority and a path.  A policy in a registry carries a tag
behind its path; one that is downloaded keeps its version in the path; a text without a
scheme is the path of a local file.  A policy that is pushed to a registry is named by the
registry scheme from then on, if it was in a registry or was downloaded.
-/

namespace OfflineSupply.Reference

/-- The scheme of policies in a registry. -/
def registryScheme : String := "registry"

/-- The schemes of policies that are downloaded. -/
def downloadSchemes : List String := ["http", "https"]

/-- The reference to a policy in a registry: authority and path as far as they are there. -/
def ofRegistryPolicy (value : String) (authority : List Char) (path : Option (List Char)) :
    Except Error Reference :=
  let path := path.getD []
  if authority.isEmpty || path.isEmpty then .error (.policyWithoutRegistryOrPath value)
  else
    let (path, version) := splitVersion path
    let version := version.getD []
    if version.isEmpty then .error (.policyWithoutTag value)
    else .ok
      { authority := some (String.ofList authority)
        path := String.ofList path
        version := some (String.ofList version)
        scheme := some registryScheme }

/-- The reference to a policy that a text spells. -/
def ofPolicy (value : String) : Except Error Reference :=
  if value = "" then .error .emptyPolicy
  else match Text.cutWord "://".toList value.toList with
  | none => .ok { authority := none, path := value }
  | some (scheme, rest) =>
    if scheme.isEmpty then .error (.policyWithoutScheme value)
    else
      let (authority, path) := Text.cutFirst '/' rest
      let scheme := String.ofList scheme
      if scheme = registryScheme then ofRegistryPolicy value authority path
      else
        let path := path.getD []
        if path.isEmpty then .error (.policyWithoutPath value)
        else .ok
          { authority := if authority.isEmpty then none else some (String.ofList authority)
            path := String.ofList path
            scheme := some scheme }

/-- A policy reference at a private registry, as it is pushed there. -/
def retargetPolicy (value registry : String) : Except Error String :=
  match ofPolicy value with
  | .error e => .error e
  | .ok ref =>
    match ref.scheme, ref.authority with
    | some scheme, some _ =>
      let scheme := if downloadSchemes.contains scheme then registryScheme else scheme
      .ok ({ ref with scheme := some scheme }.retarget registry).text
    | _, _ => .error (.policyWithoutAuthority value)

end OfflineSupply.Reference
