/-!
# Malformed references

A text that is no reference of its kind is refused for one cause, and the message quotes the
text as it was given.
-/

namespace OfflineSupply.Reference

/-- What is wrong with a reference. -/
inductive Error where
  | chartWithoutRepository (value : String)
  | chartWithoutVersion (value : String)
  | emptyPolicy
  | policyWithoutScheme (value : String)
  | policyWithoutRegistryOrPath (value : String)
  | policyWithoutTag (value : String)
  | policyWithoutPath (value : String)
  | policyWithoutAuthority (value : String)
  | emptyImage
  | imageWithEmptyDigest (value : String)
  | malformedImage (value : String)
  deriving DecidableEq, Repr

/-- The wording of what is wrong. -/
def Error.message : Error → String
  | chartWithoutRepository v => "Chart reference '" ++ v ++ "' is missing a repository URL"
  | chartWithoutVersion v => "Chart reference '" ++ v ++ "' is missing a version"
  | emptyPolicy => "Policy reference is empty"
  | policyWithoutScheme v => "Policy reference '" ++ v ++ "' has no scheme"
  | policyWithoutRegistryOrPath v =>
    "Policy reference '" ++ v ++ "' is missing a registry or path"
  | policyWithoutTag v => "Policy reference '" ++ v ++ "' is missing a tag"
  | policyWithoutPath v => "Policy reference '" ++ v ++ "' has no path"
  | policyWithoutAuthority v => "Policy reference '" ++ v ++ "' has no authority to retarget"
  | emptyImage => "Image reference is empty"
  | imageWithEmptyDigest v => "Image reference '" ++ v ++ "' has an empty digest"
  | malformedImage v => "Image reference '" ++ v ++ "' is malformed"

end OfflineSupply.Reference
