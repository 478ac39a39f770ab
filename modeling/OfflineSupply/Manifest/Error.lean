import OfflineSupply.Datum.Literal
import OfflineSupply.FileTree.Error
import OfflineSupply.Json.Error
import OfflineSupply.Reference.Basic

/-!
# What can be wrong with a manifest

A manifest file may be missing, empty, no JSON document or a document of another shape; a
manifest may lack a chart or list it more than once.
-/

namespace OfflineSupply

/-- What is wrong with a manifest. -/
inductive ManifestError where
  | unreadable (path : Path) (cause : FileError)
  | empty
  | malformed (cause : Json.Error)
  | notAnObject (doc : Json)
  | notTexts (category : String) (value : Json)
  | missingChart (name : String)
  | repeatedChart (name : String) (references : List Reference)

/-- The wording of what is wrong. -/
def ManifestError.message : ManifestError → String
  | unreadable path cause => "Unable to read manifest " ++ path.text ++ ": " ++ cause.message
  | empty => "Manifest file is empty"
  | malformed cause => "Invalid JSON: " ++ cause.message
  | notAnObject doc => "Manifest must be a JSON object, got " ++ doc.datum.kind
  | notTexts category value =>
    "Manifest key '" ++ category ++ "' must be a list of strings: " ++ value.shown
  | missingChart name => "Manifest is missing required chart '" ++ name ++ "'"
  | repeatedChart name references =>
    "Manifest lists chart '" ++ name ++ "' more than once: " ++
      ", ".intercalate (references.map Reference.text)

end OfflineSupply
