import OfflineSupply.Manifest.Document
import OfflineSupply.Session.Action
import OfflineSupply.Text.Lines
import OfflineSupply.Text.Utf8

/-!
# Manifests in files

A manifest is read from a file and written to one.  A file that cannot be opened is a fault of
the manifest; its octets have to be UTF-8, and every kind of line break in it reads as a line
feed.
-/

namespace OfflineSupply.Manifest

/-- The text of a file. -/
def fileText (file : Path) : Action String := do
  match (← Action.files).read file with
  | .error e =>
    if e.problem = .nulInName then Action.fail (.breakdown .nulInName)
    else Action.fail (.manifest (.unreadable file e))
  | .ok octets =>
    match Text.strictText? octets with
    | none => Action.fail (.breakdown .undecodable)
    | some text => return String.ofList (Text.unifyBreaks text.toList)

/-- Reads the manifest in a file. -/
def load (file : Path) : Action Manifest := do
  let m ← Action.ofExcept (parse (← fileText file))
  Action.log .debug .manifests
    ("Read manifest " ++ file.text ++ " with " ++ Text.decimal m.images.length ++ " images, " ++
      Text.decimal m.policies.length ++ " policies, " ++ Text.decimal m.charts.length ++
      " charts")
  return m

/-- Writes a manifest to a file, with a line feed at the end. -/
def store {Image : Type} [ToRawText Image] (file : Path) (m : Manifest Image) : Action Unit :=
  Action.writeText file (m.render ++ "\n")

end OfflineSupply.Manifest
