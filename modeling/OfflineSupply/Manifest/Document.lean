import OfflineSupply.Json.Reader
import OfflineSupply.Json.Writer
import OfflineSupply.Manifest.Basic
import OfflineSupply.Text.Blank

/-!
# Manifest files

A manifest is written as a JSON object with one list of texts for each category, indented by
two.  Reading takes any object whose three lists, where they are there, hold texts only; a
list that is not there is empty and other members are not looked at.
-/

namespace OfflineSupply.Manifest

/-- The key of the images. -/
def imagesCategory : String := "images"

/-- The key of the policies. -/
def policiesCategory : String := "policies"

/-- The key of the charts. -/
def chartsCategory : String := "charts"

/-- A manifest as a JSON document. -/
def document {Image : Type} [ToRawText Image] (m : Manifest Image) : Json :=
  let texts {α : Type} [ToRawText α] (items : List α) : Json :=
    .array (items.map fun item => .string (ToRawText.raw item))
  .ofMembers
    [(imagesCategory, texts m.images),
     (policiesCategory, texts m.policies),
     (chartsCategory, texts m.charts)]

/-- The text of a manifest's document. -/
def render {Image : Type} [ToRawText Image] (m : Manifest Image) : String :=
  m.document.render (.indented 2)

/-- The texts of one category. -/
def category (doc : Json) (name : String) : Except Failure (List RawText) :=
  match doc.get? name with
  | none => .ok []
  | some value =>
    match value.texts? with
    | some texts => .ok texts
    | none => .error (.manifest (.notTexts name value))

/-- The manifest that a document holds, with its images as they are written. -/
def ofDocument (doc : Json) : Except Failure (Manifest RawText) :=
  match doc with
  | .object _ => do
    let images ← category doc imagesCategory
    let policies ← category doc policiesCategory
    let charts ← category doc chartsCategory
    .ok { images, policies := policies.map RawText.text, charts := charts.map RawText.text }
  | _ => .error (.manifest (.notAnObject doc))

/-- The manifest that the text of a file holds, with its images as they are written. -/
def parseRaw (content : String) : Except Failure (Manifest RawText) :=
  if Text.allBlank content.toList then .error (.manifest .empty)
  else match Json.parse content with
  | .error (.integerTooLong _) => .error (.breakdown .numberTooLong)
  | .error cause => .error (.manifest (.malformed cause))
  | .ok doc => ofDocument doc

/-- The manifest that the text of a file holds. -/
def parse (content : String) : Except Failure Manifest :=
  (parseRaw content).map ofRaw

end OfflineSupply.Manifest
