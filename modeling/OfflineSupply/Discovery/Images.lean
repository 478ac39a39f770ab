import OfflineSupply.Failure
import OfflineSupply.Yaml.Load

/-!
# Images of rendered charts

A rendered chart is a stream of documents.  The images that it needs are the values of all
image keys, at any depth and in the order of the documents; nothing is looked for below an
image key, and its value has to be a text.
-/

namespace OfflineSupply

/-- The key that holds an image. -/
def imageKey : String := "image"

/-- The failure for a part of a document that stands at an image key and is no text.  It shows
the part, unless that has no written form. -/
def Document.imageFailure (d : Document) (part : Part) : Failure :=
  match d.tree? nestingLimit [] part with
  | none => .breakdown .nestedTooDeeply
  | some tree =>
    if tree.isTooLong then .breakdown .numberTooLong else .discovery (.imageNotText tree)

/-- The image at an image key. -/
def Document.image (d : Document) (part : Part) : Except Failure RawText :=
  match part with
  | .scalar (.text image) => .ok image
  | part => .error (d.imageFailure part)

/-- The images in a part of a document, which is followed at most so many levels deep. -/
def Document.imagesIn (d : Document) : Nat → Part → Except Failure (List RawText)
  | _, .scalar _ => .ok []
  | 0, .collection _ => .error (.breakdown .nestedTooDeeply)
  | levels + 1, .collection number =>
    match d.collection number with
    | .list items => (items.mapM (d.imagesIn levels)).map List.flatten
    | .map entries =>
      (entries.mapM fun entry =>
        if entry.1 = .text (.ofString imageKey) then (d.image entry.2).map ([·])
        else d.imagesIn levels entry.2).map List.flatten
    | _ => .ok []

/-- The images of a document. -/
def Document.images (d : Document) : Except Failure (List RawText) :=
  d.imagesIn nestingLimit d.root

/-- The failure that a stream which is not loaded ends in. -/
def Yaml.Trouble.failure : Yaml.Trouble → Failure
  | .malformed => .discovery .unparsableChart
  | .breakdown cause => .breakdown cause

/-- The images of a rendered chart, which is loaded as a whole before any is looked for. -/
def chartImages (content : String) : Except Failure (List RawText) :=
  match Yaml.load content with
  | .error trouble => .error trouble.failure
  | .ok documents => (documents.mapM Document.images).map List.flatten

end OfflineSupply
