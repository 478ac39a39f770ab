import OfflineSupply.Failure
import OfflineSupply.Platform
import OfflineSupply.Reference.Chart

/-!
# Manifests

A manifest lists the images, policies and charts of one offline installation, in the order in
which they were found.  Its charts are looked up by name once all of them have been read.  Images
that were found in a rendered chart are raw texts; whoever works with a manifest reads them as
texts.
-/

namespace OfflineSupply

/-- The artifacts of one installation. -/
structure Manifest (Image : Type := String) where
  images : List Image := []
  policies : List String := []
  charts : List String := []
  deriving DecidableEq, Repr, Inhabited

namespace Manifest

variable {Image : Type}

/-- Every chart of the manifest, in its order; the first malformed one stops the reading. -/
def chartReferences (m : Manifest Image) : Except Failure (List Reference) :=
  match m.charts.mapM Reference.ofChart with
  | .ok refs => .ok refs
  | .error e => .error (.reference e)

/-- The name that marks a certificate manager among the charts. -/
def certificateManagerChart : String := "cert-manager"

/-- Whether the manifest lists a certificate manager. -/
def listsCertificateManager (m : Manifest Image) : Except Failure Bool :=
  m.chartReferences.map fun refs => refs.any (·.name == certificateManagerChart)

/-- The one chart of a name. -/
def findChart (m : Manifest Image) (name : String) : Except Failure Reference :=
  match m.chartReferences with
  | .error e => .error e
  | .ok refs =>
    match refs.filter (·.name == name) with
    | [] => .error (.manifest (.missingChart name))
    | [ref] => .ok ref
    | refs => .error (.manifest (.repeatedChart name refs))

/-- The core charts of a platform that the manifest does not list. -/
def missingCharts (m : Manifest Image) (platform : Platform) : Except Failure (List String) :=
  m.chartReferences.map fun refs =>
    platform.coreCharts.filter fun chart => !refs.any (·.name == chart)

/-- A manifest with its images as texts. -/
def ofRaw (m : Manifest RawText) : Manifest :=
  { images := m.images.map RawText.text, policies := m.policies, charts := m.charts }

end Manifest

end OfflineSupply
