import OfflineSupply.Discovery.Images
import OfflineSupply.Discovery.Listing
import OfflineSupply.Stage.Basic
import OfflineSupply.Stores.Charts
import OfflineSupply.Stores.Releases

/-!
# Discovery

The manifest of the current release is discovered: the configured chart repository tells the
version and the charts, and files of the release with that version list the images and the
policies.  The certificate manager brings the images of its rendered chart.  A discovery
gives a whole manifest or fails.
-/

namespace OfflineSupply

/-- Where a discovery looks. -/
structure Discovery where
  platform : Platform := {}
  releases : ReleaseService := {}
  withCertificateManager : Bool := false

namespace Discovery

/-- A text, where nothing else can be used. -/
def needText (value : Json) : Except Failure String :=
  match value with
  | .string text => .ok text.text
  | _ => .error (.breakdown .notText)

/-- The version of the defaults chart, as it is shown. -/
def defaultsVersion (d : Discovery) : Action String := do
  let name := d.platform.repositoryName ++ "/" ++ d.platform.defaultsChart
  let entries ← ChartStore.search name
  match entries.find? fun entry => entry.name.text? = some name with
  | some entry => return entry.version.shown
  | none => Action.fail (.discovery (.chartNotIndexed name))

/-- The address of the first file of a release whose address has an ending. -/
def assetUrl (tag ending : String) : List ReleaseAsset → Except Failure String
  | [] => .error (.discovery (.missingAsset tag ending))
  | asset :: assets => do
    let url ← needText asset.url
    if ending.toList.isSuffixOf url.toList then return url else assetUrl tag ending assets

/-- The entries of the listing in the first file of a release whose address has an ending. -/
def fetchListing (assets : List ReleaseAsset) (tag ending : String) : Action (List String) := do
  let url ← Action.ofExcept (assetUrl tag ending assets)
  let entries := Listing.entries (← ReleaseService.fetchText url)
  if entries.isEmpty then Action.fail (.discovery (.emptyAsset url))
  else
    Action.log .debug .discovery
      ("Asset " ++ url ++ " lists " ++ Text.decimal entries.length ++ " entries")
    return entries

/-- The images of the rendered certificate manager. -/
def certificateManagerImages (manager : CertificateManager) : Action (List RawText) := do
  let rendered ←
    (ChartStore.render manager.repositoryUrl manager.chart (some manager.version)).run
  let images ← Action.ofExcept (chartImages rendered)
  if images.isEmpty then Action.fail (.discovery (.noImages manager.chartReference))
  else return images

/-- The charts of a repository among those that were found. -/
def ownEntries (repository : String) (entries : List ChartStore.Entry) :
    Except Failure (List (String × Json)) := do
  let named ← entries.mapM fun entry => (needText entry.name).map fun name => (name, entry.version)
  return named.filter fun entry => (repository ++ "/").toList.isPrefixOf entry.1.toList

/-- The reference to a chart that was found, at the address of its repository. -/
def chartReference (repositoryUrl : String) (entry : String × Json) : String :=
  let cut := Text.cutFirst '/' entry.1.toList
  let name := String.ofList (cut.2.getD cut.1)
  String.ofList (Text.dropTrailing '/' repositoryUrl.toList) ++ "/" ++ name ++ ":" ++
    entry.2.shown

/-- The references to all charts of the platform's repository. -/
def platformCharts (d : Discovery) (repositoryUrl : Json) : Action (List String) := do
  let repository := d.platform.repositoryName
  let found ← ChartStore.search repository
  let entries ← Action.ofExcept (ownEntries repository found)
  if entries.isEmpty then Action.fail (.discovery (.noCharts repository))
  else
    let url ← Action.ofExcept (needText repositoryUrl)
    return entries.map (chartReference url)

/-- The files of the current release, with its tag. -/
def resolveRelease (d : Discovery) : Action (String × List ReleaseAsset) := do
  let tag := d.platform.releaseTag (← d.defaultsVersion)
  Action.log .info .discovery ("Using release " ++ tag)
  return (tag, ← d.releases.listAssets tag)

/-- All images. -/
def listImages (d : Discovery) (tag : String) (assets : List ReleaseAsset) :
    Action (List RawText) := do
  let listed ← fetchListing assets tag d.platform.imagesAssetEnding
  let images := listed.map RawText.ofString
  if d.withCertificateManager then
    return images ++ (← certificateManagerImages d.platform.certificateManager)
  else return images

/-- All charts. -/
def listCharts (d : Discovery) (repositoryUrl : Json) : Action (List String) := do
  let charts ← d.platformCharts repositoryUrl
  if d.withCertificateManager then
    return charts ++ [d.platform.certificateManager.chartReference]
  else return charts

/-- The manifest of the current release. -/
def build (d : Discovery) : Action (Manifest RawText) := do
  let repository := d.platform.repositoryName
  let url ← ChartStore.repositoryUrl repository
  if !url.isSubstantial then Action.fail (.discovery (.missingRepository repository))
  else
    let (tag, assets) ← Stage.within "Resolve release" d.resolveRelease
    let images ← Stage.within "List images" (d.listImages tag assets)
    let policies ← Stage.within "List policies"
      (fetchListing assets tag d.platform.policiesAssetEnding)
    let charts ← Stage.within "List charts" (d.listCharts url)
    let manifest : Manifest RawText := { images, policies, charts }
    match ← Action.ofExcept (manifest.missingCharts d.platform) with
    | [] => return manifest
    | missing => Action.fail (.discovery (.missingCharts repository missing))

end Discovery

end OfflineSupply
