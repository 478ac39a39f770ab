import OfflineSupply.Datum.Literal
import OfflineSupply.Json.Error

/-!
# What can go wrong in a discovery

A discovery asks the chart repository client, the release service and a rendered chart.  Each
answer may be missing, malformed or of another shape than expected.
-/

namespace OfflineSupply

/-- What was missing or malformed in a discovery. -/
inductive DiscoveryError where
  | missingRepository (repository : String)
  | chartNotIndexed (chart : String)
  | missingAsset (tag ending : String)
  | emptyAsset (url : String)
  | noCharts (repository : String)
  | missingCharts (repository : String) (charts : List String)
  | noImages (chart : String)
  | imageNotText (value : Datum)
  | unparsableChart
  | malformedOutput (command : String) (cause : Json.Error)
  | unexpectedOutput (command output : String)
  | unexpectedEntry (command : String) (entry : Json)
  | unreachable (url cause : String)
  | malformedResponse (url : String) (cause : Json.Error)
  | missingAssets (tag : String) (response : Json)
  | invalidAsset (tag : String) (asset : Json)

/-- The wording of what went wrong, without what a reader of YAML says about a text that is none. -/
def DiscoveryError.message : DiscoveryError → String
  | missingRepository repository => "Missing " ++ repository ++ " repo"
  | chartNotIndexed chart =>
    "Chart " ++ chart ++ " not found in the local helm repository index"
  | missingAsset tag ending => "Release " ++ tag ++ " has no asset ending with '" ++ ending ++ "'"
  | emptyAsset url => "Release asset " ++ url ++ " is empty"
  | noCharts repository => "No charts found in helm repository " ++ repository
  | missingCharts repository charts =>
    "Helm repository " ++ repository ++ " is missing charts: " ++ ", ".intercalate charts
  | noImages chart => "No images found in chart " ++ chart
  | imageNotText value =>
    "Expected string for image key 'image', got type " ++ value.kind ++ ": " ++ value.shown
  | unparsableChart => "Unable to parse rendered chart"
  | malformedOutput command cause =>
    "Unable to parse output of '" ++ command ++ "': " ++ cause.message
  | unexpectedOutput command output => "Unexpected output of '" ++ command ++ "': " ++ output
  | unexpectedEntry command entry =>
    "Unexpected chart entry from '" ++ command ++ "': " ++ entry.shown
  | unreachable url cause => "Unable to fetch " ++ url ++ ": " ++ cause
  | malformedResponse url cause =>
    "Invalid JSON response from " ++ url ++ ": " ++ cause.message
  | missingAssets tag response =>
    "Release " ++ tag ++ " response is missing assets: " ++ response.shown
  | invalidAsset tag asset => "Release " ++ tag ++ " has an invalid asset: " ++ asset.shown

end OfflineSupply
