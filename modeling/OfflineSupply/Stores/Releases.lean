import OfflineSupply.Json.Reader
import OfflineSupply.Session.Action
import OfflineSupply.Text.Cut

/-!
# The release service

A service on the web lists the files that come with a release, and serves them.  Every answer
with a status of an error counts as no answer.
-/

namespace OfflineSupply

/-- A file that comes with a release; nothing is assumed of its name and address. -/
structure ReleaseAsset where
  name : Json
  url : Json

/-- The service and the repository whose releases it lists. -/
structure ReleaseService where
  repository : String := "kubewarden/helm-charts"
  address : String := "https://api.github.com"

namespace ReleaseService

/-- What a status means for whoever asked; `none` when the answer is good. -/
def statusProblem (status : Int) (reason url : String) : Option String :=
  let problem (side : String) : String :=
    Text.signedDecimal status ++ " " ++ side ++ " Error: " ++ reason ++ " for url: " ++ url
  if 400 ≤ status && status < 500 then some (problem "Client")
  else if 500 ≤ status && status < 600 then some (problem "Server")
  else none

/-- The document at an address. -/
def fetch (url : String) (headers : List (String × String)) : Action String := do
  Action.log .debug .releases ("Fetching " ++ url)
  let request : Request := { url, headers }
  let reply := (← Action.host).fetch (← Action.session) request
  Action.modify fun s => s.addRequest request
  match reply with
  | .refused cause => Action.fail (.discovery (.unreachable url cause))
  | .answered status reason body =>
    match statusProblem status reason url with
    | some problem => Action.fail (.discovery (.unreachable url problem))
    | none => return body

/-- The text of a file. -/
def fetchText (url : String) : Action String :=
  fetch url []

/-- The address of the description of a release. -/
def releaseUrl (service : ReleaseService) (tag : String) : String :=
  String.ofList (Text.dropTrailing '/' service.address.toList) ++ "/repos/" ++
    service.repository ++ "/releases/tags/" ++ tag

/-- The file that an item of a description names. -/
def asset (tag : String) (item : Json) : Except Failure ReleaseAsset :=
  let url := (item.get? "browser_download_url").getD .null
  if url.isSubstantial then
    .ok { name := (item.get? "name").getD (.ofString ""), url }
  else .error (.discovery (.invalidAsset tag item))

/-- The files that a description of a release lists. -/
def assets (tag : String) (description : Json) : Except Failure (List ReleaseAsset) :=
  match description.get? "assets" with
  | some (.array items) => items.mapM (asset tag)
  | _ => .error (.discovery (.missingAssets tag description))

/-- The files that come with a release. -/
def listAssets (service : ReleaseService) (tag : String) : Action (List ReleaseAsset) := do
  let url := service.releaseUrl tag
  let body ← fetch url [("Accept", "application/vnd.github+json")]
  match Json.parse body with
  | .error cause => Action.fail (.discovery (.malformedResponse url cause))
  | .ok description => Action.ofExcept (assets tag description)

end ReleaseService

end OfflineSupply
