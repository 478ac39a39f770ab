import OfflineSupply.Manifest.Basic
import OfflineSupply.Reference.Policy
import OfflineSupply.Settings
import OfflineSupply.Stage.Basic
import OfflineSupply.Stores.Charts
import OfflineSupply.Stores.Images
import OfflineSupply.Stores.Policies

/-!
# Pulling

The artifacts of a manifest are pulled into the cache directory: all images into one archive,
all policies into another, and each chart version into a file of its own.  What is there is
skipped.  An archive is written under another name first and renamed when it is complete; if
it is not completed, what was written is removed.
-/

namespace OfflineSupply.Pull

/-- What is added to the name of an archive until it is complete. -/
def partialEnding : String := ".partial"

/-- Whether a file is there and need not be pulled. -/
def isThere (file : Path) : Action Bool := do
  if (← Action.files).exists? file then
    Action.log .info .pull ("File " ++ file.name ++ " exists, skipping.")
    return true
  else return false

/-- Removes a file if it is there. -/
def removeIfThere (file : Path) : Action Unit := do
  if (← Action.files).exists? file then Action.changeFiles (·.remove file)

/-- Saves an archive by a command that is given the file to write. -/
def saveArchive (save : Path → Command) (archive : Path) (dryRun : Bool) : Action Unit := do
  if dryRun then
    let _ ← (save archive).perform true
  else
    Action.log .info .pull ("Create " ++ archive.name ++ " from pulled artifacts")
    let unfinished := archive.addToName partialEnding
    let commit : Action Unit := do
      let _ ← (save unfinished).run
      Action.changeFiles (·.rename unfinished archive)
    commit.andFinally (removeIfThere unfinished)

/-- Pulls all images into their archive. -/
def images (m : Manifest) (s : Settings) : Action Unit := do
  if ← isThere s.imagesArchive then return
  m.images.forM fun image => do
    let _ ← (ImageStore.pull image).perform s.dryRun
  saveArchive (ImageStore.save m.images) s.imagesArchive s.dryRun

/-- Pulls all policies into their archive. -/
def policies (m : Manifest) (s : Settings) : Action Unit := do
  if ← isThere s.policiesArchive then return
  m.policies.forM fun policy => do
    Action.log .info .pull ("Pulling policy " ++ policy)
    let _ ← (PolicyStore.pull policy).perform s.dryRun
  saveArchive (PolicyStore.save m.policies) s.policiesArchive s.dryRun

/-- Pulls a chart version into its file. -/
def chart (s : Settings) (ref : Reference) : Action Unit := do
  if ← isThere (s.chartFile ref) then return
  Action.log .info .pull ("Pulling chart " ++ ref.text)
  let command := ChartStore.pull (ref.authority.getD "") ref.name (ref.version.getD "")
    s.cacheDirectory
  let _ ← command.perform s.dryRun

/-- Pulls each chart version into a file of its own. -/
def charts (m : Manifest) (s : Settings) : Action Unit := do
  let refs ← Action.ofExcept m.chartReferences
  refs.forM (chart s)

/-- Fails if some chart or policy of a manifest is malformed. -/
def validate (m : Manifest) : Except Failure Unit := do
  let _ ← m.chartReferences
  match m.policies.mapM Reference.ofPolicy with
  | .ok _ => return
  | .error e => .error (.reference e)

/-- A stage for a category that has entries. -/
def category (name : String) (entries : List String) (body : Action Unit) : Action Unit :=
  if entries.isEmpty then pure () else Stage.within ("Pull " ++ name) body

/-- Pulls all artifacts of a manifest, once all its references are known to be well formed. -/
def all (m : Manifest) (s : Settings) : Action Unit := do
  Action.ofExcept (validate m)
  if s.dryRun then pure () else Action.makeDirectories s.cacheDirectory
  category "images" m.images (images m s)
  category "policies" m.policies (policies m s)
  category "charts" m.charts (charts m s)

end OfflineSupply.Pull
