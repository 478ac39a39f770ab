import OfflineSupply.Manifest.Basic
import OfflineSupply.Reference.Image
import OfflineSupply.Reference.Policy
import OfflineSupply.Settings
import OfflineSupply.Stage.Basic
import OfflineSupply.Stores.Images
import OfflineSupply.Stores.Policies

/-!
# Pushing

The archives are loaded and the entries of the manifest pushed to the private registry, each
under its own path and tag.  A category whose archive is not there is skipped, and a failure
in one category does not keep the next from being tried.
-/

namespace OfflineSupply.Push

/-- The private registry. -/
def needRegistry (s : Settings) : Except Failure String :=
  s.registry?.elim (.error .missingRegistry) .ok

/-- Fails unless an archive is there. -/
def needArchive (archive : Path) : Action Unit := do
  if (← Action.files).exists? archive then return
  else Action.fail (.missingArchive archive.name)

/-- Every entry with its name at the private registry; the first malformed one stops this. -/
def targets (retarget : String → Except Reference.Error String) (entries : List String) :
    Except Failure (List (String × String)) :=
  match entries.mapM fun entry => (retarget entry).map fun target => (entry, target) with
  | .ok pairs => .ok pairs
  | .error e => .error (.reference e)

/-- Pushes the images of a manifest from their archive. -/
def images (m : Manifest) (s : Settings) : Action Unit := do
  let registry ← Action.ofExcept (needRegistry s)
  needArchive s.imagesArchive
  let pairs ← Action.ofExcept (targets (Reference.retargetImage · registry) m.images)
  let _ ← (ImageStore.load s.imagesArchive).perform s.dryRun
  pairs.forM fun (image, target) => do
    let _ ← (ImageStore.tag image target).perform s.dryRun
    let _ ← (ImageStore.push target).perform s.dryRun

/-- Pushes the policies of a manifest from their archive. -/
def policies (m : Manifest) (s : Settings) : Action Unit := do
  let registry ← Action.ofExcept (needRegistry s)
  needArchive s.policiesArchive
  let pairs ← Action.ofExcept (targets (Reference.retargetPolicy · registry) m.policies)
  Action.log .info .push ("Loading archive: " ++ s.policiesArchive.name)
  let _ ← (PolicyStore.load s.policiesArchive).perform s.dryRun
  pairs.forM fun (policy, target) => do
    Action.log .info .push ("Pushing policy " ++ policy ++ " to " ++ target)
    PolicyStore.performPush policy target (if s.insecure then [registry] else []) s.dryRun

/-- A category as a stage: the failure that is to be reported in the end, if there is one. -/
def category (name : String) (entries : List String) (body : Action Unit) :
    Action (List (String × Failure)) :=
  if entries.isEmpty then pure []
  else Stage.within ("Push " ++ name) do
    match ← body.attempt with
    | .ok () => return []
    | .error (.missingArchive archive) =>
      Action.log .warning .push
        ((Failure.missingArchive archive).message ++ " Skipping " ++ name ++ ".")
      return []
    | .error e =>
      if e.isReported then
        Action.log .error .push ("Failed to push " ++ name ++ ": " ++ e.message)
        return [(name, e)]
      else Action.fail e

/-- The failure of a push whose categories failed. -/
def conclude : List (String × Failure) → Except Failure Unit
  | [] => .ok ()
  | [(_, e)] => .error e
  | (name, e) :: failures => .error (.push (name :: failures.map (·.1)) e.message)

/-- Pushes the images and the policies of a manifest. -/
def all (m : Manifest) (s : Settings) : Action Unit := do
  let _ ← Action.ofExcept (needRegistry s)
  let failedImages ← category "images" m.images (images m s)
  let failedPolicies ← category "policies" m.policies (policies m s)
  Action.ofExcept (conclude (failedImages ++ failedPolicies))

end OfflineSupply.Push
