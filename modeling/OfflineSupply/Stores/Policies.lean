import OfflineSupply.Command.Run
import OfflineSupply.Yaml.ScalarWriter

/-!
# The policy store

Policies are moved by one program: it pulls them into its local store, bundles them into an
archive and loads them from one, and pushes them to a registry.  A registry that is used
without transport verification is listed in a sources file, which stands only while the
program runs.
-/

namespace OfflineSupply.PolicyStore

/-- The name of the program. -/
def program : String := "kwctl"

/-- A command of the program. -/
def command (arguments : List String) : Command :=
  { arguments := program :: arguments, tool := .kwctl }

/-- Brings a policy into the local store. -/
def pull (policy : String) : Command :=
  command ["pull", policy]

/-- Bundles policies of the local store into an archive. -/
def save (policies : List String) (archive : Path) : Command :=
  command (["save", "--output", archive.text] ++ policies)

/-- Brings the policies of an archive into the local store. -/
def load (archive : Path) : Command :=
  command ["load", "--input", archive.text]

/-- Brings a policy to another place. -/
def push (policy target : String) : Command :=
  command ["push", policy, target]

/-- Brings a policy to another place, with the sources of a file used without
verification. -/
def pushFrom (policy target : String) (sources : Path) : Command :=
  command ["push", policy, target, "--sources-path", sources.text]

/-- The text of a sources file. -/
def sourcesText (registries : List String) : String :=
  "insecure_sources:\n" ++
    String.join (registries.map fun registry =>
      "-" ++ String.ofList (Yaml.writeScalar 1 registry) ++ "\n")

/-- What a dry run names as the sources file. -/
def dryRunSources : Path := Path.ofText "sources.yaml"

/-- An action with a sources file, which is removed again however the action ends.  A dry run
only names one. -/
def withSources (registries : List String) (dryRun : Bool) (body : Path → Action Unit) :
    Action Unit :=
  if dryRun then body dryRunSources
  else do
    let file := (← Action.host).scratchFile (← Action.session)
    Action.writeText file (sourcesText registries)
    (body file).andFinally (Action.changeFiles (·.remove file))

/-- Pushes a policy, with some registries used without verification. -/
def performPush (policy target : String) (insecure : List String) (dryRun : Bool) :
    Action Unit :=
  if insecure.isEmpty then do
    let _ ← (push policy target).perform dryRun
  else withSources insecure dryRun fun sources => do
    let _ ← (pushFrom policy target sources).perform dryRun

end OfflineSupply.PolicyStore
