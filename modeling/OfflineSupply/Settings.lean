import OfflineSupply.Path
import OfflineSupply.Reference.Basic

/-!
# Settings

What the phases that move and install artifacts have in common: the private registry, how far
it is trusted, whether commands are only shown, and the cache directory with the places of
the two archives and of the chart files in it.
-/

namespace OfflineSupply

/-- What the phases have in common. -/
structure Settings where
  /-- The private registry, with its port. -/
  registry : Option String := none
  /-- Whether the registry is used without transport verification. -/
  insecure : Bool := false
  /-- Whether commands are printed instead of run. -/
  dryRun : Bool := false
  /-- The directory of the archives and chart files. -/
  cacheDirectory : Path := Path.here

namespace Settings

/-- The name of the file that bundles all images. -/
def imagesArchiveName : String := "kubewarden-images.tar"

/-- The name of the file that bundles all policies. -/
def policiesArchiveName : String := "kubewarden-policies.tar.gz"

/-- The private registry, if one was named and its name is not empty. -/
def registry? (s : Settings) : Option String :=
  s.registry.filter (· ≠ "")

/-- The file that bundles all images. -/
def imagesArchive (s : Settings) : Path :=
  s.cacheDirectory.child imagesArchiveName

/-- The file that bundles all policies. -/
def policiesArchive (s : Settings) : Path :=
  s.cacheDirectory.child policiesArchiveName

/-- The file of a pulled chart version. -/
def chartFile (s : Settings) (ref : Reference) : Path :=
  s.cacheDirectory.child ref.archiveName

end Settings

end OfflineSupply
