import OfflineSupply.Manifest.Basic
import OfflineSupply.Proofs.FileTree.Place
import OfflineSupply.Settings

/-!
# Categories

Images and policies are moved in the same way: each category has its entries in the manifest, its
program, and one archive in the cache directory.
-/

namespace OfflineSupply

/-- The categories whose artifacts share one archive. -/
inductive Category where
  | images
  | policies
  deriving DecidableEq, Repr

namespace Category

def name : Category → String
  | images => "images"
  | policies => "policies"

/-- The entries of a manifest in a category. -/
def entries : Category → Manifest → List String
  | images => Manifest.images
  | policies => Manifest.policies

def archiveName : Category → String
  | images => Settings.imagesArchiveName
  | policies => Settings.policiesArchiveName

/-- The program that moves the artifacts of a category. -/
def tool : Category → Tool
  | images => .docker
  | policies => .kwctl

def archive (k : Category) (s : Settings) : Path :=
  s.cacheDirectory.child k.archiveName

theorem isName_archiveName (k : Category) : Path.IsName k.archiveName := by
  cases k <;> constructor <;> decide

theorem archiveName_inj {k k' : Category} (h : k.archiveName = k'.archiveName) : k = k' := by
  revert h
  cases k <;> cases k' <;> decide

theorem place_archive {k : Category} {s : Settings} (t : FileTree) :
    t.place (k.archive s) = t.place s.cacheDirectory ++ [k.archiveName] :=
  FileTree.place_child k.isName_archiveName

end Category

end OfflineSupply
