import OfflineSupply.Command.Run

/-!
# The image store

Images are moved by one program: it pulls them into its local store, bundles them into an
archive and loads them from one, gives them further names, and pushes them to the registry
that their name begins with.
-/

namespace OfflineSupply.ImageStore

/-- The name of the program. -/
def program : String := "docker"

/-- A command of the program. -/
def command (arguments : List String) : Command :=
  { arguments := program :: arguments, tool := .docker }

/-- Brings an image into the local store. -/
def pull (image : String) : Command :=
  command ["pull", "-q", image]

/-- Bundles images of the local store into an archive. -/
def save (images : List String) (archive : Path) : Command :=
  command (["save", "--output", archive.text] ++ images)

/-- Brings the images of an archive into the local store. -/
def load (archive : Path) : Command :=
  command ["load", "--input", archive.text]

/-- Gives an image a further name. -/
def tag (image name : String) : Command :=
  command ["tag", image, name]

/-- Brings an image to its registry. -/
def push (image : String) : Command :=
  command ["push", "-q", image]

end OfflineSupply.ImageStore
