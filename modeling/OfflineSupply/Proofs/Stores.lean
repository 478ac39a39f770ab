import OfflineSupply.Stores.Charts
import OfflineSupply.Stores.Images
import OfflineSupply.Stores.Policies

/-!
# What the programs are told

The words of each command that moves images, policies or charts, its program in front.  Whatever is
said elsewhere of such a process is said of these words and not of the function that puts them
together.
-/

namespace OfflineSupply

namespace ImageStore

theorem pull_eq (image : String) :
    pull image = { arguments := ["docker", "pull", "-q", image], tool := .docker } := rfl

theorem save_eq (images : List String) (archive : Path) :
    save images archive =
      { arguments := ["docker", "save", "--output", archive.text] ++ images, tool := .docker } :=
  rfl

theorem load_eq (archive : Path) :
    load archive =
      { arguments := ["docker", "load", "--input", archive.text], tool := .docker } := rfl

theorem tag_eq (image name : String) :
    tag image name = { arguments := ["docker", "tag", image, name], tool := .docker } := rfl

theorem push_eq (image : String) :
    push image = { arguments := ["docker", "push", "-q", image], tool := .docker } := rfl

end ImageStore

namespace PolicyStore

theorem pull_eq (policy : String) :
    pull policy = { arguments := ["kwctl", "pull", policy], tool := .kwctl } := rfl

theorem save_eq (policies : List String) (archive : Path) :
    save policies archive =
      { arguments := ["kwctl", "save", "--output", archive.text] ++ policies, tool := .kwctl } :=
  rfl

theorem load_eq (archive : Path) :
    load archive = { arguments := ["kwctl", "load", "--input", archive.text], tool := .kwctl } :=
  rfl

theorem push_eq (policy target : String) :
    push policy target = { arguments := ["kwctl", "push", policy, target], tool := .kwctl } := rfl

theorem pushFrom_eq (policy target : String) (sources : Path) :
    pushFrom policy target sources =
      { arguments := ["kwctl", "push", policy, target, "--sources-path", sources.text]
        tool := .kwctl } := rfl

end PolicyStore

namespace ChartStore

theorem pull_eq (repositoryUrl chart version : String) (directory : Path) :
    pull repositoryUrl chart version directory =
      { arguments := ["helm", "pull", "--repo", repositoryUrl, chart, "--version=" ++ version,
          "--destination", directory.text]
        tool := .helm } := rfl

theorem install_eq (i : Installation) :
    install i =
      { arguments := ["helm", "install", i.release, i.chartFile.text, "-n", i.clusterNamespace] ++
          (if i.createNamespace then ["--create-namespace"] else []) ++
          (if i.wait then ["--wait"] else []) ++
          i.values.flatMap fun entry ↦ ["--set", entry.1 ++ "=" ++ entry.2]
        tool := .helm } := rfl

end ChartStore

end OfflineSupply
