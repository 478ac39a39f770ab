import OfflineSupply.Proofs.Category
import OfflineSupply.Proofs.Command.Launch
import OfflineSupply.Proofs.FileTree.Directories
import OfflineSupply.Proofs.Stores
import OfflineSupply.Pull

/-!
# Calls that pull

Images and policies are pulled in the same way: entry by entry, and then into one archive.  A call
pulls a manifest on a host; what is asked of the host is that a process writes to the cache
directory only the file that it was told to write, whole or in part and with any exit code.  A
history is a list of calls, each beginning with the files that the one before it left.
-/

namespace OfflineSupply

namespace Category

open Pull

/-- The name of the archive until it is complete. -/
def unfinishedName (k : Category) : String :=
  k.archiveName ++ partialEnding

/-- The command that brings an entry into the local store of its program. -/
def pull (k : Category) (entry : String) : Command where
  arguments :=
    match k with
    | images => ["docker", "pull", "-q", entry]
    | policies => ["kwctl", "pull", entry]
  tool := k.tool

/-- The command that bundles entries into a file, in their order and with their repetitions. -/
def save (k : Category) (entries : List String) (file : Path) : Command where
  arguments :=
    match k with
    | images => ["docker", "save", "--output", file.text] ++ entries
    | policies => ["kwctl", "save", "--output", file.text] ++ entries
  tool := k.tool

/-- What the log says before an entry is pulled. -/
def announce : Category → String → Action Unit
  | images, _ => pure ()
  | policies, policy => Action.log .info .pull ("Pulling policy " ++ policy)

def unfinished (k : Category) (s : Settings) : Path :=
  s.cacheDirectory.child k.unfinishedName

def pullEntry (k : Category) (s : Settings) (entry : String) : Action Unit := do
  k.announce entry
  let _ ← (k.pull entry).perform s.dryRun

/-- All entries are pulled and then saved into their archive. -/
def bundle (k : Category) (m : Manifest) (s : Settings) : Action Unit := do
  if ← isThere (k.archive s) then return
  (k.entries m).forM (k.pullEntry s)
  saveArchive (k.save (k.entries m)) (k.archive s) s.dryRun

theorem images_eq_bundle (m : Manifest) (s : Settings) : Pull.images m s = images.bundle m s := by
  have hsave (file : Path) : ImageStore.save m.images file = images.save m.images file :=
    ImageStore.save_eq m.images file
  unfold Pull.images
  simp only [ImageStore.pull_eq]
  rw [funext hsave]
  rfl

theorem policies_eq_bundle (m : Manifest) (s : Settings) :
    Pull.policies m s = policies.bundle m s := by
  have hsave (file : Path) : PolicyStore.save m.policies file = policies.save m.policies file :=
    PolicyStore.save_eq m.policies file
  unfold Pull.policies
  simp only [PolicyStore.pull_eq]
  rw [funext hsave]
  rfl

variable {k : Category} {s : Settings}

theorem isName_unfinishedName (k : Category) : Path.IsName k.unfinishedName := by
  cases k <;> constructor <;> decide

theorem addToName_archive : (k.archive s).addToName partialEnding = k.unfinished s := by
  rw [archive, Path.addToName_child k.isName_archiveName, unfinished,
    Path.child_of_isName k.isName_unfinishedName]
  rfl

theorem place_unfinished (t : FileTree) :
    t.place (k.unfinished s) = t.place s.cacheDirectory ++ [k.unfinishedName] :=
  FileTree.place_child k.isName_unfinishedName

theorem archiveName_ne_unfinishedName (k k' : Category) :
    k.archiveName ≠ k'.unfinishedName := by
  cases k <;> cases k' <;> decide

theorem unfinishedName_inj {k k' : Category} (h : k.unfinishedName = k'.unfinishedName) :
    k = k' := by
  revert h
  cases k <;> cases k' <;> decide

end Category

namespace Pull

/-- The command that pulls a chart version into its file in a directory. -/
def chartPull (directory : Path) (ref : Reference) : Command where
  arguments :=
    ["helm", "pull", "--repo", ref.authority.getD "", ref.name,
      "--version=" ++ ref.version.getD "", "--destination", directory.text]
  tool := .helm

/-- A chart version whose file is not there is pulled by its command. -/
theorem chart_eq (s : Settings) (ref : Reference) :
    chart s ref = (do
      if ← isThere (s.chartFile ref) then return
      Action.log .info .pull ("Pulling chart " ++ ref.text)
      let _ ← (chartPull s.cacheDirectory ref).perform s.dryRun) := by
  unfold chart chartPull
  rw [ChartStore.pull_eq]

/-! ## Calls -/

/-- A manifest to be pulled, the host and the settings that it is pulled with. -/
structure Call where
  host : Host
  manifest : Manifest
  settings : Settings

namespace Call

/-- What a call comes to when it begins with some files. -/
def run (c : Call) (t : FileTree) : Except Failure Unit × Session :=
  (all c.manifest c.settings).run c.host { files := t }

def filesAfter (c : Call) (t : FileTree) : FileTree :=
  (c.run t).2.files

/-- The manifest of a call lists a chart. -/
def Lists (c : Call) (ref : Reference) : Prop :=
  ∃ value ∈ c.manifest.charts, Reference.ofChart value = .ok ref

/-- A live call for a cache directory whose processes write there what they were told to write and
nothing else. -/
structure Confined (directory : Path) (c : Call) : Prop where
  live : c.settings.dryRun = false
  cacheDirectory : c.settings.cacheDirectory = directory
  pull : ∀ (k : Category) (session : Session), ∀ entry ∈ k.entries c.manifest,
    FileTree.Spares directory session.files (c.host.launch session (k.pull entry)).files
  save : ∀ (k : Category) (session : Session),
    FileTree.WrittenAt (k.unfinished c.settings) session.files
      (c.host.launch session (k.save (k.entries c.manifest) (k.unfinished c.settings))).files
  chart : ∀ (ref : Reference) (session : Session), c.Lists ref →
    FileTree.WrittenAt (c.settings.chartFile ref) session.files
      (c.host.launch session (chartPull c.settings.cacheDirectory ref)).files

/-- A live call whose processes for charts write the chart files and nothing else. -/
structure ConfinedCharts (c : Call) : Prop where
  live : c.settings.dryRun = false
  chart : ∀ (ref : Reference) (session : Session), c.Lists ref →
    FileTree.WrittenAt (c.settings.chartFile ref) session.files
      (c.host.launch session (chartPull c.settings.cacheDirectory ref)).files

theorem Confined.charts {directory : Path} {c : Call} (h : c.Confined directory) :
    c.ConfinedCharts :=
  ⟨h.live, h.chart⟩

/-- What can be relied on of a process that pulls a chart and exits with zero: the file is there. -/
def WritesCharts (c : Call) : Prop :=
  ∀ (ref : Reference) (session : Session), c.Lists ref →
    (c.host.launch session (chartPull c.settings.cacheDirectory ref)).exit = some 0 →
    ∃ at_ content, session.files.locate (c.settings.chartFile ref) = .ok at_ ∧
      (c.host.launch session (chartPull c.settings.cacheDirectory ref)).files.find? at_ =
        some (.file content)

/-- What can be relied on of a process that saves an archive and exits with zero: the file is
there. -/
def WritesArchives (c : Call) : Prop :=
  ∀ (k : Category) (session : Session),
    (c.host.launch session (k.save (k.entries c.manifest) (k.unfinished c.settings))).exit = some 0 →
    ∃ at_ content, session.files.locate (k.unfinished c.settings) = .ok at_ ∧
      (c.host.launch session
        (k.save (k.entries c.manifest) (k.unfinished c.settings))).files.find? at_ =
          some (.file content)

end Call

/-- The files that calls leave, each beginning with those that the one before it left. -/
def filesAfter (calls : List Call) (t : FileTree) : FileTree :=
  calls.foldl (fun t c ↦ c.filesAfter t) t

end Pull

end OfflineSupply
