import OfflineSupply.CommandLine.Run

/-!
# The program

A command line is run against a picture of the files that it may ask for.  The program starts
no other programs and opens no connections by itself, so that a dry run shows its commands and
everything else ends with the list of the tools that are missing.  As no file is changed then,
what remains to be done is to print the report and to leave with its exit code.
-/

namespace OfflineSupply.Program

/-- A host without programs and without a connection. -/
def bareHost : Host where
  launch s _ := { files := s.files, exit := some 127 }
  fetch _ _ := .refused "not connected"
  hasProgram _ := false
  scratchFile _ := Path.ofText "/tmp/sources.yaml"
  stopwatch _ := "0.00"

/-- The manifest file and the settings of a task that has them. -/
def givenFiles : CommandLine.Task → Option (Path × Settings)
  | .list .. => none
  | .pull manifest s | .push manifest s | .install manifest s => some (manifest, s)

/-- The files that are asked for while a manifest is worked through: the two archives and the
chart files. -/
def cacheFiles (s : Settings) (m : Manifest) : List Path :=
  [s.imagesArchive, s.policiesArchive] ++
    (m.chartReferences.toOption.getD []).map s.chartFile

/-- The tree with a file at a path, and the directories above it. -/
def addFile (t : FileTree) (p : Path) (content : ByteArray) : FileTree :=
  let t := (t.makeDirectories { p with names := p.names.dropLast }).1
  (t.write p content).toOption.getD t

/-- The tree with the file that is at a path, and with a directory for what is there but
cannot be read. -/
def pictured (t : FileTree) (p : Path) : IO FileTree := do
  match ← (IO.FS.Handle.mk p.text .read).toBaseIO with
  | .error _ => return t
  | .ok _ =>
    match ← (IO.FS.readBinFile p.text).toBaseIO with
    | .error _ => return (t.makeDirectories p).1
    | .ok content => return addFile t p content

/-- The tree with an empty file at a path where there is one. -/
def noted (t : FileTree) (p : Path) : IO FileTree := do
  match ← (IO.FS.Handle.mk p.text .read).toBaseIO with
  | .error _ => return t
  | .ok _ => return addFile t p ByteArray.empty

/-- The files that a command line may ask for, seen from a directory. -/
def picture (arguments : List String) (directory : Path) : IO FileTree := do
  let empty := FileTree.empty directory.names
  match ((CommandLine.parse arguments).toOption.map (·.task)).bind givenFiles with
  | none => return empty
  | some (file, s) =>
    let t ← pictured empty file
    match ((Manifest.load file).run bareHost { files := t }).1 with
    | .error _ => return t
    | .ok m => (cacheFiles s m).foldlM noted t

end OfflineSupply.Program

/-- Runs the command line and leaves with the exit code of its report. -/
def main (arguments : List String) : IO UInt32 := do
  let directory := OfflineSupply.Path.ofText (← IO.currentDir).toString
  let files ← OfflineSupply.Program.picture arguments directory
  let (report, _) :=
    OfflineSupply.CommandLine.run arguments OfflineSupply.Program.bareHost { files }
  IO.print report.output
  IO.eprint report.errors
  match report.exit with
  | .ok code => return code.toUInt32
  | .error e =>
    IO.eprintln e.message
    return 1
