import OfflineSupply.FileTree.Error

/-!
# File trees

A file tree knows what is at each location and which directory is the working one.  A
location is the list of names from the root; the names of a path are walked one by one, a
double dot goes up, and whatever is not a directory on the way stops the walk.  Every
operation that changes a tree gives the changed tree or the problem.
-/

namespace OfflineSupply

/-- What can be at a location.  What is written to an output device is shown at once and what
is written to the null device is lost. -/
inductive FileEntry where
  | file (content : ByteArray)
  | directory
  | outputDevice
  | nullDevice

abbrev Location := List String

/-- The entries by their locations, and the working directory. -/
structure FileTree where
  entries : List (Location × FileEntry)
  directory : Location

namespace FileTree

/-- The tree with nothing but the working directory and those above it. -/
def empty (directory : Location) : FileTree :=
  { entries := (List.range directory.length).map fun n => (directory.take (n + 1), .directory)
    directory }

/-- What is at a location; the root is a directory. -/
def find? (t : FileTree) (at_ : Location) : Option FileEntry :=
  if at_.isEmpty then some .directory else (t.entries.find? (·.1 == at_)).map (·.2)

/-- The tree with an entry put at a location. -/
def put (t : FileTree) (at_ : Location) (entry : FileEntry) : FileTree :=
  if t.entries.any (·.1 == at_) then
    { t with entries := t.entries.map fun e => if e.1 == at_ then (at_, entry) else e }
  else { t with entries := t.entries ++ [(at_, entry)] }

/-- The tree without the entry at a location. -/
def drop (t : FileTree) (at_ : Location) : FileTree :=
  { t with entries := t.entries.filter fun e => !(e.1 == at_) }

/-- The greatest size of a name, in octets. -/
def nameLimit : Nat := 255

/-- The greatest size of a whole path, in octets. -/
def pathLimit : Nat := 4095

/-- The location that names lead to from another one.  Every location passed is a directory;
the last one need not exist. -/
def walk (t : FileTree) : Location → List String → Except FileProblem Location
  | at_, [] => .ok at_
  | at_, name :: names =>
    match t.find? at_ with
    | none => .error .missing
    | some .directory =>
      if name = ".." then walk t at_.dropLast names
      else if nameLimit < name.utf8ByteSize then .error .nameTooLong
      else walk t (at_ ++ [name]) names
    | some _ => .error .notDirectory

/-- The location of a path.  A path that is too long is not walked at all. -/
def locate (t : FileTree) (p : Path) : Except FileProblem Location :=
  if p.names.any (·.toList.contains '\x00') then .error .nulInName
  else if pathLimit < p.text.utf8ByteSize then .error .nameTooLong
  else t.walk (if p.anchor = .here then t.directory else []) p.names

/-- What is at a path. -/
def lookup (t : FileTree) (p : Path) : Except FileProblem FileEntry :=
  match t.locate p with
  | .error problem => .error problem
  | .ok at_ =>
    match t.find? at_ with
    | some entry => .ok entry
    | none => .error .missing

/-- Whether something is at a path. -/
def exists? (t : FileTree) (p : Path) : Bool :=
  match t.lookup p with
  | .ok _ => true
  | .error _ => false

/-- Whether a directory is at a path. -/
def isDirectory (t : FileTree) (p : Path) : Bool :=
  match t.lookup p with
  | .ok .directory => true
  | _ => false

/-- The content of the file at a path; a device has none. -/
def read (t : FileTree) (p : Path) : Except FileError ByteArray :=
  match t.lookup p with
  | .ok (.file content) => .ok content
  | .ok .directory => .error { problem := .isDirectory, path := p }
  | .ok _ => .ok ByteArray.empty
  | .error problem => .error { problem, path := p }

/-- The tree with a file of the given content at a path, whatever file was there before. -/
def write (t : FileTree) (p : Path) (content : ByteArray) : Except FileError FileTree :=
  match t.locate p with
  | .error problem => .error { problem, path := p }
  | .ok at_ =>
    match t.find? at_ with
    | some .directory => .error { problem := .isDirectory, path := p }
    | some .outputDevice => .ok t
    | some .nullDevice => .ok t
    | _ => .ok (t.put at_ (.file content))

/-- The tree with a new directory at a path. -/
def makeDirectory (t : FileTree) (p : Path) : Except FileError FileTree :=
  match t.locate p with
  | .error problem => .error { problem, path := p }
  | .ok at_ =>
    match t.find? at_ with
    | some _ => .error { problem := .alreadyThere, path := p }
    | none => .ok (t.put at_ .directory)

/-- How many missing directories are made one inside another. -/
def missingLimit : Nat := 992

/-- The tree with the directories on the way to a path, the names given from the last one
back, and the problem that stopped their making.  A directory that is there is no problem; of
missing ones there may be so many. -/
def makeNames (t : FileTree) (anchor : Anchor) :
    Nat → List String → FileTree × Option FileError
  | _, [] => (t, none)
  | 0, names => (t, some { problem := .nestedTooDeeply, path := { anchor, names } })
  | most + 1, name :: before =>
    let parent : Path := { anchor, names := before.reverse }
    let (t, stopped) :=
      if before.isEmpty || t.exists? parent then (t, none) else makeNames t anchor most before
    match stopped with
    | some e => (t, some e)
    | none =>
      let p : Path := { anchor, names := (name :: before).reverse }
      match t.makeDirectory p with
      | .ok t => (t, none)
      | .error e => if t.isDirectory p then (t, none) else (t, some e)

/-- The tree with the directory at a path and the missing ones above it. -/
def makeDirectories (t : FileTree) (p : Path) : FileTree × Option FileError :=
  t.makeNames p.anchor missingLimit p.names.reverse

/-- The tree without the file at a path. -/
def remove (t : FileTree) (p : Path) : Except FileError FileTree :=
  match t.locate p with
  | .error problem => .error { problem, path := p }
  | .ok at_ =>
    match t.find? at_ with
    | none => .error { problem := .missing, path := p }
    | some .directory => .error { problem := .isDirectory, path := p }
    | some _ => .ok (t.drop at_)

/-- The entries below a location, by the names that lead to them from there. -/
def entriesBelow (t : FileTree) (at_ : Location) : List (Location × FileEntry) :=
  t.entries.filterMap fun e =>
    if at_.isPrefixOf e.1 && !(e.1 == at_) then some (e.1.drop at_.length, e.2) else none

/-- The tree with all that is at one location moved to another. -/
def move (t : FileTree) (source target : Location) : FileTree :=
  let kept := t.entries.filter fun e => !target.isPrefixOf e.1
  { t with
    entries := kept.map fun e =>
      if source.isPrefixOf e.1 then (target ++ e.1.drop source.length, e.2) else e }

/-- The tree with the file or directory at one path renamed to another path.  A file takes the
place of a file, a directory that of an empty directory. -/
def rename (t : FileTree) (source target : Path) : Except FileError FileTree :=
  let refuse (problem : FileProblem) : Except FileError FileTree :=
    .error { problem, path := source, target := some target }
  match t.locate source, t.locate target with
  | .error problem, _ => refuse problem
  | .ok from_, .error problem =>
    match t.find? from_ with
    | none => refuse .missing
    | some _ => refuse problem
  | .ok from_, .ok to_ =>
    match t.find? from_, t.find? to_ with
    | none, _ => refuse .missing
    | some .directory, found =>
      if from_ == to_ then .ok t
      else if from_.isPrefixOf to_ then refuse .invalid
      else match found with
        | none => .ok (t.move from_ to_)
        | some .directory =>
          if (t.entriesBelow to_).isEmpty then .ok (t.move from_ to_) else refuse .notEmpty
        | some _ => refuse .notDirectory
    | some _, some .directory => refuse .isDirectory
    | some _, _ => if from_ == to_ then .ok t else .ok (t.move from_ to_)

/-- The tree without what is at a path and below it; nothing there is no problem. -/
def removeAll (t : FileTree) (p : Path) : FileTree :=
  match t.locate p with
  | .error _ => t
  | .ok at_ => { t with entries := t.entries.filter fun e => !at_.isPrefixOf e.1 }

/-- The files below the working directory with their contents, and the empty directories. -/
def listing (t : FileTree) : List (String × Option ByteArray) :=
  let below := t.entriesBelow t.directory
  below.filterMap fun e =>
    match e.2 with
    | .file content => some ("/".intercalate e.1, some content)
    | .directory =>
      if below.any fun f => e.1.isPrefixOf f.1 && !(f.1 == e.1) then none
      else some ("/".intercalate e.1 ++ "/", none)
    | _ => none

end FileTree

end OfflineSupply
