import OfflineSupply.Path
import OfflineSupply.Text.Digit
import OfflineSupply.Text.Quoted

/-!
# Problems with files

An operation on files fails for one of a few reasons, each with its number and its wording.
The message names the path, quoted, and for a renaming the other path too.  Two reasons have no
number and no such message: a name with a NUL character, which no file can have, and too many
missing directories one inside another.
-/

namespace OfflineSupply

/-- Why an operation on files fails. -/
inductive FileProblem where
  | missing
  | alreadyThere
  | notDirectory
  | isDirectory
  | invalid
  | nameTooLong
  | notEmpty
  | nulInName
  | nestedTooDeeply
  deriving DecidableEq, Repr

namespace FileProblem

/-- The number of a problem. -/
def number : FileProblem → Nat
  | missing => 2
  | alreadyThere => 17
  | notDirectory => 20
  | isDirectory => 21
  | invalid => 22
  | nameTooLong => 36
  | notEmpty => 39
  | nulInName => 0
  | nestedTooDeeply => 0

/-- The wording of a problem. -/
def wording : FileProblem → String
  | missing => "No such file or directory"
  | alreadyThere => "File exists"
  | notDirectory => "Not a directory"
  | isDirectory => "Is a directory"
  | invalid => "Invalid argument"
  | nameTooLong => "File name too long"
  | notEmpty => "Directory not empty"
  | nulInName => "embedded null byte"
  | nestedTooDeeply => "maximum recursion depth exceeded"

end FileProblem

/-- A failed operation on the file at a path. -/
structure FileError where
  problem : FileProblem
  path : Path
  /-- The new path of a renaming. -/
  target : Option Path := none
  deriving DecidableEq, Repr

/-- The wording of a failed operation. -/
def FileError.message (e : FileError) : String :=
  "[Errno " ++ Text.decimal e.problem.number ++ "] " ++ e.problem.wording ++ ": " ++
    Text.quoted e.path.text ++ e.target.elim "" (fun q => " -> " ++ Text.quoted q.text)

end OfflineSupply
