import OfflineSupply.Command.Error
import OfflineSupply.Number.Double
import OfflineSupply.Path
import OfflineSupply.Shell.Quote

/-!
# Commands

A command is a list of arguments with the program it belongs to and the surroundings it runs
in.  It is run as the line that a shell splits into exactly these arguments.
-/

namespace OfflineSupply

/-- A command: the program with its arguments, and what surrounds it. -/
structure Command where
  arguments : List String
  tool : Tool := .other
  /-- The directory that it runs in, if it is not the working directory. -/
  directory : Option Path := none
  /-- The seconds after which it is given up. -/
  limit : Option Double := none
  /-- The variables that are set for it. -/
  environment : List (String × String) := []

namespace Command

/-- The line that a shell runs. -/
def line (c : Command) : String :=
  Shell.line c.arguments

/-- The line with the directory of the command in front of it, as seen from a working
directory. -/
def shown (c : Command) (workingDirectory : Path) : String :=
  match c.directory with
  | none => c.line
  | some p => "(" ++ p.shownFrom workingDirectory ++ ") " ++ c.line

/-- Whether the time of the command is over before it begins. -/
def isExpired (c : Command) : Bool :=
  match c.limit with
  | some (.finite negative significand _) => negative || significand = 0
  | some (.infinite negative) => negative
  | _ => false

end Command

end OfflineSupply
