import OfflineSupply.Session.Action
import OfflineSupply.Text.Quoted

/-!
# Required programs

Before work begins, the programs that it runs have to be installed.  All missing ones are
named at once.
-/

namespace OfflineSupply

/-- The names of programs as a list of quoted texts. -/
def quotedNames (names : List String) : String :=
  "[" ++ ", ".intercalate (names.map Text.quoted) ++ "]"

/-- Fails unless all of some programs are installed. -/
def requirePrograms (names : List String) : Action Unit := do
  let host ← Action.host
  match names.filter fun name => !host.hasProgram name with
  | [] => Action.log .debug .requirements ("Found required tools: " ++ quotedNames names)
  | missing => Action.fail (.missingTools missing)

end OfflineSupply
