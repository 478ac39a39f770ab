import OfflineSupply.Text.Digit

/-!
# Failed commands

A command fails when it is over with an exit code other than zero, or when its time is over
before it is.  The message shows the command, and behind it what the command wrote.
-/

namespace OfflineSupply

/-- The program that a command belongs to. -/
inductive Tool where
  | docker
  | kwctl
  | helm
  | other
  deriving DecidableEq, Repr

/-- How a command failed. -/
inductive CommandEnding where
  | timedOut
  | exited (code : Int) (output errors : String)
  deriving DecidableEq, Repr

/-- A command that failed, told apart by the program that it belongs to. -/
structure CommandError where
  tool : Tool
  /-- The command as it is shown. -/
  command : String
  ending : CommandEnding
  deriving DecidableEq, Repr

/-- The lines of a message about a command. -/
def CommandError.message (e : CommandError) : String :=
  match e.ending with
  | .timedOut => "Command '" ++ e.command ++ "' timed out"
  | .exited code output errors =>
    "\n".intercalate
      (("Command '" ++ e.command ++ "' failed with return code " ++ Text.signedDecimal code) ::
        [output, errors].filter (· ≠ ""))

end OfflineSupply
