import OfflineSupply.Session.Action
import OfflineSupply.Text.Utf8

/-!
# Running commands

A command runs as one process.  It fails when it ends with a code other than zero or when its
time is over first; the failure belongs to its program.  In a dry run a command is printed
instead, unless it only asks and changes nothing.
-/

namespace OfflineSupply.Command

/-- What stands before a command that is printed instead of run. -/
def dryRunMark : String := "- "

/-- The text that a process wrote. -/
def outputText (octets : ByteArray) : Action String :=
  match Text.strictText? octets with
  | some text => pure text
  | none => Action.fail (.breakdown .undecodable)

/-- The process of a command, with its record in the session. -/
def spawn (c : Command) : Action Outcome :=
  fun host s =>
    let lost : Outcome := { files := s.files, exit := none }
    let outcome := if c.isExpired then lost else host.launch s c
    let ending := outcome.exit.elim .killed .exited
    (.ok outcome,
      { s.addExecution { command := c, filesBefore := s.files, ending } with
        files := outcome.files })

/-- The failure of a command. -/
def failure (c : Command) (ending : CommandEnding) : Action Failure := do
  let s ← Action.session
  return .command { tool := c.tool, command := c.shown s.workingDirectory, ending }

/-- The failure of a command that ended with a code. -/
def exitFailure (c : Command) (code : Int) (outcome : Outcome) : Action Failure := do
  let output ← outputText outcome.output
  let errors ← outputText outcome.errors
  let e ← c.failure (.exited code output errors)
  Action.log .debug .commands e.message
  return e

/-- Runs a command and gives what it wrote. -/
def run (c : Command) : Action String := do
  let s ← Action.session
  Action.log .debug .commands ("Running command: " ++ c.shown s.workingDirectory)
  let outcome ← c.spawn
  match outcome.fault, outcome.exit with
  | some cause, _ => Action.fail (.breakdown cause)
  | none, none => Action.fail (← c.failure .timedOut)
  | none, some 0 => outputText outcome.output
  | none, some code => Action.fail (← c.exitFailure code outcome)

/-- Runs a command that changes something, or prints it in a dry run. -/
def perform (c : Command) (dryRun : Bool) : Action String :=
  if dryRun then do
    Action.print (dryRunMark ++ c.line ++ "\n")
    return ""
  else c.run

end OfflineSupply.Command
