import OfflineSupply.CommandLine.Invocation
import OfflineSupply.Discovery.Basic
import OfflineSupply.Install.Run
import OfflineSupply.Manifest.File
import OfflineSupply.Pull
import OfflineSupply.Push
import OfflineSupply.Requirements

/-!
# Running a command line

A task is done on a host, and what is to be seen of it is a report: the exit code, what is
printed, and the lines for the terminal, which are the log from the chosen level on and the
message of a failure.  A task that breaks off has no exit code of its own.
-/

namespace OfflineSupply.CommandLine

/-- The programs that the phases run. -/
def programs : List String :=
  [ImageStore.program, PolicyStore.program, ChartStore.program]

/-- A phase that works through a manifest in a file.  A dry run needs no programs. -/
def withManifest (file : Path) (s : Settings) (phase : Manifest → Settings → Action Unit) :
    Action Unit := do
  let m ← Manifest.load file
  if s.dryRun then pure () else requirePrograms programs
  phase m s

/-- Discovers a manifest and writes it to a file. -/
def list (withCertificateManager : Bool) (output : Path) : Action Unit := do
  requirePrograms [ChartStore.program]
  let m ← Discovery.build { withCertificateManager }
  m.store output

/-- A task as an action. -/
def Task.perform : Task → Action Unit
  | .list withCertificateManager output => CommandLine.list withCertificateManager output
  | .pull file s => withManifest file s Pull.all
  | .push file s => withManifest file s Push.all
  | .install file s => withManifest file s fun m s => Installation.performAll m s {}

/-- What is to be seen of a run. -/
structure Report where
  /-- The exit code, unless the work broke off. -/
  exit : Except Failure Nat
  output : String
  errors : String

/-- The lines of the log from a level on. -/
def logText (level : Severity) (log : List LogEntry) : String :=
  String.join ((log.filter fun e => level.rank ≤ e.severity.rank).map (·.line ++ "\n"))

/-- What stands before the message of a failure. -/
def failureMark : String := programName ++ " error:  "

/-- The report on a task that has come to an end.  A log that shows the level of debugging also
shows the calls that led to a failure, before its message; these are left out, so the errors are
whole at the other levels only. -/
def report (level : Severity) (result : Except Failure Unit) (s : Session) : Report :=
  let log := logText level s.log
  match result with
  | .ok () => { exit := .ok 0, output := s.printed, errors := log }
  | .error e =>
    if e.isReported then
      { exit := .ok 1, output := s.printed, errors := log ++ failureMark ++ e.message ++ "\n" }
    else { exit := .error e, output := s.printed, errors := log }

/-- Runs a command line on a host in a session. -/
def run (arguments : List String) (host : Host) (s : Session) : Report × Session :=
  match parse arguments with
  | .error .help => ({ exit := .ok 0, output := "", errors := "" }, s)
  | .error (.usage line) => ({ exit := .ok 2, output := "", errors := line ++ "\n" }, s)
  | .ok invocation =>
    let (result, s) := invocation.task.perform.run host s
    (report invocation.logLevel result s, s)

end OfflineSupply.CommandLine
