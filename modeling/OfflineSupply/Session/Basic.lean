import OfflineSupply.Command.Basic
import OfflineSupply.FileTree.Basic
import OfflineSupply.Log

/-!
# Sessions

A session holds all that work leaves behind: the files as they are now, the processes that
ran, the requests that were made, the text that was printed, the log, and the stages that
have begun and not ended.  Each list is in the order of time.
-/

namespace OfflineSupply

/-- How a process ended. -/
inductive ExecutionEnding where
  | exited (code : Int)
  | killed
  deriving DecidableEq, Repr

/-- A process that ran. -/
structure Execution where
  command : Command
  /-- The files as they were when it began. -/
  filesBefore : FileTree
  ending : ExecutionEnding

/-- A request for the document at an address. -/
structure Request where
  url : String
  headers : List (String × String) := []
  /-- The seconds after which it is given up. -/
  limit : Nat := 60
  deriving DecidableEq, Repr

/-- All that work leaves behind. -/
structure Session where
  files : FileTree
  executions : List Execution := []
  requests : List Request := []
  printed : String := ""
  log : List LogEntry := []
  stages : List String := []

namespace Session

/-- The same files, and nothing done yet. -/
def fresh (s : Session) : Session :=
  { files := s.files }

/-- The working directory as a path. -/
def workingDirectory (s : Session) : Path :=
  { anchor := .root, names := s.files.directory }

/-- The session with one more entry of the log. -/
def addLog (s : Session) (entry : LogEntry) : Session :=
  { s with log := s.log ++ [entry] }

/-- The session with one more process. -/
def addExecution (s : Session) (execution : Execution) : Session :=
  { s with executions := s.executions ++ [execution] }

/-- The session with one more request. -/
def addRequest (s : Session) (request : Request) : Session :=
  { s with requests := s.requests ++ [request] }

/-- The session with more text printed. -/
def addPrinted (s : Session) (text : String) : Session :=
  { s with printed := s.printed ++ text }

end Session

end OfflineSupply
