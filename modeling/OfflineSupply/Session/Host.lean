import OfflineSupply.Failure
import OfflineSupply.Session.Basic

/-!
# Hosts

A host is what surrounds the program: it runs processes, answers requests, and knows which
programs are installed, where a scratch file may stand and what a stopwatch shows.  Nothing
is assumed of it; what it does may depend on all that happened in the session so far.
-/

namespace OfflineSupply

/-- What a process did: the files as it left them, what it wrote, and its exit code unless it
never ended. -/
structure Outcome where
  files : FileTree
  output : ByteArray := ByteArray.empty
  errors : ByteArray := ByteArray.empty
  exit : Option Int := some 0
  /-- Why the host could not carry the process through. -/
  fault : Option Breakdown := none

/-- The answer to a request, or why there is none. -/
inductive Reply where
  | answered (status : Int) (reason body : String)
  | refused (cause : String)

/-- What surrounds the program. -/
structure Host where
  launch : Session → Command → Outcome
  fetch : Session → Request → Reply
  hasProgram : String → Bool
  scratchFile : Session → Path
  stopwatch : Session → String

end OfflineSupply
