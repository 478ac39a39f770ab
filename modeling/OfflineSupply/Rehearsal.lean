import OfflineSupply.Session.Host
import OfflineSupply.Shell.Words

/-!
# Rehearsals

A rehearsal is a host that follows a script instead of running programs: for each command
line the first rule that matches says how the process ends, and a successful process writes
the file that it was told to write.  Addresses that the script does not list are not found.
-/

namespace OfflineSupply

/-- What becomes of the processes whose arguments begin with some words. -/
structure Rule where
  start : List String := []
  code : Int := 0
  output : ByteArray := ByteArray.empty
  errors : ByteArray := ByteArray.empty
  /-- Whether the file is written even if the process fails. -/
  writesOnFailure : Bool := false
  /-- Whether no file is written at all. -/
  writesNothing : Bool := false
  /-- Whether the process never ends. -/
  hangs : Bool := false

/-- The script of a rehearsal: the rules in their order, the answers at some addresses, and the
programs that count as installed. -/
structure Rehearsal where
  rules : List Rule := []
  replies : List (String × Reply) := []
  programs : List String := ["docker", "kwctl", "helm"]
  scratchFile : Path
  stopwatch : String

namespace Rehearsal

/-- The file that a process with some arguments is told to write, with its content. -/
def product (arguments : List String) : Option (Path × String) :=
  match arguments with
  | program :: "save" :: "--output" :: target :: references =>
    if program = "docker" || program = "kwctl" then
      some (Path.ofText target, "\n".intercalate references)
    else none
  | ["helm", "pull", "--repo", _, chart, version, "--destination", directory] =>
    if "--version=".isPrefixOf version then
      some ((Path.ofText directory).child
        (chart ++ "-" ++ String.ofList (version.toList.drop "--version=".length) ++ ".tgz"), chart)
    else none
  | _ => none

/-- The rule for a list of arguments. -/
def rule (r : Rehearsal) (arguments : List String) : Rule :=
  (r.rules.find? fun rule => rule.start.isPrefixOf arguments).getD {}

/-- What a process does according to a rule. -/
def outcome (rule : Rule) (arguments : List String) (files : FileTree) : Outcome :=
  let outcome : Outcome :=
    { files, output := rule.output, errors := rule.errors, exit := some rule.code }
  if rule.hangs then { files, exit := none }
  else if rule.writesNothing || !(rule.code = 0 || rule.writesOnFailure) then outcome
  else match product arguments with
  | none => outcome
  | some (target, content) =>
    match files.write target content.toUTF8 with
    | .ok files => { outcome with files }
    | .error e =>
      if e.problem = .nulInName then { outcome with fault := some .nulInName }
      else { outcome with errors := "cannot write\n".toUTF8, exit := some 1 }

/-- The host that follows a script. -/
def host (r : Rehearsal) : Host where
  launch s c :=
    let arguments := (Shell.words? c.line).getD c.arguments
    outcome (r.rule arguments) arguments s.files
  fetch _ request :=
    ((r.replies.find? (·.1 == request.url)).map (·.2)).getD (.answered 404 "Not Found" "")
  hasProgram := r.programs.contains
  scratchFile _ := r.scratchFile
  stopwatch _ := r.stopwatch

end Rehearsal

end OfflineSupply
