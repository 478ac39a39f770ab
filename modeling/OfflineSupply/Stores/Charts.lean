import OfflineSupply.Command.Run
import OfflineSupply.Install.Plan
import OfflineSupply.Json.Reader
import OfflineSupply.Text.Blank

/-!
# The chart store

Charts are found, rendered, pulled and installed by one program, which knows repositories from
its local configuration.  What it answers to a question is a JSON list of objects; nothing
is assumed of their members, and names and versions are kept as the documents they are.
-/

namespace OfflineSupply.ChartStore

/-- The name of the program. -/
def program : String := "helm"

/-- A command of the program. -/
def command (arguments : List String) : Command :=
  { arguments := program :: arguments, tool := .helm }

/-- Asks for the configured repositories. -/
def listRepositories : Command :=
  command ["repo", "list", "-o", "json"]

/-- Asks for the charts that match a text. -/
def searchFor (wanted : String) : Command :=
  command ["search", "repo", wanted, "-o", "json"]

/-- Renders a chart with its default values. -/
def render (repositoryUrl chart : String) (version : Option String) : Command :=
  let pinned := (version.filter (· ≠ "")).elim [] fun v => ["--version", v]
  command (["template", "--repo", repositoryUrl, chart] ++ pinned)

/-- Brings a chart version into a directory. -/
def pull (repositoryUrl chart version : String) (directory : Path) : Command :=
  command ["pull", "--repo", repositoryUrl, chart, "--version=" ++ version, "--destination",
    directory.text]

/-- Installs a chart file as a release. -/
def install (i : Installation) : Command :=
  command
    (["install", i.release, i.chartFile.text, "-n", i.clusterNamespace] ++
      (if i.createNamespace then ["--create-namespace"] else []) ++
      (if i.wait then ["--wait"] else []) ++
      i.values.flatMap fun entry => ["--set", entry.1 ++ "=" ++ entry.2])

/-- The objects of a JSON list, or that it is none. -/
def objects? : List Json → Option (List Json)
  | [] => some []
  | .object members :: items => (objects? items).map (.object members :: ·)
  | _ :: _ => none

/-- The objects that a question to the program was answered with; white space answers with
none. -/
def answers (question : Command) (output : String) : Except Failure (List Json) :=
  let unexpected := .error (.discovery (.unexpectedOutput question.line output))
  if Text.allBlank output.toList then .ok []
  else match Json.parse output with
  | .error (.integerTooLong _) => .error (.breakdown .numberTooLong)
  | .error cause => .error (.discovery (.malformedOutput question.line cause))
  | .ok (.array items) => (objects? items).elim unexpected .ok
  | .ok _ => unexpected

/-- Whether a failure is one of the program itself. -/
def isOwnFailure : Failure → Bool
  | .command e => e.tool = .helm
  | _ => false

/-- The address of the first configured repository of a name: null when there is none, also
when the program fails because none at all is configured. -/
def repositoryUrl (name : String) : Action Json := do
  match ← listRepositories.run.attempt with
  | .error e =>
    if isOwnFailure e then
      Action.log .debug .charts ("Unable to list helm repositories: " ++ e.message)
      return .null
    else Action.fail e
  | .ok output =>
    let repositories ← Action.ofExcept (answers listRepositories output)
    let found := repositories.find? fun repository =>
      ((repository.get? "name").bind Json.text?) = some name
    return ((found.bind (·.get? "url")).getD .null)

/-- A chart that was found. -/
structure Entry where
  name : Json
  version : Json

/-- The chart that an object describes: name and version have to say something. -/
def entry (question : Command) (answer : Json) : Except Failure Entry :=
  let member (name : String) : Json := (answer.get? name).getD .null
  if (member "name").isSubstantial && (member "version").isSubstantial then
    .ok { name := member "name", version := member "version" }
  else .error (.discovery (.unexpectedEntry question.line answer))

/-- The charts that match a text, in the order of the answer. -/
def search (wanted : String) : Action (List Entry) := do
  let question := searchFor wanted
  let output ← question.run
  let found ← Action.ofExcept (answers question output)
  let entries ← Action.ofExcept (found.mapM (entry question))
  Action.log .debug .charts
    ("Search for '" ++ wanted ++ "' found " ++ Text.decimal entries.length ++ " charts")
  return entries

end OfflineSupply.ChartStore
