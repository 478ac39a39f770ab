import OfflineSupply.CommandLine.Reader
import OfflineSupply.Log
import OfflineSupply.Settings

/-!
# Invocations

The program has four commands.  One lists what an installation needs; the other three read
such a list and pull, push or install it.  A command line names one of them with its options,
or it is refused in the name of the command that was read last.
-/

namespace OfflineSupply.CommandLine

/-- The options of all commands. -/
inductive OptionKey where
  | help
  | logLevel
  | manifest
  | registry
  | insecure
  | cacheDirectory
  | dryRun
  | certificateManager
  | outputFile
  deriving DecidableEq, Repr

abbrev Spec := OptionSpec OptionKey

/-- Asks for help. -/
def helpOption : Spec := { key := .help, names := ["-h", "--help"], takes := .help }

/-- The options in front of the command. -/
def commonOptions : List Spec :=
  [helpOption,
   { key := .logLevel, names := ["--log-level"], takes := .text (Severity.all.map Severity.name) }]

/-- Names the manifest file. -/
def manifestOption : Spec :=
  { key := .manifest, names := ["--list", "-l"], takes := .text [], required := true }

/-- Choose the private registry and how far it is trusted. -/
def registryOptions : List Spec :=
  [{ key := .registry, names := ["--registry", "-r"], takes := .text [], required := true },
   { key := .insecure, names := ["--insecure", "--no-insecure", "-k"], takes := .switch }]

/-- Choose the cache directory and whether commands are only shown. -/
def cacheOptions : List Spec :=
  [{ key := .cacheDirectory, names := ["--cache-dir"], takes := .text [] },
   { key := .dryRun, names := ["--dry", "--no-dry", "-d"], takes := .switch }]

/-- The options of a discovery. -/
def listOptions : List Spec :=
  [helpOption,
   { key := .certificateManager, names := ["--cert-manager", "--no-cert-manager", "-c"]
     takes := .switch },
   { key := .outputFile, names := ["--output-file"], takes := .text [] }]

/-- The options of a pull. -/
def pullOptions : List Spec :=
  [helpOption, manifestOption] ++ cacheOptions

/-- The options of a push, and of an installation. -/
def pushOptions : List Spec :=
  [helpOption, manifestOption] ++ registryOptions ++ cacheOptions

/-- Where a list is written unless a file is named. -/
def defaultOutput : Path := Path.ofText "/dev/stdout"

/-- What is to be done. -/
inductive Task where
  | list (withCertificateManager : Bool) (output : Path)
  | pull (manifest : Path) (settings : Settings)
  | push (manifest : Path) (settings : Settings)
  | install (manifest : Path) (settings : Settings)

/-- A command line that was understood. -/
structure Invocation where
  logLevel : Severity := .info
  task : Task

/-- The manifest file that was named. -/
def manifestFile (read : ReadLine OptionKey) : Path :=
  Path.ofText ((read.text? .manifest).getD "")

/-- The settings that were given. -/
def givenSettings (read : ReadLine OptionKey) : Settings :=
  { registry := read.text? .registry
    insecure := read.isOn .insecure
    dryRun := read.isOn .dryRun
    cacheDirectory := Path.ofText ((read.text? .cacheDirectory).getD ".") }

/-- A command: its name, its options, and the task that they make. -/
structure CommandSpec where
  name : String
  options : List Spec
  task : ReadLine OptionKey → Task

/-- All commands. -/
def commands : List CommandSpec :=
  [{ name := "list"
     options := listOptions
     task := fun read =>
      .list (read.isOn .certificateManager)
        (((read.text? .outputFile).map Path.ofText).getD defaultOutput) },
   { name := "pull"
     options := pullOptions
     task := fun read => .pull (manifestFile read) (givenSettings read) },
   { name := "push"
     options := pushOptions
     task := fun read => .push (manifestFile read) (givenSettings read) },
   { name := "install"
     options := pushOptions
     task := fun read => .install (manifestFile read) (givenSettings read) }]

/-- The name of the program. -/
def programName : String := "kw-airgap"

/-- What the argument is called that names a command. -/
def commandTitle : String := "command"

/-- The severity of a name. -/
def severityNamed (name : String) : Severity :=
  (Severity.all.find? (·.name == name)).getD .info

/-- Why a command line is no invocation: help is asked for, or it is refused with a line. -/
inductive Refusal where
  | help
  | usage (line : String)

/-- A stop in the name of a command, or of the whole program. -/
def refuse {α : Type} (command : Option String) (result : Except Stop α) : Except Refusal α :=
  match result with
  | .ok value => .ok value
  | .error .help => .error .help
  | .error (.fault fault) =>
    let name := programName ++ command.elim "" (" " ++ ·)
    .error (.usage (name ++ ": error: " ++ fault.message))

/-- The task of a command and its arguments, and what was not recognized among them. -/
def readTask (name : String) (arguments : List String) : Except Refusal (Task × List String) :=
  match commands.find? (·.name == name) with
  | none =>
    refuse none (.error (.fault (.notAChoice commandTitle name (commands.map (·.name)))))
  | some command =>
    (refuse (some name) (readCommand command.options arguments)).map fun read =>
      (command.task read, read.unrecognized)

/-- The invocation that a command line asks for. -/
def parse (arguments : List String) : Except Refusal Invocation := do
  let kinds ← refuse none (orFault (kinds commonOptions arguments))
  let read ← refuse none (readArguments commonOptions true {} kinds)
  match read.command with
  | none => refuse none (.error (.fault (.missing [commandTitle])))
  | some (name, rest) =>
    let (task, unplaced) ← readTask name rest
    match read.unrecognized ++ unplaced with
    | [] => return { logLevel := ((read.text? .logLevel).map severityNamed).getD .info, task }
    | unrecognized => refuse none (.error (.fault (.unrecognized unrecognized)))

end OfflineSupply.CommandLine
