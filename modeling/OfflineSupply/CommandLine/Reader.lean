import OfflineSupply.CommandLine.Option

/-!
# Reading a command line

Arguments are read from left to right.  An option that takes a text takes the next argument,
if that is a plain one.  Where a command is expected, the first plain argument names it and
all that follows belongs to it.  What cannot be placed is collected; a missing option that is
required counts first.
-/

namespace OfflineSupply.CommandLine

variable {κ : Type}

/-- Why the reading of a command line stops. -/
inductive Stop where
  | help
  | fault (fault : UsageFault)

/-- What has been read: the given options in order, what was not recognized, and the command
with its arguments once it has been met. -/
structure ReadLine (κ : Type) where
  given : List (κ × Given) := []
  unrecognized : List String := []
  command : Option (String × List String) := none

/-- The reading with one more cluster. -/
def ReadLine.add (read : ReadLine κ) (cluster : Cluster κ) : ReadLine κ :=
  { read with given := read.given ++ cluster.given }

/-- Stops for help if a cluster asks for it. -/
def checkHelp (cluster : Cluster κ) : Except Stop Unit :=
  if cluster.given.any (·.2 = .help) then .error .help else .ok ()

/-- A fault as a reason to stop. -/
def orFault {α : Type} (result : Except UsageFault α) : Except Stop α :=
  match result with
  | .ok value => .ok value
  | .error fault => .error (.fault fault)

/-- Reads arguments on; `expectsCommand` tells whether a plain one names a command. -/
def readArguments (options : List (OptionSpec κ)) (expectsCommand : Bool)
    (read : ReadLine κ) : List (String × Kind κ) → Except Stop (ReadLine κ)
  | [] => .ok read
  | (argument, .plain) :: rest =>
    if expectsCommand then
      .ok { read with command := some (argument, rest.map (·.1)) }
    else readArguments options expectsCommand
      { read with unrecognized := read.unrecognized ++ [argument] } rest
  | (argument, .divider) :: rest =>
    if expectsCommand && !rest.isEmpty then
      .ok { read with command := some (argument, rest.map (·.1)) }
    else readArguments options expectsCommand
      { read with unrecognized := read.unrecognized ++ [argument] } rest
  | (argument, .unknown) :: rest =>
    readArguments options expectsCommand
      { read with unrecognized := read.unrecognized ++ [argument] } rest
  | (_, .option found) :: rest => do
    let cluster ← orFault (found.read options)
    match cluster.waiting with
    | none =>
      checkHelp cluster
      readArguments options expectsCommand (read.add cluster) rest
    | some option =>
      match rest with
      | (text, .plain) :: rest =>
        checkHelp cluster
        let given ← orFault (textGiven option text)
        let cluster := { cluster with given := cluster.given ++ [(option.key, given)] }
        readArguments options expectsCommand (read.add cluster) rest
      | _ => .error (.fault (.textExpected option.title))
termination_by arguments => arguments.length

/-- The titles of the required options that were not given. -/
def missingOptions [DecidableEq κ] (options : List (OptionSpec κ)) (read : ReadLine κ) :
    List String :=
  (options.filter fun o => o.required && !read.given.any (·.1 = o.key)).map (·.title)

/-- The options of a command, from its arguments. -/
def readCommand [DecidableEq κ] (options : List (OptionSpec κ)) (arguments : List String) :
    Except Stop (ReadLine κ) := do
  let kinds ← orFault (kinds options arguments)
  let read ← readArguments options false {} kinds
  match missingOptions options read with
  | [] => return read
  | missing => .error (.fault (.missing missing))

/-- The last text that was given for a key. -/
def ReadLine.text? [DecidableEq κ] (read : ReadLine κ) (key : κ) : Option String :=
  read.given.reverse.findSome? fun
    | (k, .text value) => if k = key then some value else none
    | _ => none

/-- Whether a key was last switched on. -/
def ReadLine.isOn [DecidableEq κ] (read : ReadLine κ) (key : κ) : Bool :=
  (read.given.reverse.findSome? fun
    | (k, .switch on) => if k = key then some on else none
    | _ => none).getD false

end OfflineSupply.CommandLine
