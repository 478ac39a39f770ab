import OfflineSupply.Text.Digit
import OfflineSupply.Text.Quoted

/-!
# Options of a command line

An option has several names and takes a text, or is switched on and off.  A long name may be
shortened as long as it fits one name only, and several short switches may share a hyphen.
What can be wrong with a command line is said in one line.
-/

namespace OfflineSupply.CommandLine

/-- What an option takes. -/
inductive Takes where
  /-- A text: one of some, unless none are given. -/
  | text (choices : List String)
  /-- Nothing: its names switch it on, and those that begin with the denial switch it off. -/
  | switch
  /-- Nothing: it asks for help. -/
  | help
  deriving DecidableEq

/-- An option, told apart from others by a key. -/
structure OptionSpec (κ : Type) where
  key : κ
  names : List String
  takes : Takes
  required : Bool := false

/-- What is wrong with a command line. -/
inductive UsageFault where
  | ambiguous (argument : String) (names : List String)
  | ignoredText (option text : String)
  | textExpected (option : String)
  | notAChoice (option text : String) (choices : List String)
  | missing (options : List String)
  | unrecognized (arguments : List String)
  deriving DecidableEq, Repr

/-- The line that says what is wrong. -/
def UsageFault.message : UsageFault → String
  | ambiguous argument names =>
    "ambiguous option: " ++ argument ++ " could match " ++ ", ".intercalate names
  | ignoredText option text =>
    "argument " ++ option ++ ": ignored explicit argument " ++ Text.quoted text
  | textExpected option => "argument " ++ option ++ ": expected one argument"
  | notAChoice option text choices =>
    "argument " ++ option ++ ": invalid choice: " ++ Text.quoted text ++ " (choose from " ++
      ", ".intercalate (choices.map Text.quoted) ++ ")"
  | missing options =>
    "the following arguments are required: " ++ ", ".intercalate options
  | unrecognized arguments => "unrecognized arguments: " ++ " ".intercalate arguments

/-- What a name of a switch begins with that switches it off. -/
def denial : String := "--no-"

/-- The names of an option, as a message gives them. -/
def OptionSpec.title {κ : Type} (o : OptionSpec κ) : String :=
  "/".intercalate o.names

/-! ## Telling options from other arguments -/

/-- An option found in an argument, by one of its names, with the text attached to it. -/
structure Found (κ : Type) where
  option : OptionSpec κ
  name : String
  attached : Option (List Char) := none

/-- What an argument is. -/
inductive Kind (κ : Type) where
  | plain
  /-- The two hyphens after which nothing is an option. -/
  | divider
  | option (found : Found κ)
  /-- What looks like an option and is none. -/
  | unknown

variable {κ : Type}

/-- All names with their options, in order. -/
def namedOptions (options : List (OptionSpec κ)) : List (String × OptionSpec κ) :=
  options.flatMap fun o => o.names.map fun name => (name, o)

/-- The option of a name. -/
def optionNamed? (options : List (OptionSpec κ)) (name : String) : Option (OptionSpec κ) :=
  (namedOptions options).lookup name

/-- The text before the first equals sign, and the text after it if there is one. -/
def splitAtEquals (cs : List Char) : List Char × Option (List Char) :=
  (cs.takeWhile (· ≠ '='), (cs.dropWhile (· ≠ '=')).tail? )

/-- The options that an argument with two hyphens may be short for. -/
def longCandidates (options : List (OptionSpec κ)) (cs : List Char) : List (Found κ) :=
  let (start, attached) := splitAtEquals cs
  (namedOptions options).filterMap fun (name, option) =>
    if start.isPrefixOf name.toList then some { option, name, attached } else none

/-- The options that an argument with one hyphen may stand for: a short name with text
attached, or the beginning of a name. -/
def shortCandidates (options : List (OptionSpec κ)) (cs : List Char) : List (Found κ) :=
  (namedOptions options).filterMap fun (name, option) =>
    if name.toList = cs.take 2 then some { option, name, attached := some (cs.drop 2) }
    else if cs.isPrefixOf name.toList then some { option, name }
    else none

/-- Whether a text after its hyphen is a number: digits with at most one point before the
last of them. -/
def isNumber (cs : List Char) : Bool :=
  let isDecimal (c : Char) : Bool := (Text.decimalValue? c).isSome
  let cs := if cs.getLast? = some '\n' then cs.dropLast else cs
  match cs.dropWhile isDecimal with
  | [] => !cs.isEmpty
  | '.' :: fraction => !fraction.isEmpty && fraction.all isDecimal
  | _ => false

/-- What an argument is, when no divider stands before it. -/
def kindOf (options : List (OptionSpec κ)) (argument : String) :
    Except UsageFault (Kind κ) :=
  match argument.toList with
  | '-' :: c :: rest =>
    let cs := '-' :: c :: rest
    let (start, attached) := splitAtEquals cs
    match optionNamed? options argument, optionNamed? options (String.ofList start), attached with
    | some option, _, _ => .ok (.option { option, name := argument })
    | none, some option, some text =>
      .ok (.option { option, name := String.ofList start, attached := some text })
    | none, _, _ =>
      match if c = '-' then longCandidates options cs else shortCandidates options cs with
      | [found] => .ok (.option found)
      | found :: more =>
        .error (.ambiguous argument ((found :: more).map (·.name)))
      | [] =>
        if isNumber (c :: rest) || cs.contains ' ' then .ok .plain else .ok .unknown
  | _ => .ok .plain

/-- The arguments with what they are.  Behind a divider all are plain. -/
def kinds (options : List (OptionSpec κ)) : List String → Except UsageFault (List (String × Kind κ))
  | [] => .ok []
  | argument :: arguments =>
    if argument = "--" then
      .ok ((argument, .divider) :: arguments.map fun plain => (plain, .plain))
    else do
      let kind ← kindOf options argument
      let others ← kinds options arguments
      return (argument, kind) :: others

/-! ## What an argument gives -/

/-- What a command line gives for an option. -/
inductive Given where
  | text (value : String)
  | switch (on : Bool)
  | help
  deriving DecidableEq

/-- What an option gives under one of its names, when no text is attached. -/
def switchGiven (o : OptionSpec κ) (name : String) : Given :=
  if o.takes = .help then .help else .switch (!denial.toList.isPrefixOf name.toList)

/-- The text for an option, if it may be chosen. -/
def textGiven (o : OptionSpec κ) (text : String) : Except UsageFault Given :=
  match o.takes with
  | .text choices =>
    if choices.isEmpty || choices.contains text then .ok (.text text)
    else .error (.notAChoice o.title text choices)
  | _ => .ok (.text text)

/-- What one argument with options comes to: what it gives, and the option that still needs
the next argument. -/
structure Cluster (κ : Type) where
  given : List (κ × Given) := []
  waiting : Option (OptionSpec κ) := none

/-- The cluster with something given in front. -/
def Cluster.add (cluster : Cluster κ) (key : κ) (given : Given) : Cluster κ :=
  { cluster with given := (key, given) :: cluster.given }

/-- Whether an option takes a text. -/
def OptionSpec.takesText (o : OptionSpec κ) : Bool :=
  match o.takes with
  | .text _ => true
  | _ => false

/-- What an option without attached text comes to. -/
def readAlone (o : OptionSpec κ) (name : String) : Cluster κ :=
  if o.takesText then { waiting := some o } else { given := [(o.key, switchGiven o name)] }

/-- What an option with attached text comes to.  Behind a short switch the text is further
short options, the last of which may take the rest; a long switch takes no text. -/
def readAttached (options : List (OptionSpec κ)) (o : OptionSpec κ) (name : String)
    (text : List Char) : Except UsageFault (Cluster κ) :=
  if o.takesText then do
    let given ← textGiven o (String.ofList text)
    return { given := [(o.key, given)] }
  else
    let ignored := .error (.ignoredText o.title (String.ofList text))
    match text with
    | [] => ignored
    | c :: rest =>
      let nextName := String.ofList ['-', c]
      match optionNamed? options nextName, "--".toList.isPrefixOf name.toList with
      | some next, false => do
        let cluster ←
          if rest.isEmpty then .ok (readAlone next nextName)
          else readAttached options next nextName rest
        return cluster.add o.key (switchGiven o name)
      | _, _ => ignored
termination_by text.length

/-- What an option that was found comes to. -/
def Found.read (options : List (OptionSpec κ)) (found : Found κ) :
    Except UsageFault (Cluster κ) :=
  match found.attached with
  | some text => readAttached options found.option found.name text
  | none => .ok (readAlone found.option found.name)

end OfflineSupply.CommandLine
