import OfflineSupply.Failure
import OfflineSupply.Session.Host

/-!
# Actions

An action runs on a host in a session.  It gives a value or a failure, and in both cases the
session as it is afterwards: what was done before a failure stays done.
-/

namespace OfflineSupply

/-- What is done on a host in a session. -/
def Action (α : Type) : Type :=
  Host → Session → Except Failure α × Session

namespace Action

/-- What an action comes to on a host and in a session. -/
def run {α : Type} (a : Action α) (host : Host) (s : Session) : Except Failure α × Session :=
  a host s

instance : Monad Action where
  pure a := fun _ s => (.ok a, s)
  bind a f := fun host s =>
    match a host s with
    | (.ok value, s) => f value host s
    | (.error e, s) => (.error e, s)

theorem run_pure {α : Type} (value : α) (host : Host) (s : Session) :
    (pure value : Action α).run host s = (.ok value, s) := rfl

theorem run_bind {α β : Type} (a : Action α) (f : α → Action β) (host : Host) (s : Session) :
    (a >>= f).run host s =
      match a.run host s with
      | (.ok value, s) => (f value).run host s
      | (.error e, s) => (.error e, s) := rfl

theorem id_map_eq {α : Type} (a : Action α) : id <$> a = a := by
  funext host s
  change (match a host s with
    | (.ok value, s) => (.ok value, s)
    | (.error e, s) => (.error e, s)) = a host s
  rcases a host s with ⟨_ | _, _⟩ <;> rfl

theorem bind_assoc_eq {α β γ : Type} (a : Action α) (f : α → Action β) (g : β → Action γ) :
    a >>= f >>= g = a >>= fun value => f value >>= g := by
  funext host s
  change (match (match a host s with
      | (.ok value, s) => f value host s
      | (.error e, s) => (.error e, s)) with
    | (.ok value, s) => g value host s
    | (.error e, s) => (.error e, s)) =
    match a host s with
    | (.ok value, s) => (match f value host s with
      | (.ok value, s) => g value host s
      | (.error e, s) => (.error e, s))
    | (.error e, s) => (.error e, s)
  rcases a host s with ⟨_ | _, _⟩ <;> rfl

instance : LawfulMonad Action :=
  LawfulMonad.mk' Action id_map_eq (fun _ _ => rfl) bind_assoc_eq

/-- The failure of an action. -/
def fail {α : Type} (e : Failure) : Action α :=
  fun _ s => (.error e, s)

/-- A value or a failure that was found without acting. -/
def ofExcept {α : Type} (result : Except Failure α) : Action α :=
  fun _ s => (result, s)

/-- The host that the action runs on. -/
def host : Action Host :=
  fun host s => (.ok host, s)

/-- The session as it is now. -/
def session : Action Session :=
  fun _ s => (.ok s, s)

/-- A change of the session. -/
def modify (change : Session → Session) : Action Unit :=
  fun _ s => (.ok (), change s)

/-- An action with its failure as a value. -/
def attempt {α : Type} (a : Action α) : Action (Except Failure α) :=
  fun host s =>
    let (result, s) := a host s
    (.ok result, s)

/-- An action and then another one, whether the first failed or not.  A failure of the second
takes the place of the first's result. -/
def andFinally {α : Type} (a : Action α) (last : Action Unit) : Action α :=
  fun host s =>
    let (result, s) := a host s
    match last host s with
    | (.ok (), s) => (result, s)
    | (.error e, s) => (.error e, s)

/-- An entry of the log. -/
def log (severity : Severity) (topic : Topic) (message : String) : Action Unit :=
  modify fun s => s.addLog { severity, topic, message }

/-- Text on the terminal. -/
def print (text : String) : Action Unit :=
  modify fun s => s.addPrinted text

/-- The files as they are now. -/
def files : Action FileTree :=
  fun _ s => (.ok s.files, s)

/-- A change of the files, unless it is refused. -/
def changeFiles (change : FileTree → Except FileError FileTree) : Action Unit :=
  fun _ s =>
    match change s.files with
    | .ok files => (.ok (), { s with files })
    | .error e => (.error (.ofFile e), s)

/-- Text written to the file at a path; on an output device it is printed. -/
def writeText (p : Path) (text : String) : Action Unit := do
  match (← files).lookup p with
  | .ok .outputDevice => print text
  | _ => changeFiles fun t => t.write p text.toUTF8

/-- The directory at a path and the missing ones above it.  What was made before a problem
stays made. -/
def makeDirectories (p : Path) : Action Unit :=
  fun _ s =>
    let (files, stopped) := s.files.makeDirectories p
    (stopped.elim (.ok ()) fun e => .error (.ofFile e), { s with files })

end Action

end OfflineSupply
