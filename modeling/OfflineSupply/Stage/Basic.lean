import OfflineSupply.Session.Action

/-!
# Stages

Work is done in named stages.  A stage is announced when it begins, and when it ends, whether
well or by a failure, its whole path is written to the log with the time it took.
-/

namespace OfflineSupply.Stage

/-- The names of the open stages, from the outermost to the innermost. -/
def pathText (stages : List String) : String :=
  " > ".intercalate stages

/-- The beginning of a stage. -/
def enter (name : String) : Action Unit := do
  Action.modify fun s => { s with stages := s.stages ++ [name] }
  Action.log .info .stages ("# " ++ name)

/-- The end of the innermost stage. -/
def leave : Action Unit := do
  let s ← Action.session
  let elapsed := (← Action.host).stopwatch s
  Action.modify fun s => { s with stages := s.stages.dropLast }
  Action.log .debug .stages ("Finished " ++ pathText s.stages ++ " in " ++ elapsed ++ "s")

/-- An action as a stage. -/
def within {α : Type} (name : String) (body : Action α) : Action α := do
  enter name
  body.andFinally leave

end OfflineSupply.Stage
