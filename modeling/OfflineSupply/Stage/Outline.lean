import OfflineSupply.Stage.Basic

/-!
# Outlines

An outline is a tree of named stages.  Each stage runs those below it in order and may then
give up; a stage that gives up ends all stages around it, and the next outline begins
afresh.
-/

namespace OfflineSupply.Stage

/-- A stage, the stages below it, and whether it gives up after them. -/
inductive Outline where
  | stage (name : String) (children : List Outline) (givesUp : Bool)
  deriving Inhabited

mutual

/-- An outline as an action. -/
def Outline.perform : Outline → Action Unit
  | .stage name children givesUp => within name do
    performAll children
    if givesUp then Action.fail (.stage name)

/-- Outlines one after the other; a failure ends them. -/
def performAll : List Outline → Action Unit
  | [] => pure ()
  | outline :: outlines => do
    outline.perform
    performAll outlines

end

/-- Outlines each by itself; the failures, in order. -/
def performEach : List Outline → Action (List Failure)
  | [] => pure []
  | outline :: outlines => do
    let result ← outline.perform.attempt
    let failures ← performEach outlines
    return match result with
      | .ok _ => failures
      | .error e => e :: failures

end OfflineSupply.Stage
