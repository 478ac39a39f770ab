import OfflineSupply.Stage.Basic
import OfflineSupply.Stores.Charts

/-!
# Installing

The installations of a plan are run one after the other, each as a stage.  The first that
fails is the last that is run.
-/

namespace OfflineSupply.Installation

/-- Runs one installation. -/
def perform (dryRun : Bool) (i : Installation) : Action Unit :=
  Stage.within ("Install " ++ i.release) do
    let _ ← (ChartStore.install i).perform dryRun

/-- Runs the plan for a manifest. -/
def performAll (m : Manifest) (s : Settings) (platform : Platform) : Action Unit := do
  let installations ← Action.ofExcept (plan m s platform)
  installations.forM (perform s.dryRun)

end OfflineSupply.Installation
