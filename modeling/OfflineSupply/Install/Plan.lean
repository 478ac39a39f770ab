import OfflineSupply.Manifest.Basic
import OfflineSupply.Settings

/-!
# Installation plans

A plan is the list of chart installations for a private registry: the certificate manager if
the manifest lists one, then the custom resource definitions, the controller and the
defaults.  The order comes from the platform and not from the manifest, and the whole plan is
made before anything is installed.
-/

namespace OfflineSupply

/-- The installation of one chart file as a named release. -/
structure Installation where
  release : String
  chartFile : Path
  clusterNamespace : String
  /-- The chart values that are set, in order. -/
  values : List (String × String) := []
  /-- Whether to wait until the release is ready. -/
  wait : Bool := false
  /-- Whether the cluster namespace is made first. -/
  createNamespace : Bool := false

namespace Installation

variable {Image : Type}

/-- The file of the one chart that has a name. -/
def chartFileOf (m : Manifest Image) (s : Settings) (chart : String) : Except Failure Path :=
  (m.findChart chart).map s.chartFile

/-- The values that rewire the images of the certificate manager to a registry. -/
def certificateManagerValues (manager : CertificateManager) (registry : String) :
    List (String × String) :=
  putEntries [("installCRDs", "true")]
    (manager.imageValues.map fun entry =>
      (entry.1, registry ++ "/" ++ manager.imageNamespace ++ "/" ++ entry.2))

/-- The values of the controller chart. -/
def controllerValues (platform : Platform) (registry : String) : List (String × String) :=
  [(platform.registryValue, registry)]

/-- The values of the defaults chart; the registry is named once more when it is insecure. -/
def defaultsValues (platform : Platform) (registry : String) (insecure : Bool) :
    List (String × String) :=
  putEntries (controllerValues platform registry)
    ((platform.recommendedPoliciesValue, "True") ::
      (if insecure then [(platform.insecureSourcesValue, registry)] else []))

/-- The installation of the certificate manager. -/
def certificateManager (m : Manifest Image) (s : Settings) (platform : Platform) (registry : String) :
    Except Failure Installation := do
  let manager := platform.certificateManager
  let chartFile ← chartFileOf m s manager.chart
  return { release := manager.chart
           chartFile
           clusterNamespace := manager.clusterNamespace
           values := certificateManagerValues manager registry
           createNamespace := true }

/-- The installations of the three core charts. -/
def core (m : Manifest Image) (s : Settings) (platform : Platform) (registry : String) :
    Except Failure (List Installation) := do
  let definitions ← chartFileOf m s platform.definitionsChart
  let controller ← chartFileOf m s platform.controllerChart
  let defaults ← chartFileOf m s platform.defaultsChart
  return [
    { release := platform.definitionsChart
      chartFile := definitions
      clusterNamespace := platform.clusterNamespace
      createNamespace := true },
    { release := platform.controllerChart
      chartFile := controller
      clusterNamespace := platform.clusterNamespace
      values := controllerValues platform registry
      wait := true },
    { release := platform.defaultsChart
      chartFile := defaults
      clusterNamespace := platform.clusterNamespace
      values := defaultsValues platform registry s.insecure }]

/-- The installations for the charts of a manifest, in order. -/
def plan (m : Manifest Image) (s : Settings) (platform : Platform) :
    Except Failure (List Installation) := do
  let registry ← s.registry?.elim (.error .missingRegistry) .ok
  let manager ←
    if ← m.listsCertificateManager then
      (certificateManager m s platform registry).map ([·])
    else .ok []
  let core ← core m s platform registry
  return manager ++ core

end Installation

end OfflineSupply
