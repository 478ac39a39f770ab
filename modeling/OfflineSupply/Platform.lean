/-!
# The platform

The names of the charts that make up the platform, the places where they are discovered, and
the keys of the chart values that an installation sets.  The certificate manager comes from a
repository of its own, at a pinned version.
-/

namespace OfflineSupply

/-- Where the certificate manager comes from and how its images are named. -/
structure CertificateManager where
  repositoryUrl : String := "https://charts.jetstack.io"
  chart : String := "cert-manager"
  version : String := "v1.10.1"
  /-- The cluster namespace that it is installed into. -/
  clusterNamespace : String := "cert-manager"
  /-- The path of its images below a registry. -/
  imageNamespace : String := "jetstack"
  /-- For the chart value of each component, the name of its image. -/
  imageValues : List (String × String) :=
    [("image.repository", "cert-manager-controller"),
     ("webhook.image.repository", "cert-manager-webhook"),
     ("cainjector.image.repository", "cert-manager-cainjector"),
     ("startupapicheck.image.repository", "cert-manager-ctl")]

/-- The pinned chart reference. -/
def CertificateManager.chartReference (m : CertificateManager) : String :=
  m.repositoryUrl ++ "/" ++ m.chart ++ ":" ++ m.version

/-- The charts of the platform, where they are found, and the values that they are installed
with. -/
structure Platform where
  /-- The name of the chart repository in the local configuration. -/
  repositoryName : String := "kubewarden"
  /-- The cluster namespace that the platform charts are installed into. -/
  clusterNamespace : String := "kubewarden"
  definitionsChart : String := "kubewarden-crds"
  controllerChart : String := "kubewarden-controller"
  defaultsChart : String := "kubewarden-defaults"
  /-- The source repository whose releases carry the listings. -/
  releaseRepository : String := "kubewarden/helm-charts"
  imagesAssetEnding : String := "images.txt"
  policiesAssetEnding : String := "policylist.txt"
  /-- The chart value that names the default registry. -/
  registryValue : String := "common.cattle.systemDefaultRegistry"
  /-- The chart value that switches the recommended policies on. -/
  recommendedPoliciesValue : String := "recommendedPolicies.enabled"
  /-- The chart value that names a registry to be used without verification. -/
  insecureSourcesValue : String := "policyServer.insecureSources[0]"
  certificateManager : CertificateManager := {}

namespace Platform

/-- The charts that every manifest has to list, in the order of their installation. -/
def coreCharts (p : Platform) : List String :=
  [p.definitionsChart, p.controllerChart, p.defaultsChart]

/-- The name of the release that carries the listings for a version, given as it is shown. -/
def releaseTag (p : Platform) (version : String) : String :=
  p.defaultsChart ++ "-" ++ version

end Platform

end OfflineSupply
