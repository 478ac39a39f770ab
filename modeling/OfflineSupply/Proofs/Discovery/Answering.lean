import Mathlib.Data.List.Permutation
import OfflineSupply.Proofs.Discovery.Asked
import OfflineSupply.Proofs.Discovery.Charts
import OfflineSupply.Proofs.Yaml.Tokens

/-!
# Discoveries on a host that always answers

On such a host every process succeeds with an output that its command decides, and every request is
answered with a document that it decides; nothing that happened before makes a difference.
-/

namespace OfflineSupply.Discovery

open OfflineSupply.Action

variable {output : Command → String} {body : Request → String} {c : Command}

/-- A host whose outputs and documents depend on nothing but what is asked. -/
def answering (output : Command → String) (body : Request → String) : Host where
  launch s c := { files := s.files, output := (output c).toUTF8 }
  fetch _ r := .answered 200 "OK" (body r)
  hasProgram _ := true
  scratchFile _ := Path.here
  stopwatch _ := "0"

theorem answers_of_parse {question : Command} {text : String} {items found : List Json}
    (hblank : Text.allBlank text.toList = false) (hparse : Json.parse text = .ok (.array items))
    (hitems : ChartStore.objects? items = some found) :
    ChartStore.answers question text = .ok found := by
  unfold ChartStore.answers
  simp only [hblank, hparse, hitems, Bool.false_eq_true, if_false]
  rfl

theorem alwaysReturns_run (hlimit : c.limit = none) :
    AlwaysReturns (answering output body) c.run (output c) := by
  apply Command.alwaysReturns_run hlimit
  intro session
  exact ⟨rfl, rfl, Text.strictText?_toUTF8 (output c), Text.strictText?_toUTF8 ""⟩

theorem alwaysReturns_fetch (url : String) (headers : List (String × String)) :
    AlwaysReturns (answering output body) (ReleaseService.fetch url headers)
      (body { url, headers }) :=
  fun _ ↦ ⟨_, rfl⟩

theorem alwaysReturns_repositoryUrl (name : String) {found : List Json}
    (hfound : ChartStore.answers ChartStore.listRepositories (output ChartStore.listRepositories) =
      .ok found) :
    AlwaysReturns (answering output body) (ChartStore.repositoryUrl name)
      (((found.find? fun repository ↦
        ((repository.get? "name").bind Json.text?) = some name).bind (·.get? "url")).getD
          .null) := by
  unfold ChartStore.repositoryUrl
  apply (alwaysReturns_run rfl).attempt.bind
  apply (alwaysReturns_ofExcept hfound).bind
  exact alwaysReturns_pure _

theorem alwaysReturns_search {wanted : String} {found : List Json}
    {entries : List ChartStore.Entry}
    (hfound : ChartStore.answers (ChartStore.searchFor wanted)
      (output (ChartStore.searchFor wanted)) = .ok found)
    (hentries : found.mapM (ChartStore.entry (ChartStore.searchFor wanted)) = .ok entries) :
    AlwaysReturns (answering output body) (ChartStore.search wanted) entries := by
  unfold ChartStore.search
  apply (alwaysReturns_run rfl).bind
  apply (alwaysReturns_ofExcept hfound).bind
  apply (alwaysReturns_ofExcept hentries).bind
  apply (alwaysReturns_log _ _ _).bind
  exact alwaysReturns_pure _

/-! ## A repository that publishes a certificate manager -/

def listedRepositories : String :=
  "[\x7b\"name\":\"kubewarden\",\"url\":\"https://charts\"\x7d]"

def listedCharts : String :=
  "[\x7b\"name\":\"kubewarden/kubewarden-crds\",\"version\":\"1\"\x7d," ++
    "\x7b\"name\":\"kubewarden/kubewarden-controller\",\"version\":\"1\"\x7d," ++
    "\x7b\"name\":\"kubewarden/kubewarden-defaults\",\"version\":\"1\"\x7d," ++
    "\x7b\"name\":\"kubewarden/cert-manager\",\"version\":\"2\"\x7d]"

def describedRelease : String :=
  "\x7b\"assets\":[\x7b\"browser_download_url\":\"images.txt\"\x7d," ++
    "\x7b\"browser_download_url\":\"policylist.txt\"\x7d]\x7d"

/-- A chart with one image, of which the text is a first half and a second one. -/
def renderedChart : String :=
  "image: \x22\\uD83D\\uDE00\x22"

/-- A search finds the same charts whatever it looks for, and every chart is rendered alike. -/
def publishingOutput (c : Command) : String :=
  if c.arguments.contains "search" then listedCharts
  else if c.arguments.contains "template" then renderedChart else listedRepositories

/-- Every file of the release lists one entry. -/
def publishingBody (r : Request) : String :=
  if r.headers.isEmpty then "entry" else describedRelease

/-- A host whose repository publishes the core charts and a certificate manager. -/
def publishingHost : Host :=
  answering publishingOutput publishingBody

def chartEntry (name version : String) : Json :=
  .ofMembers [("name", .ofString name), ("version", .ofString version)]

def assetAt (url : String) : Json :=
  .ofMembers [("browser_download_url", .ofString url)]

theorem parse_listedRepositories : Json.parse listedRepositories = .ok (.array
    [.ofMembers [("name", .ofString "kubewarden"), ("url", .ofString "https://charts")]]) := by
  unfold Json.parse listedRepositories
  rw [String.toList_ofList]
  cbv

theorem parse_listedCharts : Json.parse listedCharts = .ok (.array
    [chartEntry "kubewarden/kubewarden-crds" "1", chartEntry "kubewarden/kubewarden-controller" "1",
     chartEntry "kubewarden/kubewarden-defaults" "1", chartEntry "kubewarden/cert-manager" "2"]) := by
  unfold Json.parse listedCharts
  rw [String.toList_append, String.toList_append, String.toList_append]
  repeat rw [String.toList_ofList]
  cbv

theorem parse_describedRelease : Json.parse describedRelease = .ok (.ofMembers
    [("assets", .array [assetAt "images.txt", assetAt "policylist.txt"])]) := by
  unfold Json.parse describedRelease
  rw [String.toList_append]
  repeat rw [String.toList_ofList]
  cbv

/-- The manifest that is discovered there although no certificate manager was asked for. -/
def publishedManifest : Manifest RawText where
  images := [.ofString "entry"]
  policies := ["entry"]
  charts := ["https://charts/kubewarden-crds:1", "https://charts/kubewarden-controller:1",
    "https://charts/kubewarden-defaults:1", "https://charts/cert-manager:2"]

theorem alwaysReturns_repositoryUrl_publishing :
    AlwaysReturns (answering publishingOutput body) (ChartStore.repositoryUrl "kubewarden")
      (.ofString "https://charts") := by
  have hblank : Text.allBlank listedRepositories.toList = false := by
    unfold listedRepositories
    rw [String.toList_ofList]
    rfl
  have houtput : publishingOutput ChartStore.listRepositories = listedRepositories := rfl
  have hfound : ChartStore.answers ChartStore.listRepositories
      (publishingOutput ChartStore.listRepositories) = .ok
        [.ofMembers [("name", .ofString "kubewarden"), ("url", .ofString "https://charts")]] := by
    rw [houtput]
    exact answers_of_parse hblank parse_listedRepositories rfl
  exact alwaysReturns_repositoryUrl "kubewarden" hfound

/-- The charts that every search finds. -/
def publishedEntries : List ChartStore.Entry :=
  [{ name := .ofString "kubewarden/kubewarden-crds", version := .ofString "1" },
   { name := .ofString "kubewarden/kubewarden-controller", version := .ofString "1" },
   { name := .ofString "kubewarden/kubewarden-defaults", version := .ofString "1" },
   { name := .ofString "kubewarden/cert-manager", version := .ofString "2" }]

theorem alwaysReturns_search_publishing (wanted : String) :
    AlwaysReturns (answering publishingOutput body) (ChartStore.search wanted)
      publishedEntries := by
  have hblank : Text.allBlank listedCharts.toList = false := by
    unfold listedCharts
    rw [String.toList_append, String.toList_append, String.toList_append]
    repeat rw [String.toList_ofList]
    rfl
  have houtput : publishingOutput (ChartStore.searchFor wanted) = listedCharts := rfl
  have hfound : ChartStore.answers (ChartStore.searchFor wanted)
      (publishingOutput (ChartStore.searchFor wanted)) = .ok
        [chartEntry "kubewarden/kubewarden-crds" "1",
         chartEntry "kubewarden/kubewarden-controller" "1",
         chartEntry "kubewarden/kubewarden-defaults" "1",
         chartEntry "kubewarden/cert-manager" "2"] := by
    rw [houtput]
    exact answers_of_parse hblank parse_listedCharts rfl
  exact alwaysReturns_search hfound rfl

def publishedAssets : List ReleaseAsset :=
  [{ name := .ofString "", url := .ofString "images.txt" },
   { name := .ofString "", url := .ofString "policylist.txt" }]

/-- The request for the description of the release. -/
def releaseRequest : Request where
  url := ReleaseService.releaseUrl {} "kubewarden-defaults-1"
  headers := [("Accept", "application/vnd.github+json")]

theorem alwaysReturns_resolveRelease (withManager : Bool) {description : Json}
    {assets : List ReleaseAsset} (hparse : Json.parse (body releaseRequest) = .ok description)
    (hassets : ReleaseService.assets "kubewarden-defaults-1" description = .ok assets) :
    AlwaysReturns (answering publishingOutput body)
      ({ withCertificateManager := withManager } : Discovery).resolveRelease
      ("kubewarden-defaults-1", assets) := by
  have hversion : AlwaysReturns (answering publishingOutput body)
      ({ withCertificateManager := withManager } : Discovery).defaultsVersion "1" := by
    unfold defaultsVersion
    apply (alwaysReturns_search_publishing _).bind
    exact alwaysReturns_pure _
  have hlisted : AlwaysReturns (answering publishingOutput body)
      (ReleaseService.listAssets {} "kubewarden-defaults-1") assets := by
    unfold ReleaseService.listAssets
    apply (alwaysReturns_fetch _ _).bind
    have hrequest : body
        { url := ReleaseService.releaseUrl {} "kubewarden-defaults-1"
          headers := [("Accept", "application/vnd.github+json")] } = body releaseRequest := rfl
    rw [hrequest, hparse]
    exact alwaysReturns_ofExcept hassets
  unfold resolveRelease
  apply hversion.bind
  apply (alwaysReturns_log _ _ _).bind
  apply hlisted.bind
  exact alwaysReturns_pure _

theorem alwaysReturns_fetchListing {assets : List ReleaseAsset} {tag ending url : String}
    (hurl : assetUrl tag ending assets = .ok url) :
    AlwaysReturns publishingHost (fetchListing assets tag ending) ["entry"] := by
  have hentries : Listing.entries "entry" = ["entry"] := rfl
  unfold fetchListing
  apply (alwaysReturns_ofExcept hurl).bind
  apply (alwaysReturns_fetch url []).bind
  have hbody : publishingBody { url } = "entry" := rfl
  rw [hbody, hentries]
  apply (alwaysReturns_log _ _ _).bind
  exact alwaysReturns_pure _

theorem alwaysReturns_platformCharts (withManager : Bool) : AlwaysReturns publishingHost
    (({ withCertificateManager := withManager } : Discovery).platformCharts
      (.ofString "https://charts")) publishedManifest.charts := by
  change AlwaysReturns publishingHost (({} : Discovery).platformCharts _) _
  unfold platformCharts
  apply (alwaysReturns_search_publishing _).bind
  apply (alwaysReturns_ofExcept rfl).bind
  rw [if_neg (by decide)]
  apply (alwaysReturns_ofExcept rfl).bind
  exact alwaysReturns_pure _

theorem alwaysReturns_listedImages :
    AlwaysReturns publishingHost
      (fetchListing publishedAssets "kubewarden-defaults-1" "images.txt") ["entry"] :=
  alwaysReturns_fetchListing (rfl : assetUrl "kubewarden-defaults-1" "images.txt" publishedAssets =
    .ok "images.txt")

/-- On this host a discovery ends with the images and the charts that it lists. -/
theorem alwaysReturns_build {withManager : Bool} {images : List RawText} {charts : List String}
    (himages : AlwaysReturns publishingHost
      (({ withCertificateManager := withManager } : Discovery).listImages "kubewarden-defaults-1"
        publishedAssets) images)
    (hcharts : AlwaysReturns publishingHost
      (({ withCertificateManager := withManager } : Discovery).listCharts
        (.ofString "https://charts")) charts)
    (hmissing : ({ charts } : Manifest RawText).missingCharts {} = .ok []) :
    AlwaysReturns publishingHost ({ withCertificateManager := withManager } : Discovery).build
      { images, policies := ["entry"], charts } := by
  have hpoliciesUrl : assetUrl "kubewarden-defaults-1" "policylist.txt" publishedAssets =
      .ok "policylist.txt" := rfl
  have hcomplete : ({ images, policies := ["entry"], charts } : Manifest RawText).missingCharts {} =
      .ok [] := hmissing
  have hbody : publishingBody releaseRequest = describedRelease := rfl
  have hdescribed := parse_describedRelease
  rw [← hbody] at hdescribed
  unfold build
  apply alwaysReturns_repositoryUrl_publishing.bind
  rw [if_neg (by decide)]
  apply (Stage.alwaysReturns_within
    (alwaysReturns_resolveRelease withManager hdescribed rfl)).bind
  apply (Stage.alwaysReturns_within himages).bind
  apply (Stage.alwaysReturns_within (alwaysReturns_fetchListing hpoliciesUrl)).bind
  apply (Stage.alwaysReturns_within hcharts).bind
  apply (alwaysReturns_ofExcept hcomplete).bind
  exact alwaysReturns_pure _

theorem alwaysReturns_build_published :
    AlwaysReturns publishingHost ({} : Discovery).build publishedManifest := by
  have himages : AlwaysReturns publishingHost
      (({} : Discovery).listImages "kubewarden-defaults-1" publishedAssets)
        [.ofString "entry"] := by
    unfold listImages
    apply alwaysReturns_listedImages.bind
    exact alwaysReturns_pure _
  have hcharts : AlwaysReturns publishingHost
      (({} : Discovery).listCharts (.ofString "https://charts")) publishedManifest.charts := by
    unfold listCharts
    apply (alwaysReturns_platformCharts false).bind
    exact alwaysReturns_pure _
  exact alwaysReturns_build himages hcharts rfl

/-! ## With the certificate manager -/

/-- The image of the rendered chart. -/
def halvedImage : RawText where
  points := [.ofNat 0xD83D, .ofNat 0xDE00]

theorem ofText_renderedChart : Yaml.Token.ofText renderedChart =
    [.blockMappingStart, .key, .scalar (.ofString "image") true, .value, .scalar halvedImage false,
      .blockEnd, .streamEnd] := by
  let first : List Char := ['\\', 'u', 'D', '8', '3', 'D']
  let second : List Char := ['\\', 'u', 'D', 'E', '0', '0']
  have hkey : Yaml.IsKey "image".toList := ⟨by decide, by decide, by decide⟩
  have hreads : Yaml.Reads '\x22' (first ++ second) ['\x22'] halvedImage.points :=
    .append (.code rfl rfl rfl (by decide)) (.code rfl rfl rfl (by decide))
  have htext : renderedChart.toList =
      "image".toList ++ ':' :: ' ' :: '\x22' :: (first ++ second ++ ['\x22']) := rfl
  rw [Yaml.Token.ofText_eq (by decide) (by decide), htext]
  obtain ⟨c, tokens, hc, hrun, htokens⟩ := Yaml.run_key hkey
    (rfl : Yaml.endsToken (' ' :: '\x22' :: (first ++ second ++ ['\x22'])).head? = true)
  rw [hrun, Yaml.run_quoted (.inl rfl) hc (.inl rfl) hreads Yaml.optional_nil, htokens]
  rfl

theorem chartImages_renderedChart : chartImages renderedChart = .ok [halvedImage] := by
  rw [chartImages, Yaml.load, ofText_renderedChart]
  rfl

/-- The manifest that is discovered there with the certificate manager. -/
def halvedManifest : Manifest RawText where
  images := [.ofString "entry", halvedImage]
  policies := ["entry"]
  charts := publishedManifest.charts ++ ["https://charts.jetstack.io/cert-manager:v1.10.1"]

theorem alwaysReturns_build_halved : AlwaysReturns publishingHost
    ({ withCertificateManager := true } : Discovery).build halvedManifest := by
  have hadded : AlwaysReturns publishingHost (certificateManagerImages {}) [halvedImage] := by
    have houtput : publishingOutput (renderManager {}) = renderedChart := rfl
    unfold certificateManagerImages
    apply (alwaysReturns_run rfl).bind
    change AlwaysReturns publishingHost
      (Action.ofExcept (chartImages (publishingOutput (renderManager {}))) >>= _) _
    rw [houtput, chartImages_renderedChart]
    apply (alwaysReturns_ofExcept rfl).bind
    exact alwaysReturns_pure _
  have himages : AlwaysReturns publishingHost
      (({ withCertificateManager := true } : Discovery).listImages "kubewarden-defaults-1"
        publishedAssets) [.ofString "entry", halvedImage] := by
    unfold listImages
    apply alwaysReturns_listedImages.bind
    apply hadded.bind
    exact alwaysReturns_pure _
  have hcharts : AlwaysReturns publishingHost
      (({ withCertificateManager := true } : Discovery).listCharts (.ofString "https://charts"))
        halvedManifest.charts := by
    unfold listCharts
    apply (alwaysReturns_platformCharts true).bind
    exact alwaysReturns_pure _
  exact alwaysReturns_build himages hcharts rfl

end OfflineSupply.Discovery
