import OfflineSupply.Discovery.Basic
import OfflineSupply.Proofs.Session.Frame

/-!
# What a discovery asks

A discovery starts no processes but questions to the chart store: for the repositories, for charts
and, if the certificate manager is asked for, for its rendered chart.  Besides it makes requests.
So whatever these processes and all requests keep is kept by a whole discovery, however it ends.
-/

namespace OfflineSupply

open OfflineSupply.Action

variable {frame : Session.Frame} {host : Host}

/-! ## The stores -/

namespace ChartStore

theorem keeps_repositoryUrl (name : String) (h : Keeps frame host listRepositories.spawn) :
    Keeps frame host (repositoryUrl name) := by
  apply (Command.keeps_run h).attempt.bind
  intro result
  split
  · split
    · exact (keeps_log _ _ _).bind fun _ ↦ keeps_pure _
    · exact keeps_fail _
  · exact (keeps_ofExcept _).bind fun _ ↦ keeps_pure _

theorem keeps_search {wanted : String} (h : Keeps frame host (searchFor wanted).spawn) :
    Keeps frame host (search wanted) :=
  (Command.keeps_run h).bind fun _ ↦ (keeps_ofExcept _).bind fun _ ↦
    (keeps_ofExcept _).bind fun _ ↦ (keeps_log _ _ _).bind fun _ ↦ keeps_pure _

end ChartStore

/-- Making a request keeps the frame. -/
def Session.Frame.AdmitsRequests (frame : Session.Frame) : Prop :=
  ∀ (s : Session) (request : Request), frame.keeps s (s.addRequest request)

theorem Session.Frame.growing_admitsRequests : Frame.growing.AdmitsRequests :=
  fun _ _ ↦ ⟨List.prefix_rfl, List.prefix_append ..⟩

namespace ReleaseService

theorem keeps_fetch (h : frame.AdmitsRequests) (url : String) (headers : List (String × String)) :
    Keeps frame host (fetch url headers) := by
  have hhost : Keeps frame host Action.host := fun s ↦ frame.of_untouched (.refl s)
  have hrequest (request : Request) : Keeps frame host (modify (·.addRequest request)) :=
    fun s ↦ h s request
  apply (keeps_log _ _ _).bind
  intro _
  apply hhost.bind
  intro _
  apply keeps_session.bind
  intro _
  apply (hrequest _).bind
  intro _
  split
  · exact keeps_fail _
  · split
    · exact keeps_fail _
    · exact keeps_pure _

theorem keeps_listAssets (h : frame.AdmitsRequests) (service : ReleaseService) (tag : String) :
    Keeps frame host (service.listAssets tag) := by
  apply (keeps_fetch h _ _).bind
  intro body
  split
  · exact keeps_fail _
  · exact keeps_ofExcept _

end ReleaseService

/-! ## The stages -/

namespace Discovery

variable {d : Discovery} {assets : List ReleaseAsset} {tag ending : String}

/-- The name of the defaults chart in the index. -/
def defaultsName (d : Discovery) : String :=
  d.platform.repositoryName ++ "/" ++ d.platform.defaultsChart

/-- Renders the certificate manager. -/
def renderManager (manager : CertificateManager) : Command :=
  ChartStore.render manager.repositoryUrl manager.chart (some manager.version)

theorem keeps_fetchListing (h : frame.AdmitsRequests) :
    Keeps frame host (fetchListing assets tag ending) := by
  apply (keeps_ofExcept _).bind
  intro url
  apply (ReleaseService.keeps_fetch h _ _).bind
  intro body
  change Keeps frame host (if (Listing.entries body).isEmpty then _ else _)
  split
  · exact keeps_fail _
  · exact (keeps_log _ _ _).bind fun _ ↦ keeps_pure _

theorem keeps_certificateManagerImages {manager : CertificateManager}
    (h : Keeps frame host (renderManager manager).spawn) :
    Keeps frame host (certificateManagerImages manager) := by
  apply (Command.keeps_run h).bind
  intro content
  apply (keeps_ofExcept _).bind
  intro found
  split
  · exact keeps_fail _
  · exact keeps_pure _

theorem keeps_defaultsVersion
    (h : Keeps frame host (ChartStore.searchFor d.defaultsName).spawn) :
    Keeps frame host d.defaultsVersion := by
  apply (ChartStore.keeps_search h).bind
  intro entries
  split
  · exact keeps_pure _
  · exact keeps_fail _

theorem keeps_listCharts
    (h : Keeps frame host (ChartStore.searchFor d.platform.repositoryName).spawn)
    (repositoryUrl : Json) : Keeps frame host (d.listCharts repositoryUrl) := by
  have hplatform : Keeps frame host (d.platformCharts repositoryUrl) := by
    apply (ChartStore.keeps_search h).bind
    intro found
    apply (keeps_ofExcept _).bind
    intro own
    split
    · exact keeps_fail _
    · exact (keeps_ofExcept _).bind fun _ ↦ keeps_pure _
  apply hplatform.bind
  intro listed
  split
  · exact keeps_pure _
  · exact keeps_pure _

/-! ## The whole discovery -/

/-- The commands that a discovery asks its questions with. -/
inductive Asks (d : Discovery) : Command → Prop
  | repositories : d.Asks ChartStore.listRepositories
  | defaults : d.Asks (ChartStore.searchFor d.defaultsName)
  | charts : d.Asks (ChartStore.searchFor d.platform.repositoryName)
  | manager (h : d.withCertificateManager = true) :
    d.Asks (renderManager d.platform.certificateManager)

/-- A discovery keeps what the processes of its questions and all requests keep. -/
theorem keeps_build (hasks : ∀ c, d.Asks c → Keeps frame host c.spawn)
    (hrequests : frame.AdmitsRequests) : Keeps frame host d.build := by
  have hresolve : Keeps frame host d.resolveRelease :=
    (keeps_defaultsVersion (hasks _ .defaults)).bind fun _ ↦ (keeps_log _ _ _).bind fun _ ↦
      (ReleaseService.keeps_listAssets hrequests _ _).bind fun _ ↦ keeps_pure _
  have himages (tag : String) (assets : List ReleaseAsset) :
      Keeps frame host (d.listImages tag assets) := by
    apply (keeps_fetchListing hrequests).bind
    intro listed
    split
    · rename_i hasked
      exact (keeps_certificateManagerImages (hasks _ (.manager hasked))).bind fun _ ↦ keeps_pure _
    · exact keeps_pure _
  apply (ChartStore.keeps_repositoryUrl _ (hasks _ .repositories)).bind
  intro url
  split
  · exact keeps_fail _
  · apply (Stage.keeps_within hresolve).bind
    rintro ⟨tag, assets⟩
    apply (Stage.keeps_within (himages tag assets)).bind
    intro images
    apply (Stage.keeps_within (keeps_fetchListing hrequests)).bind
    intro policies
    apply (Stage.keeps_within (keeps_listCharts (hasks _ .charts) url)).bind
    intro charts
    apply (keeps_ofExcept _).bind
    intro missing
    split
    · exact keeps_pure _
    · exact keeps_fail _

end Discovery

end OfflineSupply
