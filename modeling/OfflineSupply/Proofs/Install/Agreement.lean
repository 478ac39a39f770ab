import OfflineSupply.Proofs.Discovery.Answering
import OfflineSupply.Proofs.Install.Plan

/-!
# Discovery and installation agree

A discovery only makes sure that no core chart is missing, while a plan needs each chart exactly once and
is led by a chart of the marking name, whoever listed it.  So a plan for a discovered manifest depends
on what the repository publishes as well as on what was asked for.
-/

namespace OfflineSupply

open Installation

variable {d : Discovery} {host : Host} {s : Session} {m : Manifest RawText} {settings : Settings}
  {registry : String} {published pinned : List Reference}

/-- The references that entries of a manifest spell, in their order. -/
def Spelled (entries : List String) (refs : List Reference) : Prop :=
  List.Forall₂ (fun value ref ↦ Reference.ofChart value = .ok ref) entries refs

/-- The pinned certificate manager is spelled as a chart of the marking name. -/
def PinsMarked (d : Discovery) : Prop :=
  ∃ ref, Reference.ofChart d.platform.certificateManager.chartReference = .ok ref ∧
    ref.name = Manifest.certificateManagerChart

/-- How a plan stands to the charts that a repository published and to those that were pinned. -/
structure Agreement (d : Discovery) (m : Manifest RawText) (settings : Settings)
    (published pinned : List Reference) : Prop where
  /-- No core chart is missing. -/
  complete : ∀ chart ∈ d.platform.coreCharts, chart ∈ (published ++ pinned).map Reference.name
  /-- There is a plan when no core chart is repeated, and the certificate manager is listed once if a
  chart of the marking name is. -/
  planned : (∃ is, plan m settings d.platform = .ok is) ↔
    (∀ chart ∈ d.platform.coreCharts, ((published ++ pinned).map Reference.name).count chart = 1) ∧
      (Manifest.certificateManagerChart ∈ (published ++ pinned).map Reference.name →
        ((published ++ pinned).map Reference.name).count d.platform.certificateManager.chart = 1)
  releases : ∀ is, plan m settings d.platform = .ok is → is.map release =
    frontReleases d.platform ((published ++ pinned).map Reference.name) ++ d.platform.coreCharts
  /-- The certificate manager comes first when a chart of the marking name was published or pinned. -/
  first : ∀ is, plan m settings d.platform = .ok is →
    (is.head?.map release = some d.platform.certificateManager.chart ↔
      (∃ ref ∈ published, ref.name = Manifest.certificateManagerChart) ∨
        (d.withCertificateManager = true ∧ PinsMarked d) ∨
          d.platform.definitionsChart = d.platform.certificateManager.chart)
  /-- Otherwise the manifest is found invalid. -/
  refused : ∀ e, plan m settings d.platform = .error e →
    Unsuited ((published ++ pinned).map Reference.name) e

theorem spelled_append {entries more : List String} {refs : List Reference}
    (h : Spelled (entries ++ more) refs) :
    ∃ refs₁ refs₂, Spelled entries refs₁ ∧ Spelled more refs₂ ∧ refs = refs₁ ++ refs₂ := by
  have htake := List.forall₂_take entries.length h
  have hdrop := List.forall₂_drop entries.length h
  rw [List.take_left] at htake
  rw [List.drop_left] at hdrop
  exact ⟨_, _, htake, hdrop, (List.take_append_drop entries.length refs).symm⟩

/-- A chart of the marking name is listed when it was published, or asked for and pinned. -/
theorem marked_iff (hpinned : Spelled d.pinnedCharts pinned) :
    Manifest.certificateManagerChart ∈ (published ++ pinned).map Reference.name ↔
      (∃ ref ∈ published, ref.name = Manifest.certificateManagerChart) ∨
        (d.withCertificateManager = true ∧ PinsMarked d) := by
  have hmarked : (∃ ref ∈ pinned, ref.name = Manifest.certificateManagerChart) ↔
      (d.withCertificateManager = true ∧ PinsMarked d) := by
    simp only [mem_read_iff hpinned]
    unfold Discovery.pinnedCharts PinsMarked
    cases d.withCertificateManager with
    | false => simp
    | true => simp
  rw [List.map_append, List.mem_append, List.mem_map, List.mem_map, hmarked]

theorem first_iff {platform : Platform} {names : List String} {is : List Installation}
    (h : is.map release = frontReleases platform names ++ platform.coreCharts) :
    is.head?.map release = some platform.certificateManager.chart ↔
      Manifest.certificateManagerChart ∈ names ∨
        platform.definitionsChart = platform.certificateManager.chart := by
  rw [← List.head?_map, h]
  unfold frontReleases
  by_cases hmarked : Manifest.certificateManagerChart ∈ names
  · simp [hmarked]
  · simp [hmarked, Platform.coreCharts]

/-- If the repository publishes no chart of the marking name and every chart that is needed is listed
once, there is a plan, and it begins with the certificate manager exactly when that was asked for. -/
theorem Agreement.as_asked (h : Agreement d m settings published pinned)
    (hpinned : Spelled d.pinnedCharts pinned) (hpins : PinsMarked d)
    (hunmarked : ∀ ref ∈ published, ref.name ≠ Manifest.certificateManagerChart)
    (hapart : d.platform.definitionsChart ≠ d.platform.certificateManager.chart)
    (hcore : ∀ chart ∈ d.platform.coreCharts,
      ((published ++ pinned).map Reference.name).count chart = 1)
    (hmanager : d.withCertificateManager = true →
      ((published ++ pinned).map Reference.name).count d.platform.certificateManager.chart = 1) :
    ∃ is, plan m settings d.platform = .ok is ∧
      (is.head?.map release = some d.platform.certificateManager.chart ↔
        d.withCertificateManager = true) := by
  have hnone : ¬ ∃ ref ∈ published, ref.name = Manifest.certificateManagerChart :=
    fun ⟨ref, href, hname⟩ ↦ hunmarked ref href hname
  have hasked : Manifest.certificateManagerChart ∈ (published ++ pinned).map Reference.name →
      d.withCertificateManager = true := by
    rw [marked_iff hpinned]
    intro hmarked
    exact (hmarked.resolve_left hnone).1
  obtain ⟨is, his⟩ := h.planned.mpr ⟨hcore, fun hmarked ↦ hmanager (hasked hmarked)⟩
  have hfirst := h.first is his
  simp only [hnone, hpins, hapart, false_or, or_false, and_true] at hfirst
  exact ⟨is, his, hfirst⟩

/-- Whatever the repository publishes and the host answers, a manifest that was discovered and its
plan agree in this way. -/
theorem discovered_plan_agrees (hbuild : (d.build.run host s).1 = .ok m)
    (hregistry : settings.registry? = some registry) :
    ∃ listed published pinned, d.Indexed host listed ∧ m.charts = listed ++ d.pinnedCharts ∧
      Spelled listed published ∧ Spelled d.pinnedCharts pinned ∧
        Agreement d m settings published pinned := by
  obtain ⟨s', hreturns⟩ := Action.run_eq_ok_iff.mp hbuild
  obtain ⟨⟨listed, hindexed, hcharts⟩, hmissing⟩ := Discovery.indexed_of_build hreturns
  obtain ⟨refs, hrefs, hcomplete⟩ := Manifest.missingCharts_eq_nil_iff.mp hmissing
  have hspelled : Spelled (listed ++ d.pinnedCharts) refs :=
    hcharts ▸ Manifest.chartReferences_eq_ok_iff.mp hrefs
  obtain ⟨published, pinned, hpublished, hpinned, rfl⟩ := spelled_append hspelled
  refine ⟨listed, published, pinned, hindexed, hcharts, hpublished, hpinned, ?_⟩
  constructor
  · exact hcomplete
  · exact plan_isOk_iff hrefs hregistry
  · intro is his
    exact releases_plan hrefs hregistry his
  · intro is his
    rw [first_iff (releases_plan hrefs hregistry his), marked_iff hpinned, or_assoc]
  · intro e he
    exact unsuited_of_plan hrefs hregistry he

theorem build_publishingHost :
    ((({} : Discovery).build.run Discovery.publishingHost { files := .empty [] }).1 =
      .ok Discovery.publishedManifest) :=
  Action.run_eq_ok_iff.mpr (Discovery.alwaysReturns_build_published _)

/-- A manifest that lists a certificate manager although none was asked for agrees with its plan. -/
theorem published_manager_agrees :
    ∃ listed published pinned, ({} : Discovery).Indexed Discovery.publishingHost listed ∧
      Discovery.publishedManifest.charts = listed ++ ({} : Discovery).pinnedCharts ∧
      Spelled listed published ∧ Spelled ({} : Discovery).pinnedCharts pinned ∧
        Agreement {} Discovery.publishedManifest { registry := some "mirror:5000" } published
          pinned :=
  discovered_plan_agrees build_publishingHost rfl

/-- A plan may begin with the certificate manager although none was asked for. -/
theorem manager_planned_unasked :
    ¬ ∀ (d : Discovery) (host : Host) (s : Session) (m : Manifest RawText) (settings : Settings)
        (registry : String), (d.build.run host s).1 = .ok m →
          settings.registry? = some registry →
          ∃ is, plan m settings d.platform = .ok is ∧
            (is.head?.map release = some d.platform.certificateManager.chart ↔
              d.withCertificateManager = true) := by
  intro h
  obtain ⟨is, his, hfirst⟩ :=
    h {} Discovery.publishingHost { files := .empty [] } Discovery.publishedManifest
      { registry := some "mirror:5000" } "mirror:5000" build_publishingHost rfl
  have hplan : (plan Discovery.publishedManifest { registry := some "mirror:5000" } {}).map
      (fun is ↦ is.head?.map release) = .ok (some "cert-manager") := rfl
  rw [his] at hplan
  have hasked : ({} : Discovery).withCertificateManager = true :=
    hfirst.mp (Except.ok.inj hplan)
  exact Bool.false_ne_true hasked

end OfflineSupply
