import OfflineSupply.Install.Plan
import OfflineSupply.Proofs.Manifest.Reading

/-!
# When there is a plan

The charts of a manifest are looked up by name, and a lookup succeeds when exactly one of them has
the name.  So there is a plan when each chart that is to be installed is listed exactly once; it
installs the certificate manager first if a chart of the marking name is listed, and then the core
charts.
-/

namespace OfflineSupply

namespace Manifest

variable {Image : Type} {m : Manifest Image} {refs : List Reference} {name : String} {platform : Platform}

theorem count_names : (refs.map Reference.name).count name =
    (refs.filter (·.name == name)).length := by
  rw [List.count, List.countP_map, List.countP_eq_length_filter]
  rfl

/-- A chart is found when it is the only one of its name. -/
theorem findChart_eq_ok_iff (hrefs : m.chartReferences = .ok refs) {ref : Reference} :
    m.findChart name = .ok ref ↔ refs.filter (·.name == name) = [ref] := by
  simp only [findChart, hrefs]
  cases hsame : refs.filter (·.name == name) with
  | nil => simp
  | cons first more => cases more <;> simp

/-- The one chart of a name is found when exactly one has it. -/
theorem findChart_isOk_iff (hrefs : m.chartReferences = .ok refs) :
    (∃ ref, m.findChart name = .ok ref) ↔ (refs.map Reference.name).count name = 1 := by
  rw [count_names, List.length_eq_one_iff]
  exact exists_congr fun _ ↦ findChart_eq_ok_iff hrefs

/-- A chart that is not found is missing or repeated. -/
theorem findChart_eq_error (hrefs : m.chartReferences = .ok refs) {e : Failure}
    (h : m.findChart name = .error e) :
    ((refs.map Reference.name).count name = 0 ∧ e = .manifest (.missingChart name)) ∨
      2 ≤ (refs.map Reference.name).count name ∧
        ∃ same, e = .manifest (.repeatedChart name same) := by
  unfold findChart at h
  rw [hrefs] at h
  rw [count_names]
  cases hsame : refs.filter (·.name == name) with
  | nil =>
    simp only [hsame, Except.error.injEq] at h
    exact .inl ⟨rfl, h.symm⟩
  | cons ref more =>
    cases more with
    | nil => simp [hsame] at h
    | cons ref' more =>
      simp only [hsame, Except.error.injEq] at h
      exact .inr ⟨by simp, _, h.symm⟩

/-- A chart that is found is one of those that were read. -/
theorem mem_of_findChart (hrefs : m.chartReferences = .ok refs) {ref : Reference}
    (h : m.findChart name = .ok ref) : ref ∈ refs := by
  have hmem : ref ∈ refs.filter (·.name == name) := by
    rw [(findChart_eq_ok_iff hrefs).mp h]
    exact List.mem_singleton_self ref
  exact List.mem_of_mem_filter hmem

/-- A chart of the manifest is the one that is found under its name, if one is found. -/
theorem eq_of_findChart (hrefs : m.chartReferences = .ok refs) {ref ref' : Reference}
    (h : m.findChart ref'.name = .ok ref) (hlisted : ref' ∈ refs) : ref' = ref := by
  have hmem : ref' ∈ refs.filter (·.name == ref'.name) := by
    simp [hlisted]
  rwa [(findChart_eq_ok_iff hrefs).mp h, List.mem_singleton] at hmem

theorem listsCertificateManager_eq (hrefs : m.chartReferences = .ok refs) :
    m.listsCertificateManager =
      .ok (decide (certificateManagerChart ∈ refs.map Reference.name)) := by
  unfold listsCertificateManager
  rw [hrefs]
  change Except.ok _ = Except.ok _
  rw [Except.ok.injEq, Bool.eq_iff_iff]
  simp

/-- No core chart is missing when each is among the names of the charts. -/
theorem missingCharts_eq_nil_iff :
    m.missingCharts platform = .ok [] ↔ ∃ refs, m.chartReferences = .ok refs ∧
      ∀ chart ∈ platform.coreCharts, chart ∈ refs.map Reference.name := by
  unfold missingCharts
  cases m.chartReferences with
  | error e => simp [Except.map]
  | ok refs => simp [Except.map]

end Manifest

namespace Installation

variable {Image : Type} {m : Manifest Image} {refs : List Reference} {s : Settings} {platform : Platform}
  {registry : String}

theorem chartFileOf_isOk_iff (hrefs : m.chartReferences = .ok refs) {chart : String} :
    (∃ p, chartFileOf m s chart = .ok p) ↔ (refs.map Reference.name).count chart = 1 := by
  rw [← Manifest.findChart_isOk_iff hrefs]
  unfold chartFileOf
  simp only [map_eq_ok_iff]
  constructor
  · intro ⟨_, ref, hfound, _⟩
    exact ⟨ref, hfound⟩
  · intro ⟨ref, hfound⟩
    exact ⟨_, ref, hfound, rfl⟩

/-- A chart that has no file is missing in the manifest or repeated in it. -/
def Unsuited (names : List String) (e : Failure) : Prop :=
  ∃ chart, (names.count chart = 0 ∧ e = .manifest (.missingChart chart)) ∨
    2 ≤ names.count chart ∧ ∃ same, e = .manifest (.repeatedChart chart same)

theorem unsuited_of_chartFileOf (hrefs : m.chartReferences = .ok refs) {chart : String}
    {e : Failure} (h : chartFileOf m s chart = .error e) :
    Unsuited (refs.map Reference.name) e := by
  unfold chartFileOf at h
  rw [map_eq_error_iff] at h
  exact ⟨chart, Manifest.findChart_eq_error hrefs h⟩

/-- The core charts are planned when each is listed exactly once. -/
theorem core_isOk_iff (hrefs : m.chartReferences = .ok refs) :
    (∃ is, core m s platform registry = .ok is) ↔
      ∀ chart ∈ platform.coreCharts, (refs.map Reference.name).count chart = 1 := by
  have hcore : (∀ chart ∈ platform.coreCharts, (refs.map Reference.name).count chart = 1) ↔
      (∃ p, chartFileOf m s platform.definitionsChart = .ok p) ∧
        (∃ p, chartFileOf m s platform.controllerChart = .ok p) ∧
          ∃ p, chartFileOf m s platform.defaultsChart = .ok p := by
    simp [Platform.coreCharts, chartFileOf_isOk_iff hrefs]
  rw [hcore]
  unfold core
  simp only [bind_eq_ok_iff]
  constructor
  · intro ⟨_, definitions, hdefinitions, controller, hcontroller, defaults, hdefaults, _⟩
    exact ⟨⟨definitions, hdefinitions⟩, ⟨controller, hcontroller⟩, ⟨defaults, hdefaults⟩⟩
  · intro ⟨⟨definitions, hdefinitions⟩, ⟨controller, hcontroller⟩, ⟨defaults, hdefaults⟩⟩
    exact ⟨_, definitions, hdefinitions, controller, hcontroller, defaults, hdefaults, rfl⟩

theorem releases_core {is : List Installation} (h : core m s platform registry = .ok is) :
    is.map release = platform.coreCharts := by
  unfold core at h
  simp only [bind_eq_ok_iff] at h
  obtain ⟨definitions, -, controller, -, defaults, -, his⟩ := h
  rw [← Except.ok.inj his]
  rfl

theorem unsuited_of_core (hrefs : m.chartReferences = .ok refs) {e : Failure}
    (h : core m s platform registry = .error e) : Unsuited (refs.map Reference.name) e := by
  unfold core at h
  simp only [bind_eq_error_iff] at h
  rcases h with h | ⟨_, -, h | ⟨_, -, h | ⟨_, -, h⟩⟩⟩
  · exact unsuited_of_chartFileOf hrefs h
  · exact unsuited_of_chartFileOf hrefs h
  · exact unsuited_of_chartFileOf hrefs h
  · simp [pure, Except.pure] at h

/-! ## The whole plan -/

/-- What stands in front of the core charts: the certificate manager, if a chart is listed that
marks one. -/
def front {Image : Type} (m : Manifest Image) (s : Settings) (platform : Platform) (registry : String)
    (names : List String) : Except Failure (List Installation) :=
  if Manifest.certificateManagerChart ∈ names then
    (certificateManager m s platform registry).map ([·])
  else .ok []

theorem plan_eq (hrefs : m.chartReferences = .ok refs) (hregistry : s.registry? = some registry) :
    plan m s platform =
      (do let manager ← front m s platform registry (refs.map Reference.name)
          let core ← core m s platform registry
          return manager ++ core) := by
  unfold plan front
  rw [hregistry, Manifest.listsCertificateManager_eq hrefs]
  by_cases hlisted : Manifest.certificateManagerChart ∈ refs.map Reference.name
  · simp only [hlisted, Option.elim_some, bind, Except.bind, decide_true, if_true]
  · simp only [hlisted, Option.elim_some, bind, Except.bind, decide_false, if_false,
      Bool.false_eq_true]

/-- The releases that stand in front of the core charts. -/
def frontReleases (platform : Platform) (names : List String) : List String :=
  if Manifest.certificateManagerChart ∈ names then [platform.certificateManager.chart] else []

theorem front_isOk_iff (hrefs : m.chartReferences = .ok refs) :
    (∃ is, front m s platform registry (refs.map Reference.name) = .ok is) ↔
      (Manifest.certificateManagerChart ∈ refs.map Reference.name →
        (refs.map Reference.name).count platform.certificateManager.chart = 1) := by
  unfold front
  by_cases hlisted : Manifest.certificateManagerChart ∈ refs.map Reference.name
  · rw [if_pos hlisted, ← chartFileOf_isOk_iff (s := s) hrefs]
    unfold certificateManager
    simp only [map_eq_ok_iff, bind_eq_ok_iff]
    constructor
    · intro ⟨_, _, ⟨p, hfile, _⟩, _⟩ _
      exact ⟨p, hfile⟩
    · intro h
      obtain ⟨p, hfile⟩ := h hlisted
      exact ⟨_, _, ⟨p, hfile, rfl⟩, rfl⟩
  · rw [if_neg hlisted]
    simp [hlisted]

/-- What stands in front of the core charts is the certificate manager or nothing. -/
theorem front_eq_ok_iff {names : List String} {is : List Installation} :
    front m s platform registry names = .ok is ↔
      (Manifest.certificateManagerChart ∈ names ∧
        ∃ i, certificateManager m s platform registry = .ok i ∧ is = [i]) ∨
      (Manifest.certificateManagerChart ∉ names ∧ is = []) := by
  unfold front
  by_cases hlisted : Manifest.certificateManagerChart ∈ names
  · rw [if_pos hlisted, map_eq_ok_iff]
    simp [hlisted, eq_comm]
  · rw [if_neg hlisted]
    simp [hlisted, eq_comm]

/-- The certificate manager is installed from the file of its chart, into a cluster namespace that it
makes. -/
theorem of_certificateManager {i : Installation}
    (h : certificateManager m s platform registry = .ok i) :
    i.release = platform.certificateManager.chart ∧ i.createNamespace = true ∧
      chartFileOf m s i.release = .ok i.chartFile := by
  obtain ⟨p, hfile, hi⟩ := bind_eq_ok_iff.mp h
  rw [← Except.ok.inj hi]
  exact ⟨rfl, rfl, hfile⟩

theorem releases_front {names : List String} {is : List Installation}
    (h : front m s platform registry names = .ok is) :
    is.map release = frontReleases platform names := by
  unfold frontReleases
  obtain ⟨hlisted, i, hi, rfl⟩ | ⟨hlisted, rfl⟩ := front_eq_ok_iff.mp h
  · rw [if_pos hlisted, List.map_singleton, (of_certificateManager hi).1]
  · rw [if_neg hlisted, List.map_nil]

theorem unsuited_of_front (hrefs : m.chartReferences = .ok refs) {names : List String}
    {e : Failure} (h : front m s platform registry names = .error e) :
    Unsuited (refs.map Reference.name) e := by
  unfold front at h
  split at h
  · unfold certificateManager at h
    simp only [map_eq_error_iff, bind_eq_error_iff] at h
    rcases h with h | ⟨_, -, h⟩
    · exact unsuited_of_chartFileOf hrefs h
    · simp [pure, Except.pure] at h
  · simp at h

/-- A plan is what stands in front of the core charts and then these. -/
theorem plan_eq_ok_iff (hrefs : m.chartReferences = .ok refs)
    (hregistry : s.registry? = some registry) {is : List Installation} :
    plan m s platform = .ok is ↔ ∃ manager installed,
      front m s platform registry (refs.map Reference.name) = .ok manager ∧
        core m s platform registry = .ok installed ∧ is = manager ++ installed := by
  rw [plan_eq hrefs hregistry]
  simp only [bind_eq_ok_iff]
  constructor
  · intro ⟨manager, hmanager, installed, hcore, his⟩
    exact ⟨manager, installed, hmanager, hcore, (Except.ok.inj his).symm⟩
  · intro ⟨manager, installed, hmanager, hcore, his⟩
    exact ⟨manager, hmanager, installed, hcore, by rw [his]; rfl⟩

/-- There is a plan when every chart that is to be installed is listed exactly once. -/
theorem plan_isOk_iff (hrefs : m.chartReferences = .ok refs)
    (hregistry : s.registry? = some registry) :
    (∃ is, plan m s platform = .ok is) ↔
      (∀ chart ∈ platform.coreCharts, (refs.map Reference.name).count chart = 1) ∧
        (Manifest.certificateManagerChart ∈ refs.map Reference.name →
          (refs.map Reference.name).count platform.certificateManager.chart = 1) := by
  rw [← core_isOk_iff (s := s) hrefs, ← front_isOk_iff (s := s) hrefs]
  simp only [plan_eq_ok_iff hrefs hregistry]
  constructor
  · intro ⟨_, manager, installed, hmanager, hcore, _⟩
    exact ⟨⟨installed, hcore⟩, ⟨manager, hmanager⟩⟩
  · intro ⟨⟨installed, hcore⟩, ⟨manager, hmanager⟩⟩
    exact ⟨_, manager, installed, hmanager, hcore, rfl⟩

/-- A plan installs the certificate manager first, if it does at all, and then the core charts. -/
theorem releases_plan (hrefs : m.chartReferences = .ok refs)
    (hregistry : s.registry? = some registry) {is : List Installation}
    (h : plan m s platform = .ok is) :
    is.map release =
      frontReleases platform (refs.map Reference.name) ++ platform.coreCharts := by
  obtain ⟨manager, installed, hmanager, hcore, rfl⟩ := (plan_eq_ok_iff hrefs hregistry).mp h
  rw [List.map_append, releases_front hmanager, releases_core hcore]

/-! ## Planned files -/

theorem listed_of_chartFileOf (hrefs : m.chartReferences = .ok refs) {chart : String} {p : Path}
    (h : chartFileOf m s chart = .ok p) : ∃ ref ∈ refs, p = s.chartFile ref := by
  obtain ⟨ref, hfound, hfile⟩ := map_eq_ok_iff.mp h
  exact ⟨ref, Manifest.mem_of_findChart hrefs hfound, hfile.symm⟩

theorem registry_of_plan {is : List Installation} (h : plan m s platform = .ok is) :
    ∃ registry, s.registry? = some registry := by
  obtain ⟨registry, hregistry, -⟩ := bind_eq_ok_iff.mp h
  cases hgiven : s.registry? with
  | none => simp [hgiven] at hregistry
  | some registry => exact ⟨registry, rfl⟩

theorem chartReferences_of_plan {is : List Installation} (h : plan m s platform = .ok is) :
    ∃ refs, m.chartReferences = .ok refs := by
  unfold plan at h
  simp only [bind_eq_ok_iff] at h
  obtain ⟨_, -, _, hlisted, -⟩ := h
  obtain ⟨refs, hrefs, -⟩ := map_eq_ok_iff.mp hlisted
  exact ⟨refs, hrefs⟩

/-- Every chart file of a plan is the file of the one chart that has the name of the release. -/
theorem chartFileOf_of_plan (hrefs : m.chartReferences = .ok refs) {is : List Installation}
    (h : plan m s platform = .ok is) :
    ∀ i ∈ is, chartFileOf m s i.release = .ok i.chartFile := by
  obtain ⟨registry, hregistry⟩ := registry_of_plan h
  obtain ⟨manager, installed, hmanager, hcore, rfl⟩ := (plan_eq_ok_iff hrefs hregistry).mp h
  rw [List.forall_mem_append]
  constructor
  · obtain ⟨-, first, hfirst, rfl⟩ | ⟨-, rfl⟩ := front_eq_ok_iff.mp hmanager
    · rw [List.forall_mem_singleton]
      exact (of_certificateManager hfirst).2.2
    · simp
  · unfold core at hcore
    simp only [bind_eq_ok_iff] at hcore
    obtain ⟨definitions, hdefinitions, controller, hcontroller, defaults, hdefaults, hcore⟩ := hcore
    rw [← Except.ok.inj hcore, List.forall_mem_cons, List.forall_mem_cons,
      List.forall_mem_singleton]
    exact ⟨hdefinitions, hcontroller, hdefaults⟩

/-- Every chart file of a plan is the file of a chart that the manifest lists. -/
theorem listed_of_plan (hrefs : m.chartReferences = .ok refs) {is : List Installation}
    (h : plan m s platform = .ok is) :
    ∀ i ∈ is, ∃ ref ∈ refs, i.chartFile = s.chartFile ref :=
  fun i hi ↦ listed_of_chartFileOf hrefs (chartFileOf_of_plan hrefs h i hi)

/-- The release that has the name of a chart of the manifest is installed from the file of that
chart. -/
theorem chartFile_of_plan (hrefs : m.chartReferences = .ok refs) {is : List Installation}
    (h : plan m s platform = .ok is) {ref : Reference} (hlisted : ref ∈ refs) :
    ∀ i ∈ is, i.release = ref.name → i.chartFile = s.chartFile ref := by
  intro i hi hname
  have hfile := chartFileOf_of_plan hrefs h i hi
  rw [hname] at hfile
  obtain ⟨found, hfound, hplanned⟩ := map_eq_ok_iff.mp hfile
  rw [← hplanned, Manifest.eq_of_findChart hrefs hfound hlisted]

theorem unsuited_of_plan (hrefs : m.chartReferences = .ok refs)
    (hregistry : s.registry? = some registry) {e : Failure}
    (h : plan m s platform = .error e) : Unsuited (refs.map Reference.name) e := by
  rw [plan_eq hrefs hregistry] at h
  simp only [bind_eq_error_iff] at h
  rcases h with h | ⟨_, -, h | ⟨_, -, h⟩⟩
  · exact unsuited_of_front hrefs h
  · exact unsuited_of_core hrefs h
  · simp [pure, Except.pure] at h

end Installation

end OfflineSupply
