import Mathlib.Data.List.Perm.Basic
import OfflineSupply.Proofs.Install.Plan

/-!
# Plans and the order of charts

A plan looks charts up by their names, so it depends on which charts a manifest lists and not on the
order in which it lists them.  There is a plan if a registry is given, every chart entry can be read,
and each chart that is to be installed is the chart of exactly one entry; otherwise the first of
these grounds that fails decides how the plan is refused.  The installations of a plan have an order
of their own, in which no cluster namespace is used before it is made.
-/

namespace OfflineSupply

namespace Manifest

variable {m m' : Manifest} {refs : List Reference} {name : String}

/-! ## Entries of a name -/

/-- Whether an entry spells a chart of a name. -/
def spellsChart (name entry : String) : Bool :=
  match Reference.ofChart entry with
  | .ok ref => ref.name == name
  | .error _ => false

/-- The chart entries of a name. -/
def chartsNamed (m : Manifest) (name : String) : List String :=
  m.charts.filter (spellsChart name)

/-- Exactly one chart entry has this name. -/
def ListsOnce (m : Manifest) (name : String) : Prop :=
  ∃ entry, m.chartsNamed name = [entry]

/-- The entries of a name are read as the charts of that name. -/
theorem forall₂_chartsNamed (hrefs : m.chartReferences = .ok refs) (name : String) :
    List.Forall₂ (fun entry ref ↦ Reference.ofChart entry = .ok ref) (m.chartsNamed name)
      (refs.filter (·.name == name)) := by
  refine List.rel_filter ?_ (chartReferences_eq_ok_iff.mp hrefs)
  intro entry ref href
  simp only [spellsChart, href]

theorem listsOnce_iff (hrefs : m.chartReferences = .ok refs) :
    m.ListsOnce name ↔ (refs.map Reference.name).count name = 1 := by
  rw [count_names, ← (forall₂_chartsNamed hrefs name).length_eq, List.length_eq_one_iff, ListsOnce]

theorem chartsNamed_eq_nil_iff (hrefs : m.chartReferences = .ok refs) :
    m.chartsNamed name = [] ↔ name ∉ refs.map Reference.name := by
  rw [← List.count_eq_zero, count_names, ← (forall₂_chartsNamed hrefs name).length_eq,
    List.length_eq_zero_iff]

theorem entry_of_findChart (hrefs : m.chartReferences = .ok refs) {ref : Reference}
    (h : m.findChart name = .ok ref) :
    ∃ entry, m.chartsNamed name = [entry] ∧ Reference.ofChart entry = .ok ref := by
  have hread := forall₂_chartsNamed hrefs name
  rw [(findChart_eq_ok_iff hrefs).mp h, List.forall₂_cons_right_iff] at hread
  obtain ⟨entry, rest, hentry, hrest, hnamed⟩ := hread
  rw [List.forall₂_nil_right_iff] at hrest
  exact ⟨entry, by rw [hnamed, hrest], hentry⟩

/-! ## Charts in another order -/

/-- The same entries in another order are read as the same charts in another order. -/
theorem chartReferences_of_perm (hperm : m'.charts.Perm m.charts)
    (hrefs : m.chartReferences = .ok refs) :
    ∃ refs', m'.chartReferences = .ok refs' ∧ refs'.Perm refs := by
  obtain ⟨refs', hread, hsame⟩ := List.perm_comp_forall₂ hperm (chartReferences_eq_ok_iff.mp hrefs)
  exact ⟨refs', chartReferences_eq_ok_iff.mpr hread, hsame⟩

theorem findChart_of_perm (hperm : m'.charts.Perm m.charts) {ref : Reference}
    (hrefs : m.chartReferences = .ok refs) (h : m.findChart name = .ok ref) :
    m'.findChart name = .ok ref := by
  obtain ⟨refs', hrefs', hsame⟩ := chartReferences_of_perm hperm hrefs
  rw [findChart_eq_ok_iff hrefs] at h
  rw [findChart_eq_ok_iff hrefs', ← List.perm_singleton, ← h]
  exact hsame.filter _

/-- Every chart entry can be read. -/
def Readable (m : Manifest) : Prop :=
  ∀ entry ∈ m.charts, ∃ ref, Reference.ofChart entry = .ok ref

instance : Decidable m.Readable :=
  decidable_of_iff (∀ entry ∈ m.charts, (Reference.ofChart entry).isOk = true) <|
    forall₂_congr fun entry _ ↦ by cases Reference.ofChart entry <;> simp [Except.isOk, Except.toBool]

theorem readable_of_perm (hperm : m'.charts.Perm m.charts) : m'.Readable ↔ m.Readable := by
  simp only [Readable, hperm.mem_iff]

theorem readable_iff : m.Readable ↔ ∃ refs, m.chartReferences = .ok refs := by
  simp only [chartReferences_eq_ok_iff, ← mapM_eq_ok_iff, mapM_isOk_iff, Readable]

/-- Entries of which one is malformed are not read. -/
theorem chartReferences_of_not_readable (h : ¬ m.Readable) :
    ∃ cause, m.chartReferences = .error (.reference cause) := by
  unfold chartReferences
  cases hread : m.charts.mapM Reference.ofChart with
  | error cause => exact ⟨cause, rfl⟩
  | ok refs => exact absurd (mapM_isOk_iff.mp ⟨refs, hread⟩) h

end Manifest

namespace Installation

variable {m m' : Manifest} {refs : List Reference} {s : Settings} {platform : Platform}
  {registry : String} {is js : List Installation}

/-! ## When there is a plan -/

/-- A registry is given, every chart entry can be read and each chart that is to be installed is the
chart of one entry. -/
structure Installable (m : Manifest) (s : Settings) (platform : Platform) : Prop where
  registry : ∃ registry, s.registry = some registry ∧ registry ≠ ""
  readable : m.Readable
  core : ∀ chart ∈ platform.coreCharts, m.ListsOnce chart
  /-- The marking name decides that the certificate manager is installed, and the platform under
  which name it is looked up. -/
  manager : m.chartsNamed Manifest.certificateManagerChart ≠ [] →
    m.ListsOnce platform.certificateManager.chart

theorem registry?_eq_some_iff :
    s.registry? = some registry ↔ s.registry = some registry ∧ registry ≠ "" := by
  simp [Settings.registry?, Option.filter_eq_some_iff]

theorem plan_isOk_iff_installable :
    (∃ is, plan m s platform = .ok is) ↔ Installable m s platform := by
  constructor
  · intro ⟨is, his⟩
    obtain ⟨registry, hregistry⟩ := registry_of_plan his
    obtain ⟨refs, hrefs⟩ := chartReferences_of_plan his
    obtain ⟨hcore, hmanager⟩ := (plan_isOk_iff hrefs hregistry).mp ⟨is, his⟩
    constructor
    · exact ⟨registry, registry?_eq_some_iff.mp hregistry⟩
    · exact Manifest.readable_iff.mpr ⟨refs, hrefs⟩
    · simpa only [Manifest.listsOnce_iff hrefs] using hcore
    · simpa only [Manifest.listsOnce_iff hrefs, ne_eq, Manifest.chartsNamed_eq_nil_iff hrefs,
        not_not] using hmanager
  · intro h
    obtain ⟨registry, hregistry⟩ := h.registry
    obtain ⟨refs, hrefs⟩ := Manifest.readable_iff.mp h.readable
    rw [plan_isOk_iff hrefs (registry?_eq_some_iff.mpr hregistry)]
    constructor
    · simpa only [Manifest.listsOnce_iff hrefs] using h.core
    · simpa only [Manifest.listsOnce_iff hrefs, ne_eq, Manifest.chartsNamed_eq_nil_iff hrefs,
        not_not] using h.manager

/-! ## Cluster namespaces -/

/-- Every installation uses a cluster namespace that it makes itself or an earlier one made. -/
def NamespacesMade (is : List Installation) : Prop :=
  ∀ earlier i, earlier ++ [i] <+: is → ∃ maker ∈ earlier ++ [i],
    maker.createNamespace = true ∧ maker.clusterNamespace = i.clusterNamespace

theorem namespacesMade_nil : NamespacesMade [] := by
  intro earlier i h
  simp at h

theorem NamespacesMade.concat {i : Installation} (h : NamespacesMade is)
    (hmade : ∃ maker ∈ is ++ [i],
      maker.createNamespace = true ∧ maker.clusterNamespace = i.clusterNamespace) :
    NamespacesMade (is ++ [i]) := by
  intro earlier j hj
  rcases List.prefix_concat_iff.mp hj with heq | hj
  · obtain ⟨rfl, hij⟩ := List.append_inj' heq rfl
    obtain rfl : j = i := List.singleton_inj.mp hij
    exact hmade
  · exact h earlier j hj

theorem namespacesMade_front {names : List String}
    (h : front m s platform registry names = .ok is) : NamespacesMade is := by
  obtain ⟨-, i, hi, rfl⟩ | ⟨-, rfl⟩ := front_eq_ok_iff.mp h
  · have hmakes := (of_certificateManager hi).2.1
    exact namespacesMade_nil.concat ⟨i, List.mem_singleton_self i, hmakes, rfl⟩
  · exact namespacesMade_nil

/-- The first core chart makes the cluster namespace of all of them. -/
theorem NamespacesMade.append_core (h : NamespacesMade is)
    (hcore : core m s platform registry = .ok js) : NamespacesMade (is ++ js) := by
  unfold core at hcore
  simp only [bind_eq_ok_iff] at hcore
  obtain ⟨definitions, -, controller, -, defaults, -, hjs⟩ := hcore
  rw [← Except.ok.inj hjs, List.append_cons, List.append_cons (is ++ _)]
  refine ((h.concat ?definitions).concat ?controller).concat ?defaults
  case definitions => exact ⟨_, List.mem_concat_self, rfl, rfl⟩
  case controller => exact ⟨_, List.mem_append_left _ List.mem_concat_self, rfl, rfl⟩
  case defaults =>
    exact ⟨_, List.mem_append_left _ (List.mem_append_left _ List.mem_concat_self), rfl, rfl⟩

theorem namespacesMade_of_plan (h : plan m s platform = .ok is) : NamespacesMade is := by
  obtain ⟨registry, hregistry⟩ := registry_of_plan h
  obtain ⟨refs, hrefs⟩ := chartReferences_of_plan h
  obtain ⟨manager, installed, hmanager, hcore, rfl⟩ := (plan_eq_ok_iff hrefs hregistry).mp h
  exact (namespacesMade_front hmanager).append_core hcore

/-! ## Charts in another order -/

theorem chartFileOf_of_perm (hperm : m'.charts.Perm m.charts) (hrefs : m.chartReferences = .ok refs)
    {chart : String} {p : Path} (h : chartFileOf m s chart = .ok p) :
    chartFileOf m' s chart = .ok p := by
  obtain ⟨ref, hfound, hfile⟩ := map_eq_ok_iff.mp h
  exact map_eq_ok_iff.mpr ⟨ref, Manifest.findChart_of_perm hperm hrefs hfound, hfile⟩

theorem certificateManager_of_perm (hperm : m'.charts.Perm m.charts)
    (hrefs : m.chartReferences = .ok refs) {i : Installation}
    (h : certificateManager m s platform registry = .ok i) :
    certificateManager m' s platform registry = .ok i := by
  unfold certificateManager at h ⊢
  simp only [bind_eq_ok_iff] at h ⊢
  obtain ⟨p, hfile, hi⟩ := h
  exact ⟨p, chartFileOf_of_perm hperm hrefs hfile, hi⟩

theorem core_of_perm (hperm : m'.charts.Perm m.charts) (hrefs : m.chartReferences = .ok refs)
    (h : core m s platform registry = .ok is) : core m' s platform registry = .ok is := by
  unfold core at h ⊢
  simp only [bind_eq_ok_iff] at h ⊢
  obtain ⟨definitions, hdefinitions, controller, hcontroller, defaults, hdefaults, his⟩ := h
  exact ⟨definitions, chartFileOf_of_perm hperm hrefs hdefinitions,
    controller, chartFileOf_of_perm hperm hrefs hcontroller,
    defaults, chartFileOf_of_perm hperm hrefs hdefaults, his⟩

theorem front_of_perm (hperm : m'.charts.Perm m.charts) (hrefs : m.chartReferences = .ok refs)
    {names names' : List String} (hnames : names'.Perm names)
    (h : front m s platform registry names = .ok is) :
    front m' s platform registry names' = .ok is := by
  rw [front_eq_ok_iff] at h ⊢
  rw [hnames.mem_iff]
  refine h.imp_left ?_
  rintro ⟨hlisted, i, hi, his⟩
  exact ⟨hlisted, i, certificateManager_of_perm hperm hrefs hi, his⟩

/-- A plan stays as it is when the charts are listed in another order. -/
theorem plan_of_perm (hperm : m'.charts.Perm m.charts) (h : plan m s platform = .ok is) :
    plan m' s platform = .ok is := by
  obtain ⟨registry, hregistry⟩ := registry_of_plan h
  obtain ⟨refs, hrefs⟩ := chartReferences_of_plan h
  obtain ⟨refs', hrefs', hsame⟩ := Manifest.chartReferences_of_perm hperm hrefs
  obtain ⟨manager, installed, hmanager, hcore, his⟩ := (plan_eq_ok_iff hrefs hregistry).mp h
  exact (plan_eq_ok_iff hrefs' hregistry).mpr
    ⟨manager, installed, front_of_perm hperm hrefs (hsame.map Reference.name) hmanager,
      core_of_perm hperm hrefs hcore, his⟩

/-! ## Refusals -/

/-- The grounds on which a plan is refused. -/
inductive Refusal
  /-- No registry is given. -/
  | registry
  /-- A chart entry is malformed. -/
  | reference
  /-- A chart is missing or repeated. -/
  | manifest

/-- The failures that state a ground. -/
def Refusal.Covers : Refusal → Failure → Prop
  | .registry, e => e = .missingRegistry
  | .reference, e => ∃ cause, e = .reference cause
  | .manifest, e => ∃ cause, e = .manifest cause

/-- The ground that comes first. -/
def refusal (m : Manifest) (s : Settings) : Refusal :=
  if s.registry? = none then .registry
  else if m.Readable then .manifest
  else .reference

theorem refusal_of_perm (hperm : m'.charts.Perm m.charts) : refusal m' s = refusal m s := by
  simp only [refusal, Manifest.readable_of_perm hperm]

/-- A plan that is refused is refused on the ground that comes first. -/
theorem covers_of_plan {e : Failure} (h : plan m s platform = .error e) :
    (refusal m s).Covers e := by
  unfold refusal
  cases hregistry : s.registry? with
  | none =>
    rw [if_pos rfl]
    simpa [plan, hregistry, bind, Except.bind, Refusal.Covers] using h.symm
  | some registry =>
    rw [if_neg (Option.some_ne_none registry)]
    split
    · rename_i hreadable
      obtain ⟨refs, hrefs⟩ := Manifest.readable_iff.mp hreadable
      obtain ⟨chart, ⟨-, he⟩ | ⟨-, same, he⟩⟩ := unsuited_of_plan hrefs hregistry h
      · exact ⟨_, he⟩
      · exact ⟨_, he⟩
    · rename_i hmalformed
      obtain ⟨cause, hcause⟩ := Manifest.chartReferences_of_not_readable hmalformed
      refine ⟨cause, ?_⟩
      simpa [plan, hregistry, Manifest.listsCertificateManager, hcause, bind, Except.bind,
        Except.map] using h.symm

/-- The charts of a manifest decide whether there is a plan and which one. -/
structure DecidedByCharts (m : Manifest) (s : Settings) (platform : Platform) : Prop where
  planned : (∃ is, plan m s platform = .ok is) ↔ Installable m s platform
  releases : ∀ is, plan m s platform = .ok is → is.map release =
    (if m.chartsNamed Manifest.certificateManagerChart = [] then []
      else [platform.certificateManager.chart]) ++
    [platform.definitionsChart, platform.controllerChart, platform.defaultsChart]
  /-- Every release is installed from the file of the one entry of its name. -/
  files : ∀ is, plan m s platform = .ok is → ∀ i ∈ is, ∃ entry ref,
    m.chartsNamed i.release = [entry] ∧ Reference.ofChart entry = .ok ref ∧
      i.chartFile = s.chartFile ref
  namespaces : ∀ is, plan m s platform = .ok is → NamespacesMade is
  /-- Charts in another order give the same plan, or it is refused on the same ground. -/
  reordered : ∀ m' : Manifest, m'.charts.Perm m.charts →
    (∃ is, plan m s platform = .ok is ∧ plan m' s platform = .ok is) ∨
      ∃ e e', plan m s platform = .error e ∧ plan m' s platform = .error e' ∧
        (refusal m s).Covers e ∧ (refusal m s).Covers e'

/-- Every plan is decided by the charts, in whatever order they are listed. -/
theorem plan_decided_by_charts (m : Manifest) (s : Settings) (platform : Platform) :
    DecidedByCharts m s platform where
  planned := plan_isOk_iff_installable
  releases := by
    intro is his
    obtain ⟨registry, hregistry⟩ := registry_of_plan his
    obtain ⟨refs, hrefs⟩ := chartReferences_of_plan his
    calc
      is.map release = frontReleases platform (refs.map Reference.name) ++ platform.coreCharts :=
        releases_plan hrefs hregistry his
      _ = _ := by
        simp only [frontReleases, Platform.coreCharts, Manifest.chartsNamed_eq_nil_iff hrefs, ite_not]
  files := by
    intro is his i hi
    obtain ⟨refs, hrefs⟩ := chartReferences_of_plan his
    obtain ⟨ref, hfound, hfile⟩ := map_eq_ok_iff.mp (chartFileOf_of_plan hrefs his i hi)
    obtain ⟨entry, hnamed, hentry⟩ := Manifest.entry_of_findChart hrefs hfound
    exact ⟨entry, ref, hnamed, hentry, hfile.symm⟩
  namespaces is his := namespacesMade_of_plan his
  reordered := by
    intro m' hperm
    cases hplan : plan m s platform with
    | ok is => exact .inl ⟨is, rfl, plan_of_perm hperm hplan⟩
    | error e =>
      cases hplan' : plan m' s platform with
      | ok is =>
        rw [plan_of_perm hperm.symm hplan'] at hplan
        cases hplan
      | error e' =>
        have hcovers' := covers_of_plan hplan'
        rw [refusal_of_perm hperm] at hcovers'
        exact .inr ⟨e, e', rfl, rfl, covers_of_plan hplan, hcovers'⟩

/-- A manifest that lists its charts against the order of their installation. -/
def unorderedManifest : Manifest where
  charts := ["https://charts/kubewarden-defaults:1", "https://charts/kubewarden-controller:1",
    "https://charts/other:3", "https://charts/kubewarden-crds:1", "https://charts/cert-manager:2"]

theorem unordered_charts_planned :
    ∃ is, plan unorderedManifest { registry := some "mirror:5000" } {} = .ok is ∧
      is.map release = ["cert-manager", "kubewarden-crds", "kubewarden-controller",
        "kubewarden-defaults"] ∧
      plan ({ charts := unorderedManifest.charts.reverse } : Manifest)
        { registry := some "mirror:5000" } {} = .ok is := by
  have hdecided :=
    plan_decided_by_charts unorderedManifest { registry := some "mirror:5000" } {}
  obtain ⟨is, his⟩ : ∃ is, plan unorderedManifest { registry := some "mirror:5000" } {} = .ok is :=
    ⟨_, rfl⟩
  refine ⟨is, his, hdecided.releases is his, ?_⟩
  obtain ⟨is', hplan, hreordered⟩ | ⟨e, -, herror, -⟩ :=
    hdecided.reordered { charts := unorderedManifest.charts.reverse } (List.reverse_perm _)
  · rw [hplan] at his
    rw [hreordered, his]
  · rw [his] at herror
    cases herror

end Installation

end OfflineSupply
