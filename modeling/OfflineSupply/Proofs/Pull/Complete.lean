import OfflineSupply.Proofs.Install.Plan
import OfflineSupply.Proofs.Pull.Agreement
import OfflineSupply.Proofs.Push.Attempted

/-!
# Complete caches

When a live call returns, the cache is complete: both archives and all chart files that the manifest
asks for are in it.  A complete cache is all that later phases need from a pull.  Pulling again finds
everything there, pushing skips nothing, and every chart file that a plan names is there.  Nothing is
asked of the files that were there at first, and of the processes only that those which succeed write
what they were told to write and leave in the cache directory what they find there.
-/

namespace OfflineSupply

open FileTree Pull

namespace Pull

variable {c : Call} {host : Host} {s s' session : Session} {command : Command} {k : Category}
  {t t' t'' : FileTree} {directory : Path} {m : Manifest} {set : Settings} {ref : Reference}
  {refs : List Reference}

/-! ## What is relied on -/

/-- What is in a directory stays there, apart from unfinished archives. -/
def KeptIn (directory : Path) (before after : FileTree) : Prop :=
  ∀ name, Path.IsName name → (∀ k : Category, name ≠ k.unfinishedName) →
    before.holds directory name = true → after.holds directory name = true

theorem KeptIn.refl (directory : Path) (t : FileTree) : KeptIn directory t t :=
  fun _ _ _ h ↦ h

theorem KeptIn.trans (h : KeptIn directory t t') (h' : KeptIn directory t' t'') :
    KeptIn directory t t'' :=
  fun name hname hfinished hthere ↦ h' name hname hfinished (h name hname hfinished hthere)

theorem KeptIn.archive (h : KeptIn directory t t') (hthere : t.holds directory k.archiveName = true) :
    t'.holds directory k.archiveName = true :=
  h _ k.isName_archiveName (fun k' ↦ k.archiveName_ne_unfinishedName k') hthere

theorem KeptIn.chart (h : KeptIn directory t t') (href : c.Lists ref)
    (hthere : t.holds directory ref.archiveName = true) :
    t'.holds directory ref.archiveName = true := by
  obtain ⟨value, -, hvalue⟩ := href
  exact h _ (Reference.isName_archiveName hvalue)
    (fun k ↦ (archiveName_ne_of_chart ref k).2.symm) hthere

/-- The commands that a call may start. -/
inductive Call.Starts (c : Call) : Command → Prop
  | pull (k : Category) {entry : String} (h : entry ∈ k.entries c.manifest) : c.Starts (k.pull entry)
  | save (k : Category) : c.Starts (k.save (k.entries c.manifest) (k.unfinished c.settings))
  | chart {ref : Reference} (h : c.Lists ref) :
      c.Starts (chartPull c.settings.cacheDirectory ref)

/-- A live call whose processes, if they exit with zero, have written the file that they were told
to write and kept what was in the cache directory. -/
structure Call.Delivers (c : Call) : Prop where
  live : c.settings.dryRun = false
  kept : ∀ (session : Session) (command : Command), c.Starts command →
    (c.host.launch session command).exit = some 0 →
    KeptIn c.settings.cacheDirectory session.files (c.host.launch session command).files
  archive : ∀ (k : Category) (session : Session),
    (c.host.launch session (k.save (k.entries c.manifest) (k.unfinished c.settings))).exit = some 0 →
    ∃ content, (c.host.launch session
      (k.save (k.entries c.manifest) (k.unfinished c.settings))).files.lookup
        (k.unfinished c.settings) = .ok (.file content)
  chart : ∀ (ref : Reference) (session : Session), c.Lists ref →
    (c.host.launch session (chartPull c.settings.cacheDirectory ref)).exit = some 0 →
    ∃ content, (c.host.launch session (chartPull c.settings.cacheDirectory ref)).files.lookup
      (c.settings.chartFile ref) = .ok (.file content)

theorem Call.Delivers.kept_of_succeeded (hc : c.Delivers) (hstart : c.Starts command)
    (h : command.Succeeded c.host s s' session) :
    KeptIn c.settings.cacheDirectory s.files s'.files := by
  have hkept := hc.kept session command hstart h.exit
  rwa [h.filesBefore, ← h.filesAfter] at hkept

/-! ## Complete caches -/

/-- What a manifest asks for is in a directory, which need not be made any more. -/
structure Complete (m : Manifest) (directory : Path) (t : FileTree) : Prop where
  valid : validate m = .ok ()
  made : t.makeDirectories directory = (t, none)
  archive : ∀ k : Category, k.entries m ≠ [] → t.holds directory k.archiveName = true
  chart : ∀ refs, m.chartReferences = .ok refs → ∀ ref ∈ refs,
    t.holds directory ref.archiveName = true

end Pull

/-! ## What the stages leave -/

namespace Category

variable {c : Call} {s s' : Session} {k : Category}

theorem kept_pullEntries (hc : c.Delivers) {entries : List String}
    (hentries : ∀ entry ∈ entries, entry ∈ k.entries c.manifest)
    (h : Action.Returns c.host s (entries.forM (k.pullEntry c.settings)) () s') :
    KeptIn c.settings.cacheDirectory s.files s'.files := by
  induction entries generalizing s with
  | nil =>
    obtain ⟨-, rfl⟩ := Action.returns_pure.mp h
    exact .refl _ _
  | cons entry entries ih =>
    obtain ⟨hentry, hrest⟩ := List.forall_mem_cons.mp hentries
    obtain ⟨_, s₁, hfirst, hmore⟩ := Action.returns_bind.mp h
    obtain ⟨session, hpulled⟩ := succeeded_of_pullEntry hc.live hfirst
    exact (hc.kept_of_succeeded (.pull k hentry) hpulled).trans (ih hrest hmore)

/-- Saving an archive puts it into the cache directory and keeps what is there. -/
theorem kept_saveArchive (hc : c.Delivers)
    (h : Action.Returns c.host s
      (saveArchive (k.save (k.entries c.manifest)) (k.archive c.settings) false) () s') :
    KeptIn c.settings.cacheDirectory s.files s'.files ∧
      s'.files.holds c.settings.cacheDirectory k.archiveName = true := by
  obtain ⟨session, s₁, hsaved, -, hrenamed⟩ := saveArchive_cases h
  obtain ⟨content, hlookup⟩ := hc.archive k session hsaved.exit
  rw [← hsaved.filesAfter] at hlookup
  obtain ⟨at_, hlocate, hfile⟩ := lookup_eq_ok.mp hlookup
  obtain ⟨-, -, rfl⟩ := (locate_child_iff k.isName_unfinishedName).mp hlocate
  obtain ⟨-, hholds⟩ := hrenamed content hfile
  constructor
  · intro name hname hfinished hthere
    have hthere₁ := hc.kept_of_succeeded (.save k) hsaved name hname hfinished hthere
    rw [hholds name hname, hthere₁, bne_iff_ne.mpr (hfinished k)]
    rfl
  · rw [hholds _ k.isName_archiveName, bne_iff_ne.mpr (k.archiveName_ne_unfinishedName k)]
    simp

theorem kept_bundle (hc : c.Delivers)
    (h : Action.Returns c.host s (k.bundle c.manifest c.settings) () s') :
    KeptIn c.settings.cacheDirectory s.files s'.files ∧
      s'.files.holds c.settings.cacheDirectory k.archiveName = true := by
  rcases bundle_cases h with ⟨hthere, hfiles, -⟩ | ⟨-, s₁, s₂, hfiles₁, -, hpull, hsave⟩
  · rw [hfiles]
    exact ⟨.refl _ _, hthere⟩
  · have hpulled := kept_pullEntries hc (fun _ hentry ↦ hentry) hpull
    rw [hc.live] at hsave
    obtain ⟨hsaved, hthere⟩ := kept_saveArchive hc hsave
    rw [hfiles₁] at hpulled
    exact ⟨hpulled.trans hsaved, hthere⟩

theorem kept_category (hc : c.Delivers) {title : String}
    (h : Action.Returns c.host s
      (category title (k.entries c.manifest) (k.bundle c.manifest c.settings)) () s') :
    KeptIn c.settings.cacheDirectory s.files s'.files ∧
      (k.entries c.manifest ≠ [] →
        s'.files.holds c.settings.cacheDirectory k.archiveName = true) := by
  unfold category at h
  split at h
  · rename_i hempty
    obtain ⟨-, rfl⟩ := Action.returns_pure.mp h
    exact ⟨.refl _ _, fun hentries ↦ absurd (List.isEmpty_iff.mp hempty) hentries⟩
  · obtain ⟨s₁, hbundle, rfl⟩ := Stage.returns_within.mp h
    obtain ⟨hkept, hthere⟩ := kept_bundle hc hbundle
    exact ⟨hkept, fun _ ↦ hthere⟩

end Category

namespace Pull

variable {c : Call} {host : Host} {s s' session : Session} {k : Category} {t : FileTree}
  {directory : Path} {m : Manifest} {set : Settings} {ref : Reference} {refs : List Reference}

theorem kept_chart (hc : c.Delivers) (href : c.Lists ref)
    (h : Action.Returns c.host s (chart c.settings ref) () s') :
    KeptIn c.settings.cacheDirectory s.files s'.files ∧
      s'.files.holds c.settings.cacheDirectory ref.archiveName = true := by
  rcases chart_cases hc.live h with ⟨hthere, hfiles, -⟩ | ⟨-, session, hpulled⟩
  · rw [hfiles]
    exact ⟨.refl _ _, hthere⟩
  · obtain ⟨content, hlookup⟩ := hc.chart ref session href hpulled.exit
    rw [← hpulled.filesAfter] at hlookup
    obtain ⟨at_, hlocate, hfile⟩ := lookup_eq_ok.mp hlookup
    exact ⟨hc.kept_of_succeeded (.chart href) hpulled,
      exists?_iff.mpr ⟨at_, .file content, hlocate, hfile⟩⟩

/-- Whatever was there and whatever came before it in the list, each chart has its file in the
end. -/
theorem kept_forM_chart (hc : c.Delivers) (hrefs : ∀ ref ∈ refs, c.Lists ref)
    (h : Action.Returns c.host s (refs.forM (chart c.settings)) () s') :
    KeptIn c.settings.cacheDirectory s.files s'.files ∧
      ∀ ref ∈ refs, s'.files.holds c.settings.cacheDirectory ref.archiveName = true := by
  induction refs generalizing s with
  | nil =>
    obtain ⟨-, rfl⟩ := Action.returns_pure.mp h
    exact ⟨.refl _ _, by simp⟩
  | cons ref refs ih =>
    obtain ⟨href, hrest⟩ := List.forall_mem_cons.mp hrefs
    obtain ⟨_, s₁, hfirst, hmore⟩ := Action.returns_bind.mp h
    obtain ⟨hkept₁, hthere₁⟩ := kept_chart hc href hfirst
    obtain ⟨hkept, hthere⟩ := ih hrest hmore
    exact ⟨hkept₁.trans hkept, List.forall_mem_cons.mpr ⟨hkept.chart href hthere₁, hthere⟩⟩

theorem kept_chartCategory (hc : c.Delivers) (hrefs : c.manifest.chartReferences = .ok refs)
    {title : String}
    (h : Action.Returns c.host s
      (category title c.manifest.charts (charts c.manifest c.settings)) () s') :
    KeptIn c.settings.cacheDirectory s.files s'.files ∧
      ∀ ref ∈ refs, s'.files.holds c.settings.cacheDirectory ref.archiveName = true := by
  unfold category at h
  split at h
  · rename_i hempty
    obtain ⟨-, rfl⟩ := Action.returns_pure.mp h
    rw [Manifest.eq_nil_of_chartReferences hrefs hempty]
    exact ⟨.refl _ _, by simp⟩
  · obtain ⟨s₁, hcharts, rfl⟩ := Stage.returns_within.mp h
    unfold charts at hcharts
    obtain ⟨refs', s₂, hread, hloop⟩ := Action.returns_bind.mp hcharts
    obtain ⟨hrefs', rfl⟩ := Action.returns_ofExcept.mp hread
    obtain rfl : refs = refs' := Except.ok.inj (hrefs.symm.trans hrefs')
    have hkept := kept_forM_chart hc (fun _ ↦ (Manifest.mem_chartReferences_iff hrefs).mp) hloop
    exact hkept

/-- Nothing but the cache directory is made for an empty manifest. -/
theorem files_of_returns_empty (himages : m.images = []) (hpolicies : m.policies = [])
    (hcharts : m.charts = []) (hlive : set.dryRun = false)
    (h : Action.Returns host { files := t } (all m set) () s') :
    t.makeDirectories set.cacheDirectory = (s'.files, none) := by
  unfold all at h
  rw [himages, hpolicies, hcharts, hlive, if_neg (by simp)] at h
  obtain ⟨_, s₀, hvalidate, h⟩ := Action.returns_bind.mp h
  obtain ⟨-, rfl⟩ := Action.returns_ofExcept.mp hvalidate
  obtain ⟨_, s₁, hmake, h⟩ := Action.returns_bind.mp h
  obtain ⟨hstopped, rfl⟩ := Action.returns_makeDirectories.mp hmake
  obtain ⟨-, rfl⟩ := Action.returns_pure.mp h
  exact Prod.ext rfl hstopped

/-- The cache directory is there once a call has returned.  What is in it shows this, and only an empty
manifest leaves nothing in it. -/
theorem made_of_returns (hlive : set.dryRun = false) (hrefs : m.chartReferences = .ok refs)
    (h : Action.Returns host { files := t } (all m set) () s')
    (harchive : ∀ k : Category, k.entries m ≠ [] →
      s'.files.holds set.cacheDirectory k.archiveName = true)
    (hchart : ∀ ref ∈ refs, s'.files.holds set.cacheDirectory ref.archiveName = true) :
    s'.files.makeDirectories set.cacheDirectory = (s'.files, none) := by
  by_cases hentries : ∃ k : Category, k.entries m ≠ []
  · obtain ⟨k, hk⟩ := hentries
    exact makeDirectories_of_holds k.isName_archiveName (harchive k hk)
  · have hnone (k : Category) : k.entries m = [] := by
      by_contra hk
      exact hentries ⟨k, hk⟩
    cases hread : refs with
    | nil =>
      have hempty : m.charts = [] := by
        have hpointwise := Manifest.chartReferences_eq_ok_iff.mp hrefs
        rwa [hread, List.forall₂_nil_right_iff] at hpointwise
      exact makeDirectories_of_made
        (files_of_returns_empty (hnone .images) (hnone .policies) hempty hlive h)
    | cons ref more =>
      have href : ref ∈ refs := hread ▸ List.mem_cons_self
      obtain ⟨value, -, hvalue⟩ := (Manifest.mem_chartReferences_iff hrefs).mp href
      exact makeDirectories_of_holds (Reference.isName_archiveName hvalue) (hchart ref href)

/-- When a live call returns, the cache is complete. -/
theorem complete_of_returns (hc : c.Delivers)
    (h : Action.Returns c.host { files := t } (all c.manifest c.settings) () s') :
    Complete c.manifest c.settings.cacheDirectory s'.files := by
  have hall := h
  unfold all at h
  obtain ⟨_, s₀, hvalidate, h⟩ := Action.returns_bind.mp h
  obtain ⟨hvalid, rfl⟩ := Action.returns_ofExcept.mp hvalidate
  obtain ⟨refs, hrefs⟩ := chartReferences_of_validate hvalid
  rw [hc.live, if_neg (by simp)] at h
  obtain ⟨_, s₁, -, h⟩ := Action.returns_bind.mp h
  obtain ⟨_, s₂, himages, h⟩ := Action.returns_bind.mp h
  obtain ⟨_, s₃, hpolicies, hcharts⟩ := Action.returns_bind.mp h
  obtain ⟨-, himages⟩ := Category.kept_category (k := .images) hc himages
  obtain ⟨hkept₃, hpolicies⟩ := Category.kept_category (k := .policies) hc hpolicies
  obtain ⟨hkept, hcharts⟩ := kept_chartCategory hc hrefs hcharts
  have harchive (k : Category) (hentries : k.entries c.manifest ≠ []) :
      s'.files.holds c.settings.cacheDirectory k.archiveName = true := by
    cases k with
    | images => exact (hkept₃.trans hkept).archive (himages hentries)
    | policies => exact hkept.archive (hpolicies hentries)
  refine ⟨hvalid, made_of_returns hc.live hrefs hall harchive hcharts, harchive, ?_⟩
  intro refs' hrefs'
  obtain rfl : refs = refs' := Except.ok.inj (hrefs.symm.trans hrefs')
  exact hcharts

/-! ## Pulling again -/

theorem shows_makeDirectories (h : t.makeDirectories directory = (t, none)) :
    Action.Shows host t (Action.makeDirectories directory) [] := by
  intro s hfiles
  have hmade : s.files.makeDirectories directory = (s.files, none) := by
    rw [hfiles, h]
  refine ⟨(), s, Action.returns_makeDirectories.mpr ?_, .of_same rfl rfl rfl rfl⟩
  rw [hmade]
  exact ⟨rfl, rfl⟩

theorem shows_category_of_there {title : String}
    (hthere : k.entries m ≠ [] → t.holds set.cacheDirectory k.archiveName = true) :
    Action.Shows host t (category title (k.entries m) (k.bundle m set)) [] := by
  unfold category
  split
  · exact Action.shows_pure ()
  · rename_i hentries
    have harchive : t.exists? (k.archive set) = true := hthere (by simpa using hentries)
    apply Stage.shows_within
    apply shows_isThere_bind
    rw [harchive]
    exact Action.shows_pure ()

theorem shows_chart_of_there (hthere : t.holds set.cacheDirectory ref.archiveName = true) :
    Action.Shows host t (chart set ref) [] := by
  have hfile : t.exists? (set.chartFile ref) = true := hthere
  apply shows_isThere_bind
  rw [hfile]
  exact Action.shows_pure ()

theorem shows_chartCategory_of_there (hrefs : m.chartReferences = .ok refs)
    (hthere : ∀ ref ∈ refs, t.holds set.cacheDirectory ref.archiveName = true) {title : String} :
    Action.Shows host t (category title m.charts (charts m set)) [] := by
  have hloop : Action.Shows host t (refs.forM (chart set)) (refs.flatMap fun _ ↦ []) :=
    Action.Shows.forM fun ref href ↦ shows_chart_of_there (hthere ref href)
  rw [List.flatMap_eq_nil_iff.mpr fun _ _ ↦ rfl] at hloop
  unfold category
  split
  · exact Action.shows_pure ()
  · apply Stage.shows_within
    unfold charts
    rw [hrefs]
    exact hloop

/-- Where the cache is complete, a pull has nothing to do on any host. -/
theorem Complete.shows_all (h : Complete m set.cacheDirectory t) :
    Action.Shows host t (all m set) [] := by
  obtain ⟨refs, hrefs⟩ := chartReferences_of_validate h.valid
  have himages : Action.Shows host t (category "images" m.images (images m set)) [] :=
    shows_category_of_there (k := .images) (h.archive .images)
  have hpolicies : Action.Shows host t (category "policies" m.policies (policies m set)) [] :=
    shows_category_of_there (k := .policies) (h.archive .policies)
  have hcharts : Action.Shows host t (category "charts" m.charts (charts m set)) [] :=
    shows_chartCategory_of_there hrefs (h.chart refs hrefs)
  have hstages : Action.Shows host t (do
      category "images" m.images (images m set)
      category "policies" m.policies (policies m set)
      category "charts" m.charts (charts m set)) [] :=
    himages.bind fun _ ↦ hpolicies.bind fun _ ↦ hcharts
  unfold all
  rw [h.valid]
  cases set.dryRun with
  | true => exact hstages
  | false => exact (shows_makeDirectories h.made).bind fun _ ↦ hstages

/-! ## Later phases -/

/-- Where the cache is complete, every chart file of a plan is there. -/
theorem Complete.exists_chartFile (h : Complete m set.cacheDirectory t) {platform : Platform}
    {is : List Installation} (hplan : Installation.plan m set platform = .ok is) :
    ∀ i ∈ is, t.exists? i.chartFile = true := by
  obtain ⟨refs, hrefs⟩ := chartReferences_of_validate h.valid
  intro i hi
  obtain ⟨ref, href, hfile⟩ := Installation.listed_of_plan hrefs hplan i hi
  rw [hfile]
  exact h.chart refs hrefs ref href

/-- After a live call has returned, nothing is left to do for the same manifest and cache directory.
A call that pulls again returns on every host without having touched anything.  The archive of every
category that has entries is there, so a push skips none, unless its own processes remove an archive: a
live one attempts every category with entries, if it is not broken off by a failure that is not
reported.  Every chart file that a plan names is there. -/
theorem completed_pull_suffices (hc : c.Delivers) (hreturns : (c.run t).1 = .ok ())
    (later : Settings) (hlater : later.cacheDirectory = c.settings.cacheDirectory) :
    (∀ host : Host, ∃ s' : Session,
      Action.Returns host { files := c.filesAfter t } (all c.manifest later) () s' ∧
        Session.Untouched { files := c.filesAfter t } s') ∧
    (∀ k : Category, k.entries c.manifest ≠ [] →
      (c.filesAfter t).exists? (k.archive later) = true) ∧
    (∀ host : Host, Push.Leaves host (Category.policies.archive later) →
      ((Push.all c.manifest later).run host { files := c.filesAfter t }).2.Unwarned) ∧
    (∀ (host : Host) (registry : String), Push.Leaves host (Category.policies.archive later) →
      later.dryRun = false → later.registry? = some registry →
      let ended := (Push.all c.manifest later).run host { files := c.filesAfter t }
      (∃ e, ended.1 = .error e ∧ e.isReported = false) ∨
        ∀ k : Category, k.entries c.manifest ≠ [] → k.Attempted registry c.manifest later ended.2) ∧
    ∀ platform is, Installation.plan c.manifest later platform = .ok is →
      ∀ i ∈ is, (c.filesAfter t).exists? i.chartFile = true := by
  obtain ⟨after, hlive⟩ := Action.run_eq_ok_iff.mp hreturns
  have hafter : c.filesAfter t = after.files := congrArg (fun r ↦ r.2.files) hlive
  have hcomplete : Complete c.manifest later.cacheDirectory (c.filesAfter t) := by
    rw [hafter, hlater]
    exact complete_of_returns hc hlive
  have harchives : ∀ k : Category, k.entries c.manifest ≠ [] →
      (c.filesAfter t).exists? (k.archive later) = true := hcomplete.archive
  refine ⟨?_, harchives, ?_, ?_, ?_⟩
  · intro host
    obtain ⟨_, s', hagain, hsame⟩ := hcomplete.shows_all { files := c.filesAfter t } rfl
    exact ⟨s', hagain, hsame.files, hsame.executions, hsame.requests⟩
  · intro host hleaves
    exact Push.unwarned_all harchives hleaves
  · intro host registry hleaves hlive hregistry
    exact Push.attempted_all hlive hregistry harchives hleaves
  · intro platform is hplan
    exact hcomplete.exists_chartFile hplan

/-! ## A call that installs the platform -/

theorem delivers_trialCall (m : Manifest) (content : ByteArray) (code : Int) :
    (trialCall m content code).Delivers := by
  refine ⟨rfl, ?_, ?_, ?_⟩
  · intro session command _ _ name _ _ hthere
    exact exists?_launch_trialHost hthere
  · intro k session hexit
    change ((trialHost content code).launch session
      (k.save (k.entries m) (k.unfinished {}))).exit = some 0 at hexit
    change ∃ content', ((trialHost content code).launch session
      (k.save (k.entries m) (k.unfinished {}))).files.lookup (k.unfinished {}) = .ok (.file content')
    rw [launch_trialHost (product?_save k (k.entries m))] at hexit ⊢
    refine exists_lookup_of_writing ?_ hexit
    rw [Category.place_unfinished]
    simp
  · rintro ref session ⟨value, -, hvalue⟩ hexit
    change ((trialHost content code).launch session (chartPull Path.here ref)).exit = some 0 at hexit
    change ∃ content', ((trialHost content code).launch session
      (chartPull Path.here ref)).files.lookup (Path.here.child ref.archiveName) = .ok (.file content')
    rw [launch_trialHost (product?_chartPull hvalue)] at hexit ⊢
    refine exists_lookup_of_writing ?_ hexit
    rw [place_child (Reference.isName_archiveName hvalue)]
    simp

theorem leaves_trialHost (content : ByteArray) (code : Int) (p : Path) :
    Push.Leaves (trialHost content code) p :=
  fun _ _ _ hthere ↦ exists?_launch_trialHost hthere

/-- A call for an image and the charts of the platform. -/
def platformCall : Call :=
  trialCall
    { images := ["pause:3.9"]
      charts := ["https://charts.example/kubewarden-crds:1.0",
        "https://charts.example/kubewarden-controller:1.0",
        "https://charts.example/kubewarden-defaults:1.0"] } ⟨#[1]⟩ 0

def platformChart (name : String) : Reference :=
  { authority := some "https://charts.example", path := name, version := some "1.0" }

theorem chartReferences_platformCall : platformCall.manifest.chartReferences =
    .ok (["kubewarden-crds", "kubewarden-controller", "kubewarden-defaults"].map platformChart) :=
  rfl

theorem returns_platformCall : (platformCall.run (FileTree.empty [])).1 = .ok () := by
  apply returns_imageAndCharts rfl rfl rfl (by decide) chartReferences_platformCall
  simp only [List.map_cons, List.map_nil, List.forall_mem_cons, List.not_mem_nil, false_imp_iff,
    implies_true, and_true]
  exact ⟨⟨_, rfl⟩, ⟨_, rfl⟩, ⟨_, rfl⟩⟩

/-- Pulling again is harmless even on a host that loses all files with every process. -/
theorem platform_pulled_once :
    let later : Settings := { registry := some "mirror:5000" }
    let after := platformCall.filesAfter (FileTree.empty [])
    let pushed := (Push.all platformCall.manifest later).run (trialHost ⟨#[2]⟩ 1) { files := after }
    platformCall.Delivers ∧ (platformCall.run (FileTree.empty [])).1 = .ok () ∧
      later.cacheDirectory = platformCall.settings.cacheDirectory ∧
      (∃ s' : Session, Action.Returns losingHost { files := after }
        (all platformCall.manifest later) () s' ∧ Session.Untouched { files := after } s') ∧
      after.exists? (Category.images.archive later) = true ∧
      pushed.2.Unwarned ∧
      ((∃ e, pushed.1 = .error e ∧ e.isReported = false) ∨
        Category.images.Attempted "mirror:5000" platformCall.manifest later pushed.2) ∧
      ∃ is, Installation.plan platformCall.manifest later {} = .ok is ∧
        ∀ i ∈ is, after.exists? i.chartFile = true := by
  intro later after pushed
  have hsame : later.cacheDirectory = platformCall.settings.cacheDirectory := rfl
  obtain ⟨hagain, harchives, hpush, hattempts, hplans⟩ :=
    completed_pull_suffices (delivers_trialCall _ _ _) returns_platformCall later hsame
  have hplan : ∃ is, Installation.plan platformCall.manifest later {} = .ok is := ⟨_, rfl⟩
  obtain ⟨is, his⟩ := hplan
  have hleaves : Push.Leaves (trialHost ⟨#[2]⟩ 1) (Category.policies.archive later) :=
    leaves_trialHost _ _ _
  have hattempted := (hattempts _ "mirror:5000" hleaves rfl rfl).imp_right fun h ↦
    h .images (by decide)
  exact ⟨delivers_trialCall _ _ _, returns_platformCall, hsame, hagain losingHost,
    harchives .images (by decide), hpush _ hleaves, hattempted, is, his, hplans {} is his⟩

end Pull

end OfflineSupply
