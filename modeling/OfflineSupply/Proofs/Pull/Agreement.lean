import OfflineSupply.Proofs.Pull.DryRun
import OfflineSupply.Proofs.Pull.Trial

/-!
# Dry runs and live runs

A dry run finds no more files than the live run does, which makes the cache directory and then one
chart file after the other.  So the dry run shows every command that the live run starts, and it shows
more if a chart file is wanted twice, or if a file is reached only once the cache directory was made.
-/

namespace OfflineSupply

open FileTree Pull

variable {c : Call} {set : Settings} {m : Manifest} {k : Category} {t : FileTree}
  {refs : List Reference} {there there' : String → Bool} {directory : Path}

/-! ## Shared parts of two lists -/

/-- Two pairs of lists, one within the other, are joined to the same list only if they are the
same. -/
theorem append_eq_append_iff_of_sublist {α : Type} {xs xs' ys ys' : List α}
    (hx : xs.Sublist xs') (hy : ys.Sublist ys') :
    xs ++ ys = xs' ++ ys' ↔ xs = xs' ∧ ys = ys' := by
  constructor
  · intro h
    have hlength := congrArg List.length h
    rw [List.length_append, List.length_append] at hlength
    have hx' := hx.length_le
    have hy' := hy.length_le
    exact List.append_inj h (by omega)
  · intro ⟨hxs, hys⟩
    rw [hxs, hys]

theorem map_eq_map_iff_of_sublist {α β : Type} {xs ys : List α} {f : α → β}
    (h : xs.Sublist ys) : xs.map f = ys.map f ↔ xs = ys := by
  constructor
  · intro hmap
    have hlength := congrArg List.length hmap
    rw [List.length_map, List.length_map] at hlength
    exact h.eq_of_length hlength
  · intro hsame
    rw [hsame]

/-! ## Where the two differ -/

namespace Category

theorem planned_sublist {target : Path} {found found' : Bool} (h : found = true → found' = true) :
    (k.planned m target found').Sublist (k.planned m target found) := by
  cases found' with
  | true => simp [planned]
  | false =>
    cases found with
    | true => simp at h
    | false => exact List.Sublist.refl _

theorem planned_eq_iff {target : Path} {found found' : Bool} (h : found = true → found' = true) :
    k.planned m target found' = k.planned m target found ↔
      (k.entries m ≠ [] → found' = true → found = true) := by
  cases hempty : (k.entries m).isEmpty with
  | true =>
    simp [planned, List.isEmpty_iff.mp hempty]
  | false =>
    have hentries : k.entries m ≠ [] := by simpa using hempty
    cases found' <;> cases found <;> simp_all [planned]

end Category

namespace Pull

theorem toPull_sublist_filter (hmono : ∀ name, there name = true → there' name = true) :
    (toPull there' refs).Sublist (refs.filter fun ref ↦ !there ref.archiveName) := by
  have hsublist : (toPull there' refs).Sublist refs := toPull_sublist
  have hfilter := hsublist.filter fun ref ↦ !there ref.archiveName
  rwa [List.filter_eq_self.mpr] at hfilter
  intro ref href
  have hmissing := (mem_toPull_iff.mp href).1
  cases hthere : there ref.archiveName with
  | false => rfl
  | true => simp [hmono _ hthere] at hmissing

/-- All charts that were missing at first are pulled, if none of them is found later and no two of
them share a file. -/
theorem toPull_eq_filter_of_mono_iff (hmono : ∀ name, there name = true → there' name = true) :
    toPull there' refs = refs.filter (fun ref ↦ !there ref.archiveName) ↔
      (∀ ref ∈ refs, there' ref.archiveName = true → there ref.archiveName = true) ∧
        ((refs.filter fun ref ↦ !there ref.archiveName).map Reference.archiveName).Nodup := by
  constructor
  · intro h
    refine ⟨?_, by rw [← h]; exact nodup_toPull⟩
    intro ref href hfound
    by_contra hmissing
    have hmem : ref ∈ toPull there' refs := by
      rw [h, List.mem_filter]
      exact ⟨href, by simpa using hmissing⟩
    rw [(mem_toPull_iff.mp hmem).1] at hfound
    simp at hfound
  · intro ⟨hfound, hnodup⟩
    have hsame : toPull there' refs = toPull there refs := by
      apply toPull_congr
      intro ref href
      exact Bool.eq_iff_iff.mpr ⟨hfound ref href, hmono _⟩
    rw [hsame, toPull_eq_filter_iff.mpr hnodup]

theorem planned_sublist {target : Category → Path}
    (hmono : ∀ name, there name = true → there' name = true) :
    (planned m set target there' (toPull there' refs)).Sublist
      (planned m set target there (refs.filter fun ref ↦ !there ref.archiveName)) :=
  ((Category.planned_sublist (hmono _)).append (Category.planned_sublist (hmono _))).append
    ((toPull_sublist_filter hmono).map _)

theorem planned_eq_iff {target : Category → Path}
    (hmono : ∀ name, there name = true → there' name = true) :
    planned m set target there' (toPull there' refs) =
        planned m set target there (refs.filter fun ref ↦ !there ref.archiveName) ↔
      (∀ k : Category, k.entries m ≠ [] → there' k.archiveName = true →
        there k.archiveName = true) ∧
      (∀ ref ∈ refs, there' ref.archiveName = true → there ref.archiveName = true) ∧
      ((refs.filter fun ref ↦ !there ref.archiveName).map Reference.archiveName).Nodup := by
  have hbundles (k : Category) : (k.planned m (target k) (there' k.archiveName)).Sublist
      (k.planned m (target k) (there k.archiveName)) := Category.planned_sublist (hmono _)
  have hcharts : (toPull there' refs).Sublist (refs.filter fun ref ↦ !there ref.archiveName) :=
    toPull_sublist_filter hmono
  unfold planned
  rw [append_eq_append_iff_of_sublist ((hbundles _).append (hbundles _)) (hcharts.map _),
    append_eq_append_iff_of_sublist (hbundles _) (hbundles _),
    Category.planned_eq_iff (hmono _), Category.planned_eq_iff (hmono _),
    map_eq_map_iff_of_sublist hcharts, toPull_eq_filter_of_mono_iff hmono]
  constructor
  · intro ⟨⟨himages, hpolicies⟩, hrest⟩
    refine ⟨?_, hrest⟩
    intro k
    cases k
    · exact himages
    · exact hpolicies
  · intro ⟨hboth, hrest⟩
    exact ⟨⟨hboth .images, hboth .policies⟩, hrest⟩

/-! ## Agreement -/

/-- How a command that a live run starts is shown by a dry run: an archive is saved into its own file
instead of the unfinished one, and all else is the same. -/
inductive Call.ShownAs (c : Call) : Command → Command → Prop
  | pull (k : Category) (entry : String) : c.ShownAs (k.pull entry) (k.pull entry)
  | save (k : Category) : c.ShownAs (k.save (k.entries c.manifest) (k.unfinished c.settings))
      (k.save (k.entries c.manifest) (k.archive c.settings))
  | chart (ref : Reference) : c.ShownAs (chartPull c.settings.cacheDirectory ref)
      (chartPull c.settings.cacheDirectory ref)

/-- A call looks for a file of this name in the cache directory. -/
def Call.LooksFor (c : Call) (name : String) : Prop :=
  (∃ k : Category, k.entries c.manifest ≠ [] ∧ k.archiveName = name) ∨
    ∃ ref, c.Lists ref ∧ ref.archiveName = name

theorem shownAs_planned_category (k : Category) (found : Bool) :
    List.Forall₂ c.ShownAs (k.planned c.manifest (k.unfinished c.settings) found)
      (k.planned c.manifest (k.archive c.settings) found) := by
  unfold Category.planned
  split
  · exact .nil
  · apply List.rel_append
    · rw [List.forall₂_map_left_iff, List.forall₂_map_right_iff, List.forall₂_same]
      exact fun entry _ ↦ .pull k entry
    · exact .cons (.save k) .nil

theorem shownAs_planned (found : String → Bool) (refs : List Reference) :
    List.Forall₂ c.ShownAs
      (planned c.manifest c.settings (fun k ↦ k.unfinished c.settings) found refs)
      (planned c.manifest c.settings (fun k ↦ k.archive c.settings) found refs) := by
  unfold planned
  refine List.rel_append (List.rel_append ?_ ?_) ?_
  · exact shownAs_planned_category _ _
  · exact shownAs_planned_category _ _
  · rw [List.forall₂_map_left_iff, List.forall₂_map_right_iff, List.forall₂_same]
    exact fun ref _ ↦ .chart ref

theorem forall_looksFor_iff (hrefs : c.manifest.chartReferences = .ok refs)
    {holds : String → Prop} :
    (∀ name, c.LooksFor name → holds name) ↔
      (∀ k : Category, k.entries c.manifest ≠ [] → holds k.archiveName) ∧
        ∀ ref ∈ refs, holds ref.archiveName := by
  constructor
  · intro h
    refine ⟨fun k hentries ↦ h _ (.inl ⟨k, hentries, rfl⟩), ?_⟩
    intro ref href
    exact h _ (.inr ⟨ref, (Manifest.mem_chartReferences_iff hrefs).mp href, rfl⟩)
  · intro ⟨hbundles, hcharts⟩ name hlooks
    rcases hlooks with ⟨k, hentries, rfl⟩ | ⟨ref, hlists, rfl⟩
    · exact hbundles k hentries
    · exact hcharts ref ((Manifest.mem_chartReferences_iff hrefs).mpr hlists)

/-- When a live call returns, the dry run from the same files returns as well, and shows the commands
that the live call started, in their order, among others perhaps.  It shows exactly these if no file
that the call looks for is found only once the cache directory was made, and no two charts whose files
are missing share a file; otherwise it shows more. -/
theorem dryRun_agrees_iff (hc : c.Confined directory) (hw : c.WritesCharts)
    (ha : c.WritesArchives) (hreturns : (c.run t).1 = .ok ()) :
    ∃ refs shown, ∃ s' : Session, c.manifest.chartReferences = .ok refs ∧
      Action.Returns c.host { files := t } (all c.manifest { c.settings with dryRun := true }) () s' ∧
      s'.files = t ∧ s'.executions = [] ∧ s'.printed = Command.display shown ∧
      List.SublistForall₂ c.ShownAs (c.run t).2.commands shown ∧
      (List.Forall₂ c.ShownAs (c.run t).2.commands shown ↔
        (∀ name, c.LooksFor name → c.foundOnceMade t name = true →
          t.holds c.settings.cacheDirectory name = true) ∧
        ((refs.filter fun ref ↦ !t.holds c.settings.cacheDirectory ref.archiveName).map
          Reference.archiveName).Nodup) := by
  obtain rfl := hc.cacheDirectory
  obtain ⟨after, hlive⟩ := Action.run_eq_ok_iff.mp hreturns
  obtain ⟨hvalid, refs, hrefs, hcommands⟩ := returns_all hc hw ha hlive
  have hafter : (c.run t).2 = after := congrArg Prod.snd hlive
  rw [← hafter] at hcommands
  have hdry : Action.Shows c.host t (all c.manifest { c.settings with dryRun := true })
      (planned c.manifest c.settings (fun k ↦ k.archive c.settings)
        (t.holds c.settings.cacheDirectory)
        (refs.filter fun ref ↦ !t.holds c.settings.cacheDirectory ref.archiveName)) :=
    shows_all rfl hvalid hrefs
  obtain ⟨_, s', hshow, hshown⟩ := hdry { files := t } rfl
  have hmono (name : String) (hthere : t.holds c.settings.cacheDirectory name = true) :
      c.foundOnceMade t name = true :=
    directoriesMade_makeDirectories.exists? hthere
  have hstarted := shownAs_planned (c := c) (c.foundOnceMade t) (toPull (c.foundOnceMade t) refs)
  rw [← hcommands] at hstarted
  refine ⟨refs, _, s', hrefs, hshow, hshown.files, hshown.executions, hshown.printed.trans String.empty_append,
    List.sublistForall₂_iff.mpr ⟨_, hstarted, planned_sublist hmono⟩, ?_⟩
  rw [forall_looksFor_iff hrefs, and_assoc, ← planned_eq_iff hmono]
  constructor
  · intro hagree
    apply (planned_sublist hmono).eq_of_length
    rw [← hstarted.length_eq, hagree.length_eq]
  · intro hsame
    rwa [← hsame]

/-! ## A chart that is listed twice -/

/-- The stages of a call on the trial host that begins with an empty working directory. -/
theorem returns_trialCall {content : ByteArray} {code : Int} {s₁ s₂ s₃ : Session}
    (hvalid : validate m = .ok ())
    (himages : Action.Returns (trialHost content code) { files := FileTree.empty [] }
      (category "images" m.images (images m {})) () s₁)
    (hpolicies : Action.Returns (trialHost content code) s₁
      (category "policies" m.policies (policies m {})) () s₂)
    (hcharts : Action.Returns (trialHost content code) s₂
      (category "charts" m.charts (charts m {})) () s₃) :
    Action.Returns (trialHost content code) { files := FileTree.empty [] } (all m {}) () s₃ := by
  have hmake : Action.Returns (trialHost content code) { files := FileTree.empty [] }
      (Action.makeDirectories Path.here) () { files := FileTree.empty [] } := rfl
  unfold all
  rw [hvalid]
  exact Action.returns_bind.mpr ⟨(), _, rfl, Action.returns_bind.mpr ⟨(), _, hmake,
    Action.returns_bind.mpr ⟨(), s₁, himages, Action.returns_bind.mpr ⟨(), s₂, hpolicies,
      hcharts⟩⟩⟩⟩

def wantedChart : Reference :=
  { authority := some "https://c.example", path := "x", version := some "1.0" }

/-- A call that lists one chart twice. -/
def chartTwice : Call :=
  trialCall { charts := ["https://c.example/x:1.0", "https://c.example/x:1.0"] } ⟨#[1]⟩ 0

theorem chartReferences_chartTwice :
    chartTwice.manifest.chartReferences = .ok [wantedChart, wantedChart] := rfl

theorem returns_chartTwice : ∃ s', Action.Returns chartTwice.host { files := FileTree.empty [] }
      (all chartTwice.manifest chartTwice.settings) () s' ∧
    s'.commands = [chartPull Path.here wantedChart] := by
  have hvalid : validate chartTwice.manifest = .ok () := rfl
  let s₀ := Stage.begun "Pull charts" { files := FileTree.empty [] }
  have hlocate : s₀.files.locate (Path.here.child wantedChart.archiveName) = .ok ["x-1.0.tgz"] := rfl
  obtain ⟨s₁, hcharts, hcommands⟩ :=
    exists_returns_charts_trialHost chartReferences_chartTwice rfl hlocate rfl
  have hstage := Stage.returns_within.mpr ⟨s₁, hcharts, rfl⟩
  exact ⟨_, returns_trialCall hvalid rfl rfl hstage, hcommands⟩

/-- A chart that is listed twice is pulled once by the live run and shown twice by the dry run. -/
theorem repeated_chart_shown_twice :
    (chartTwice.run (FileTree.empty [])).1 = .ok () ∧
      (chartTwice.run (FileTree.empty [])).2.commands = [chartPull Path.here wantedChart] ∧
      ∃ s', Action.Returns chartTwice.host { files := FileTree.empty [] }
          (all chartTwice.manifest { chartTwice.settings with dryRun := true }) () s' ∧
        s'.printed = Command.display [chartPull Path.here wantedChart, chartPull Path.here wantedChart] ∧
        s'.printed ≠ Command.display [chartPull Path.here wantedChart] := by
  obtain ⟨s, hreturns, hcommands⟩ := returns_chartTwice
  have hafter : (chartTwice.run (FileTree.empty [])).2 = s := congrArg Prod.snd hreturns
  have hvalid : validate chartTwice.manifest = .ok () := rfl
  have hdry : Action.Shows chartTwice.host (FileTree.empty [])
      (all chartTwice.manifest { chartTwice.settings with dryRun := true })
      [chartPull Path.here wantedChart, chartPull Path.here wantedChart] :=
    shows_all rfl hvalid chartReferences_chartTwice
  obtain ⟨_, s', hshow, hshown⟩ := hdry { files := FileTree.empty [] } rfl
  have hprinted : s'.printed = Command.display
      [chartPull Path.here wantedChart, chartPull Path.here wantedChart] :=
    hshown.printed.trans String.empty_append
  refine ⟨congrArg Prod.fst hreturns, by rw [hafter, hcommands], s', hshow, hprinted, ?_⟩
  rw [hprinted]
  decide

/-! ## An image and a chart -/

/-- A call that lists an image and a chart. -/
def imageAndChart : Call :=
  trialCall { images := ["pause:3.9"], charts := ["https://c.example/x:1.0"] } ⟨#[1]⟩ 0

theorem chartReferences_imageAndChart :
    imageAndChart.manifest.chartReferences = .ok [wantedChart] := rfl

/-- The working directory with the archive of the image. -/
def withArchive : FileTree :=
  { entries := [(["kubewarden-images.tar"], .file ⟨#[1]⟩)], directory := [] }

theorem returns_imageStage (himages : m.images = ["pause:3.9"]) :
    ∃ s', Action.Returns (trialHost ⟨#[1]⟩ 0) { files := FileTree.empty [] }
      (category "images" m.images (images m {})) () s' ∧ s'.files = withArchive := by
  unfold images
  rw [himages]
  exact ⟨_, rfl, rfl⟩

/-- A call for this image and for charts whose files can be located returns. -/
theorem returns_imageAndCharts (hvalid : validate m = .ok ()) (himages : m.images = ["pause:3.9"])
    (hpolicies : m.policies = []) (hcharts : m.charts ≠ []) (hrefs : m.chartReferences = .ok refs)
    (hlocate : ∀ ref ∈ refs,
      ∃ at_, withArchive.locate (Path.here.child ref.archiveName) = .ok at_) :
    ((trialCall m ⟨#[1]⟩ 0).run (FileTree.empty [])).1 = .ok () := by
  obtain ⟨s₁, himages, hfiles⟩ := returns_imageStage himages
  have hbegun : (Stage.begun "Pull charts" s₁).files = withArchive := hfiles
  rw [← hbegun] at hlocate
  have hlisted (ref : Reference) (href : ref ∈ refs) : ∃ value, Reference.ofChart value = .ok ref := by
    obtain ⟨value, -, hvalue⟩ := (Manifest.mem_chartReferences_iff hrefs).mp href
    exact ⟨value, hvalue⟩
  obtain ⟨s₂, hloop⟩ := exists_returns_forM_chart_trialHost hlisted hlocate
  have hread : Action.Returns (trialHost ⟨#[1]⟩ 0) (Stage.begun "Pull charts" s₁) (charts m {}) ()
      s₂ :=
    Action.returns_bind.mpr ⟨refs, _, Action.returns_ofExcept.mpr ⟨hrefs, rfl⟩, hloop⟩
  have hstage : Action.Returns (trialHost ⟨#[1]⟩ 0) s₁ (category "charts" m.charts (charts m {})) ()
      (Stage.ended (trialHost ⟨#[1]⟩ 0) s₂) := by
    unfold category
    rw [if_neg (by simpa using hcharts)]
    exact Stage.returns_within.mpr ⟨s₂, hread, rfl⟩
  have hnone : Action.Returns (trialHost ⟨#[1]⟩ 0) s₁
      (category "policies" m.policies (policies m {})) () s₁ := by
    rw [hpolicies]
    rfl
  exact congrArg Prod.fst (returns_trialCall hvalid himages hnone hstage)

theorem returns_imageAndChart : (imageAndChart.run (FileTree.empty [])).1 = .ok () := by
  apply returns_imageAndCharts rfl rfl rfl (by decide) chartReferences_imageAndChart
  intro ref href
  rw [List.mem_singleton.mp href]
  exact ⟨_, rfl⟩

/-- The dry run of the call shows exactly what the live run starts. -/
theorem image_and_chart_shown : ∃ shown, ∃ s' : Session,
    Action.Returns imageAndChart.host { files := FileTree.empty [] }
      (all imageAndChart.manifest { imageAndChart.settings with dryRun := true }) () s' ∧
    s'.printed = Command.display shown ∧
    List.Forall₂ imageAndChart.ShownAs (imageAndChart.run (FileTree.empty [])).2.commands
      shown := by
  obtain ⟨refs, shown, s', hrefs, hshow, -, -, hprinted, -, hagrees⟩ :=
    dryRun_agrees_iff (confined_trialCall _ _ _) (writesCharts_trialCall _ _ _)
      (writesArchives_trialCall _ _ _) returns_imageAndChart
  obtain rfl : [wantedChart] = refs :=
    Except.ok.inj (chartReferences_imageAndChart.symm.trans hrefs)
  refine ⟨shown, s', hshow, hprinted, hagrees.mpr ⟨?_, by decide⟩⟩
  intro name _ hfound
  have hmade : ((FileTree.empty []).makeDirectories Path.here).1 = FileTree.empty [] :=
    congrArg Prod.fst makeNames_nil
  unfold Call.foundOnceMade at hfound
  change ((FileTree.empty []).makeDirectories Path.here).1.holds Path.here name = true at hfound
  rwa [hmade] at hfound

end Pull

end OfflineSupply
