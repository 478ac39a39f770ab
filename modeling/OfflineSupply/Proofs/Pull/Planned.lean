import OfflineSupply.Proofs.Pull.Started

/-!
# What a pull has started

A live call that returns has made the cache directory and then started the commands that follow from
the manifest and from the files that are looked for there: the entries of each category whose archive
is missing and the saving of that archive, and the charts that are to be pulled.  Saving one archive
does not change what is found of the others.
-/

namespace OfflineSupply

open FileTree Pull

variable {c : Call} {host : Host} {s s' : Session} {p : Path} {k : Category} {t : FileTree}
  {directory : Path} {entries : List String}

namespace Category

/-- The commands for a category: its entries are pulled and then saved into a file, unless there are
none or the archive is there. -/
def planned (k : Category) (m : Manifest) (target : Path) (there : Bool) : List Command :=
  if (k.entries m).isEmpty || there then []
  else (k.entries m).map k.pull ++ [k.save (k.entries m) target]

/-! ## The run over one category -/

/-- An entry is pulled by one process. -/
theorem succeeded_of_pullEntry {set : Settings} (hlive : set.dryRun = false) {entry : String}
    (h : Action.Returns host s (k.pullEntry set entry) () s') :
    ∃ session, (k.pull entry).Succeeded host s s' session := by
  unfold pullEntry at h
  obtain ⟨_, s₁, hannounce, hpull⟩ := Action.returns_bind.mp h
  obtain ⟨-, hfiles₁, hexecutions₁⟩ := hannounce.of_ensures ensures_announce
  rw [hlive] at hpull
  obtain ⟨output, s₂, hrun, hend⟩ := Action.returns_bind.mp hpull
  obtain ⟨-, rfl⟩ := Action.returns_pure.mp hend
  have hlimit : (k.pull entry).limit = none := by
    cases k <;> rfl
  obtain ⟨session, hpulled⟩ := Command.succeeded_of_returns hlimit hrun
  exact ⟨session, hpulled.of_same hfiles₁ (Session.commands_congr hexecutions₁)⟩

theorem returns_pullEntry (hc : c.Confined directory) {entry : String}
    (hentry : entry ∈ k.entries c.manifest)
    (h : Action.Returns c.host s (k.pullEntry c.settings entry) () s') :
    s'.commands = s.commands ++ [k.pull entry] ∧ Spares directory s.files s'.files := by
  obtain ⟨session, hpulled⟩ := succeeded_of_pullEntry hc.live h
  have hspares := hc.pull k session entry hentry
  rw [hpulled.filesBefore, ← hpulled.filesAfter] at hspares
  exact ⟨hpulled.commands, hspares⟩

theorem returns_pullEntries (hc : c.Confined directory)
    (hentries : ∀ entry ∈ entries, entry ∈ k.entries c.manifest)
    (h : Action.Returns c.host s (entries.forM (k.pullEntry c.settings)) () s') :
    s'.commands = s.commands ++ entries.map k.pull ∧ Spares directory s.files s'.files := by
  induction entries generalizing s with
  | nil =>
    obtain ⟨-, rfl⟩ := Action.returns_pure.mp h
    exact ⟨by simp, .refl _ _⟩
  | cons entry entries ih =>
    obtain ⟨hentry, hrest⟩ := List.forall_mem_cons.mp hentries
    obtain ⟨_, s₁, hfirst, hmore⟩ := Action.returns_bind.mp h
    obtain ⟨hcommands₁, hspares₁⟩ := returns_pullEntry hc hentry hfirst
    obtain ⟨hcommands, hspares⟩ := ih hrest hmore
    exact ⟨by simp [hcommands, hcommands₁], hspares₁.trans hspares⟩

theorem returns_removeIfThere_of_missing (hmissing : s.files.exists? p = false)
    (h : Action.Returns host s (removeIfThere p) () s') : s' = s := by
  have hidle : Action.Ensures host s (removeIfThere p) fun _ s' ↦ s' = s := by
    unfold removeIfThere
    rw [Action.ensures_files_bind, hmissing]
    rfl
  exact h.of_ensures hidle

/-- An archive is saved by one process, which leaves the unfinished file.  That file is renamed, and
nothing is left to be removed. -/
theorem saveArchive_cases {set : Settings}
    (h : Action.Returns host s (saveArchive (k.save entries) (k.archive set) false) () s') :
    ∃ session s₁, (k.save entries (k.unfinished set)).Succeeded host s s₁ session ∧
      s₁.files.holds set.cacheDirectory k.unfinishedName = true ∧
      ∀ content, s₁.files.find? (s₁.files.place set.cacheDirectory ++ [k.unfinishedName]) =
          some (.file content) →
        s'.commands = s₁.commands ∧
        ∀ name, Path.IsName name → s'.files.holds set.cacheDirectory name =
          (name != k.unfinishedName &&
            (s₁.files.holds set.cacheDirectory name || name == k.archiveName)) := by
  unfold saveArchive at h
  rw [if_neg (by simp), addToName_archive] at h
  obtain ⟨_, s₀, hlog, hsave⟩ := Action.returns_bind.mp h
  obtain rfl := Action.returns_log.mp hlog
  obtain ⟨s₂, hcommit, hremove⟩ := Action.returns_andFinally.mp hsave
  obtain ⟨output, s₁, hrun, hchange⟩ := Action.returns_bind.mp hcommit
  obtain ⟨renamed, hrenamed, rfl⟩ := Action.returns_changeFiles.mp hchange
  have hlimit : (k.save entries (k.unfinished set)).limit = none := by
    cases k <;> rfl
  obtain ⟨session, hsaved⟩ := Command.succeeded_of_returns hlimit hrun
  refine ⟨session, s₁, hsaved.of_same rfl rfl, ?_, ?_⟩
  · -- The renaming found the unfinished file, so the process left it where it can be reached.
    obtain ⟨hlocate, -, ⟨entry, hfound⟩, -⟩ := rename_unfinished hrenamed
    rw [place_unfinished] at hlocate hfound
    exact (holds_iff_located k.isName_unfinishedName).mpr ⟨hlocate, by simp [hfound]⟩
  · intro content hfile
    have hmoved {name : String} (hname : Path.IsName name) :=
      holds_rename hrenamed k.isName_unfinishedName k.isName_archiveName
        (k.archiveName_ne_unfinishedName k).symm hfile hname
    have hgone : renamed.holds set.cacheDirectory k.unfinishedName = false := by
      rw [hmoved k.isName_unfinishedName]
      simp
    obtain rfl : s' = { s₁ with files := renamed } :=
      returns_removeIfThere_of_missing (s := { s₁ with files := renamed }) hgone hremove
    exact ⟨rfl, fun _ hname ↦ hmoved hname⟩

/-- Saving an archive starts one process.  Afterwards the archive is there and the unfinished file is
not, and all else is as before. -/
theorem returns_saveArchive (hc : c.Confined c.settings.cacheDirectory) (ha : c.WritesArchives)
    (h : Action.Returns c.host s
      (saveArchive (k.save (k.entries c.manifest)) (k.archive c.settings) false) () s') :
    s'.commands = s.commands ++ [k.save (k.entries c.manifest) (k.unfinished c.settings)] ∧
      ∀ name, Path.IsName name → s'.files.holds c.settings.cacheDirectory name =
        (name != k.unfinishedName &&
          (s.files.holds c.settings.cacheDirectory name || name == k.archiveName)) := by
  obtain ⟨session, s₁, hsaved, hthere, hrenamed⟩ := saveArchive_cases h
  have hwritten := hc.save k session
  obtain ⟨at_, content, hlocate, hfile⟩ := ha k session hsaved.exit
  rw [hsaved.filesBefore, ← hsaved.filesAfter] at hwritten
  rw [hsaved.filesBefore] at hlocate
  rw [← hsaved.filesAfter] at hfile
  obtain ⟨-, -, rfl⟩ := (locate_child_iff k.isName_unfinishedName).mp hlocate
  rw [← place_congr hwritten.directory] at hfile
  obtain ⟨hcommands, hholds⟩ := hrenamed content hfile
  refine ⟨hcommands.trans hsaved.commands, ?_⟩
  intro name hname
  rw [hholds name hname, hwritten.holds k.isName_unfinishedName hthere hname]
  by_cases heq : name = k.unfinishedName
  · simp [heq]
  · rw [beq_eq_false_iff_ne.mpr heq, Bool.or_false]

/-- A category whose archive is there is skipped; otherwise its entries are pulled and saved. -/
theorem bundle_cases {m : Manifest} {set : Settings}
    (h : Action.Returns host s (k.bundle m set) () s') :
    (s.files.holds set.cacheDirectory k.archiveName = true ∧ s'.files = s.files ∧
      s'.commands = s.commands) ∨
    (s.files.holds set.cacheDirectory k.archiveName = false ∧
      ∃ s₁ s₂, s₁.files = s.files ∧ s₁.commands = s.commands ∧
        Action.Returns host s₁ ((k.entries m).forM (k.pullEntry set)) () s₂ ∧
        Action.Returns host s₂ (saveArchive (k.save (k.entries m)) (k.archive set) set.dryRun) ()
          s') := by
  unfold bundle at h
  obtain ⟨answer, s₁, hlook, hrest⟩ := Action.returns_bind.mp h
  obtain ⟨hanswer, hfiles₁, hcommands₁⟩ := returns_isThere hlook
  change answer = s.files.holds set.cacheDirectory k.archiveName at hanswer
  rw [← hanswer]
  cases answer with
  | true =>
    rw [if_pos rfl, Action.returns_pure] at hrest
    obtain ⟨-, rfl⟩ := hrest
    exact .inl ⟨rfl, hfiles₁, hcommands₁⟩
  | false =>
    rw [if_neg (by simp)] at hrest
    obtain ⟨_, s₂, hpull, hsave⟩ := Action.returns_bind.mp hrest
    exact .inr ⟨rfl, s₁, s₂, hfiles₁, hcommands₁, hpull, hsave⟩

theorem returns_bundle (hc : c.Confined c.settings.cacheDirectory) (ha : c.WritesArchives)
    (hentries : k.entries c.manifest ≠ [])
    (h : Action.Returns c.host s (k.bundle c.manifest c.settings) () s') :
    s'.commands = s.commands ++ k.planned c.manifest (k.unfinished c.settings)
        (s.files.holds c.settings.cacheDirectory k.archiveName) ∧
      ∀ name, Path.IsName name → name ≠ k.unfinishedName →
        s'.files.holds c.settings.cacheDirectory name =
          (s.files.holds c.settings.cacheDirectory name || name == k.archiveName) := by
  have hnonempty : (k.entries c.manifest).isEmpty = false := by
    simpa using hentries
  rw [planned, hnonempty, Bool.false_or]
  rcases bundle_cases h with ⟨hthere, hfiles, hcommands⟩ |
    ⟨hmissing, s₁, s₂, hfiles₁, hcommands₁, hpull, hsave⟩
  · refine ⟨by simp [hthere, hcommands], ?_⟩
    intro name _ _
    rw [hfiles, or_beq_of_there hthere]
  · obtain ⟨hcommands₂, hspares⟩ := returns_pullEntries hc (fun _ hentry ↦ hentry) hpull
    rw [hfiles₁] at hspares
    rw [hc.live] at hsave
    obtain ⟨hcommands, hholds⟩ := returns_saveArchive hc ha hsave
    refine ⟨by simp [hmissing, hcommands, hcommands₂, hcommands₁], ?_⟩
    intro name hname hne
    rw [hholds name hname, hspares.holds hname, bne_iff_ne.mpr hne, Bool.true_and]

/-- The stage of a category leaves what is found under other names as it was. -/
theorem returns_category (hc : c.Confined c.settings.cacheDirectory) (ha : c.WritesArchives)
    {title : String}
    (h : Action.Returns c.host s
      (category title (k.entries c.manifest) (k.bundle c.manifest c.settings)) () s') :
    s'.commands = s.commands ++ k.planned c.manifest (k.unfinished c.settings)
        (s.files.holds c.settings.cacheDirectory k.archiveName) ∧
      ∀ name, Path.IsName name → name ≠ k.archiveName → name ≠ k.unfinishedName →
        s'.files.holds c.settings.cacheDirectory name =
          s.files.holds c.settings.cacheDirectory name := by
  unfold category at h
  split at h
  · rename_i hempty
    obtain ⟨-, rfl⟩ := Action.returns_pure.mp h
    exact ⟨by simp [planned, hempty], fun _ _ _ _ ↦ rfl⟩
  · rename_i hnonempty
    obtain ⟨s₁, hbundle, rfl⟩ := Stage.returns_within.mp h
    obtain ⟨hcommands, hholds⟩ := returns_bundle hc ha (by simpa using hnonempty) hbundle
    refine ⟨hcommands, ?_⟩
    intro name hname harchive hunfinished
    have hsame := hholds name hname hunfinished
    rwa [beq_eq_false_iff_ne.mpr harchive, Bool.or_false] at hsame

end Category

namespace Pull

/-- The commands for a manifest: those for its images and policies, whose archives are saved into
some files, and those for the charts that are to be pulled. -/
def planned (m : Manifest) (s : Settings) (target : Category → Path) (there : String → Bool)
    (charts : List Reference) : List Command :=
  Category.images.planned m (target .images) (there Category.images.archiveName) ++
    Category.policies.planned m (target .policies) (there Category.policies.archiveName) ++
    charts.map (chartPull s.cacheDirectory)

/-- What is found in the cache directory once it was made. -/
def Call.foundOnceMade (c : Call) (t : FileTree) : String → Bool :=
  (t.makeDirectories c.settings.cacheDirectory).1.holds c.settings.cacheDirectory

theorem chartReferences_of_validate {m : Manifest} (h : validate m = .ok ()) :
    ∃ refs, m.chartReferences = .ok refs := by
  obtain ⟨refs, hrefs, -⟩ := bind_eq_ok_iff.mp h
  exact ⟨refs, hrefs⟩

/-- A live call that returns has started the commands that follow from what was found once the cache
directory was made. -/
theorem returns_all (hc : c.Confined c.settings.cacheDirectory) (hw : c.WritesCharts)
    (ha : c.WritesArchives)
    (h : Action.Returns c.host { files := t } (all c.manifest c.settings) () s') :
    validate c.manifest = .ok () ∧ ∃ refs, c.manifest.chartReferences = .ok refs ∧
      s'.commands = planned c.manifest c.settings (fun k ↦ k.unfinished c.settings)
        (c.foundOnceMade t) (toPull (c.foundOnceMade t) refs) := by
  unfold all at h
  obtain ⟨_, s₀, hvalidate, h⟩ := Action.returns_bind.mp h
  obtain ⟨hvalid, rfl⟩ := Action.returns_ofExcept.mp hvalidate
  obtain ⟨refs, hrefs⟩ := chartReferences_of_validate hvalid
  rw [hc.live, if_neg (by simp)] at h
  obtain ⟨_, s₁, hmake, h⟩ := Action.returns_bind.mp h
  obtain ⟨-, hmade⟩ := Action.returns_makeDirectories.mp hmake
  obtain ⟨_, s₂, himages, h⟩ := Action.returns_bind.mp h
  obtain ⟨_, s₃, hpolicies, hcharts⟩ := Action.returns_bind.mp h
  obtain ⟨hcommands₂, hholds₂⟩ := Category.returns_category (k := .images) hc ha himages
  obtain ⟨hcommands₃, hholds₃⟩ := Category.returns_category (k := .policies) hc ha hpolicies
  have hcommands := returns_chartCategory hc.charts hw hrefs hcharts
  have hstart (name : String) :
      s₁.files.holds c.settings.cacheDirectory name = c.foundOnceMade t name := by
    rw [← hmade]
    rfl
  have hidle : s₁.commands = [] := by
    rw [← hmade]
    rfl
  have hpolicies : s₂.files.holds c.settings.cacheDirectory Category.policies.archiveName =
      c.foundOnceMade t Category.policies.archiveName := by
    rw [hholds₂ _ Category.policies.isName_archiveName (by decide) (by decide), hstart]
  have hpull : toPull (s₃.files.holds c.settings.cacheDirectory) refs =
      toPull (c.foundOnceMade t) refs := by
    apply toPull_congr
    intro ref href
    obtain ⟨value, -, hvalue⟩ := (Manifest.mem_chartReferences_iff hrefs).mp href
    have hname := Reference.isName_archiveName hvalue
    have himages := archiveName_ne_of_chart ref .images
    have hpolicies := archiveName_ne_of_chart ref .policies
    rw [hholds₃ _ hname hpolicies.1.symm hpolicies.2.symm,
      hholds₂ _ hname himages.1.symm himages.2.symm, hstart]
  refine ⟨hvalid, refs, hrefs, ?_⟩
  rw [hcommands, hcommands₃, hcommands₂, hidle, List.nil_append, hstart, hpolicies, hpull]
  rfl

end Pull

end OfflineSupply
