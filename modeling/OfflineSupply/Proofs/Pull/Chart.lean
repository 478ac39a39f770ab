import OfflineSupply.Proofs.Manifest.Reading
import OfflineSupply.Proofs.Pull.Archive

/-!
# How a chart file comes about

A chart version is pulled by one process straight into its file, unless something is there under
that name.  The name is made of parts without slashes and has an ending of its own, so the file lies
in the cache directory beside the archives.
-/

namespace OfflineSupply

namespace Reference

variable {value : String} {ref : Reference}

theorem slash_not_mem_name (ref : Reference) : '/' ∉ ref.name.toList := by
  rw [name, String.toList_ofList]
  exact Text.not_mem_cutLast '/' ref.path.toList

/-- A chart reference has a repository, a name and a version, and the latter two hold no slash. -/
theorem parts_of_ofChart (h : ofChart value = .ok ref) :
    ∃ repository name version,
      ref = { authority := some repository, path := name, version := some version } ∧
        '/' ∉ name.toList ∧ '/' ∉ version.toList := by
  unfold ofChart at h
  have hlast := Text.not_mem_cutLast '/' value.toList
  split at h
  · simp at h
  · simp at h
  · rename_i repository last hcut
    rw [hcut] at hlast
    split at h
    · simp at h
    · rename_i name version hname
      have happend := Text.cutLast_eq_append hname
      simp only [happend, List.mem_append, List.mem_cons, not_or] at hlast
      split at h
      · simp at h
      · exact ⟨_, _, _, (Except.ok.inj h).symm, by simpa using hlast.1, by simpa using hlast.2.2⟩

theorem slash_not_mem_version (h : ofChart value = .ok ref) :
    ∃ version, ref.version = some version ∧ '/' ∉ version.toList := by
  obtain ⟨repository, name, version, rfl, -, hversion⟩ := parts_of_ofChart h
  exact ⟨version, rfl, hversion⟩

/-- The path of a chart is its name. -/
theorem name_of_ofChart (h : ofChart value = .ok ref) : ref.name = ref.path := by
  obtain ⟨repository, name, version, rfl, hname, -⟩ := parts_of_ofChart h
  rw [Reference.name, Text.afterLast_eq_self hname, String.ofList_toList]

/-- The ending of a chart file. -/
theorem ending_of_archiveName (ref : Reference) : ".tgz".toList <:+ ref.archiveName.toList := by
  rw [archiveName, String.toList_append]
  exact List.suffix_append _ _

theorem isName_archiveName (h : ofChart value = .ok ref) : Path.IsName ref.archiveName := by
  have hending := ref.ending_of_archiveName
  have hne {text : String} (hshort : ¬ ".tgz".toList <:+ text.toList) :
      ref.archiveName ≠ text := by
    rintro rfl
    exact hshort hending
  refine ⟨?_, hne (by decide), hne (by decide), hne (by decide)⟩
  obtain ⟨version, hversion, hslash⟩ := slash_not_mem_version h
  rw [archiveName, hversion]
  simp [ref.slash_not_mem_name, hslash]

end Reference

namespace Pull

open FileTree

variable {host : Host} {s : Session} {c : Call} {ls : List Launch} {ref : Reference}
  {directory : Path}

/-- A chart file has the name of no archive, finished or not. -/
theorem archiveName_ne_of_chart (ref : Reference) (k : Category) :
    k.archiveName ≠ ref.archiveName ∧ k.unfinishedName ≠ ref.archiveName := by
  have hending := ref.ending_of_archiveName
  constructor
  · intro heq
    rw [← heq] at hending
    revert hending
    cases k <;> decide
  · intro heq
    rw [← heq] at hending
    revert hending
    cases k <;> decide

/-- Charts that differ in repository, name or version are pulled by different commands. -/
theorem chartPull_injective {value value' : String} {ref' : Reference}
    (h : Reference.ofChart value = .ok ref) (h' : Reference.ofChart value' = .ok ref')
    (hsame : chartPull directory ref = chartPull directory ref') : ref = ref' := by
  have hname := Reference.name_of_ofChart h
  have hname' := Reference.name_of_ofChart h'
  obtain ⟨repository, name, version, rfl, -, -⟩ := Reference.parts_of_ofChart h
  obtain ⟨repository', name', version', rfl, -, -⟩ := Reference.parts_of_ofChart h'
  have harguments := congrArg Command.arguments hsame
  simp only [chartPull, hname, hname', Option.getD_some, List.cons.injEq, true_and,
    and_true] at harguments
  obtain ⟨rfl, rfl, hpinned⟩ := harguments
  obtain rfl : version = version' := by simpa using hpinned
  rfl

/-- A chart is skipped, or one process is started for it that may write its file. -/
theorem ensures_chart (hc : c.Confined directory)
    (href : c.Lists ref) (htraced : s.Traced c.host ls) :
    Action.Ensures c.host s (chart c.settings ref) fun r s' ↦
      (r = .ok () ∧ s.files.exists? (c.settings.chartFile ref) = true ∧
        s'.files = s.files ∧ s'.Traced c.host ls) ∨
      (s.files.exists? (c.settings.chartFile ref) = false ∧
        ∃ l, s'.Traced c.host (ls ++ [l]) ∧ l.command = chartPull c.settings.cacheDirectory ref ∧
          l.session.files = s.files ∧ (l.outcome c.host).files = s'.files ∧
          WrittenAt (c.settings.chartFile ref) s.files s'.files ∧
          (r = .ok () → l.Succeeds c.host)) := by
  rw [chart_eq]
  refine ensures_isThere.bind ?_ (by simp)
  rintro there s₁ ⟨hthere, hfiles₁, hexecutions₁⟩
  have htraced₁ := htraced.of_executions hexecutions₁
  rw [← Except.ok.inj hthere]
  cases there with
  | true =>
    rw [if_pos rfl, Action.ensures_pure]
    exact .inl ⟨rfl, rfl, hfiles₁, htraced₁⟩
  | false =>
    rw [if_neg (by simp), Action.ensures_log_bind, hc.live, Action.ensures_bind]
    have hlimit : (chartPull c.settings.cacheDirectory ref).limit = none := rfl
    refine (Command.ensures_run hlimit).mono ?_
    rintro r s₂ ⟨l, hl⟩
    have hbefore : l.session.files = s.files := hl.filesBefore.trans hfiles₁
    have hwritten : WrittenAt (c.settings.chartFile ref) s.files s₂.files := by
      have hpull := hc.chart ref l.session href
      rw [hl.filesAfter]
      rwa [← hl.command, hbefore] at hpull
    have htraced₂ := hl.traced (htraced₁.of_executions rfl)
    cases r with
    | ok output =>
      exact .inr ⟨rfl, l, htraced₂, hl.command, hbefore, hl.filesAfter.symm, hwritten,
        fun _ ↦ hl.succeeds output rfl⟩
    | error e =>
      exact .inr ⟨rfl, l, htraced₂, hl.command, hbefore, hl.filesAfter.symm, hwritten, by simp⟩

/-- What holds after each initial part of the charts holds after all of them if they end well, and
what each chart keeps is kept in any case. -/
theorem ensures_charts {kept : Session → Prop} (inv : List Reference → Session → Prop)
    (hstart : inv [] s) (hkept : ∀ before s', inv before s' → kept s')
    (hchart : ∀ refs before ref after s', c.manifest.chartReferences = .ok refs →
      refs = before ++ ref :: after → inv before s' →
      Action.Ensures c.host s' (chart c.settings ref) fun r s'' ↦
        (r = .ok () → inv (before ++ [ref]) s'') ∧ kept s'') :
    Action.Ensures c.host s (charts c.manifest c.settings) fun r s' ↦
      kept s' ∧ (r = .ok () → ∃ refs, c.manifest.chartReferences = .ok refs ∧ inv refs s') := by
  have hread : Action.Ensures c.host s (Action.ofExcept c.manifest.chartReferences) fun r s' ↦
      r = c.manifest.chartReferences ∧ s' = s := ⟨rfl, rfl⟩
  unfold charts
  refine hread.bind ?_ ?_
  · rintro refs s₁ ⟨hrefs, rfl⟩
    refine (Action.ensures_forM inv (fun _ ↦ kept) hstart ?_).mono ?_
    · intro before ref after s' hsplit hbefore
      refine (hchart refs before ref after s' hrefs.symm hsplit hbefore).mono ?_
      rintro r s'' ⟨hnext, hkept'⟩
      exact ⟨hnext, fun _ _ ↦ hkept'⟩
    · rintro r s' ⟨hfinished, hleft⟩
      cases r with
      | error e => exact ⟨hleft e rfl, by simp⟩
      | ok value =>
        exact ⟨hkept refs s' (hfinished rfl), fun _ ↦ ⟨refs, hrefs.symm, hfinished rfl⟩⟩
  · rintro e s₁ ⟨-, rfl⟩
    exact ⟨hkept [] _ hstart, by simp⟩

end Pull

end OfflineSupply
