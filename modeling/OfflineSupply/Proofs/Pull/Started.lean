import OfflineSupply.Proofs.FileTree.Enter
import OfflineSupply.Proofs.Pull.Chart
import OfflineSupply.Proofs.Session.Returns

/-!
# The charts that are pulled

A live run over the charts looks for each chart file when its turn comes, and finds what was there
at first and what it has pulled since.  If it returns, the commands that it started follow from the
list of charts and from the files that were there at first.
-/

namespace OfflineSupply.Pull

open FileTree

variable {c : Call} {host : Host} {s s' : Session} {p : Path} {ref : Reference}
  {refs : List Reference} {there there' : String → Bool}

/-! ## First charts of a file name -/

/-- The charts that are pulled when the files of some names are there: a chart is skipped if its
file is there or was pulled for a chart before it. -/
def toPull (there : String → Bool) : List Reference → List Reference
  | [] => []
  | ref :: refs =>
    if there ref.archiveName then toPull there refs
    else ref :: toPull (fun name ↦ there name || name == ref.archiveName) refs

theorem toPull_congr (h : ∀ ref ∈ refs, there ref.archiveName = there' ref.archiveName) :
    toPull there refs = toPull there' refs := by
  induction refs generalizing there there' with
  | nil => rfl
  | cons ref refs ih =>
    obtain ⟨hfirst, hrest⟩ := List.forall_mem_cons.mp h
    have hmore : toPull (fun name ↦ there name || name == ref.archiveName) refs =
        toPull (fun name ↦ there' name || name == ref.archiveName) refs := by
      apply ih
      intro ref' href'
      rw [hrest ref' href']
    rw [toPull, toPull, hfirst, ih hrest, hmore]

/-- Adding what is there changes nothing. -/
theorem or_beq_of_there {name : String} (h : there name = true) (other : String) :
    (there other || other == name) = there other := by
  by_cases heq : other = name
  · simp [heq, h]
  · simp [heq]

/-- Whether the first chart is pulled or skipped, its file is there for the charts behind it. -/
theorem toPull_cons : toPull there (ref :: refs) =
    toPull there [ref] ++ toPull (fun name ↦ there name || name == ref.archiveName) refs := by
  by_cases hthere : there ref.archiveName = true
  · have hsame : (fun name ↦ there name || name == ref.archiveName) = there := by
      funext name
      exact or_beq_of_there hthere name
    simp [toPull, hthere, hsame]
  · simp [toPull, hthere]

theorem toPull_sublist : (toPull there refs).Sublist refs := by
  induction refs generalizing there with
  | nil => exact List.Sublist.refl []
  | cons ref refs ih =>
    rw [toPull]
    split
    · exact ih.cons ref
    · exact ih.cons_cons ref

/-- A chart is pulled if its file is missing and no chart before it has the same file. -/
theorem mem_toPull_iff : ref ∈ toPull there refs ↔
    there ref.archiveName = false ∧
      refs.find? (fun ref' ↦ ref'.archiveName == ref.archiveName) = some ref := by
  induction refs generalizing there with
  | nil => simp [toPull]
  | cons first refs ih =>
    rw [toPull]
    by_cases hfirst : there first.archiveName = true
    · rw [if_pos hfirst, ih]
      by_cases hsame : first.archiveName = ref.archiveName
      · simp [← hsame, hfirst]
      · simp [hsame]
    · rw [if_neg hfirst, List.mem_cons, ih]
      by_cases hsame : first.archiveName = ref.archiveName
      · have hmissing : there ref.archiveName = false := by
          simpa [hsame] using hfirst
        simp [hsame, hmissing, eq_comm]
      · have hne : ref ≠ first := by
          rintro rfl
          exact hsame rfl
        simp [hsame, hne, Ne.symm hsame]

/-- No two charts are pulled into one file. -/
theorem nodup_toPull : ((toPull there refs).map Reference.archiveName).Nodup := by
  induction refs generalizing there with
  | nil => simp [toPull]
  | cons ref refs ih =>
    rw [toPull]
    split
    · exact ih
    · rw [List.map_cons, List.nodup_cons]
      refine ⟨?_, ih⟩
      intro hmem
      obtain ⟨ref', href', hname⟩ := List.mem_map.mp hmem
      have hmissing := (mem_toPull_iff.mp href').1
      simp [hname] at hmissing

/-- All charts whose files are missing are pulled exactly if no two of them share a file. -/
theorem toPull_eq_filter_iff :
    toPull there refs = refs.filter (fun ref ↦ !there ref.archiveName) ↔
      ((refs.filter fun ref ↦ !there ref.archiveName).map Reference.archiveName).Nodup := by
  constructor
  · intro h
    rw [← h]
    exact nodup_toPull
  · intro h
    induction refs with
    | nil => rfl
    | cons ref refs ih =>
      rw [toPull]
      by_cases hfirst : there ref.archiveName = true
      · rw [List.filter_cons_of_neg (by simp [hfirst])] at h ⊢
        rw [if_pos hfirst, ih h]
      · rw [List.filter_cons_of_pos (by simpa using hfirst)] at h ⊢
        rw [List.map_cons, List.nodup_cons] at h
        have hother : ∀ ref' ∈ refs, ref'.archiveName ≠ ref.archiveName := by
          intro ref' href' hname
          apply h.1
          rw [← hname]
          exact List.mem_map_of_mem (List.mem_filter.mpr ⟨href', by simpa [hname] using hfirst⟩)
        have hmore : toPull (fun name ↦ there name || name == ref.archiveName) refs =
            toPull there refs := by
          apply toPull_congr
          intro ref' href'
          simp [hother ref' href']
        rw [if_neg hfirst, hmore, ih h.2]

/-! ## The run over the charts -/

theorem returns_isThere {answer : Bool} (h : Action.Returns host s (isThere p) answer s') :
    answer = s.files.exists? p ∧ s'.files = s.files ∧ s'.commands = s.commands := by
  obtain ⟨hanswer, hfiles, hexecutions⟩ := h.of_ensures ensures_isThere
  exact ⟨Except.ok.inj hanswer, hfiles, Session.commands_congr hexecutions⟩

theorem exists_returns_isThere :
    ∃ s', Action.Returns host s (isThere p) (s.files.exists? p) s' ∧ s'.files = s.files ∧
      s'.commands = s.commands := by
  have hlook : Action.Ensures host s (isThere p) _ := ensures_isThere
  obtain ⟨hanswer, hfiles, hexecutions⟩ := hlook
  exact ⟨_, Prod.ext hanswer rfl, hfiles, Session.commands_congr hexecutions⟩

/-- A chart whose file is there is skipped. -/
theorem exists_returns_chart_of_there {set : Settings}
    (hthere : s.files.exists? (set.chartFile ref) = true) :
    ∃ s', Action.Returns host s (chart set ref) () s' ∧ s'.files = s.files ∧
      s'.commands = s.commands := by
  obtain ⟨s₁, hlook, hfiles, hcommands⟩ : ∃ s₁,
      Action.Returns host s (isThere (set.chartFile ref)) _ s₁ ∧ _ ∧ _ := exists_returns_isThere
  rw [hthere] at hlook
  exact ⟨s₁, Action.returns_bind.mpr ⟨true, s₁, hlook, rfl⟩, hfiles, hcommands⟩

/-- A chart whose file is there is skipped, and any other is pulled by one process. -/
theorem chart_cases {set : Settings} (hlive : set.dryRun = false)
    (h : Action.Returns host s (chart set ref) () s') :
    (s.files.holds set.cacheDirectory ref.archiveName = true ∧ s'.files = s.files ∧
      s'.commands = s.commands) ∨
    (s.files.holds set.cacheDirectory ref.archiveName = false ∧
      ∃ session, (chartPull set.cacheDirectory ref).Succeeded host s s' session) := by
  unfold chart at h
  obtain ⟨answer, s₁, hlook, hrest⟩ := Action.returns_bind.mp h
  obtain ⟨hanswer, hfiles₁, hcommands₁⟩ := returns_isThere hlook
  change answer = s.files.holds set.cacheDirectory ref.archiveName at hanswer
  rw [← hanswer]
  cases answer with
  | true =>
    rw [if_pos rfl, Action.returns_pure] at hrest
    obtain ⟨-, rfl⟩ := hrest
    exact .inl ⟨rfl, hfiles₁, hcommands₁⟩
  | false =>
    rw [if_neg (by simp), hlive] at hrest
    obtain ⟨_, s₂, hlog, hpull⟩ := Action.returns_bind.mp hrest
    obtain ⟨output, s₃, hrun, hend⟩ := Action.returns_bind.mp hpull
    obtain ⟨-, rfl⟩ := Action.returns_pure.mp hend
    obtain rfl := Action.returns_log.mp hlog
    obtain ⟨session, hpulled⟩ := Command.succeeded_of_returns rfl hrun
    exact .inr ⟨rfl, session, hpulled.of_same hfiles₁ hcommands₁⟩

/-- A process that pulled a chart and succeeded made its file, if that was missing. -/
theorem holds_of_pulled {session : Session} (hc : c.ConfinedCharts) (hw : c.WritesCharts)
    (href : c.Lists ref)
    (hpulled : (chartPull c.settings.cacheDirectory ref).Succeeded c.host s s' session)
    (hmissing : s.files.holds c.settings.cacheDirectory ref.archiveName = false) {name : String}
    (hname : Path.IsName name) :
    s'.files.holds c.settings.cacheDirectory name =
      (s.files.holds c.settings.cacheDirectory name || name == ref.archiveName) := by
  obtain ⟨value, -, hvalue⟩ := id href
  have hwritten := hc.chart ref session href
  obtain ⟨at_, content, hlocate, hfound⟩ := hw ref session href hpulled.exit
  rw [← hpulled.filesAfter, hpulled.filesBefore] at hwritten
  rw [hpulled.filesBefore] at hlocate
  rw [← hpulled.filesAfter] at hfound
  have hthere := hwritten.exists?_of_file hmissing hlocate hfound
  exact hwritten.holds (Reference.isName_archiveName hvalue) hthere hname

/-- A chart that is not there is pulled, and is there afterwards besides all that was there. -/
theorem returns_chart (hc : c.ConfinedCharts) (hw : c.WritesCharts) (href : c.Lists ref)
    (h : Action.Returns c.host s (chart c.settings ref) () s') :
    s'.commands = s.commands ++
        (toPull (s.files.holds c.settings.cacheDirectory) [ref]).map
          (chartPull c.settings.cacheDirectory) ∧
      ∀ name, Path.IsName name →
        s'.files.holds c.settings.cacheDirectory name =
          (s.files.holds c.settings.cacheDirectory name || name == ref.archiveName) := by
  rcases chart_cases hc.live h with ⟨hthere, hfiles, hcommands⟩ | ⟨hmissing, session, hpulled⟩
  · refine ⟨by simp [hcommands, toPull, hthere], ?_⟩
    intro name _
    rw [hfiles, or_beq_of_there hthere]
  · exact ⟨by simp [hpulled.commands, toPull, hmissing],
      fun name hname ↦ holds_of_pulled hc hw href hpulled hmissing hname⟩

/-- Over a list of charts, those are pulled whose files are missing when their turn comes. -/
theorem returns_forM_chart (hc : c.ConfinedCharts) (hw : c.WritesCharts)
    (hrefs : ∀ ref ∈ refs, c.Lists ref)
    (h : Action.Returns c.host s (refs.forM (chart c.settings)) () s') :
    s'.commands = s.commands ++
      (toPull (s.files.holds c.settings.cacheDirectory) refs).map
        (chartPull c.settings.cacheDirectory) := by
  induction refs generalizing s with
  | nil =>
    obtain ⟨-, rfl⟩ := Action.returns_pure.mp h
    simp [toPull]
  | cons ref refs ih =>
    obtain ⟨href, hrest⟩ := List.forall_mem_cons.mp hrefs
    obtain ⟨_, s₁, hfirst, hmore⟩ := Action.returns_bind.mp h
    obtain ⟨hcommands, hholds⟩ := returns_chart hc hw href hfirst
    have hnext : toPull (s₁.files.holds c.settings.cacheDirectory) refs =
        toPull (fun name ↦ s.files.holds c.settings.cacheDirectory name ||
          name == ref.archiveName) refs := by
      apply toPull_congr
      intro ref' href'
      obtain ⟨value, -, hvalue⟩ := hrest ref' href'
      exact hholds ref'.archiveName (Reference.isName_archiveName hvalue)
    have hsplit : toPull (s.files.holds c.settings.cacheDirectory) (ref :: refs) = _ := toPull_cons
    rw [ih hrest hmore, hcommands, hnext, hsplit, List.map_append, List.append_assoc]

theorem returns_charts (hc : c.ConfinedCharts) (hw : c.WritesCharts)
    (h : Action.Returns c.host s (charts c.manifest c.settings) () s') :
    ∃ refs, c.manifest.chartReferences = .ok refs ∧
      s'.commands = s.commands ++
        (toPull (s.files.holds c.settings.cacheDirectory) refs).map
          (chartPull c.settings.cacheDirectory) := by
  unfold charts at h
  obtain ⟨refs, s₁, hread, hrest⟩ := Action.returns_bind.mp h
  obtain ⟨hrefs, rfl⟩ := Action.returns_ofExcept.mp hread
  refine ⟨refs, hrefs, returns_forM_chart hc hw ?_ hrest⟩
  intro ref href
  exact (Manifest.mem_chartReferences_iff hrefs).mp href

/-- The stage of the charts, which is left out when there are none. -/
theorem returns_chartCategory (hc : c.ConfinedCharts) (hw : c.WritesCharts)
    (hrefs : c.manifest.chartReferences = .ok refs) {title : String}
    (h : Action.Returns c.host s
      (category title c.manifest.charts (charts c.manifest c.settings)) () s') :
    s'.commands = s.commands ++
      (toPull (s.files.holds c.settings.cacheDirectory) refs).map
        (chartPull c.settings.cacheDirectory) := by
  unfold category at h
  split at h
  · rename_i hempty
    obtain ⟨-, rfl⟩ := Action.returns_pure.mp h
    rw [Manifest.eq_nil_of_chartReferences hrefs hempty]
    simp [toPull]
  · obtain ⟨s₁, hcharts, rfl⟩ := Stage.returns_within.mp h
    obtain ⟨refs', hrefs', hcommands⟩ := returns_charts hc hw hcharts
    obtain rfl : refs' = refs := Except.ok.inj (hrefs'.symm.trans hrefs)
    exact hcommands

end OfflineSupply.Pull
