import OfflineSupply.Proofs.Pull.ChartFile
import OfflineSupply.Proofs.Pull.Trial

/-!
# Charts that are pulled again

Over a history of calls a chart file has one writer at most, because nothing is pulled into a file
that is there.  If the writer did not exit with zero, what it left is taken for the chart by all later
calls, and this is the only way in which calls end normally without the chart.
-/

namespace OfflineSupply.Pull

open FileTree

variable {c : Call} {ref : Reference} {name : String} {cache : Path} {t : FileTree}
  {ls : List Launch} {s : Session}

/-! ## One writer -/

/-- An entry is as it was, or one process made a file of it, which either exited with zero or did
not. -/
def OneWriter (before after : Option FileEntry) (finished broken : Prop) : Prop :=
  (after = before ∧ ¬ finished ∧ ¬ broken) ∨
    (before = none ∧ (∃ content, after = some (.file content)) ∧
      (finished ∧ ¬ broken ∨ ¬ finished ∧ broken))

theorem OneWriter.trans {before between after : Option FileEntry}
    {finished broken finished' broken' : Prop} (h : OneWriter before between finished broken)
    (h' : OneWriter between after finished' broken') :
    OneWriter before after (finished ∨ finished') (broken ∨ broken') := by
  rcases h with ⟨rfl, hfinished, hbroken⟩ | ⟨hvacant, ⟨content, hfile⟩, hone⟩
  · rcases h' with ⟨rfl, hfinished', hbroken'⟩ | ⟨hvacant, hfile, hone⟩
    · exact .inl ⟨rfl, by simp [hfinished, hfinished'], by simp [hbroken, hbroken']⟩
    · exact .inr ⟨hvacant, hfile, by simpa [hfinished, hbroken] using hone⟩
  · rcases h' with ⟨rfl, hfinished', hbroken'⟩ | ⟨hvacant', -⟩
    · exact .inr ⟨hvacant, ⟨content, hfile⟩, by simpa [hfinished', hbroken'] using hone⟩
    · rw [hfile] at hvacant'
      simp at hvacant'

namespace Call

/-- A process of the call, begun with some files, pulled the chart and exited with zero. -/
def Finishes (c : Call) (name : String) (t : FileTree) : Prop :=
  ∃ e ∈ (c.run t).2.executions,
    PullsChart c.settings.cacheDirectory name e.command ∧ e.ending = .exited 0

/-- The last process of the call pulled the chart, did not exit with zero, and left something where
the chart file had not been. -/
def LeavesPartial (c : Call) (name : String) (t : FileTree) : Prop :=
  ∃ e, (c.run t).2.executions.getLast? = some e ∧
    PullsChart c.settings.cacheDirectory name e.command ∧ e.ending ≠ .exited 0 ∧
    e.filesBefore.find? (t.place c.settings.cacheDirectory ++ [name]) = none ∧
    (c.filesAfter t).find? (t.place c.settings.cacheDirectory ++ [name]) ≠ none

end Call

/-- One of the processes pulled the chart and exited with zero. -/
def FinishedBy (host : Host) (cache : Path) (name : String) (ls : List Launch) : Prop :=
  ∃ l ∈ ls, PullsChart cache name l.command ∧ (l.outcome host).exit = some 0

/-- The last process pulled the chart, did not exit with zero, and left something where the chart file
had not been. -/
def LeftBy (host : Host) (cache : Path) (name : String) (before after : FileTree)
    (ls : List Launch) : Prop :=
  ∃ l, ls.getLast? = some l ∧ PullsChart cache name l.command ∧ (l.outcome host).exit ≠ some 0 ∧
    l.session.files.find? (before.place cache ++ [name]) = none ∧
    after.find? (before.place cache ++ [name]) ≠ none

section Writers

variable {host : Host} {before after : FileTree}

theorem Untried.oneWriter (h : Untried cache name before after ls) :
    OneWriter (before.find? (before.place cache ++ [name]))
      (after.find? (before.place cache ++ [name])) (FinishedBy host cache name ls)
      (LeftBy host cache name before after ls) := by
  refine .inl ⟨h.entry, ?_, ?_⟩
  · intro ⟨l, hl, hpulls, _⟩
    exact h.unstarted l hl hpulls
  · intro ⟨l, hlast, hpulls, _⟩
    exact h.unstarted l (List.mem_of_getLast? hlast) hpulls

theorem Pulled.oneWriter (h : Pulled host cache name before after ls) :
    OneWriter (before.find? (before.place cache ++ [name]))
      (after.find? (before.place cache ++ [name])) (FinishedBy host cache name ls)
      (LeftBy host cache name before after ls) := by
  obtain ⟨l, hl, hpulls⟩ := h.started
  have hfinished : FinishedBy host cache name ls := ⟨l, hl, hpulls, h.exited l hl hpulls⟩
  have hwhole : ¬ LeftBy host cache name before after ls := by
    intro ⟨l', hlast, hpulls', hexit, _⟩
    exact hexit (h.exited l' (List.mem_of_getLast? hlast) hpulls')
  exact .inr ⟨h.vacant, h.file, .inl ⟨hfinished, hwhole⟩⟩

theorem Broken.oneWriter (h : Broken host cache name before after ls) :
    OneWriter (before.find? (before.place cache ++ [name]))
      (after.find? (before.place cache ++ [name])) (FinishedBy host cache name ls)
      (LeftBy host cache name before after ls) := by
  obtain ⟨earlier, l, rfl, hpulls, hexit, hl, hearlier⟩ := h.last
  have hunfinished : ¬ FinishedBy host cache name (earlier ++ [l]) := by
    intro ⟨l', hl', hpulls', hexit'⟩
    rcases List.mem_append.mp hl' with hbefore | hlast
    · exact hearlier l' hbefore hpulls'
    · rw [List.mem_singleton.mp hlast] at hexit'
      exact hexit hexit'
  rcases h.entry with hsame | ⟨hvacant, content, hfile⟩
  · refine .inl ⟨hsame, hunfinished, ?_⟩
    intro ⟨l', hlast, _, _, hvacant, hthere⟩
    rw [List.getLast?_concat, Option.some.injEq] at hlast
    rw [← hlast, hl] at hvacant
    exact hthere (hsame.trans hvacant)
  · have hleft : LeftBy host cache name before after (earlier ++ [l]) :=
      ⟨l, List.getLast?_concat, hpulls, hexit, hl.trans hvacant, by simp [hfile]⟩
    exact .inr ⟨hvacant, ⟨content, hfile⟩, .inr ⟨hunfinished, hleft⟩⟩

end Writers

/-- What a call comes to for a chart file has one writer at most. -/
theorem Tried.oneWriter {r : Except Failure Unit} {u : FileTree}
    (htraced : (c.run t).2.Traced c.host ls)
    (hplace : u.place c.settings.cacheDirectory = t.place c.settings.cacheDirectory)
    (h : Tried c name u r (c.filesAfter t) ls) :
    OneWriter (u.find? (t.place c.settings.cacheDirectory ++ [name]))
      ((c.filesAfter t).find? (t.place c.settings.cacheDirectory ++ [name]))
      (c.Finishes name t) (c.LeavesPartial name t) := by
  have hfinishes : c.Finishes name t ↔
      FinishedBy c.host c.settings.cacheDirectory name ls := by
    unfold Call.Finishes FinishedBy
    rw [htraced.executions]
    simp [Launch.ending_execution_iff]
  have hpartial : c.LeavesPartial name t ↔
      LeftBy c.host c.settings.cacheDirectory name u (c.filesAfter t) ls := by
    unfold Call.LeavesPartial LeftBy
    rw [htraced.executions, hplace]
    simp [Launch.ending_execution_iff]
  rw [hfinishes, hpartial, ← hplace]
  rcases h with ⟨huntried | hpulled, -⟩ | ⟨-, hbroken⟩
  · exact huntried.oneWriter
  · exact hpulled.oneWriter
  · exact hbroken.oneWriter

theorem ensures_bundle_untried (hc : c.Confined c.settings.cacheDirectory)
    (h : s.Meets c.host (Untried c.settings.cacheDirectory ref.archiveName t₀)) (k : Category) :
    Action.Ensures c.host s (k.bundle c.manifest c.settings) fun _ s' ↦
      s'.Meets c.host (Untried c.settings.cacheDirectory ref.archiveName t₀) := by
  obtain ⟨ls, htraced, huntried⟩ := h
  refine (Category.ensures_bundle hc htraced).mono ?_
  rintro r s' ⟨more, htraced', htools, hsaved⟩
  exact ⟨ls ++ more, htraced', huntried.bundle hsaved htools⟩

/-- One call has one writer of a chart file at most, and a call that ends normally leaves something
under the name of every chart that it lists. -/
theorem Call.oneWriter (hc : c.Confined cache) (hw : c.WritesCharts)
    (hvacant : LeavesVacant cache t (t.place cache ++ [ref.archiveName])) :
    LeavesVacant cache (c.filesAfter t) (t.place cache ++ [ref.archiveName]) ∧
      (c.filesAfter t).directory = t.directory ∧
      OneWriter (t.find? (t.place cache ++ [ref.archiveName]))
        ((c.filesAfter t).find? (t.place cache ++ [ref.archiveName]))
        (c.Finishes ref.archiveName t) (c.LeavesPartial ref.archiveName t) ∧
      ((c.run t).1 = .ok () → c.Lists ref →
        (c.filesAfter t).find? (t.place cache ++ [ref.archiveName]) ≠ none) := by
  obtain rfl := hc.cacheDirectory
  have hdirectory : (t.makeDirectories c.settings.cacheDirectory).1.directory = t.directory :=
    directoriesMade_makeDirectories.directory
  have hplace := place_congr hdirectory c.settings.cacheDirectory
  have hmade := hvacant.find?
  have hrun := ensures_all (t := t)
    (Tried c ref.archiveName (t.makeDirectories c.settings.cacheDirectory).1) hc.live
    (⟨rfl, rfl, by simp⟩ : Untried c.settings.cacheDirectory ref.archiveName _ _ [])
    (fun k s hmeets ↦ ensures_bundle_untried hc hmeets k)
    (fun s hmeets ↦ ensures_charts_tried hc hw hmeets)
    (fun hnil u ls huntried ↦ .inl ⟨.inl huntried, by simp [Call.Lists, hnil]⟩)
    (fun e u ls huntried ↦ .inl ⟨.inl huntried, by simp⟩)
  rcases hrun with ⟨hfailed, hnothing, hfiles⟩ | ⟨hdone, ls, htraced, htried⟩
  · -- Without any process nothing was finished or left.
    have hidle : ¬ c.Finishes ref.archiveName t ∧ ¬ c.LeavesPartial ref.archiveName t := by
      change (c.run t).2.executions = [] at hnothing
      simp [Call.Finishes, Call.LeavesPartial, hnothing]
    change (c.run t).1 ≠ .ok () at hfailed
    change c.filesAfter t = t ∨
      c.filesAfter t = (t.makeDirectories c.settings.cacheDirectory).1 at hfiles
    rcases hfiles with hsame | hmore
    · rw [hsame]
      exact ⟨hvacant, rfl, .inl ⟨rfl, hidle⟩, fun hok ↦ absurd hok hfailed⟩
    · rw [hmore]
      exact ⟨leavesVacant_makeDirectories hvacant, hdirectory, .inl ⟨hmade, hidle⟩,
        fun hok ↦ absurd hok hfailed⟩
  · change Tried c ref.archiveName _ (c.run t).1 (c.filesAfter t) ls at htried
    have hone := htried.oneWriter htraced hplace
    rw [hmade] at hone
    have hafter : (c.filesAfter t).directory =
        (t.makeDirectories c.settings.cacheDirectory).1.directory := by
      rcases htried with ⟨hunderway, -⟩ | ⟨-, hbroken⟩
      · exact hunderway.directory
      · exact hbroken.directory
    refine ⟨hvacant.of_made hdone hafter, hafter.trans hdirectory, hone, ?_⟩
    intro hok hlists
    rcases htried with ⟨-, hpresent⟩ | ⟨hfailed, -⟩
    · rw [← hplace]
      exact hpresent hok ⟨ref, hlists, rfl⟩
    · exact absurd hok hfailed

/-- Some process of a history pulled the chart and exited with zero. -/
def Finished (calls : List Call) (name : String) (t : FileTree) : Prop :=
  ∃ earlier c later, calls = earlier ++ c :: later ∧ c.Finishes name (filesAfter earlier t)

/-- Some call of a history ended with a process that left part of the chart. -/
def LeftPartial (calls : List Call) (name : String) (t : FileTree) : Prop :=
  ∃ earlier c later, calls = earlier ++ c :: later ∧ c.LeavesPartial name (filesAfter earlier t)

/-- Over a history of calls a chart file has one writer at most. -/
theorem oneWriter_history {calls : List Call}
    (hcalls : ∀ c ∈ calls, c.Confined cache ∧ c.WritesCharts)
    (hvacant : LeavesVacant cache t (t.place cache ++ [ref.archiveName])) :
    LeavesVacant cache (filesAfter calls t) (t.place cache ++ [ref.archiveName]) ∧
      (filesAfter calls t).directory = t.directory ∧
      OneWriter (t.find? (t.place cache ++ [ref.archiveName]))
        ((filesAfter calls t).find? (t.place cache ++ [ref.archiveName]))
        (Finished calls ref.archiveName t) (LeftPartial calls ref.archiveName t) := by
  induction calls generalizing t with
  | nil => exact ⟨hvacant, rfl, .inl ⟨rfl, by simp [Finished], by simp [LeftPartial]⟩⟩
  | cons c calls ih =>
    obtain ⟨hc, hw⟩ := hcalls c (by simp)
    obtain ⟨hvacant', hdirectory, hone, -⟩ := Call.oneWriter hc hw hvacant
    rw [← place_congr hdirectory] at hvacant'
    have hrest := ih (fun c' hc' ↦ hcalls c' (by simp [hc'])) hvacant'
    rw [place_congr hdirectory] at hrest
    obtain ⟨hvacant'', hdirectory', hone'⟩ := hrest
    refine ⟨hvacant'', hdirectory'.trans hdirectory, ?_⟩
    unfold Finished LeftPartial
    rw [exists_split_cons_iff, exists_split_cons_iff]
    exact hone.trans hone'

/-- When calls that began without the file of a chart end normally with one that lists it, the file
is there.  It was finished by a process that exited with zero exactly if no process that did not had
left something there, to be taken for the chart by the later calls. -/
theorem chart_finished_iff {calls : List Call} {last : Call}
    (hcalls : ∀ c ∈ calls ++ [last], c.Confined cache ∧ c.WritesCharts)
    (hvacant : (t.makeDirectories cache).1.find? (t.place cache ++ [ref.archiveName]) = none)
    (hlists : last.Lists ref) (hreturns : (last.run (filesAfter calls t)).1 = .ok ()) :
    (∃ content, (filesAfter (calls ++ [last]) t).find? (t.place cache ++ [ref.archiveName]) =
      some (.file content)) ∧
    (Finished (calls ++ [last]) ref.archiveName t ↔
      ¬ LeftPartial (calls ++ [last]) ref.archiveName t) := by
  have hfree : LeavesVacant cache t (t.place cache ++ [ref.archiveName]) := fun _ ↦ hvacant
  have hnone : t.find? (t.place cache ++ [ref.archiveName]) = none := by
    rw [← hfree.find?, hvacant]
  have hbefore : ∀ c ∈ calls, c.Confined cache ∧ c.WritesCharts :=
    fun c hc ↦ hcalls c (by simp [hc])
  obtain ⟨hearlier, hdirectory, -⟩ := oneWriter_history hbefore hfree
  obtain ⟨hc, hw⟩ := hcalls last (by simp)
  rw [← place_congr hdirectory] at hearlier
  obtain ⟨-, -, -, hthere⟩ := Call.oneWriter hc hw hearlier
  have hafter : filesAfter (calls ++ [last]) t = last.filesAfter (filesAfter calls t) := by
    simp [filesAfter]
  have hpresent := hthere hreturns hlists
  rw [place_congr hdirectory, ← hafter] at hpresent
  rcases (oneWriter_history hcalls hfree).2.2 with
    ⟨hsame, -⟩ | ⟨-, hfile, ⟨hfinished, hwhole⟩ | ⟨hunfinished, hpartial⟩⟩
  · exact absurd (hsame.trans hnone) hpresent
  · exact ⟨hfile, iff_of_true hfinished hwhole⟩
  · exact ⟨hfile, iff_of_false hunfinished (not_not_intro hpartial)⟩

/-! ## A chart that is interrupted and repeated -/

def sampleManifest : Manifest :=
  { charts := ["https://charts.example/x:1.0"] }

def sampleChart : Reference :=
  { authority := some "https://charts.example", path := "x", version := some "1.0" }

/-- A call whose process writes one octet of the chart and fails. -/
def interruptedCall : Call := trialCall sampleManifest ⟨#[1]⟩ 1

/-- The same call on a host whose process would write the whole chart. -/
def repeatedCall : Call := trialCall sampleManifest ⟨#[1, 2]⟩ 0

/-- The working directory with one octet in the file of the chart. -/
def cutOff : FileTree :=
  { entries := [(["x-1.0.tgz"], .file ⟨#[1]⟩)], directory := [] }

/-- What the calls come to, with the charts already read. -/
theorem run_sample {content : ByteArray} {code : Int} :
    (trialCall sampleManifest content code).run t =
      (Action.makeDirectories Path.here >>= fun _ ↦
        Stage.within "Pull charts" ([sampleChart].forM (chart {}))).run
          (trialHost content code) { files := t } := by
  have hrefs : sampleManifest.chartReferences = .ok [sampleChart] := rfl
  have hvalid : validate sampleManifest = .ok () := rfl
  change (all sampleManifest {}).run _ _ = _
  unfold all charts
  rw [hvalid, hrefs]
  rfl

theorem executions_interruptedCall : (interruptedCall.run (FileTree.empty [])).2.executions =
    [{ command := chartPull Path.here sampleChart, filesBefore := FileTree.empty []
       ending := .exited 1 }] := by
  rw [interruptedCall, run_sample]
  rfl

theorem filesAfter_interruptedCall : interruptedCall.filesAfter (FileTree.empty []) = cutOff := by
  rw [Call.filesAfter, interruptedCall, run_sample]
  rfl

theorem run_repeatedCall :
    (repeatedCall.run cutOff).1 = .ok () ∧ (repeatedCall.run cutOff).2.executions = [] := by
  rw [repeatedCall, run_sample]
  exact ⟨rfl, rfl⟩

/-- The repetition of the interrupted call ends normally and starts nothing, although no process
that pulled the chart has exited with zero. -/
theorem cutOff_taken_for_chart :
    (repeatedCall.run (filesAfter [interruptedCall] (FileTree.empty []))).1 = .ok () ∧
      (repeatedCall.run (filesAfter [interruptedCall] (FileTree.empty []))).2.executions = [] ∧
      ¬ Finished [interruptedCall, repeatedCall] sampleChart.archiveName (FileTree.empty []) := by
  have hleft : filesAfter [interruptedCall] (FileTree.empty []) = cutOff :=
    filesAfter_interruptedCall
  rw [hleft]
  refine ⟨run_repeatedCall.1, run_repeatedCall.2, ?_⟩
  unfold Finished
  rw [exists_split_cons_iff, exists_split_cons_iff]
  rintro (⟨e, he, -, hending⟩ | ⟨e, he, -⟩ | ⟨earlier, c, later, hsplit, -⟩)
  · change e ∈ (interruptedCall.run (FileTree.empty [])).2.executions at he
    rw [executions_interruptedCall, List.mem_singleton] at he
    rw [he] at hending
    simp at hending
  · rw [hleft, run_repeatedCall.2] at he
    simp at he
  · simp at hsplit

theorem leavesPartial_interruptedCall :
    interruptedCall.LeavesPartial sampleChart.archiveName (FileTree.empty []) := by
  refine ⟨_, congrArg List.getLast? executions_interruptedCall, ?_, ?_, ?_, ?_⟩
  · exact ⟨"https://charts.example/x:1.0", sampleChart, rfl, rfl, rfl⟩
  · simp
  · exact find?_of_ne_nil (by simp)
  · have hfound : cutOff.find? ((FileTree.empty []).place Path.here ++
        [sampleChart.archiveName]) = some (.file ⟨#[1]⟩) := rfl
    rw [filesAfter_interruptedCall]
    change cutOff.find? ((FileTree.empty []).place Path.here ++ [sampleChart.archiveName]) ≠ none
    simp [hfound]

/-- What the interrupted process left is the reason. -/
theorem cutOff_not_finished :
    ¬ Finished ([interruptedCall] ++ [repeatedCall]) sampleChart.archiveName
      (FileTree.empty []) := by
  have hcalls : ∀ c ∈ [interruptedCall] ++ [repeatedCall],
      c.Confined Path.here ∧ c.WritesCharts := by
    simp [interruptedCall, repeatedCall, confined_trialCall, writesCharts_trialCall]
  have hvacant : ((FileTree.empty []).makeDirectories Path.here).1.find?
      ((FileTree.empty []).place Path.here ++ [sampleChart.archiveName]) = none := by
    have hmade : ((FileTree.empty []).makeDirectories Path.here).1 = FileTree.empty [] :=
      congrArg Prod.fst makeNames_nil
    rw [hmade]
    exact find?_of_ne_nil (by simp)
  have hlists : repeatedCall.Lists sampleChart :=
    ⟨"https://charts.example/x:1.0", List.mem_singleton.mpr rfl, rfl⟩
  have hleft : filesAfter [interruptedCall] (FileTree.empty []) = cutOff :=
    filesAfter_interruptedCall
  have hreturns : (repeatedCall.run (filesAfter [interruptedCall] (FileTree.empty []))).1 =
      .ok () := by
    rw [hleft]
    exact run_repeatedCall.1
  intro hfinished
  apply (chart_finished_iff hcalls hvacant hlists hreturns).2.mp hfinished
  exact ⟨[], interruptedCall, [repeatedCall], rfl, leavesPartial_interruptedCall⟩

end OfflineSupply.Pull
