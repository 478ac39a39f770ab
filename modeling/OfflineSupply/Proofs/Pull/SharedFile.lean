import OfflineSupply.Proofs.Pull.Repeat
import OfflineSupply.Proofs.Pull.Started

/-!
# Charts that share a file

A chart file is named by the name and the version of its chart.  Its repository is not part of the
name, and the name does not tell where the version begins.  Of all charts with one file only the
first is pulled; the others are skipped as if they were there.
-/

namespace OfflineSupply.Pull

open FileTree

variable {c : Call} {s s' : Session} {refs : List Reference}

/-- Whether the pull of a listed chart was started can be read off the commands. -/
theorem chartPull_mem_iff {pulled : List Reference} (hrefs : c.manifest.chartReferences = .ok refs)
    (hpulled : pulled.Sublist refs) {ref : Reference} (href : ref ∈ refs) {cache : Path} :
    chartPull cache ref ∈ pulled.map (chartPull cache) ↔ ref ∈ pulled := by
  constructor
  · intro hmem
    obtain ⟨ref', href', hsame⟩ := List.mem_map.mp hmem
    obtain ⟨value, -, hvalue⟩ := (Manifest.mem_chartReferences_iff hrefs).mp href
    obtain ⟨value', -, hvalue'⟩ :=
      (Manifest.mem_chartReferences_iff hrefs).mp (hpulled.subset href')
    rwa [← chartPull_injective hvalue' hvalue hsame]
  · intro hmem
    exact List.mem_map_of_mem hmem

/-- Each chart is the first one of its file exactly if no two charts share a file. -/
theorem all_first_iff :
    (∀ ref ∈ refs, refs.find? (fun ref' ↦ ref'.archiveName == ref.archiveName) = some ref) ↔
      ∀ ref ∈ refs, ∀ ref' ∈ refs, ref.archiveName = ref'.archiveName → ref = ref' := by
  constructor
  · intro hfirst ref href ref' href' hname
    have hfound := hfirst ref href
    rw [hname, hfirst ref' href', Option.some.injEq] at hfound
    exact hfound.symm
  · intro hone ref href
    have hthere : (refs.find? fun ref' ↦ ref'.archiveName == ref.archiveName).isSome := by
      rw [List.find?_isSome]
      exact ⟨ref, href, by simp⟩
    obtain ⟨first, hfirst⟩ := Option.isSome_iff_exists.mp hthere
    have hname : first.archiveName = ref.archiveName := by
      simpa using List.find?_some hfirst
    rw [hfirst, hone first (List.mem_of_find?_eq_some hfirst) ref href hname]

/-- When the charts are pulled into a directory without any of their files, the pull of a chart is
started exactly if it is the first chart of its file.  So all charts are pulled exactly if no two that
differ in repository, name or version share a file. -/
theorem charts_all_pulled_iff (hc : c.ConfinedCharts) (hw : c.WritesCharts)
    (hrefs : c.manifest.chartReferences = .ok refs)
    (hvacant : ∀ ref ∈ refs, s.files.exists? (c.settings.chartFile ref) = false)
    (hreturns : Action.Returns c.host s (charts c.manifest c.settings) () s') :
    ∃ pulled : List Reference, pulled.Sublist refs ∧
      s'.commands = s.commands ++ pulled.map (chartPull c.settings.cacheDirectory) ∧
      (∀ ref ∈ refs,
        chartPull c.settings.cacheDirectory ref ∈ pulled.map (chartPull c.settings.cacheDirectory) ↔
          refs.find? (fun ref' ↦ ref'.archiveName == ref.archiveName) = some ref) ∧
      ((∀ ref ∈ refs, chartPull c.settings.cacheDirectory ref ∈
          pulled.map (chartPull c.settings.cacheDirectory)) ↔
        ∀ ref ∈ refs, ∀ ref' ∈ refs, ref.archiveName = ref'.archiveName → ref = ref') := by
  obtain ⟨refs', hrefs', hcommands⟩ := returns_charts hc hw hreturns
  obtain rfl : refs' = refs := Except.ok.inj (hrefs'.symm.trans hrefs)
  have hfirst : ∀ ref ∈ refs', chartPull c.settings.cacheDirectory ref ∈
      (toPull (s.files.holds c.settings.cacheDirectory) refs').map
        (chartPull c.settings.cacheDirectory) ↔
      refs'.find? (fun ref' ↦ ref'.archiveName == ref.archiveName) = some ref := by
    intro ref href
    rw [chartPull_mem_iff hrefs toPull_sublist href, mem_toPull_iff]
    exact and_iff_right (hvacant ref href)
  refine ⟨_, toPull_sublist, hcommands, hfirst, ?_⟩
  rw [← all_first_iff]
  exact forall₂_congr hfirst

/-! ## Two repositories with the same chart -/

def firstRepository : Reference :=
  { authority := some "https://a.example", path := "x", version := some "1.0" }

def secondRepository : Reference :=
  { authority := some "https://b.example", path := "x", version := some "1.0" }

/-- A call that lists one version of a chart in two repositories. -/
def twoRepositories : Call :=
  trialCall { charts := ["https://a.example/x:1.0", "https://b.example/x:1.0"] } ⟨#[1]⟩ 0

theorem chartReferences_twoRepositories :
    twoRepositories.manifest.chartReferences = .ok [firstRepository, secondRepository] := rfl

theorem returns_twoRepositories :
    ∃ s', Action.Returns twoRepositories.host { files := FileTree.empty [] }
        (charts twoRepositories.manifest twoRepositories.settings) () s' ∧
      s'.commands = [chartPull Path.here firstRepository] :=
  exists_returns_charts_trialHost chartReferences_twoRepositories rfl rfl rfl

/-- The call lists the chart of the second repository and ends well without a pull of it. -/
theorem second_repository_skipped :
    twoRepositories.Lists secondRepository ∧
      ∃ s', Action.Returns twoRepositories.host { files := FileTree.empty [] }
          (charts twoRepositories.manifest twoRepositories.settings) () s' ∧
        chartPull Path.here secondRepository ∉ s'.commands := by
  have hlists : twoRepositories.Lists secondRepository :=
    (Manifest.mem_chartReferences_iff chartReferences_twoRepositories).mp (by simp)
  obtain ⟨s', hreturns, hcommands⟩ := returns_twoRepositories
  refine ⟨hlists, s', hreturns, ?_⟩
  rw [hcommands, List.mem_singleton]
  intro hsame
  have harguments := congrArg Command.arguments hsame
  revert harguments
  decide

/-- It does so because the two charts share a file. -/
theorem two_repositories_not_all_pulled :
    ∃ s' : Session, ∃ pulled : List Reference,
      Action.Returns twoRepositories.host { files := FileTree.empty [] }
        (charts twoRepositories.manifest twoRepositories.settings) () s' ∧
      s'.commands = pulled.map (chartPull Path.here) ∧
      ¬ ∀ ref ∈ [firstRepository, secondRepository],
        chartPull Path.here ref ∈ pulled.map (chartPull Path.here) := by
  obtain ⟨s', hreturns, -⟩ := returns_twoRepositories
  have hconfined : twoRepositories.ConfinedCharts := (confined_trialCall _ _ _).charts
  have hwrites : twoRepositories.WritesCharts := writesCharts_trialCall _ _ _
  have hvacant : ∀ ref ∈ [firstRepository, secondRepository],
      (FileTree.empty []).exists? (twoRepositories.settings.chartFile ref) = false := by
    decide
  obtain ⟨pulled, -, hcommands, -, hall⟩ :=
    charts_all_pulled_iff (c := twoRepositories) (s := { files := FileTree.empty [] }) hconfined
      hwrites chartReferences_twoRepositories hvacant hreturns
  refine ⟨s', pulled, hreturns, hcommands, ?_⟩
  intro hboth
  have hsame : firstRepository = secondRepository :=
    hall.mp hboth firstRepository (by simp) secondRepository (by simp) rfl
  revert hsame
  decide

end OfflineSupply.Pull
