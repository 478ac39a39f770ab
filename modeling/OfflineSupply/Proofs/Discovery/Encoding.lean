import OfflineSupply.Proofs.Discovery.Complete
import OfflineSupply.Proofs.Pull.Reached
import OfflineSupply.Proofs.Reference.Spelling

/-!
# Charts that are found again

A discovery writes a chart as one text: the address of its repository, its name and its version.
When the chart is pulled and when it is installed the text is read again, and the parts are those
that it was written with.  The slash and the colon between them are told from those inside, because
it is the last ones that count.
-/

namespace OfflineSupply.Discovery

variable {repository url name version : String}

/-- The parts of a chart that tell it apart when it is read again.  The address of its repository
may hold slashes and colons, and its name colons. -/
structure Separable (repository url name version : String) : Prop where
  repository : '/' ∉ repository.toList
  url : Text.dropTrailing '/' url.toList ≠ []
  name : name ≠ "" ∧ '/' ∉ name.toList
  version : version ≠ "" ∧ '/' ∉ version.toList ∧ ':' ∉ version.toList

/-- The address of a repository without the slashes at its end. -/
def bareUrl (url : String) : String :=
  String.ofList (Text.dropTrailing '/' url.toList)

/-- A chart version in a repository. -/
def chartAt (url name version : String) : Reference where
  authority := some (bareUrl url)
  path := name
  version := some version

theorem name_chartAt (h : '/' ∉ name.toList) : (chartAt url name version).name = name := by
  rw [Reference.name, chartAt, Text.afterLast_eq_self h, String.ofList_toList]

/-- What a discovery writes for a chart is read as that chart. -/
theorem ofChart_chartReference {found : Json} (h : Separable repository url name found.shown) :
    Reference.ofChart (chartReference url (repository ++ "/" ++ name, found)) =
      .ok (chartAt url name found.shown) := by
  have hcut : Text.cutFirst '/' (repository ++ "/" ++ name).toList =
      (repository.toList, some name.toList) := by
    have happend := Text.cutFirst_append h.repository name.toList
    simpa using happend
  have htext : chartReference url (repository ++ "/" ++ name, found) =
      String.ofList (Text.dropTrailing '/' url.toList ++
        '/' :: (name.toList ++ ':' :: found.shown.toList)) := by
    unfold chartReference
    rw [hcut]
    simp [← String.toList_inj]
  have hname : name.toList ≠ [] ∧ '/' ∉ name.toList := by
    simpa using h.name
  have hversion : found.shown.toList ≠ [] ∧ '/' ∉ found.shown.toList ∧
      ':' ∉ found.shown.toList := by
    simpa using h.version
  rw [htext, Reference.ofChart_append h.url hname hversion]
  simp [chartAt, bareUrl]

/-- The charts of a repository hold each one that was found with the name of the repository before
its own. -/
theorem Owns.mem {entries : List ChartStore.Entry} {own : List (String × Json)}
    (h : Owns repository entries own) {entry : ChartStore.Entry} (hentry : entry ∈ entries)
    (hname : entry.name.text? = some (repository ++ "/" ++ name)) :
    (repository ++ "/" ++ name, entry.version) ∈ own := by
  obtain ⟨named, hnamed, rfl⟩ := h
  have hmem : (repository ++ "/" ++ name, entry.version) ∈ named := by
    induction hnamed with
    | nil => simp at hentry
    | @cons first pair entries named hpair _ ih =>
      rcases List.mem_cons.mp hentry with rfl | hlater
      · obtain ⟨hfirst, hversion⟩ := hpair
        rw [hname, Option.some.injEq] at hfirst
        rw [hfirst, hversion]
        exact List.mem_cons_self
      · exact List.mem_cons_of_mem _ (ih hlater)
  exact List.mem_filter.mpr ⟨hmem, by simp [String.toList_append]⟩

/-- The charts that a discovery lists hold each one that the index told of in the repository. -/
theorem ListsCharts.found {d : Discovery} {host : Host} {s : Session} {repositoryUrl : Json}
    {charts : List String} (h : d.ListsCharts host s repositoryUrl charts) :
    ∃ entries, ((ChartStore.searchFor d.platform.repositoryName).outcome host s).Finds entries ∧
      ∀ entry ∈ entries, repositoryUrl.text? = some url →
        entry.name.text? = some (d.platform.repositoryName ++ "/" ++ name) →
        chartReference url (d.platform.repositoryName ++ "/" ++ name, entry.version) ∈ charts := by
  obtain ⟨listed, ⟨entries, own, url', hfinds, howns, -, hurl', rfl⟩, rfl⟩ := h
  refine ⟨entries, hfinds, ?_⟩
  intro entry hentry hurl hname
  obtain rfl : url' = url := Option.some.inj (hurl'.symm.trans hurl)
  exact List.mem_append_left _ (List.mem_map_of_mem (howns.mem hentry hname))

/-- What a discovery writes for a chart leads back to this chart, whichever phase reads it. -/
structure LeadsBack (repository url name : String) (found : Json) : Prop where
  /-- It stands in every manifest of a discovery in which the index tells of the chart. -/
  listed {d : Discovery} {host : Host} {s : Session} {m : Manifest RawText}
    (hbuilt : (d.build.run host s).1 = .ok m)
    (hrepository : d.platform.repositoryName = repository) :
    ∃ q : Questions, q.Within s (d.build.run host s).2 ∧ ∃ value entries,
      (ChartStore.listRepositories.outcome host s).Locates repository value ∧
      ((ChartStore.searchFor repository).outcome host q.charts).Finds entries ∧
      ∀ entry ∈ entries, value.text? = some url →
        entry.name.text? = some (repository ++ "/" ++ name) → entry.version = found →
        chartReference url (repository ++ "/" ++ name, found) ∈ m.charts
  /-- It is read as the chart. -/
  read : Reference.ofChart (chartReference url (repository ++ "/" ++ name, found)) =
    .ok (chartAt url name found.shown)
  named : (chartAt url name found.shown).name = name
  /-- The file of the chart stands in the cache directory under the name and the version. -/
  file (set : Settings) : set.chartFile (chartAt url name found.shown) =
    { set.cacheDirectory with
      names := set.cacheDirectory.names ++ [name ++ "-" ++ found.shown ++ ".tgz"] }
  /-- When charts are pulled and that file is missing, this command is issued. -/
  pulled (set : Settings) : Pull.Handles set (chartAt url name found.shown)
    (ChartStore.command ["pull", "--repo", bareUrl url, name, "--version=" ++ found.shown,
      "--destination", set.cacheDirectory.text])
  /-- A plan installs the chart from that file. -/
  planned {m : Manifest RawText} {set : Settings} {platform : Platform} {is : List Installation}
    (hlisted : chartReference url (repository ++ "/" ++ name, found) ∈ m.charts)
    (hplan : Installation.plan m set platform = .ok is) :
    ∀ i ∈ is, i.release = name → i.chartFile = set.chartFile (chartAt url name found.shown)

/-- Every chart leads back to itself if its parts tell it apart. -/
theorem leadsBack_of_separable {found : Json} (h : Separable repository url name found.shown) :
    LeadsBack repository url name found where
  listed := by
    intro d host s m hbuilt hrepository
    obtain ⟨q, hwithin, hjudged⟩ := judges_build d host s
    obtain ⟨value, tag, assets, htells⟩ := (hjudged.ok_iff m).mp hbuilt
    obtain ⟨entries, hfinds, hlisted⟩ := htells.charts.found
    have hrepositoryUrl := htells.repository
    rw [hrepository] at hfinds hlisted hrepositoryUrl
    refine ⟨q, hwithin, value, entries, hrepositoryUrl, hfinds, ?_⟩
    rintro entry hentry hurl hname rfl
    exact hlisted entry hentry hurl hname
  read := ofChart_chartReference h
  named := name_chartAt h.name.2
  file := by
    intro set
    have hname : Path.IsName (chartAt url name found.shown).archiveName :=
      Reference.isName_archiveName (ofChart_chartReference h)
    rw [Settings.chartFile, Path.child_of_isName hname, Reference.archiveName,
      name_chartAt h.name.2]
    rfl
  pulled := by
    intro set
    have hhandles := Pull.handles_chart set (chartAt url name found.shown)
    rw [Pull.chartPull, name_chartAt h.name.2] at hhandles
    exact hhandles
  planned := by
    intro m set platform is hlisted hplan i hi hrelease
    obtain ⟨refs, hrefs⟩ := Installation.chartReferences_of_plan hplan
    have href : chartAt url name found.shown ∈ refs :=
      (Manifest.mem_chartReferences_iff hrefs).mpr ⟨_, hlisted, ofChart_chartReference h⟩
    exact Installation.chartFile_of_plan hrefs hplan href i hi
      (hrelease.trans (name_chartAt h.name.2).symm)

/-- An address with a port and slashes at its end, and a name with a colon in it. -/
theorem leadsBack_crds :
    Separable "kubewarden" "https://charts.example:8443/stable//" "crds:v2"
        (Json.ofString "1.2.0").shown ∧
      LeadsBack "kubewarden" "https://charts.example:8443/stable//" "crds:v2"
        (.ofString "1.2.0") := by
  have hseparable : Separable "kubewarden" "https://charts.example:8443/stable//" "crds:v2"
      (Json.ofString "1.2.0").shown :=
    { repository := by decide
      url := by decide
      name := by decide
      version := by decide }
  exact ⟨hseparable, leadsBack_of_separable hseparable⟩

end OfflineSupply.Discovery
