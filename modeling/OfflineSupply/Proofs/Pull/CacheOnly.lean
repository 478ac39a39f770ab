import OfflineSupply.Proofs.Manifest.File
import OfflineSupply.Proofs.Pull.Held
import OfflineSupply.Proofs.Pull.InOrder
import OfflineSupply.Proofs.Pull.Trial

/-!
# What a pull changes

A live pull whose processes write only what they are told to write changes nothing but the cache
directory: it makes that directory and the missing ones above it, and in it come and go the two
archives, their unfinished files and the chart files.  What was there before stays as it was, except
what stands under the name of an unfinished file; a directory that stands there may be renamed to
the archive, with all that is in it.
-/

namespace OfflineSupply.Pull

open FileTree

variable {c : Call} {k : Category} {p : Path} {t u v : FileTree} {ref : Reference} {y : Location}

theorem exists_of_mem_errands {m : Manifest} {set : Settings} {refs : List Reference} {e : Errand}
    (h : e ∈ errands m set refs) :
    (∃ k : Category, e = k.errand m set) ∨ ∃ ref ∈ refs, e = chartErrand set ref := by
  unfold errands at h
  rw [List.mem_append, List.mem_append] at h
  rcases h with (himages | hpolicies) | hcharts
  · split at himages
    · simp at himages
    · exact .inl ⟨.images, List.mem_singleton.mp himages⟩
  · split at hpolicies
    · simp at hpolicies
    · exact .inl ⟨.policies, List.mem_singleton.mp hpolicies⟩
  · obtain ⟨ref, href, rfl⟩ := List.mem_map.mp hcharts
    exact .inr ⟨ref, href, rfl⟩

/-- Doing the errand of a chart is writing its file. -/
theorem writtenAt_of_leaves {set : Settings} (h : (chartErrand set ref).Leaves u v) :
    WrittenAt (set.chartFile ref) u v := by
  rw [← target_chartErrand]
  cases h with
  | written hwritten => exact hwritten
  | @closed w _ hwritten hcloses =>
    have hsame : v = w := hcloses
    rwa [hsame]
  | removed _ hunfinished => simp [chartErrand] at hunfinished

/-- A call leaves the files alone or keeps to its errands once the cache directory was made. -/
theorem held_filesAfter (hc : c.Tidy) (t : FileTree) :
    c.filesAfter t = t ∨ Held c (t.place c.settings.cacheDirectory)
      (t.makeDirectories c.settings.cacheDirectory).1 (c.filesAfter t) := by
  have hplace : (t.makeDirectories c.settings.cacheDirectory).1.place c.settings.cacheDirectory =
      t.place c.settings.cacheDirectory :=
    place_congr directoriesMade_makeDirectories.directory _
  cases hvalid : validate c.manifest with
  | error e =>
    have hrun : c.run t = (.error e, { files := t }) := by
      unfold Call.run all
      rw [hvalid]
      rfl
    unfold Call.filesAfter
    rw [hrun]
    exact .inl rfl
  | ok value =>
    obtain ⟨refs, hrefs⟩ := chartReferences_of_validate hvalid
    have hrun : Action.Ensures c.host { files := t } (all c.manifest c.settings) _ :=
      ensures_all_errands hc.live hvalid hrefs
    unfold Action.Ensures at hrun
    right
    rcases hrun with ⟨e, -, -, hstopped⟩ | ⟨-, ls, hattended⟩
    · have hafter : c.filesAfter t = (t.makeDirectories c.settings.cacheDirectory).1 :=
        congrArg Session.files hstopped
      rw [hafter]
      exact .refl hplace
    · apply hattended.inTurn.keeps ?_ ?_ (.refl hplace)
      · intro e he
        cases exists_of_mem_errands he with
        | inl hbundle =>
          obtain ⟨k, rfl⟩ := hbundle
          exact hc.writesOnly_errand k
        | inr hchart =>
          obtain ⟨ref, href, rfl⟩ := hchart
          exact hc.writesOnly_chart ((Manifest.mem_chartReferences_iff hrefs).mp href)
      · intro e he u v hu hmissing hleaves
        cases exists_of_mem_errands he with
        | inl hbundle =>
          obtain ⟨k, rfl⟩ := hbundle
          exact hu.of_errand hmissing hleaves
        | inr hchart =>
          obtain ⟨ref, href, rfl⟩ := hchart
          rw [file_chartErrand] at hmissing
          exact hu.of_chart ((Manifest.mem_chartReferences_iff hrefs).mp href) hmissing
            (writtenAt_of_leaves hleaves)

/-! ## Over a whole call -/

/-- Where a call may change something: the missing directories on the way to its cache directory, in
it the archives, their unfinished files and the files of the charts that are listed, and where a
directory stands under the name of an unfinished file, what is in it. -/
inductive Call.Touches (c : Call) (t : FileTree) : Location → Prop
  | way {y : Location} (hpasses : t.Passes c.settings.cacheDirectory y)
      (hmissing : t.find? y = none) : c.Touches t y
  | archive (k : Category) : c.Touches t (t.place (k.archive c.settings))
  | unfinished (k : Category) : c.Touches t (t.place (k.unfinished c.settings))
  | chart {ref : Reference} (h : c.Lists ref) : c.Touches t (t.place (c.settings.chartFile ref))
  | left (k : Category) {x : Location} (hx : x ≠ [])
      (hthere : (t.makeDirectories c.settings.cacheDirectory).1.find?
        (t.place (k.unfinished c.settings) ++ x) ≠ none) :
      c.Touches t (t.place (k.unfinished c.settings) ++ x)
  | taken (k : Category) {x : Location} (hx : x ≠ [])
      (hthere : (t.makeDirectories c.settings.cacheDirectory).1.find?
        (t.place (k.unfinished c.settings) ++ x) ≠ none) :
      c.Touches t (t.place (k.archive c.settings) ++ x)

theorem vacant_of_made (h : (t.makeDirectories p).1.find? y = none) : t.find? y = none := by
  rcases (directoriesMade_makeDirectories (t := t) (p := p)).entry y with hsame | ⟨hmissing, -⟩
  · rw [← hsame, h]
  · exact hmissing

namespace Held

/-- A change since the cache directory was made is where a call may change something. -/
theorem touches (ht : t.Rooted)
    (h : Held c (t.place c.settings.cacheDirectory)
      (t.makeDirectories c.settings.cacheDirectory).1 u) (hy : u.find? y ≠ t.find? y) :
    c.Touches t y := by
  have hmade := directoriesMade_makeDirectories (t := t) (p := c.settings.cacheDirectory)
  rcases hmade.entry y with hbefore | ⟨hmissing, -, hpasses⟩
  · rcases apart_or_below (t.place c.settings.cacheDirectory) y with hapart | ⟨k, x, rfl | rfl⟩
    · rcases h.others y hapart with hsame | ⟨-, ref, href, rfl⟩
      · exact absurd (hsame.trans hbefore) hy
      · obtain ⟨value, -, hread⟩ := id href
        rw [← place_child (Reference.isName_archiveName hread)]
        exact .chart href
    · cases h.category k with
      | kept harchive => exact absurd ((harchive x).trans hbefore) hy
      | taken hvacant _ hmoved =>
        by_cases hx : x = []
        · rw [hx, List.append_nil, ← Category.place_archive]
          exact .archive k
        · rw [← Category.place_archive]
          apply Call.Touches.taken k hx
          intro hnone
          rw [← Category.place_unfinished] at hmoved
          rw [hmoved x hx, hnone, ht.vacant_below (vacant_of_made hvacant)] at hy
          exact hy rfl
    · by_cases hx : x = []
      · rw [hx, List.append_nil, ← Category.place_unfinished]
        exact .unfinished k
      · cases h.category k with
        | kept _ hbelow => exact absurd ((hbelow x hx).trans hbefore) hy
        | taken _ _ _ hgone =>
          rw [← Category.place_unfinished]
          apply Call.Touches.left k hx
          intro hnone
          rw [Category.place_unfinished] at hnone
          rw [hgone x hx, ← hbefore, hnone] at hy
          exact hy rfl
  · exact .way hpasses hmissing

/-- What was there stays as it was, unless it was an unfinished file or below one. -/
theorem find?_eq (ht : t.Rooted)
    (h : Held c (t.place c.settings.cacheDirectory)
      (t.makeDirectories c.settings.cacheDirectory).1 u) (hthere : t.find? y ≠ none)
    (hother : ∀ k : Category, ¬ t.place (k.unfinished c.settings) <+: y) :
    u.find? y = t.find? y := by
  have hmade := directoriesMade_makeDirectories (t := t) (p := c.settings.cacheDirectory)
  have hbefore := (hmade.entry y).resolve_right fun hmissing ↦ hthere hmissing.1
  rw [← hbefore] at hthere ⊢
  rcases apart_or_below (t.place c.settings.cacheDirectory) y with hapart | ⟨k, x, rfl | rfl⟩
  · exact (h.others y hapart).resolve_right fun hmissing ↦ hthere hmissing.1
  · cases h.category k with
    | kept harchive => exact harchive x
    | taken hvacant =>
      rw [hbefore, ht.vacant_below (vacant_of_made hvacant)] at hthere
      exact absurd rfl hthere
  · apply absurd _ (hother k)
    rw [Category.place_unfinished]
    exact List.prefix_append _ _

/-- What is below an unfinished file stays there, or it has gone below the archive, where nothing
was. -/
theorem below_unfinished
    (h : Held c (t.place c.settings.cacheDirectory)
      (t.makeDirectories c.settings.cacheDirectory).1 u) (k : Category) :
    (∀ x, x ≠ [] → t.find? (t.place (k.unfinished c.settings) ++ x) ≠ none →
      u.find? (t.place (k.unfinished c.settings) ++ x) =
        t.find? (t.place (k.unfinished c.settings) ++ x)) ∨
    t.find? (t.place (k.archive c.settings)) = none ∧
      ∀ x, x ≠ [] → t.find? (t.place (k.unfinished c.settings) ++ x) ≠ none →
        u.find? (t.place (k.archive c.settings) ++ x) =
          t.find? (t.place (k.unfinished c.settings) ++ x) := by
  have hmade := directoriesMade_makeDirectories (t := t) (p := c.settings.cacheDirectory)
  have hbefore (x : Location)
      (hthere : t.find? (t.place (k.unfinished c.settings) ++ x) ≠ none) :=
    (hmade.entry _).resolve_right fun hmissing ↦ hthere hmissing.1
  simp only [Category.place_archive, Category.place_unfinished] at hbefore ⊢
  cases h.category k with
  | kept _ hbelow =>
    left
    intro x hx hthere
    rw [hbelow x hx, hbefore x hthere]
  | taken hvacant _ hmoved =>
    refine .inr ⟨vacant_of_made hvacant, ?_⟩
    intro x hx hthere
    rw [hmoved x hx, hbefore x hthere]

end Held

/-- The file of a chart lies in the cache directory and is neither an archive nor unfinished. -/
theorem chartFile_in_cache {set : Settings} {value : String}
    (hread : Reference.ofChart value = .ok ref) :
    set.chartFile ref = { set.cacheDirectory with
      names := set.cacheDirectory.names ++ [ref.archiveName] } ∧
    Path.IsName ref.archiveName ∧ ∀ k : Category,
      set.chartFile ref ≠ k.archive set ∧ set.chartFile ref ≠ k.unfinished set := by
  have hname := Reference.isName_archiveName hread
  refine ⟨Path.child_of_isName hname, hname, ?_⟩
  intro k
  unfold Settings.chartFile Category.archive Category.unfinished
  rw [Path.child_of_isName hname, Path.child_of_isName k.isName_archiveName,
    Path.child_of_isName k.isName_unfinishedName]
  obtain ⟨harchive, hunfinished⟩ := archiveName_ne_of_chart ref k
  exact ⟨by simpa using harchive.symm, by simpa using hunfinished.symm⟩

theorem tidy_trialCall (m : Manifest) (content : ByteArray) (code : Int) :
    (trialCall m content code).Tidy := by
  have hconfined := confined_trialCall m content code
  refine ⟨hconfined.charts, ?_, hconfined.save⟩
  intro k session entry _
  change session.files.Agrees ((trialHost content code).launch session (k.pull entry)).files
  rw [launch_trialHost_of_none (product?_pull k entry)]
  exact .refl _

/-- Notes of the user, where the cache directory is. -/
def notedFiles : FileTree where
  entries := [(["notes"], .file ⟨#[0x78]⟩)]
  directory := []

/-- A call whose processes write nothing at all. -/
def idleCall : Call where
  host := Manifest.idleHost
  manifest := { images := ["pause:3.9"] }
  settings := {}

/-- A directory with a file in it under the name of an unfinished archive. -/
def leftDirectory : FileTree where
  entries := [(["kubewarden-images.tar.partial"], .directory),
    (["kubewarden-images.tar.partial", "keep"], .file ⟨#[0x78]⟩)]
  directory := []

end OfflineSupply.Pull
