import OfflineSupply.Proofs.Pull.Stages
import OfflineSupply.Proofs.Pull.Trial

/-!
# Archives are committed once

Over a whole history of calls an archive appears only by the renaming that follows a complete save,
with exactly the content that was saved, and it stays as it is from then on.  No call leaves an
unfinished file.  This holds whatever fails on the way: a pull, a save, the renaming or the cleaning
up.
-/

namespace OfflineSupply.Pull

open FileTree

variable {c : Call} {t t₀ t₁ t₂ : FileTree} {ls more : List Launch} {k k' : Category}
  {directory : Path} {ref : Reference} {content : ByteArray}

/-- The state of the archives within a call: no file is unfinished, and each archive is as it was at
first or was committed since. -/
structure Kept (c : Call) (before after : FileTree) (ls : List Launch) : Prop where
  directory : after.directory = before.directory
  unfinished : ∀ k : Category, after.find? (before.place (k.unfinished c.settings)) = none
  archive : ∀ k : Category,
    after.find? (before.place (k.archive c.settings)) =
        before.find? (before.place (k.archive c.settings)) ∨
      before.find? (before.place (k.archive c.settings)) = none ∧
        ∃ content, after.find? (before.place (k.archive c.settings)) = some (.file content) ∧
          k.Commits c.host c.manifest c.settings ls content

namespace Kept

theorem place (h : Kept c t₀ t₁ ls) (p : Path) : t₁.place p = t₀.place p :=
  place_congr h.directory p

/-- What was committed stays committed when more processes are started. -/
theorem archive_append (h : Kept c t₀ t₁ ls) (more : List Launch) (k : Category) :
    t₁.find? (t₀.place (k.archive c.settings)) = t₀.find? (t₀.place (k.archive c.settings)) ∨
      t₀.find? (t₀.place (k.archive c.settings)) = none ∧
        ∃ content, t₁.find? (t₀.place (k.archive c.settings)) = some (.file content) ∧
          k.Commits c.host c.manifest c.settings (ls ++ more) content := by
  rcases h.archive k with hsame | ⟨hvacant, content, hfound, hcommits⟩
  · exact .inl hsame
  · exact .inr ⟨hvacant, content, hfound, hcommits.append more⟩

/-- What touches neither an archive nor an unfinished file keeps their state. -/
theorem of_same (h : Kept c t₀ t₁ ls) (hdirectory : t₂.directory = t₁.directory)
    (hunfinished : ∀ k : Category, t₂.find? (t₀.place (k.unfinished c.settings)) =
      t₁.find? (t₀.place (k.unfinished c.settings)))
    (harchive : ∀ k : Category, t₂.find? (t₀.place (k.archive c.settings)) =
      t₁.find? (t₀.place (k.archive c.settings))) : Kept c t₀ t₂ (ls ++ more) := by
  refine ⟨hdirectory.trans h.directory, ?_, ?_⟩
  · intro k
    rw [hunfinished, h.unfinished]
  · intro k
    rw [harchive]
    exact h.archive_append more k

/-- Writing a chart file touches no archive. -/
theorem chart (h : Kept c t₀ t₁ ls) (href : c.Lists ref)
    (hwritten : WrittenAt (c.settings.chartFile ref) t₁ t₂) : Kept c t₀ t₂ (ls ++ more) := by
  obtain ⟨value, -, hvalue⟩ := href
  have hplace : t₁.place (c.settings.chartFile ref) =
      t₀.place c.settings.cacheDirectory ++ [ref.archiveName] := by
    rw [h.place]
    exact place_child (Reference.isName_archiveName hvalue)
  refine h.of_same hwritten.directory ?_ ?_
  · intro k
    apply hwritten.find?_of_ne
    rw [hplace, Category.place_unfinished]
    simpa using (archiveName_ne_of_chart ref k).2
  · intro k
    apply hwritten.find?_of_ne
    rw [hplace, Category.place_archive]
    simpa using (archiveName_ne_of_chart ref k).1

/-- Bundling a category keeps the state of both. -/
theorem bundle (h : Kept c t₀ t₁ ls)
    (hsaved : k.Saved c.settings t₁ t₂ fun content ↦
      t₁.find? (t₁.place (k.archive c.settings)) = none ∧
        k.Commits c.host c.manifest c.settings more content) : Kept c t₀ t₂ (ls ++ more) := by
  have hother : ∀ k' : Category, k' ≠ k →
      t₂.find? (t₀.place (k'.archive c.settings)) = t₁.find? (t₀.place (k'.archive c.settings)) ∧
        t₂.find? (t₀.place (k'.unfinished c.settings)) =
          t₁.find? (t₀.place (k'.unfinished c.settings)) := by
    intro k' hne
    rw [← h.place, ← h.place, Category.place_archive, Category.place_unfinished]
    refine ⟨hsaved.others _ ?_ (k'.archiveName_ne_unfinishedName k),
      hsaved.others _ (k.archiveName_ne_unfinishedName k').symm ?_⟩
    · exact fun heq ↦ hne (Category.archiveName_inj heq)
    · exact fun heq ↦ hne (Category.unfinishedName_inj heq)
  have hvacant₁ : t₁.find? (t₁.place (k.unfinished c.settings)) = none := by
    rw [h.place, h.unfinished]
  have hunfinished := hsaved.unfinished hvacant₁
  have harchive := hsaved.archive hvacant₁
  rw [h.place] at hunfinished harchive
  refine ⟨hsaved.directory.trans h.directory, ?_, ?_⟩
  · intro k'
    by_cases hk : k' = k
    · rw [hk, hunfinished]
    · rw [(hother k' hk).2, h.unfinished]
  · intro k'
    by_cases hk : k' = k
    · subst hk
      rcases harchive with hsame | ⟨-, content, hfound, hvacant, hcommits⟩
      · rw [hsame]
        exact h.archive_append more k'
      · refine .inr ⟨?_, content, hfound, hcommits.prepend ls⟩
        rcases h.archive k' with hkept | ⟨-, content', hfound', -⟩
        · rw [← hkept, hvacant]
        · rw [hvacant] at hfound'
          simp at hfound'
    · rw [(hother k' hk).1]
      exact h.archive_append more k'

end Kept

/-- The charts of a call leave the state of the archives as it is. -/
theorem ensures_charts_kept (hc : c.Confined directory) {s : Session}
    (h : s.Meets c.host (Kept c t₀)) :
    Action.Ensures c.host s (charts c.manifest c.settings) fun _ s' ↦
      s'.Meets c.host (Kept c t₀) := by
  refine (ensures_charts (fun _ s' ↦ s'.Meets c.host (Kept c t₀)) h (fun _ _ hmeets ↦ hmeets)
    ?_).mono fun _ _ hdone ↦ hdone.1
  rintro refs before ref after s₁ hrefs hsplit ⟨ls, htraced, hkept⟩
  have href : c.Lists ref :=
    (Manifest.mem_chartReferences_iff hrefs).mp (by simp [hsplit])
  refine (ensures_chart hc href htraced).mono fun r s₂ hchart ↦ ?_
  have hmeets : s₂.Meets c.host (Kept c t₀) := by
    rcases hchart with ⟨-, -, hfiles, htraced₂⟩ | ⟨-, l, htraced₂, -, -, -, hwritten, -⟩
    · exact ⟨ls, htraced₂, hfiles ▸ hkept⟩
    · exact ⟨ls ++ [l], htraced₂, hkept.chart href hwritten⟩
  exact ⟨fun _ ↦ hmeets, hmeets⟩

/-- The categories of a call keep the state of the archives. -/
theorem ensures_bundle_kept (hc : c.Confined directory) {s : Session}
    (h : s.Meets c.host (Kept c t₀)) (k : Category) :
    Action.Ensures c.host s (k.bundle c.manifest c.settings) fun _ s' ↦
      s'.Meets c.host (Kept c t₀) := by
  obtain ⟨ls, htraced, hkept⟩ := h
  have hc' : c.Confined c.settings.cacheDirectory := hc.cacheDirectory ▸ hc
  refine (Category.ensures_bundle hc' htraced).mono fun r s' hdone ↦ ?_
  obtain ⟨more, htraced', -, hsaved⟩ := hdone
  exact ⟨ls ++ more, htraced', hkept.bundle hsaved⟩

/-! ## Over a history of calls -/

/-- The cache directory, made first where it is missing, holds neither archives nor unfinished
files. -/
def HoldsNoArchive (directory : Path) (t : FileTree) : Prop :=
  ∀ k : Category,
    (t.makeDirectories directory).1.find? (t.place (directory.child k.archiveName)) = none ∧
    (t.makeDirectories directory).1.find? (t.place (directory.child k.unfinishedName)) = none

/-- Between two calls no file is unfinished, and making the cache directory makes no directory under
the name of an archive. -/
structure Settled (directory : Path) (t : FileTree) : Prop where
  unfinished : ∀ k : Category, t.find? (t.place (directory.child k.unfinishedName)) = none
  vacantUnfinished : ∀ k : Category,
    LeavesVacant directory t (t.place (directory.child k.unfinishedName))
  vacantArchive : ∀ k : Category,
    LeavesVacant directory t (t.place (directory.child k.archiveName))

theorem HoldsNoArchive.settled (h : HoldsNoArchive directory t) : Settled directory t := by
  have hunfinished (k : Category) :
      LeavesVacant directory t (t.place (directory.child k.unfinishedName)) :=
    fun _ ↦ (h k).2
  refine ⟨fun k ↦ ?_, hunfinished, fun k _ ↦ (h k).1⟩
  rw [← (hunfinished k).find?]
  exact (h k).2

namespace Call

/-- The call, begun with some files, saved an archive with the content. -/
def Commits (c : Call) (k : Category) (t : FileTree) (content : ByteArray) : Prop :=
  ∃ ls, (c.run t).2.Traced c.host ls ∧ k.Commits c.host c.manifest c.settings ls content

/-- One call keeps an archive that is there and makes one only by committing it. -/
theorem settled_filesAfter (hc : c.Confined directory) (h : Settled directory t) :
    Settled directory (c.filesAfter t) ∧ (c.filesAfter t).directory = t.directory ∧
      ∀ k : Category,
        (c.filesAfter t).find? (t.place (directory.child k.archiveName)) =
            t.find? (t.place (directory.child k.archiveName)) ∨
          t.find? (t.place (directory.child k.archiveName)) = none ∧
            ∃ content, (c.filesAfter t).find? (t.place (directory.child k.archiveName)) =
                some (.file content) ∧ c.Commits k t content := by
  obtain rfl := hc.cacheDirectory
  have hdirectory : (t.makeDirectories c.settings.cacheDirectory).1.directory = t.directory :=
    directoriesMade_makeDirectories.directory
  have hstart : Kept c (t.makeDirectories c.settings.cacheDirectory).1
      (t.makeDirectories c.settings.cacheDirectory).1 [] := by
    refine ⟨rfl, fun k ↦ ?_, fun k ↦ .inl rfl⟩
    have hvacant := h.unfinished k
    rw [← (h.vacantUnfinished k).find?] at hvacant
    rwa [place_congr hdirectory]
  have hrun := ensures_all (t := t)
    (fun _ ↦ Kept c (t.makeDirectories c.settings.cacheDirectory).1) hc.live hstart
    (fun k s hmeets ↦ ensures_bundle_kept hc hmeets k) (fun s hmeets ↦ ensures_charts_kept hc hmeets)
    (fun _ _ _ hkept ↦ hkept) (fun _ _ _ hkept ↦ hkept)
  rcases hrun with ⟨-, -, hsame | hmade⟩ | ⟨hmade, ls, htraced, hkept⟩
  · change c.filesAfter t = t at hsame
    rw [hsame]
    exact ⟨h, rfl, fun k ↦ .inl rfl⟩
  · change c.filesAfter t = (t.makeDirectories c.settings.cacheDirectory).1 at hmade
    rw [hmade]
    refine ⟨⟨fun k ↦ ?_, fun k ↦ ?_, fun k ↦ ?_⟩, hdirectory, fun k ↦ .inl ?_⟩
    · rw [place_congr hdirectory, (h.vacantUnfinished k).find?, h.unfinished k]
    · rw [place_congr hdirectory]
      exact leavesVacant_makeDirectories (h.vacantUnfinished k)
    · rw [place_congr hdirectory]
      exact leavesVacant_makeDirectories (h.vacantArchive k)
    · exact (h.vacantArchive k).find?
  · have hkeptDirectory := hkept.directory
    have hafter : (c.filesAfter t).directory = t.directory := hkeptDirectory.trans hdirectory
    refine ⟨⟨fun k ↦ ?_, fun k ↦ ?_, fun k ↦ ?_⟩, hafter, fun k ↦ ?_⟩
    · have hvacant := hkept.unfinished k
      rw [place_congr hdirectory] at hvacant
      rwa [place_congr hafter]
    · rw [place_congr hafter]
      exact (h.vacantUnfinished k).of_made hmade hkeptDirectory
    · rw [place_congr hafter]
      exact (h.vacantArchive k).of_made hmade hkeptDirectory
    · have harchive := hkept.archive k
      have hstill := (h.vacantArchive k).find?
      rw [place_congr hdirectory] at harchive
      change _ = _ at hstill
      rcases harchive with hsame | ⟨hvacant, content, hfound, hcommits⟩
      · exact .inl (hsame.trans hstill)
      · exact .inr ⟨hstill.symm.trans hvacant, content, hfound, ls, htraced, hcommits⟩

end Call

/-- Over a history an archive stays as it is once it is there; it is there only if one of the calls
committed it. -/
theorem settled_history {calls : List Call} (hcalls : ∀ c ∈ calls, c.Confined directory)
    (h : Settled directory t) :
    Settled directory (filesAfter calls t) ∧ (filesAfter calls t).directory = t.directory ∧
      ∀ k : Category,
        (filesAfter calls t).find? (t.place (directory.child k.archiveName)) =
            t.find? (t.place (directory.child k.archiveName)) ∨
          t.find? (t.place (directory.child k.archiveName)) = none ∧
            ∃ earlier c later content, calls = earlier ++ c :: later ∧
              (filesAfter calls t).find? (t.place (directory.child k.archiveName)) =
                some (.file content) ∧ c.Commits k (filesAfter earlier t) content := by
  induction calls generalizing t with
  | nil => exact ⟨h, rfl, fun k ↦ .inl rfl⟩
  | cons c calls ih =>
    obtain ⟨hsettled, hdirectory, hfirst⟩ := c.settled_filesAfter (hcalls c (by simp)) h
    obtain ⟨hsettled', hdirectory', hrest⟩ := ih (fun c' hc' ↦ hcalls c' (by simp [hc'])) hsettled
    refine ⟨hsettled', hdirectory'.trans hdirectory, fun k ↦ ?_⟩
    have hrest := hrest k
    rw [place_congr hdirectory] at hrest
    change (filesAfter calls (c.filesAfter t)).find? _ = _ ∨ _
    rcases hfirst k with hsame | ⟨hvacant, content, hfound, hcommits⟩
    · rw [hsame] at hrest
      rcases hrest with hsame' | ⟨hvacant, earlier, c', later, content, hsplit, hfound, hcommits⟩
      · exact .inl hsame'
      · refine .inr ⟨hvacant, c :: earlier, c', later, content, by rw [hsplit]; rfl, hfound, ?_⟩
        exact hcommits
    · rcases hrest with hsame' | ⟨hvacant', -⟩
      · exact .inr ⟨hvacant, [], c, calls, content, rfl, hsame'.trans hfound, hcommits⟩
      · rw [hfound] at hvacant'
        simp at hvacant'

/-- After any history of live calls that begins without archives: an archive that is there holds
what one save wrote, which exited with zero and was told all entries of its call's manifest, after
each of them had been pulled in that call; it has stayed as it was since then; and nothing is left
under the name of an unfinished file. -/
theorem archives_committed {calls : List Call} (hcalls : ∀ c ∈ calls, c.Confined directory)
    (h : HoldsNoArchive directory t) (k : Category) :
    (∀ entry, (filesAfter calls t).find? (t.place (directory.child k.archiveName)) = some entry →
      ∃ earlier c later content, calls = earlier ++ c :: later ∧ entry = .file content ∧
        c.Commits k (filesAfter earlier t) content) ∧
    (∀ earlier later entry, calls = earlier ++ later →
      (filesAfter earlier t).find? (t.place (directory.child k.archiveName)) = some entry →
      (filesAfter calls t).find? (t.place (directory.child k.archiveName)) = some entry) ∧
    (filesAfter calls t).find? (t.place (directory.child k.unfinishedName)) = none := by
  obtain ⟨hsettled, hdirectory, harchive⟩ := settled_history hcalls h.settled
  refine ⟨?_, ?_, ?_⟩
  · intro entry hentry
    have hvacant : t.find? (t.place (directory.child k.archiveName)) = none := by
      rw [← (h.settled.vacantArchive k).find?]
      exact (h k).1
    rcases harchive k with hsame | ⟨-, earlier, c, later, content, hsplit, hfound, hcommits⟩
    · rw [hsame, hvacant] at hentry
      simp at hentry
    · refine ⟨earlier, c, later, content, hsplit, ?_, hcommits⟩
      exact Option.some.inj (hentry.symm.trans hfound)
  · rintro earlier later entry rfl hentry
    have hcallsEarlier : ∀ c ∈ earlier, c.Confined directory := fun c hc ↦ hcalls c (by simp [hc])
    have hcallsLater : ∀ c ∈ later, c.Confined directory := fun c hc ↦ hcalls c (by simp [hc])
    have hearlier := settled_history hcallsEarlier h.settled
    have hlater := settled_history hcallsLater hearlier.1
    have hkept := hlater.2.2 k
    rw [place_congr hearlier.2.1, hentry] at hkept
    have hsplit : filesAfter (earlier ++ later) t = filesAfter later (filesAfter earlier t) :=
      List.foldl_append
    rw [hsplit]
    rcases hkept with hsame | ⟨hvacant, -⟩
    · exact hsame
    · simp at hvacant
  · have hvacant := hsettled.unfinished k
    rwa [place_congr hdirectory] at hvacant

theorem holdsNoArchive_empty : HoldsNoArchive Path.here (FileTree.empty []) := by
  have hmade : ((FileTree.empty []).makeDirectories Path.here).1 = FileTree.empty [] :=
    congrArg Prod.fst makeNames_nil
  intro k
  rw [hmade, place_child k.isName_archiveName, place_child k.isName_unfinishedName]
  exact ⟨find?_of_ne_nil (by simp), find?_of_ne_nil (by simp)⟩

/-- A save cut off by a failure is not kept; its repetition commits the archive. -/
theorem interrupted_save_repeated :
    ∃ earlier c later,
      [trialCall { images := ["pause:3.9", "nginx"] } ⟨#[1]⟩ 1,
        trialCall { images := ["pause:3.9", "nginx"] } ⟨#[1, 2]⟩ 0] = earlier ++ c :: later ∧
      c.Commits .images (filesAfter earlier (FileTree.empty [])) ⟨#[1, 2]⟩ := by
  have hcalls : ∀ c ∈ [trialCall { images := ["pause:3.9", "nginx"] } ⟨#[1]⟩ 1,
      trialCall { images := ["pause:3.9", "nginx"] } ⟨#[1, 2]⟩ 0], c.Confined Path.here := by
    simp [confined_trialCall]
  have hfound : (filesAfter [trialCall { images := ["pause:3.9", "nginx"] } ⟨#[1]⟩ 1,
      trialCall { images := ["pause:3.9", "nginx"] } ⟨#[1, 2]⟩ 0]
        (FileTree.empty [])).find? ["kubewarden-images.tar"] = some (.file ⟨#[1, 2]⟩) := rfl
  have hplace : (FileTree.empty []).place (Path.here.child Category.images.archiveName) =
      ["kubewarden-images.tar"] := place_child (Category.isName_archiveName .images)
  rw [← hplace] at hfound
  obtain ⟨earlier, c, later, content, hsplit, hcontent, hcommits⟩ :=
    (archives_committed hcalls holdsNoArchive_empty .images).1 _ hfound
  have hsame : ByteArray.mk #[1, 2] = content := FileEntry.file.inj hcontent
  exact ⟨earlier, c, later, hsplit, hsame ▸ hcommits⟩

end OfflineSupply.Pull
