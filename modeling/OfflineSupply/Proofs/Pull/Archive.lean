import OfflineSupply.Proofs.Pull.Category

/-!
# How an archive comes about

Bundling a category either leaves its archive as it was or makes it out of what one process saved,
after every entry was pulled.  Whatever fails on the way, the unfinished file is gone afterwards, and
the other files of the cache directory are as before.
-/

namespace OfflineSupply

namespace FileTree

/-- A tree that differs from another one at the place of a path at most. -/
structure ChangedAt (p : Path) (before after : FileTree) : Prop where
  directory : after.directory = before.directory
  others : ∀ y, y ≠ before.place p → after.find? y = before.find? y

theorem WrittenAt.changedAt {p : Path} {t u : FileTree} (h : WrittenAt p t u) : ChangedAt p t u :=
  ⟨h.directory, fun _ hy ↦ h.find?_of_ne hy⟩

end FileTree

namespace Pull

open FileTree

variable {host : Host} {s : Session} {p : Path}

/-- Looking for a file only adds to the log. -/
theorem ensures_isThere : Action.Ensures host s (isThere p) fun r s' ↦
    r = .ok (s.files.exists? p) ∧ s'.files = s.files ∧ s'.executions = s.executions := by
  unfold isThere
  rw [Action.ensures_files_bind]
  split
  · rename_i hthere
    rw [hthere]
    exact ⟨rfl, rfl, rfl⟩
  · rename_i hmissing
    rw [Bool.eq_false_iff.mpr hmissing]
    exact ⟨rfl, rfl, rfl⟩

/-- Removing a file changes nothing elsewhere.  A file that came to stand at a vacant place is indeed
removed. -/
theorem ensures_removeIfThere : Action.Ensures host s (removeIfThere p) fun _ s' ↦
    s'.executions = s.executions ∧ ChangedAt p s.files s'.files ∧
      ∀ t, WrittenAt p t s.files → t.find? (t.place p) = none →
        s'.files.find? (t.place p) = none := by
  unfold removeIfThere
  rw [Action.ensures_files_bind]
  split
  · rw [Action.ensures_changeFiles]
    cases hremoved : s.files.remove p with
    | error e =>
      refine ⟨rfl, ⟨rfl, fun _ _ ↦ rfl⟩, ?_⟩
      intro t hwritten hvacant
      cases hfound : s.files.find? (t.place p) with
      | none => rfl
      | some entry =>
        obtain ⟨hlocate, content, rfl⟩ := hwritten.locate_of_vacant hvacant hfound
        rw [remove_file hlocate hfound] at hremoved
        simp at hremoved
    | ok u =>
      obtain ⟨at_, entry, hlocate, hfound, rfl⟩ := remove_eq_ok hremoved
      have hat : s.files.place p = at_ := place_of_locate hlocate
      refine ⟨rfl, ⟨rfl, fun y hy ↦ find?_drop_of_ne (hat ▸ hy)⟩, ?_⟩
      intro t hwritten hvacant
      have hplace : s.files.place p = t.place p := place_congr hwritten.directory p
      have hne : at_ ≠ [] := by
        intro hnil
        rw [← hplace, hat, hnil] at hvacant
        simp at hvacant
      rw [← hplace, hat]
      exact find?_drop_self hne
  · rename_i hmissing
    refine ⟨rfl, ⟨rfl, fun _ _ ↦ rfl⟩, ?_⟩
    intro t hwritten hvacant
    cases hfound : s.files.find? (t.place p) with
    | none => exact hfound
    | some entry =>
      obtain ⟨hlocate, -⟩ := hwritten.locate_of_vacant hvacant hfound
      exact absurd (exists?_iff.mpr ⟨_, _, hlocate, hfound⟩) hmissing

end Pull

namespace Category

open FileTree Pull

variable {host : Host} {s : Session} {k : Category} {m : Manifest} {set : Settings}
  {directory : Path} {c : Call} {ls more : List Launch} {content : ByteArray}

/-- A process saved all entries into the unfinished file, left the content there and exited with
zero. -/
structure Wrote (k : Category) (host : Host) (m : Manifest) (set : Settings) (l : Launch)
    (content : ByteArray) : Prop where
  command : l.command = k.save (k.entries m) (k.unfinished set)
  succeeds : l.Succeeds host
  content : (l.outcome host).files.read (k.unfinished set) = .ok content

/-- One of the processes wrote the content, after each of the entries had been pulled by one that
exited with zero. -/
def Commits (k : Category) (host : Host) (m : Manifest) (set : Settings) (ls : List Launch)
    (content : ByteArray) : Prop :=
  ∃ before l after, ls = before ++ l :: after ∧ k.Wrote host m set l content ∧
    ∀ entry ∈ k.entries m, ∃ l' ∈ before, l'.command = k.pull entry ∧ l'.Succeeds host

theorem Commits.append (h : k.Commits host m set ls content) (more : List Launch) :
    k.Commits host m set (ls ++ more) content := by
  obtain ⟨before, l, after, rfl, hsaved⟩ := h
  exact ⟨before, l, after ++ more, by simp, hsaved⟩

theorem Commits.prepend (h : k.Commits host m set more content) (ls : List Launch) :
    k.Commits host m set (ls ++ more) content := by
  obtain ⟨before, l, after, rfl, hwrote, hpulled⟩ := h
  refine ⟨ls ++ before, l, after, by simp, hwrote, ?_⟩
  intro entry hentry
  obtain ⟨l', hl', hpull⟩ := hpulled entry hentry
  exact ⟨l', List.mem_append_right ls hl', hpull⟩

/-- What saving an archive does to the files: if no file was unfinished before then none is
afterwards, and the archive is as it was or was made. -/
structure Saved (k : Category) (set : Settings) (before after : FileTree)
    (made : ByteArray → Prop) : Prop where
  directory : after.directory = before.directory
  others : ∀ name, name ≠ k.archiveName → name ≠ k.unfinishedName →
    after.find? (before.place set.cacheDirectory ++ [name]) =
      before.find? (before.place set.cacheDirectory ++ [name])
  unfinished : before.find? (before.place (k.unfinished set)) = none →
    after.find? (before.place (k.unfinished set)) = none
  archive : before.find? (before.place (k.unfinished set)) = none →
    after.find? (before.place (k.archive set)) =
        before.find? (before.place (k.archive set)) ∨
      before.locate (k.archive set) = .ok (before.place (k.archive set)) ∧
        ∃ content, after.find? (before.place (k.archive set)) = some (.file content) ∧ made content

variable {before written renamed after : FileTree}

theorem place_unfinished_ne (set : Settings) (t : FileTree) {name : String}
    (h : name ≠ k.unfinishedName) :
    t.place set.cacheDirectory ++ [name] ≠ t.place (k.unfinished set) := by
  rw [place_unfinished]
  simpa using h

/-- Without the renaming the archive stays as it was. -/
theorem saved_of_changed {made : ByteArray → Prop}
    (hwritten : WrittenAt (k.unfinished set) before written)
    (hchanged : ChangedAt (k.unfinished set) written after)
    (hgone : before.find? (before.place (k.unfinished set)) = none →
      after.find? (before.place (k.unfinished set)) = none) : k.Saved set before after made := by
  have hplace (q : Path) : written.place q = before.place q := place_congr hwritten.directory q
  have hothers : ∀ name, name ≠ k.unfinishedName →
      after.find? (before.place set.cacheDirectory ++ [name]) =
        before.find? (before.place set.cacheDirectory ++ [name]) := by
    intro name hname
    have hne := place_unfinished_ne set before hname
    rw [hchanged.others _ (by rwa [hplace]), hwritten.find?_of_ne hne]
  refine ⟨hchanged.directory.trans hwritten.directory, fun name _ ↦ hothers name, hgone,
    fun _ ↦ .inl ?_⟩
  rw [place_archive]
  exact hothers k.archiveName (k.archiveName_ne_unfinishedName k)

theorem archive_apart (k : Category) (set : Settings) (t : FileTree) :
    ¬ t.place (k.archive set) <+: t.place (k.unfinished set) := by
  rw [place_archive, place_unfinished, sibling_prefix_iff]
  exact k.archiveName_ne_unfinishedName k

/-- A renaming that succeeds moves what is at the place of the unfinished file. -/
theorem rename_unfinished (h : written.rename (k.unfinished set) (k.archive set) = .ok renamed) :
    written.locate (k.unfinished set) = .ok (written.place (k.unfinished set)) ∧
      written.locate (k.archive set) = .ok (written.place (k.archive set)) ∧
      (∃ entry, written.find? (written.place (k.unfinished set)) = some entry) ∧
      renamed = written.move (written.place (k.unfinished set))
        (written.place (k.archive set)) := by
  obtain ⟨from_, to_, entry, hfrom, hto, hfound, hcases⟩ := rename_eq_ok h
  rw [place_of_locate hfrom, place_of_locate hto]
  refine ⟨hfrom, hto, ⟨entry, hfound⟩, ?_⟩
  rcases hcases with ⟨-, heq⟩ | hmoved
  · have hapart := archive_apart k set written
    rw [place_of_locate hfrom, place_of_locate hto, heq] at hapart
    exact absurd (List.prefix_refl _) hapart
  · exact hmoved

/-- After the renaming nothing is left under the name of the unfinished file. -/
theorem find?_unfinished_renamed
    (h : written.rename (k.unfinished set) (k.archive set) = .ok renamed) :
    renamed.find? (renamed.place (k.unfinished set)) = none := by
  obtain ⟨-, -, -, rfl⟩ := rename_unfinished h
  change (written.move _ _).find? (written.place (k.unfinished set)) = none
  refine find?_move_source ?_ (archive_apart k set written)
  rw [place_unfinished]
  simp

/-- By the renaming the archive gets what was written. -/
theorem saved_of_renamed {made : ByteArray → Prop}
    (hwritten : WrittenAt (k.unfinished set) before written)
    (hrenamed : written.rename (k.unfinished set) (k.archive set) = .ok renamed)
    (hchanged : ChangedAt (k.unfinished set) renamed after)
    (hgone : after.find? (before.place (k.unfinished set)) = none)
    (hmade : ∀ content, written.read (k.unfinished set) = .ok content → made content) :
    k.Saved set before after made := by
  obtain ⟨hfrom, hto, ⟨entry, hfound⟩, hmoved⟩ := rename_unfinished hrenamed
  have hplace (q : Path) : written.place q = before.place q := place_congr hwritten.directory q
  have hplace' (q : Path) : renamed.place q = before.place q := by
    rw [hmoved, ← hplace]
    rfl
  rw [hplace] at hfrom hto hfound
  rw [hplace, hplace] at hmoved
  have hothers : ∀ name, name ≠ k.unfinishedName →
      after.find? (before.place set.cacheDirectory ++ [name]) =
        renamed.find? (before.place set.cacheDirectory ++ [name]) := by
    intro name hname
    have hne := place_unfinished_ne set before hname
    exact hchanged.others _ (by rwa [hplace'])
  refine ⟨?_, ?_, fun _ ↦ hgone, ?_⟩
  · rw [hchanged.directory, hmoved]
    exact hwritten.directory
  · intro name hname hunfinished
    rw [hothers name hunfinished, hmoved, find?_move_apart]
    · exact hwritten.find?_of_ne (place_unfinished_ne set before hunfinished)
    · rw [place_unfinished, sibling_prefix_iff]
      exact Ne.symm hunfinished
    · rw [place_archive, sibling_prefix_iff]
      exact Ne.symm hname
  · intro hvacant
    -- What was written at the vacant place is a file.
    obtain ⟨-, content, rfl⟩ := hwritten.locate_of_vacant hvacant hfound
    have harchive : after.find? (before.place (k.archive set)) = some (.file content) := by
      have hafter := hothers _ (k.archiveName_ne_unfinishedName k)
      rw [← place_archive] at hafter
      rw [hafter, hmoved, find?_move_target _ (archive_apart k set before) _, hfound]
      · simp [place_unfinished]
      · simp [place_archive]
    refine .inr ⟨hwritten.locate_of_locate hto, content, harchive, hmade content ?_⟩
    unfold FileTree.read
    rw [lookup_eq_ok.mpr ⟨_, hfrom, hfound⟩]

/-- Saving an archive starts one process; what it wrote becomes the archive or is removed. -/
theorem ensures_saveArchive (hc : c.Confined directory) (htraced : s.Traced c.host ls) :
    Action.Ensures c.host s
      (saveArchive (k.save (k.entries c.manifest)) (k.archive c.settings) false)
      fun _ s' ↦ ∃ l, s'.Traced c.host (ls ++ [l]) ∧ l.command.tool = k.tool ∧
        k.Saved c.settings s.files s'.files (k.Wrote c.host c.manifest c.settings l) := by
  have hlimit : (k.save (k.entries c.manifest) (k.unfinished c.settings)).limit = none := by
    cases k <;> rfl
  unfold saveArchive
  rw [if_neg (by simp), Action.ensures_log_bind, addToName_archive, Action.ensures_andFinally,
    Action.ensures_bind]
  refine (Command.ensures_run hlimit).mono ?_
  rintro r s₁ ⟨l, hl⟩
  have htool : l.command.tool = k.tool := by
    rw [hl.command]
    cases k <;> rfl
  have htraced₁ : s₁.Traced c.host (ls ++ [l]) := hl.traced (htraced.of_executions rfl)
  have hwritten : WrittenAt (k.unfinished c.settings) s.files s₁.files := by
    have hsave := hc.save k l.session
    rw [hl.filesAfter]
    rwa [← hl.command, hl.filesBefore] at hsave
  -- Unless the renaming succeeds, only the unfinished file has to go.
  have hleft (r' : Except Failure Unit) :
      Action.Ensures c.host s₁ (removeIfThere (k.unfinished c.settings)) fun r'' s' ↦
        ∃ l, s'.Traced c.host (ls ++ [l]) ∧ l.command.tool = k.tool ∧
          k.Saved c.settings s.files s'.files (k.Wrote c.host c.manifest c.settings l) := by
    refine ensures_removeIfThere.mono ?_
    rintro r'' s' ⟨hexecutions, hchanged, hgone⟩
    exact ⟨l, htraced₁.of_executions hexecutions, htool,
      saved_of_changed hwritten hchanged fun hvacant ↦ hgone _ hwritten hvacant⟩
  cases r with
  | error e =>
    refine (hleft (.error e)).mono ?_
    intro r' s' hdone
    cases r' <;> exact hdone
  | ok output =>
    rw [Action.ensures_changeFiles]
    cases hrenamed : s₁.files.rename (k.unfinished c.settings) (k.archive c.settings) with
    | error e =>
      refine (hleft (.error (.ofFile e))).mono ?_
      intro r' s' hdone
      cases r' <;> exact hdone
    | ok renamed =>
      refine (ensures_removeIfThere (s := { s₁ with files := renamed })).mono ?_
      rintro r' s' ⟨hexecutions, hchanged, hgone⟩
      have hplace : renamed.place (k.unfinished c.settings) =
          s.files.place (k.unfinished c.settings) := by
        obtain ⟨-, -, -, rfl⟩ := rename_unfinished hrenamed
        exact place_congr hwritten.directory _
      have hvacant := hgone renamed (.refl _ _) (find?_unfinished_renamed hrenamed)
      rw [hplace] at hvacant
      have hmade (content : ByteArray)
          (hcontent : s₁.files.read (k.unfinished c.settings) = .ok content) :
          k.Wrote c.host c.manifest c.settings l content :=
        ⟨hl.command, hl.succeeds output rfl, hl.filesAfter ▸ hcontent⟩
      have hsaved := saved_of_renamed hwritten hrenamed hchanged hvacant hmade
      cases r' <;> exact ⟨l, htraced₁.of_executions hexecutions, htool, hsaved⟩

/-- Where the cache directory is spared the archive stays as it was. -/
theorem saved_of_spares {made : ByteArray → Prop} (h : Spares set.cacheDirectory before after) :
    k.Saved set before after made := by
  refine ⟨h.directory, fun name _ _ ↦ h.find?_child name, ?_, fun _ ↦ .inl ?_⟩
  · rw [place_unfinished, h.find?_child]
    exact id
  · rw [place_archive]
    exact h.find?_child k.archiveName

theorem Saved.of_spares {made : ByteArray → Prop} (h : Spares set.cacheDirectory before written)
    (hsaved : k.Saved set written after made) : k.Saved set before after made := by
  have hplace (q : Path) : written.place q = before.place q := place_congr h.directory q
  have hvacant : written.find? (before.place (k.unfinished set)) =
      before.find? (before.place (k.unfinished set)) := by
    rw [place_unfinished]
    exact h.find?_child k.unfinishedName
  obtain ⟨hdirectory, hothers, hunfinished, harchive⟩ := hsaved
  rw [hplace, hvacant] at hunfinished harchive
  rw [hplace] at harchive
  refine ⟨hdirectory.trans h.directory, ?_, hunfinished, ?_⟩
  · intro name hname hname'
    have hafter := hothers name hname hname'
    rw [hplace] at hafter
    exact hafter.trans (h.find?_child name)
  · intro hnone
    rcases harchive hnone with hsame | ⟨hlocate, hmade⟩
    · refine .inl (hsame.trans ?_)
      rw [place_archive]
      exact h.find?_child k.archiveName
    · rw [Category.archive, h.locate_child k.isName_archiveName] at hlocate
      exact .inr ⟨hlocate, hmade⟩

theorem Saved.mono {made made' : ByteArray → Prop} (h : k.Saved set before after made)
    (hmade : before.locate (k.archive set) = .ok (before.place (k.archive set)) →
      ∀ content, made content → made' content) : k.Saved set before after made' := by
  refine ⟨h.directory, h.others, h.unfinished, fun hvacant ↦ ?_⟩
  rcases h.archive hvacant with hsame | ⟨hlocate, content, hfound, hcontent⟩
  · exact .inl hsame
  · exact .inr ⟨hlocate, content, hfound, hmade hlocate content hcontent⟩

theorem ensures_announce {entry : String} : Action.Ensures host s (k.announce entry) fun r s' ↦
    r = .ok () ∧ s'.files = s.files ∧ s'.executions = s.executions := by
  cases k <;> exact ⟨rfl, rfl, rfl⟩

theorem ensures_pullEntry (hc : c.Confined directory) {entry : String}
    (hentry : entry ∈ k.entries c.manifest) (htraced : s.Traced c.host ls) :
    Action.Ensures c.host s (k.pullEntry c.settings entry) fun r s' ↦
      ∃ l, s'.Traced c.host (ls ++ [l]) ∧ Spares directory s.files s'.files ∧
        l.command = k.pull entry ∧ (r = .ok () → l.Succeeds c.host) := by
  have hlimit : (k.pull entry).limit = none := by
    cases k <;> rfl
  unfold pullEntry
  refine ensures_announce.bind ?_ ?_
  · rintro ⟨⟩ s₁ ⟨-, hfiles, hexecutions⟩
    rw [hc.live, Action.ensures_bind]
    refine (Command.ensures_run hlimit).mono ?_
    rintro r s₂ ⟨l, hl⟩
    have htraced₂ := hl.traced (htraced.of_executions hexecutions)
    have hspares : Spares directory s.files s₂.files := by
      have hpull := hc.pull k l.session entry hentry
      rw [hl.filesAfter]
      rwa [← hl.command, hl.filesBefore, hfiles] at hpull
    cases r with
    | ok output => exact ⟨l, htraced₂, hspares, hl.command, fun _ ↦ hl.succeeds output rfl⟩
    | error e => exact ⟨l, htraced₂, hspares, hl.command, by simp⟩
  · rintro e s₁ ⟨hr, -⟩
    simp at hr

/-- Pulling the entries spares the cache directory; if it ends well each entry was pulled. -/
theorem ensures_pullEntries (hc : c.Confined directory) (htraced : s.Traced c.host ls) :
    Action.Ensures c.host s ((k.entries c.manifest).forM (k.pullEntry c.settings)) fun r s' ↦
      ∃ more, s'.Traced c.host (ls ++ more) ∧ Spares directory s.files s'.files ∧
        (∀ l ∈ more, l.command.tool = k.tool) ∧
        (r = .ok () → ∀ entry ∈ k.entries c.manifest,
          ∃ l ∈ more, l.command = k.pull entry ∧ l.Succeeds c.host) := by
  -- After an initial part of the list each of its entries was pulled.
  let inv : List String → Session → Prop := fun before s' ↦
    ∃ more, s'.Traced c.host (ls ++ more) ∧ Spares directory s.files s'.files ∧
      (∀ l ∈ more, l.command.tool = k.tool) ∧ ∀ entry ∈ before, ∃ l ∈ more, l.command = k.pull entry ∧ l.Succeeds c.host
  let left : Failure → Session → Prop := fun _ s' ↦
    ∃ more, s'.Traced c.host (ls ++ more) ∧ Spares directory s.files s'.files ∧
      ∀ l ∈ more, l.command.tool = k.tool
  have hstart : inv [] s := ⟨[], by simpa using htraced, .refl _ _, by simp, by simp⟩
  refine (Action.ensures_forM inv left hstart ?_).mono ?_
  · rintro before entry rest s₁ hentries ⟨more, htraced₁, hspares₁, htools, hpulled⟩
    have hentry : entry ∈ k.entries c.manifest := by
      simp [hentries]
    refine (ensures_pullEntry hc hentry htraced₁).mono ?_
    rintro r s₂ ⟨l, htraced₂, hspares₂, hcommand, hsucceeds⟩
    rw [List.append_assoc] at htraced₂
    have hspares := hspares₁.trans hspares₂
    have htools₂ : ∀ l' ∈ more ++ [l], l'.command.tool = k.tool := by
      refine List.forall_mem_append.mpr ⟨htools, List.forall_mem_singleton.mpr ?_⟩
      rw [hcommand]
      cases k <;> rfl
    refine ⟨fun hr ↦ ⟨more ++ [l], htraced₂, hspares, htools₂, ?_⟩,
      fun _ _ ↦ ⟨more ++ [l], htraced₂, hspares, htools₂⟩⟩
    intro entry' hentry'
    rcases List.mem_append.mp hentry' with hbefore | hlast
    · obtain ⟨l', hl', hpull⟩ := hpulled entry' hbefore
      exact ⟨l', List.mem_append_left _ hl', hpull⟩
    · rw [List.mem_singleton.mp hlast]
      exact ⟨l, by simp, hcommand, hsucceeds hr⟩
  · rintro r s₁ ⟨hfinished, hleft⟩
    cases r with
    | error e =>
      obtain ⟨more, htraced₁, hspares₁, htools⟩ := hleft e rfl
      exact ⟨more, htraced₁, hspares₁, htools, by simp⟩
    | ok value =>
      obtain ⟨more, htraced₁, hspares₁, htools, hpulled⟩ := hfinished rfl
      exact ⟨more, htraced₁, hspares₁, htools, fun _ ↦ hpulled⟩

/-- Bundling keeps an archive that is there, and makes one only by committing it. -/
theorem ensures_bundle (hc : c.Confined c.settings.cacheDirectory)
    (htraced : s.Traced c.host ls) :
    Action.Ensures c.host s (k.bundle c.manifest c.settings) fun _ s' ↦
      ∃ more, s'.Traced c.host (ls ++ more) ∧ (∀ l ∈ more, l.command.tool = k.tool) ∧
        k.Saved c.settings s.files s'.files fun content ↦
          s.files.find? (s.files.place (k.archive c.settings)) = none ∧
            k.Commits c.host c.manifest c.settings more content := by
  unfold bundle
  refine ensures_isThere.bind ?_ (by simp)
  rintro there s₁ ⟨hthere, hfiles₁, hexecutions₁⟩
  have htraced₁ := htraced.of_executions hexecutions₁
  cases there with
  | true =>
    rw [if_pos rfl, Action.ensures_pure]
    refine ⟨[], by simpa using htraced₁, by simp, ?_⟩
    rw [hfiles₁]
    exact saved_of_spares (.refl _ _)
  | false =>
    rw [if_neg (by simp)]
    refine (ensures_pullEntries hc htraced₁).bind ?_ ?_
    · rintro ⟨⟩ s₂ ⟨more, htraced₂, hspares, htools, hpulled⟩
      rw [hfiles₁] at hspares
      rw [hc.live]
      refine (ensures_saveArchive hc htraced₂).mono ?_
      rintro r s₃ ⟨l, htraced₃, htool, hsaved⟩
      rw [List.append_assoc] at htraced₃
      refine ⟨more ++ [l], htraced₃, ?_, (hsaved.of_spares hspares).mono ?_⟩
      · exact List.forall_mem_append.mpr ⟨htools, List.forall_mem_singleton.mpr htool⟩
      · intro hlocate content hwrote
        refine ⟨?_, more, l, [], rfl, hwrote, hpulled rfl⟩
        refine find?_eq_none_of_not_exists ?_ hlocate
        rw [← Except.ok.inj hthere]
        simp
    · rintro e s₂ ⟨more, htraced₂, hspares, htools, -⟩
      rw [hfiles₁] at hspares
      exact ⟨more, htraced₂, htools, saved_of_spares hspares⟩

end Category

end OfflineSupply
