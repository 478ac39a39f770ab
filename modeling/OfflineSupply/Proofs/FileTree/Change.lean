import OfflineSupply.Proofs.FileTree.Entries
import OfflineSupply.Proofs.FileTree.Place

/-!
# How trees change

Two trees agree when they hold the same everywhere.  A tree that was written at a path agrees with
the one before except that a file may have come to stand at the place of the path.  Renaming and
removing are described by the location that they change.
-/

namespace OfflineSupply.FileTree

variable {t t' t'' : FileTree} {at_ x : Location} {p source target : Path}

/-- Two trees that hold the same at every location and have the same working directory. -/
structure Agrees (t t' : FileTree) : Prop where
  directory : t'.directory = t.directory
  entry : ∀ y, t'.find? y = t.find? y

namespace Agrees

theorem refl (t : FileTree) : t.Agrees t :=
  ⟨rfl, fun _ ↦ rfl⟩

theorem trans (h : t.Agrees t') (h' : t'.Agrees t'') : t.Agrees t'' :=
  ⟨h'.directory.trans h.directory, fun y ↦ (h'.entry y).trans (h.entry y)⟩

theorem symm (h : t.Agrees t') : t'.Agrees t :=
  ⟨h.directory.symm, fun y ↦ (h.entry y).symm⟩

theorem locate (h : t.Agrees t') (hlocate : t.locate p = .ok x) : t'.locate p = .ok x :=
  locate_mono h.directory (fun y hy ↦ (h.entry y).trans hy) hlocate

theorem exists? (h : t.Agrees t') (p : Path) : t'.exists? p = t.exists? p := by
  have hmono {u u' : FileTree} (hu : u.Agrees u') (hexists : u.exists? p = true) :
      u'.exists? p = true := by
    obtain ⟨at_, entry, hlocate, hfound⟩ := exists?_iff.mp hexists
    exact exists?_iff.mpr ⟨at_, entry, hu.locate hlocate, (hu.entry at_).trans hfound⟩
  exact Bool.eq_iff_iff.mpr ⟨hmono h.symm, hmono h⟩

end Agrees

/-! ## A directory that is spared -/

/-- A directory, all that is in it and the way to it are as before. -/
structure Spares (p : Path) (before after : FileTree) : Prop where
  directory : after.directory = before.directory
  way : ∀ front, front <+: p.names →
    after.find? (before.place { p with names := front }) =
      before.find? (before.place { p with names := front })
  below : ∀ y, before.place p <+: y → after.find? y = before.find? y

namespace Spares

theorem refl (p : Path) (t : FileTree) : Spares p t t :=
  ⟨rfl, fun _ _ ↦ rfl, fun _ _ ↦ rfl⟩

theorem trans (h : Spares p t t') (h' : Spares p t' t'') : Spares p t t'' := by
  have hplace (q : Path) : t'.place q = t.place q := place_congr h.directory q
  refine ⟨h'.directory.trans h.directory, ?_, ?_⟩
  · intro front hfront
    have hsecond := h'.way front hfront
    rw [hplace] at hsecond
    exact hsecond.trans (h.way front hfront)
  · intro y hy
    have hsecond := h'.below y (by rwa [hplace])
    exact hsecond.trans (h.below y hy)

theorem find?_child (h : Spares p t t') (name : String) :
    t'.find? (t.place p ++ [name]) = t.find? (t.place p ++ [name]) :=
  h.below _ (List.prefix_append _ _)

/-- The files of a directory that is spared are located as before. -/
theorem locate_child (h : Spares p t t') {name : String} (hname : Path.IsName name) :
    t'.locate (p.child name) = t.locate (p.child name) := by
  rw [Path.child_of_isName hname]
  unfold locate
  rw [h.directory]
  congr 2
  refine walk_congr fun front hfront hne ↦ ?_
  have hbelow : front <+: p.names := by
    rcases List.prefix_concat_iff.mp hfront with heq | hbelow
    · exact absurd heq hne
    · exact hbelow
  exact h.way front hbelow

end Spares

/-! ## A file written at a path -/

/-- Putting a file where no directory was keeps what was located. -/
theorem locate_put_file {content : ByteArray} (hplain : t.find? at_ ≠ some .directory) {q : Path}
    (hlocate : t.locate q = .ok x) : (t.put at_ (.file content)).locate q = .ok x := by
  refine locate_mono directory_put ?_ hlocate
  intro y hy
  rw [find?_put_of_ne, hy]
  rintro rfl
  exact hplain hy

/-- A tree as it is after a file may have been written at a path and nothing else was done. -/
structure WrittenAt (p : Path) (before after : FileTree) : Prop where
  directory : after.directory = before.directory
  entry : ∀ y, after.find? y = before.find? y ∨
    before.locate p = .ok y ∧ ∃ content, after.find? y = some (.file content)

namespace WrittenAt

theorem refl (p : Path) (t : FileTree) : WrittenAt p t t :=
  ⟨rfl, fun _ ↦ .inl rfl⟩

theorem of_agrees (p : Path) (h : t.Agrees t') : WrittenAt p t t' :=
  ⟨h.directory, fun y ↦ .inl (h.entry y)⟩

theorem find?_of_ne (h : WrittenAt p t t') (hne : x ≠ t.place p) : t'.find? x = t.find? x := by
  rcases h.entry x with heq | ⟨hlocate, -⟩
  · exact heq
  · exact absurd (place_of_locate hlocate).symm hne

/-- Writing files makes no directory. -/
theorem of_directory (h : WrittenAt p t t') (hx : t'.find? x = some .directory) :
    t.find? x = some .directory := by
  rcases h.entry x with heq | ⟨-, content, hfile⟩
  · rw [← heq, hx]
  · rw [hfile] at hx
    simp at hx

theorem locate_of_locate (h : WrittenAt p t t') {q : Path} (hlocate : t'.locate q = .ok x) :
    t.locate q = .ok x :=
  locate_mono h.directory.symm (fun _ hy ↦ h.of_directory hy) hlocate

theorem trans (h : WrittenAt p t t') (h' : WrittenAt p t' t'') : WrittenAt p t t'' := by
  refine ⟨h'.directory.trans h.directory, fun y ↦ ?_⟩
  cases h'.entry y with
  | inl hsame =>
    rw [hsame]
    exact h.entry y
  | inr hfile => exact .inr ⟨h.locate_of_locate hfile.1, hfile.2⟩

/-- A file that came to stand at a vacant place is located there. -/
theorem locate_of_vacant (h : WrittenAt p t t') (hvacant : t.find? (t.place p) = none)
    {entry : FileEntry} (hfound : t'.find? (t.place p) = some entry) :
    t'.locate p = .ok (t.place p) ∧ ∃ content, entry = .file content := by
  rcases h.entry (t.place p) with heq | ⟨hlocate, content, hfile⟩
  · rw [heq, hvacant] at hfound
    simp at hfound
  · refine ⟨locate_mono h.directory ?_ hlocate, content, Option.some.inj (hfound.symm.trans hfile)⟩
    intro y hy
    rcases h.entry y with heq | ⟨hlocate', -⟩
    · rw [heq, hy]
    · rw [← place_of_locate hlocate', hvacant] at hy
      simp at hy

theorem of_put {content : ByteArray} (hlocate : t.locate p = .ok at_) :
    WrittenAt p t (t.put at_ (.file content)) := by
  refine ⟨directory_put, fun y ↦ ?_⟩
  by_cases hy : y = at_
  · rw [hy]
    by_cases hroot : at_ = []
    · rw [hroot]
      exact .inl rfl
    · exact .inr ⟨hlocate, content, find?_put_self hroot⟩
  · exact .inl (find?_put_of_ne hy)

/-- Where nothing was at the path, writing keeps all that was located. -/
theorem locate_of_missing (h : WrittenAt p t t') {q : Path} (hmissing : t.exists? p = false)
    (hlocate : t.locate q = .ok x) : t'.locate q = .ok x := by
  refine locate_mono h.directory ?_ hlocate
  intro y hy
  rcases h.entry y with hsame | ⟨hlocate', -⟩
  · rw [hsame, hy]
  · have hthere : t.exists? p = true := exists?_iff.mpr ⟨y, _, hlocate', hy⟩
    rw [hmissing] at hthere
    simp at hthere

/-- What was somewhere is there after something was written. -/
theorem ne_none (h : WrittenAt p t t') (hthere : t.find? x ≠ none) :
    t'.find? x ≠ none := by
  rcases h.entry x with hsame | ⟨-, content, hfile⟩
  · rwa [hsame]
  · simp [hfile]

end WrittenAt

/-! ## Renaming and removing -/

theorem rename_eq_ok (h : t.rename source target = .ok t') :
    ∃ from_ to_ entry, t.locate source = .ok from_ ∧ t.locate target = .ok to_ ∧
      t.find? from_ = some entry ∧ (t' = t ∧ from_ = to_ ∨ t' = t.move from_ to_) := by
  unfold rename at h
  rcases hsource : t.locate source with problem | from_
  · simp [hsource] at h
  rcases htarget : t.locate target with problem | to_
  · rw [hsource, htarget] at h
    rcases hfrom : t.find? from_ with _ | entry <;> simp [hfrom] at h
  rw [hsource, htarget] at h
  rcases hfrom : t.find? from_ with _ | entry
  · simp [hfrom] at h
  refine ⟨from_, to_, entry, rfl, rfl, hfrom, ?_⟩
  simp only [hfrom] at h
  grind

/-- A file takes the place of no directory. -/
theorem rename_ne_directory (h : t.rename source target = .ok t') {from_ to_ : Location}
    (hsource : t.locate source = .ok from_) (htarget : t.locate target = .ok to_)
    {content : ByteArray} (hfile : t.find? from_ = some (.file content)) :
    t.find? to_ ≠ some .directory := by
  intro hdirectory
  unfold rename at h
  simp [hsource, htarget, hfile, hdirectory] at h

theorem remove_eq_ok (h : t.remove p = .ok t') :
    ∃ at_ entry, t.locate p = .ok at_ ∧ t.find? at_ = some entry ∧ t' = t.drop at_ := by
  unfold remove at h
  rcases hlocate : t.locate p with problem | at_
  · simp [hlocate] at h
  rw [hlocate] at h
  rcases hfound : t.find? at_ with _ | _ | _ | _ | _ <;> simp [hfound] at h
  all_goals exact ⟨at_, _, rfl, hfound, h.symm⟩

theorem remove_file {content : ByteArray} (hlocate : t.locate p = .ok at_)
    (hfound : t.find? at_ = some (.file content)) : t.remove p = .ok (t.drop at_) := by
  unfold remove
  simp [hlocate, hfound]

end OfflineSupply.FileTree
