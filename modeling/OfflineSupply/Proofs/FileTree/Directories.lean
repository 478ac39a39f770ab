import OfflineSupply.Proofs.FileTree.Change

/-!
# Making directories

Making the directory at a path and the missing ones above it adds directories at locations that the
path passes, and nothing else.  If it ends well the path leads to a directory.  If it is stopped,
making it once more adds nothing.
-/

namespace OfflineSupply.FileTree

variable {t t' : FileTree} {at_ x : Location} {p : Path} {anchor : Anchor} {most : Nat}
  {name : String} {names before : List String} {stopped : Option FileError} {e : FileError}

/-! ## The last directory of a path -/

/-- The directory at a path, when those above it need not be made any more. -/
def makeLast (t : FileTree) (p : Path) : FileTree × Option FileError :=
  match t.makeDirectory p with
  | .ok t => (t, none)
  | .error e => if t.isDirectory p then (t, none) else (t, some e)

theorem makeDirectory_eq_ok (h : t.makeDirectory p = .ok t') :
    ∃ at_, t.locate p = .ok at_ ∧ t.find? at_ = none ∧ t' = t.put at_ .directory := by
  unfold makeDirectory at h
  rcases hlocate : t.locate p with problem | at_
  · simp [hlocate] at h
  rcases hfound : t.find? at_ with _ | entry
  · simp only [hlocate, hfound, Except.ok.injEq] at h
    exact ⟨at_, rfl, hfound, h.symm⟩
  · simp [hlocate, hfound] at h

theorem makeDirectory_of_isDirectory (h : t.isDirectory p = true) :
    ∃ e, t.makeDirectory p = .error e := by
  obtain ⟨at_, hlocate, hfound⟩ := isDirectory_iff.mp h
  exact ⟨{ problem := .alreadyThere, path := p }, by simp [makeDirectory, hlocate, hfound]⟩

/-- A directory is made, it was there, or nothing is done at all. -/
theorem makeLast_cases (t : FileTree) (p : Path) :
    (∃ at_, t.locate p = .ok at_ ∧ t.find? at_ = none ∧
      t.makeLast p = (t.put at_ .directory, none)) ∨
    (t.isDirectory p = true ∧ t.makeLast p = (t, none)) ∨
    (t.isDirectory p = false ∧ ∃ e, t.makeLast p = (t, some e)) := by
  unfold makeLast
  cases hmake : t.makeDirectory p with
  | ok t' =>
    obtain ⟨at_, hlocate, hfound, rfl⟩ := makeDirectory_eq_ok hmake
    exact .inl ⟨at_, hlocate, hfound, rfl⟩
  | error e =>
    by_cases hthere : t.isDirectory p = true
    · exact .inr (.inl ⟨hthere, by simp [hthere]⟩)
    · exact .inr (.inr ⟨by simpa using hthere, e, by simp [hthere]⟩)

/-- Putting a directory where nothing was keeps what was located. -/
theorem locate_put_directory (hvacant : t.find? at_ = none) {q : Path}
    (hlocate : t.locate q = .ok x) : (t.put at_ .directory).locate q = .ok x := by
  refine locate_mono directory_put ?_ hlocate
  intro y hy
  rw [find?_put_of_ne, hy]
  rintro rfl
  rw [hvacant] at hy
  simp at hy

theorem isDirectory_put (hlocate : t.locate p = .ok at_) (hvacant : t.find? at_ = none) :
    (t.put at_ .directory).isDirectory p = true := by
  have hne : at_ ≠ [] := by
    rintro rfl
    simp at hvacant
  exact isDirectory_iff.mpr
    ⟨at_, locate_put_directory hvacant hlocate, find?_put_self hne⟩

theorem isDirectory_of_makeLast (h : t.makeLast p = (t', none)) : t'.isDirectory p = true := by
  rcases makeLast_cases t p with ⟨at_, hlocate, hfound, hmade⟩ | ⟨hthere, hmade⟩ | ⟨-, e, hmade⟩
  · obtain ⟨rfl, -⟩ := Prod.mk.inj (hmade.symm.trans h)
    exact isDirectory_put hlocate hfound
  · obtain ⟨rfl, -⟩ := Prod.mk.inj (hmade.symm.trans h)
    exact hthere
  · simp [hmade] at h

theorem makeLast_stopped (h : t.makeLast p = (t', some e)) :
    t' = t ∧ t.isDirectory p = false := by
  rcases makeLast_cases t p with ⟨at_, -, -, hmade⟩ | ⟨-, hmade⟩ | ⟨hthere, e', hmade⟩
  · simp [hmade] at h
  · simp [hmade] at h
  · exact ⟨(Prod.mk.inj (h.symm.trans hmade)).1, hthere⟩

theorem makeLast_of_isDirectory (h : t.isDirectory p = true) : t.makeLast p = (t, none) := by
  obtain ⟨e, hmake⟩ := makeDirectory_of_isDirectory h
  simp [makeLast, hmake, h]

theorem makeLast_makeLast : ((t.makeLast p).1.makeLast p).1 = (t.makeLast p).1 := by
  rcases hmade : t.makeLast p with ⟨t', _ | e⟩
  · exact congrArg Prod.fst (makeLast_of_isDirectory (isDirectory_of_makeLast hmade))
  · obtain ⟨rfl, -⟩ := makeLast_stopped hmade
    exact congrArg Prod.fst hmade

/-! ## Above a path -/

theorem text_of_names {names : List String} (h : names ≠ []) :
    ({ anchor, names } : Path).text = Path.Anchor.text anchor ++ "/".intercalate names := by
  simp [Path.text, h]

theorem Admissible.parent (hnames : names ≠ [])
    (h : Admissible { anchor, names := names ++ [name] }) : Admissible { anchor, names } := by
  obtain ⟨hnul, hsize⟩ := h
  constructor
  · rw [List.any_append, Bool.or_eq_false_iff] at hnul
    exact hnul.1
  · rw [text_of_names (by simp), String.intercalate_append_of_ne_nil hnames (by simp)] at hsize
    rw [text_of_names hnames]
    simp only [String.utf8ByteSize_append] at hsize ⊢
    omega

/-- What is located below a path is located in a directory. -/
theorem isDirectory_parent (hnames : names ≠ [])
    (h : t.locate { anchor, names := names ++ [name] } = .ok x) :
    t.isDirectory { anchor, names } = true := by
  obtain ⟨hadmissible, hwalk⟩ := locate_eq_ok.mp h
  obtain ⟨middle, hparent, hlast⟩ := walk_append_eq_ok.mp hwalk
  exact isDirectory_iff.mpr
    ⟨middle, locate_eq_ok.mpr ⟨hadmissible.parent hnames, hparent⟩, (walk_cons_eq_ok.mp hlast).1⟩

/-- Nothing can be made in what is no directory. -/
theorem makeLast_below (hnames : names ≠ []) (h : t.isDirectory { anchor, names } = false) :
    (t.makeLast { anchor, names := names ++ [name] }).1 = t ∧
      t.isDirectory { anchor, names := names ++ [name] } = false := by
  have hlocate : ∀ y, t.locate { anchor, names := names ++ [name] } ≠ .ok y := by
    intro y hy
    rw [isDirectory_parent hnames hy] at h
    simp at h
  have hthere : t.isDirectory { anchor, names := names ++ [name] } = false := by
    rw [Bool.eq_false_iff]
    intro hthere
    obtain ⟨y, hy, -⟩ := isDirectory_iff.mp hthere
    exact hlocate y hy
  refine ⟨?_, hthere⟩
  rcases makeLast_cases t { anchor, names := names ++ [name] } with
    ⟨at_, hat, -⟩ | ⟨hthere', -⟩ | ⟨-, e, hmade⟩
  · exact absurd hat (hlocate at_)
  · rw [hthere] at hthere'
    simp at hthere'
  · rw [hmade]

/-! ## All directories of a path -/

theorem makeNames_nil : t.makeNames anchor most [] = (t, none) := by
  cases most <;> rfl

/-- What is above the last name is made first, if anything is missing there. -/
theorem makeNames_cons_of_parent (h : (before.isEmpty ||
      t.exists? { anchor, names := before.reverse }) = true) :
    t.makeNames anchor (most + 1) (name :: before) =
      t.makeLast { anchor, names := before.reverse ++ [name] } := by
  rw [makeNames]
  simp only [h, if_true, List.reverse_cons]
  rfl

theorem makeNames_cons (h : (before.isEmpty ||
      t.exists? { anchor, names := before.reverse }) = false) :
    t.makeNames anchor (most + 1) (name :: before) =
      match t.makeNames anchor most before with
      | (t', some e) => (t', some e)
      | (t', none) => t'.makeLast { anchor, names := before.reverse ++ [name] } := by
  rw [makeNames]
  simp only [h, Bool.false_eq_true, if_false, List.reverse_cons]
  rcases t.makeNames anchor most before with ⟨t', _ | e⟩ <;> rfl

/-- Directories that were made without being stopped lead to the last name. -/
theorem isDirectory_of_makeNames (hnames : names ≠ [])
    (h : t.makeNames anchor most names = (t', none)) :
    t'.isDirectory { anchor, names := names.reverse } = true := by
  cases most with
  | zero =>
    cases names with
    | nil => exact absurd rfl hnames
    | cons name before => simp [makeNames] at h
  | succ most =>
    cases names with
    | nil => exact absurd rfl hnames
    | cons name before =>
      rw [List.reverse_cons]
      by_cases hparent : (before.isEmpty ||
          t.exists? { anchor, names := before.reverse }) = true
      · rw [makeNames_cons_of_parent hparent] at h
        exact isDirectory_of_makeLast h
      · rw [makeNames_cons (by simpa using hparent)] at h
        rcases hbefore : t.makeNames anchor most before with ⟨u, _ | e⟩
        · rw [hbefore] at h
          exact isDirectory_of_makeLast h
        · simp [hbefore] at h

/-- Where the making was stopped there is no directory, unless none was to be made at all. -/
theorem isDirectory_of_makeNames_stopped
    (hthere : most = 0 → t.exists? { anchor, names := names.reverse } = false)
    (h : t.makeNames anchor most names = (t', some e)) :
    t'.isDirectory { anchor, names := names.reverse } = false := by
  induction most generalizing names t' e with
  | zero =>
    have hsame : t' = t := by
      cases names with
      | nil => simp [makeNames] at h
      | cons name before => exact (Prod.mk.inj h).1.symm
    rw [hsame, Bool.eq_false_iff]
    intro hdirectory
    rw [exists?_of_isDirectory hdirectory] at hthere
    simp at hthere
  | succ most ih =>
    have hlast {u : FileTree} {q : Path} (hmade : u.makeLast q = (t', some e)) :
        t'.isDirectory q = false := by
      obtain ⟨rfl, hnot⟩ := makeLast_stopped hmade
      exact hnot
    cases names with
    | nil => simp [makeNames] at h
    | cons name before =>
      rw [List.reverse_cons]
      by_cases hparent : (before.isEmpty ||
          t.exists? { anchor, names := before.reverse }) = true
      · rw [makeNames_cons_of_parent hparent] at h
        exact hlast h
      · have hmissing : before.isEmpty = false ∧
            t.exists? { anchor, names := before.reverse } = false := by simpa using hparent
        rw [makeNames_cons (by simpa using hparent)] at h
        rcases hbefore : t.makeNames anchor most before with ⟨u, _ | e'⟩
        · rw [hbefore] at h
          exact hlast h
        · rw [hbefore] at h
          obtain ⟨rfl, -⟩ := Prod.mk.inj h
          have hnot := ih (fun _ ↦ hmissing.2) hbefore
          exact (makeLast_below (by simpa using hmissing.1) hnot).2

/-- What was located stays located while directories are made. -/
theorem exists?_makeLast {q : Path} (h : t.exists? q = true) :
    (t.makeLast p).1.exists? q = true := by
  rcases makeLast_cases t p with ⟨at_, hlocate, hvacant, hmade⟩ | ⟨-, hmade⟩ | ⟨-, e, hmade⟩
  · rw [hmade]
    obtain ⟨y, entry, hq, hfound⟩ := exists?_iff.mp h
    refine exists?_iff.mpr ⟨y, entry, locate_put_directory hvacant hq, ?_⟩
    rw [find?_put_of_ne, hfound]
    rintro rfl
    rw [hvacant] at hfound
    simp at hfound
  · rwa [hmade]
  · rwa [hmade]

/-- Once what is above the last name is there, only the last name counts. -/
theorem makeNames_makeLast (h : (before.isEmpty ||
      t.exists? { anchor, names := before.reverse }) = true) :
    ((t.makeLast { anchor, names := before.reverse ++ [name] }).1.makeNames anchor (most + 1)
        (name :: before)).1 =
      (t.makeLast { anchor, names := before.reverse ++ [name] }).1 := by
  rw [makeNames_cons_of_parent, makeLast_makeLast]
  rcases Bool.or_eq_true_iff.mp h with hempty | hthere
  · simp [hempty]
  · simp [exists?_makeLast hthere]

/-- What stops the making above the last name keeps the last name from being made. -/
theorem makeNames_cons_of_stopped (hnames : before ≠ [])
    (hnot : t.isDirectory { anchor, names := before.reverse } = false)
    (hsame : (t.makeNames anchor most before).1 = t) :
    (t.makeNames anchor (most + 1) (name :: before)).1 = t := by
  have hbelow : (t.makeLast { anchor, names := before.reverse ++ [name] }).1 = t :=
    (makeLast_below (by simpa using hnames) hnot).1
  by_cases hparent : (before.isEmpty ||
      t.exists? { anchor, names := before.reverse }) = true
  · rw [makeNames_cons_of_parent hparent, hbelow]
  · rw [makeNames_cons (by simpa using hparent)]
    rcases hbefore : t.makeNames anchor most before with ⟨u, _ | e⟩
    · rw [hbefore] at hsame
      simp only at hsame
      rw [hsame]
      exact hbelow
    · rwa [hbefore] at hsame

/-- Making directories once more adds none. -/
theorem makeNames_makeNames :
    ((t.makeNames anchor most names).1.makeNames anchor most names).1 =
      (t.makeNames anchor most names).1 := by
  induction most generalizing names with
  | zero => cases names <;> rfl
  | succ most ih =>
    cases names with
    | nil => simp [makeNames_nil]
    | cons name before =>
      by_cases hparent : (before.isEmpty ||
          t.exists? { anchor, names := before.reverse }) = true
      · rw [makeNames_cons_of_parent hparent]
        exact makeNames_makeLast hparent
      have hmissing : before.isEmpty = false ∧
          t.exists? { anchor, names := before.reverse } = false := by simpa using hparent
      have hnames : before ≠ [] := by simpa using hmissing.1
      have hbefore' : ((t.makeNames anchor most before).1.makeNames anchor most before).1 =
          (t.makeNames anchor most before).1 := ih
      rw [makeNames_cons (t := t) (by simpa using hparent)]
      rcases hbefore : t.makeNames anchor most before with ⟨u, _ | e⟩
      · have hthere := exists?_of_isDirectory (isDirectory_of_makeNames hnames hbefore)
        exact makeNames_makeLast (by simp [hthere])
      · rw [hbefore] at hbefore'
        exact makeNames_cons_of_stopped hnames
          (isDirectory_of_makeNames_stopped (fun _ ↦ hmissing.2) hbefore) hbefore'

/-! ## Where directories appear -/

/-- A path passes the places of its nonempty initial parts. -/
def Passes (t : FileTree) (p : Path) (x : Location) : Prop :=
  ∃ front, front ≠ [] ∧ front <+: p.names ∧ t.place { p with names := front } = x

theorem Passes.of_directory (hdirectory : t'.directory = t.directory) (h : t.Passes p x) :
    t'.Passes p x := by
  obtain ⟨front, hfront, hbelow, hplace⟩ := h
  exact ⟨front, hfront, hbelow, (place_congr hdirectory _).trans hplace⟩

/-- Only directories appear, at places that a path passes. -/
structure DirectoriesMade (p : Path) (before after : FileTree) : Prop where
  directory : after.directory = before.directory
  entry : ∀ y, after.find? y = before.find? y ∨
    before.find? y = none ∧ after.find? y = some .directory ∧ before.Passes p y

namespace DirectoriesMade

theorem refl (p : Path) (t : FileTree) : DirectoriesMade p t t :=
  ⟨rfl, fun _ ↦ .inl rfl⟩

theorem trans {t'' : FileTree} (h : DirectoriesMade p t t') (h' : DirectoriesMade p t' t'') :
    DirectoriesMade p t t'' := by
  refine ⟨h'.directory.trans h.directory, fun y ↦ ?_⟩
  rcases h.entry y with heq | ⟨hvacant, hmade, hpasses⟩
  · rcases h'.entry y with heq' | ⟨hvacant', hmade', hpasses'⟩
    · exact .inl (heq'.trans heq)
    · exact .inr ⟨heq ▸ hvacant', hmade', hpasses'.of_directory h.directory.symm⟩
  · rcases h'.entry y with heq' | ⟨hvacant', -, -⟩
    · exact .inr ⟨hvacant, heq'.trans hmade, hpasses⟩
    · rw [hmade] at hvacant'
      simp at hvacant'

/-- What was there is there after directories were made. -/
theorem exists? {q : Path} (h : DirectoriesMade p t t') (hthere : t.exists? q = true) :
    t'.exists? q = true := by
  have hkept {y : Location} (hy : t.find? y ≠ none) : t'.find? y = t.find? y := by
    rcases h.entry y with hsame | ⟨hvacant, -⟩
    · exact hsame
    · exact absurd hvacant hy
  obtain ⟨x, entry, hlocate, hfound⟩ := exists?_iff.mp hthere
  refine exists?_iff.mpr ⟨x, entry, locate_mono h.directory ?_ hlocate, ?_⟩
  · intro y hy
    rw [hkept (by simp [hy]), hy]
  · rw [hkept (by simp [hfound]), hfound]

theorem longer (h : DirectoriesMade { anchor, names } t t') :
    DirectoriesMade { anchor, names := names ++ [name] } t t' := by
  refine ⟨h.directory, fun y ↦ ?_⟩
  rcases h.entry y with heq | ⟨hvacant, hmade, front, hfront, hbelow, hplace⟩
  · exact .inl heq
  · exact .inr ⟨hvacant, hmade, front, hfront, hbelow.trans (List.prefix_append _ _), hplace⟩

end DirectoriesMade

theorem directoriesMade_makeLast (hnames : p.names ≠ []) :
    DirectoriesMade p t (t.makeLast p).1 := by
  rcases makeLast_cases t p with ⟨at_, hlocate, hvacant, hmade⟩ | ⟨-, hmade⟩ | ⟨-, e, hmade⟩
  · rw [hmade]
    refine ⟨directory_put, fun y ↦ ?_⟩
    by_cases hy : y = at_
    · have hne : at_ ≠ [] := by
        rintro rfl
        simp at hvacant
      rw [hy]
      exact .inr ⟨hvacant, find?_put_self hne,
        p.names, hnames, List.prefix_refl _, place_of_locate hlocate⟩
    · exact .inl (find?_put_of_ne hy)
  · rw [hmade]
    exact .refl p t
  · rw [hmade]
    exact .refl p t

theorem directoriesMade_makeNames :
    DirectoriesMade { anchor, names := names.reverse } t (t.makeNames anchor most names).1 := by
  induction most generalizing names with
  | zero => cases names <;> exact .refl _ t
  | succ most ih =>
    cases names with
    | nil => rw [makeNames_nil]; exact .refl _ t
    | cons name before =>
      rw [List.reverse_cons]
      by_cases hparent : (before.isEmpty ||
          t.exists? { anchor, names := before.reverse }) = true
      · rw [makeNames_cons_of_parent hparent]
        exact directoriesMade_makeLast (by simp)
      · rw [makeNames_cons (by simpa using hparent)]
        have hbefore : DirectoriesMade { anchor, names := before.reverse ++ [name] } t
            (t.makeNames anchor most before).1 := ih.longer
        rcases hmade : t.makeNames anchor most before with ⟨u, _ | e⟩
        · rw [hmade] at hbefore
          exact hbefore.trans (directoriesMade_makeLast (by simp))
        · rwa [hmade] at hbefore

theorem directoriesMade_makeDirectories : DirectoriesMade p t (t.makeDirectories p).1 := by
  have hmade : DirectoriesMade { p with names := p.names.reverse.reverse } t
      (t.makeDirectories p).1 := directoriesMade_makeNames
  rwa [List.reverse_reverse] at hmade

/-- When all directories of a path were made, there is one at every place that it passes. -/
theorem find?_of_passes (h : t.makeDirectories p = (t', none)) (hpasses : t.Passes p x) :
    t'.find? x = some .directory := by
  obtain ⟨front, hfront, ⟨rest, hrest⟩, hplace⟩ := hpasses
  have hnames : p.names.reverse ≠ [] := by
    simp [← hrest, hfront]
  have hthere := isDirectory_of_makeNames hnames h
  rw [List.reverse_reverse] at hthere
  obtain ⟨at_, hlocate, hfound⟩ := isDirectory_iff.mp hthere
  have hdirectory : t'.directory = t.directory := by
    have hmade := (directoriesMade_makeDirectories (t := t) (p := p)).directory
    rwa [h] at hmade
  obtain ⟨-, hwalk⟩ := locate_eq_ok.mp hlocate
  rw [← hrest] at hwalk
  obtain ⟨middle, hbegin, hend⟩ := walk_append_eq_ok.mp hwalk
  have hmiddle : middle = x := by
    rw [← hplace, walk_eq_ok_place hbegin, place, hdirectory]
  rw [← hmiddle]
  cases rest with
  | nil => rwa [Except.ok.inj hend]
  | cons name rest => exact (walk_cons_eq_ok.mp hend).1

theorem makeDirectories_again :
    ((t.makeDirectories p).1.makeDirectories p).1 = (t.makeDirectories p).1 :=
  makeNames_makeNames

/-- Where a directory is there is nothing to be made. -/
theorem makeDirectories_of_isDirectory (h : t.isDirectory p = true) :
    t.makeDirectories p = (t, none) := by
  obtain ⟨anchor, names⟩ := p
  rcases List.eq_nil_or_concat names with rfl | ⟨before, name, rfl⟩
  · exact makeNames_nil
  · rw [List.concat_eq_append] at h ⊢
    have hparent : (before.reverse.isEmpty ||
        t.exists? { anchor, names := before.reverse.reverse }) = true := by
      rw [List.reverse_reverse]
      by_cases hbefore : before = []
      · simp [hbefore]
      · obtain ⟨at_, hlocate, -⟩ := isDirectory_iff.mp h
        simp [exists?_of_isDirectory (isDirectory_parent hbefore hlocate)]
    have hreverse : (before ++ [name]).reverse = name :: before.reverse := by
      simp
    unfold makeDirectories missingLimit
    rw [hreverse, makeNames_cons_of_parent hparent, List.reverse_reverse,
      makeLast_of_isDirectory h]

/-- Where a path was made a directory there is nothing more to be made. -/
theorem makeDirectories_of_made (h : t.makeDirectories p = (t', none)) :
    t'.makeDirectories p = (t', none) := by
  obtain ⟨anchor, names⟩ := p
  by_cases hnames : names = []
  · rw [hnames]
    exact makeNames_nil
  · have hthere := isDirectory_of_makeNames (by simpa using hnames) h
    rw [List.reverse_reverse] at hthere
    exact makeDirectories_of_isDirectory hthere

/-! ## Locations where no directory is made -/

/-- If a path passes the location at all, the making of its directories stops before it. -/
def LeavesVacant (p : Path) (t : FileTree) (x : Location) : Prop :=
  t.Passes p x → (t.makeDirectories p).1.find? x = none

theorem LeavesVacant.find? (h : LeavesVacant p t x) :
    (t.makeDirectories p).1.find? x = t.find? x := by
  rcases (directoriesMade_makeDirectories (t := t) (p := p)).entry x with
    heq | ⟨hvacant, -, hpasses⟩
  · exact heq
  · rw [h hpasses, hvacant]

/-- What is vacant after the directories were made stays so when they are made once more. -/
theorem leavesVacant_makeDirectories (h : LeavesVacant p t x) :
    LeavesVacant p (t.makeDirectories p).1 x := by
  intro hpasses
  rw [makeDirectories_again]
  exact h (hpasses.of_directory directoriesMade_makeDirectories.directory.symm)

/-- Once all directories were made the path is known not to pass the location. -/
theorem LeavesVacant.of_made (h : LeavesVacant p t x)
    (hmade : (t.makeDirectories p).2 = none)
    (hdirectory : t'.directory = (t.makeDirectories p).1.directory) : LeavesVacant p t' x := by
  intro hpasses
  have hpasses' : t.Passes p x :=
    hpasses.of_directory (directoriesMade_makeDirectories.directory.symm.trans hdirectory.symm)
  have hdir := find?_of_passes (Prod.ext rfl hmade) hpasses'
  rw [h hpasses'] at hdir
  simp at hdir

end OfflineSupply.FileTree
