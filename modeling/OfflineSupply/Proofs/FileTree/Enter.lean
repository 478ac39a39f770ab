import OfflineSupply.Proofs.FileTree.Directories

/-!
# The files of a directory

Whether a file of a directory is found depends on what the names of the path lead to and on what
is at one location.  So writing a file that was missing, or renaming one, changes the answer for
the names that it is about and for no other name.
-/

namespace OfflineSupply.FileTree

variable {t t' : FileTree} {at_ x file : Location} {p : Path} {names : List String}
  {name name' source target : String}

/-- The names of a path lead into a directory. -/
structure Enters (t : FileTree) (p : Path) : Prop where
  walk : t.walk (if p.anchor = .here then t.directory else []) p.names = .ok (t.place p)
  directory : t.find? (t.place p) = some .directory

/-- What a name must be to be located in a directory that can be entered. -/
structure Fits (p : Path) (name : String) : Prop where
  admissible : Admissible (p.child name)
  size : name.utf8ByteSize ≤ nameLimit

theorem locate_child_iff (hname : Path.IsName name) :
    t.locate (p.child name) = .ok x ↔ t.Enters p ∧ Fits p name ∧ x = t.place p ++ [name] := by
  have hchild : p.child name = { p with names := p.names ++ [name] } := Path.child_of_isName hname
  rw [locate_eq_ok, hchild, walk_append_eq_ok]
  simp only [walk_cons_eq_ok, hname.not_up, false_or, stepTo, if_false]
  constructor
  · rintro ⟨hadmissible, middle, hwalk, hdirectory, hsize, hlast⟩
    obtain rfl : middle = t.place p := walk_eq_ok_place hwalk
    exact ⟨⟨hwalk, hdirectory⟩, ⟨hchild ▸ hadmissible, hsize⟩, (Except.ok.inj hlast).symm⟩
  · rintro ⟨henters, hfits, hx⟩
    exact ⟨hchild ▸ hfits.admissible, t.place p, henters.walk, henters.directory, hfits.size,
      congrArg Except.ok hx.symm⟩

/-- Whether something is in a directory under a name. -/
def holds (t : FileTree) (p : Path) (name : String) : Bool :=
  t.exists? (p.child name)

theorem holds_iff_located (hname : Path.IsName name) :
    t.holds p name = true ↔
      t.locate (p.child name) = .ok (t.place p ++ [name]) ∧
        t.find? (t.place p ++ [name]) ≠ none := by
  unfold holds
  rw [exists?_iff, Option.ne_none_iff_exists']
  constructor
  · intro ⟨x, entry, hlocate, hfound⟩
    obtain rfl := ((locate_child_iff hname).mp hlocate).2.2
    exact ⟨hlocate, entry, hfound⟩
  · intro ⟨hlocate, entry, hfound⟩
    exact ⟨_, entry, hlocate, hfound⟩

theorem holds_iff (hname : Path.IsName name) :
    t.holds p name = true ↔
      t.Enters p ∧ Fits p name ∧ t.find? (t.place p ++ [name]) ≠ none := by
  rw [holds_iff_located hname, locate_child_iff hname]
  simp only [and_true, and_assoc]

theorem holds_of_none (hname : Path.IsName name)
    (h : t.find? (t.place p ++ [name]) = none) : t.holds p name = false := by
  rw [Bool.eq_false_iff]
  intro hthere
  exact ((holds_iff hname).mp hthere).2.2 h

/-- Where something is in a directory, the directory need not be made. -/
theorem makeDirectories_of_holds (hname : Path.IsName name) (h : t.holds p name = true) :
    t.makeDirectories p = (t, none) := by
  obtain ⟨anchor, names⟩ := p
  by_cases hnames : names = []
  · rw [hnames]
    exact makeNames_nil
  · obtain ⟨hlocate, -⟩ := (holds_iff_located hname).mp h
    rw [Path.child_of_isName hname] at hlocate
    exact makeDirectories_of_isDirectory (isDirectory_parent hnames hlocate)

/-- Two trees in which the directory can be entered answer alike if they hold the same. -/
theorem holds_congr (hname : Path.IsName name) (hdirectory : t'.directory = t.directory)
    (henters : t.Enters p) (henters' : t'.Enters p)
    (hfind : t'.find? (t.place p ++ [name]) = t.find? (t.place p ++ [name])) :
    t'.holds p name = t.holds p name := by
  rw [Bool.eq_iff_iff, holds_iff hname, holds_iff hname, place_congr hdirectory, hfind]
  simp [henters, henters']

/-! ## Changes in a directory -/

theorem Spares.holds (h : Spares p t t') (hname : Path.IsName name) :
    t'.holds p name = t.holds p name := by
  rw [Bool.eq_iff_iff, holds_iff_located hname, holds_iff_located hname, h.locate_child hname,
    place_congr h.directory, h.find?_child]

/-- A file that is there once it was written is there besides what was there before. -/
theorem WrittenAt.holds (h : WrittenAt (p.child name') t t') (hname' : Path.IsName name')
    (hthere : t'.holds p name' = true) (hname : Path.IsName name) :
    t'.holds p name = (t.holds p name || name == name') := by
  by_cases heq : name = name'
  · simp [heq, hthere]
  · obtain ⟨hlocate', -⟩ := (holds_iff_located hname').mp hthere
    obtain ⟨henters', -⟩ := (locate_child_iff hname').mp hlocate'
    obtain ⟨henters, -⟩ := (locate_child_iff hname').mp (h.locate_of_locate hlocate')
    have hfind : t'.find? (t.place p ++ [name]) = t.find? (t.place p ++ [name]) := by
      apply h.find?_of_ne
      rw [place_child hname']
      simpa using heq
    rw [holds_congr hname h.directory henters henters' hfind]
    simp [heq]

/-- What was missing and is written is there. -/
theorem WrittenAt.exists?_of_file {q : Path} (h : WrittenAt q t t') (hmissing : t.exists? q = false)
    (hlocate : t.locate q = .ok x) {entry : FileEntry} (hfound : t'.find? x = some entry) :
    t'.exists? q = true :=
  exists?_iff.mpr ⟨x, entry, h.locate_of_missing hmissing hlocate, hfound⟩

/-! ## Moving a file -/

/-- Going up from below a location passes the location itself. -/
theorem prefix_stepTo (h : file <+: x) (hne : x ≠ file) (name : String) :
    file <+: stepTo x name := by
  unfold stepTo
  split
  · rcases List.eq_nil_or_concat x with rfl | ⟨before, last, rfl⟩
    · exact h
    · rw [List.concat_eq_append] at h hne ⊢
      rw [List.dropLast_concat]
      exact (List.prefix_concat_iff.mp h).resolve_left hne.symm
  · exact h.trans (List.prefix_append _ _)

/-- A walk that ends outside of what is no directory passes nothing below it. -/
theorem walk_avoids (h : t.walk at_ names = .ok x) (hfile : t.find? file ≠ some .directory)
    (hx : ¬ file <+: x) {front : List String} (hfront : front <+: names) :
    ¬ file <+: front.foldl stepTo at_ := by
  induction names generalizing at_ front with
  | nil =>
    rw [List.prefix_nil.mp hfront]
    rwa [Except.ok.inj h]
  | cons name names ih =>
    obtain ⟨hdirectory, -, hrest⟩ := walk_cons_eq_ok.mp h
    cases front with
    | nil =>
      intro hbelow
      have hne : at_ ≠ file := by
        rintro rfl
        exact hfile hdirectory
      exact ih hrest List.nil_prefix (prefix_stepTo hbelow hne name)
    | cons name' front =>
      obtain ⟨rfl, hfront'⟩ := List.cons_prefix_cons.mp hfront
      exact ih hrest hfront'

theorem child_not_above (at_ : Location) (name : String) : ¬ at_ ++ [name] <+: at_ := by
  intro h
  have hlength := h.length_le
  rw [List.length_append, List.length_singleton] at hlength
  omega

/-- Moving a file within a directory leaves the way into the directory alone. -/
theorem Enters.move (h : t.Enters p)
    (hsource : t.find? (t.place p ++ [source]) ≠ some .directory)
    (htarget : t.find? (t.place p ++ [target]) ≠ some .directory) :
    (t.move (t.place p ++ [source]) (t.place p ++ [target])).Enters p := by
  have hkept {front : List String} (hfront : front <+: p.names) :
      (t.move (t.place p ++ [source]) (t.place p ++ [target])).find?
          (front.foldl stepTo (if p.anchor = .here then t.directory else [])) =
        t.find? (front.foldl stepTo (if p.anchor = .here then t.directory else [])) :=
    find?_move_apart (walk_avoids h.walk hsource (child_not_above _ _) hfront)
      (walk_avoids h.walk htarget (child_not_above _ _) hfront)
  constructor
  · exact (walk_congr fun front hfront _ ↦ hkept hfront).trans h.walk
  · exact (hkept (List.prefix_refl p.names)).trans h.directory

/-- A file that is renamed within its directory is there by its new name, and not by its old
one. -/
theorem holds_rename (h : t.rename (p.child source) (p.child target) = .ok t')
    (hsource : Path.IsName source) (htarget : Path.IsName target) (hne : source ≠ target)
    {content : ByteArray} (hfile : t.find? (t.place p ++ [source]) = some (.file content))
    (hname : Path.IsName name) :
    t'.holds p name =
      (name != source && (t.holds p name || name == target)) := by
  obtain ⟨from_, to_, entry, hfrom, hto, hfound, hmoved⟩ := rename_eq_ok h
  obtain ⟨henters, hfits, rfl⟩ := (locate_child_iff hsource).mp hfrom
  obtain ⟨-, hfits', rfl⟩ := (locate_child_iff htarget).mp hto
  have hplain : t.find? (t.place p ++ [target]) ≠ some .directory :=
    rename_ne_directory h hfrom hto hfile
  obtain rfl : t' = t.move (t.place p ++ [source]) (t.place p ++ [target]) := by
    rcases hmoved with ⟨-, hsame⟩ | hmoved
    · exact absurd (by simpa using hsame) hne
    · exact hmoved
  have henters' : (t.move (t.place p ++ [source]) (t.place p ++ [target])).Enters p :=
    henters.move (by simp [hfile]) hplain
  have hapart : ¬ t.place p ++ [target] <+: t.place p ++ [source] := by
    rw [sibling_prefix_iff]
    exact hne.symm
  by_cases heq : name = source
  · rw [heq, holds_of_none hsource (find?_move_source (by simp) hapart)]
    simp
  by_cases heq' : name = target
  · have hthere : (t.move (t.place p ++ [source]) (t.place p ++ [target])).find?
        (t.place p ++ [target]) ≠ none := by
      rw [find?_move_target (by simp) hapart (by simp), hfile]
      simp
    rw [heq', (holds_iff htarget).mpr ⟨henters', hfits', hthere⟩]
    simp [hne.symm]
  · have hother : (t.move (t.place p ++ [source]) (t.place p ++ [target])).find?
        (t.place p ++ [name]) = t.find? (t.place p ++ [name]) := by
      apply find?_move_apart
      · rw [sibling_prefix_iff]
        exact Ne.symm heq
      · rw [sibling_prefix_iff]
        exact Ne.symm heq'
    rw [holds_congr hname directory_move henters henters' hother, bne_iff_ne.mpr heq,
      beq_eq_false_iff_ne.mpr heq', Bool.true_and, Bool.or_false]

end OfflineSupply.FileTree
