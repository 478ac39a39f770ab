import OfflineSupply.FileTree.Basic

/-!
# The place of a path

Walking a path looks at the directories on the way, but where a walk that succeeds ends depends on
the names alone.  That location is the place of the path, whether or not the walk succeeds.
Walking can only succeed more often when there are more directories, so a tree in which nothing but
files has come and gone locates the same paths.
-/

namespace OfflineSupply

/-- A name that stands for itself on a path and for nothing else. -/
structure Path.IsName (name : String) : Prop where
  no_slash : '/' ∉ name.toList
  not_empty : name ≠ ""
  not_dot : name ≠ "."
  not_up : name ≠ ".."

namespace Path

theorem pieces_eq_self {cs : List Char} (h : '/' ∉ cs) : Text.pieces '/' cs = [cs] := by
  induction cs with
  | nil => rfl
  | cons c cs ih =>
    rw [List.mem_cons, not_or] at h
    rw [Text.pieces, if_neg (Ne.symm h.1), ih h.2]

theorem ofText_of_isName {name : String} (h : IsName name) :
    ofText name = { anchor := .here, names := [name] } := by
  have hchars : name.toList ≠ [] ∧ name.toList ≠ ['.'] := by
    constructor
    · intro hnil
      exact h.not_empty (String.toList_inj.mp hnil)
    · intro hdot
      exact h.not_dot (String.toList_inj.mp hdot)
  have htake : name.toList.takeWhile (· = '/') = [] := by
    cases hcs : name.toList with
    | nil => rfl
    | cons c cs =>
      have hc : c ≠ '/' := by
        rintro rfl
        exact h.no_slash (hcs ▸ List.mem_cons_self)
      simp [hc]
  simp only [ofText, namesOf, pieces_eq_self h.no_slash, htake]
  simp [hchars]

theorem child_of_isName {p : Path} {name : String} (h : IsName name) :
    p.child name = { p with names := p.names ++ [name] } := by
  unfold child
  rw [ofText_of_isName h]
  rfl

theorem addToName_child {p : Path} {name ending : String} (h : IsName name) :
    (p.child name).addToName ending = { p with names := p.names ++ [name ++ ending] } := by
  rw [child_of_isName h]
  simp [addToName, Path.name]

end Path

namespace FileTree

variable {t t' : FileTree} {at_ x : Location} {p : Path} {names : List String}

/-- The location that one name leads to. -/
def stepTo (at_ : Location) (name : String) : Location :=
  if name = ".." then at_.dropLast else at_ ++ [name]

/-- The location that a path leads to when every location passed is a directory. -/
def place (t : FileTree) (p : Path) : Location :=
  p.names.foldl stepTo (if p.anchor = .here then t.directory else [])

theorem place_congr (h : t'.directory = t.directory) (p : Path) : t'.place p = t.place p := by
  unfold place
  rw [h]

theorem place_snoc {name : String} :
    t.place { p with names := p.names ++ [name] } = stepTo (t.place p) name := by
  simp [place]

theorem place_child {name : String} (h : Path.IsName name) :
    t.place (p.child name) = t.place p ++ [name] := by
  rw [Path.child_of_isName h, place_snoc, stepTo, if_neg h.not_up]

/-! ## Walking -/

theorem walk_cons_eq_ok {name : String} :
    t.walk at_ (name :: names) = .ok x ↔
      t.find? at_ = some .directory ∧ (name = ".." ∨ name.utf8ByteSize ≤ nameLimit) ∧
        t.walk (stepTo at_ name) names = .ok x := by
  rw [walk, stepTo]
  cases hfound : t.find? at_ with
  | none => simp
  | some entry =>
    cases entry with
    | directory =>
      by_cases hup : name = ".."
      · simp [hup]
      · by_cases hsize : nameLimit < name.utf8ByteSize
        · simp [hup, hsize, Nat.not_le.mpr hsize]
        · simp [hup, hsize, Nat.le_of_not_lt hsize]
    | file content => simp
    | outputDevice => simp
    | nullDevice => simp

theorem walk_eq_ok_place (h : t.walk at_ names = .ok x) : x = names.foldl stepTo at_ := by
  induction names generalizing at_ with
  | nil => exact (Except.ok.inj h).symm
  | cons name names ih => exact ih (walk_cons_eq_ok.mp h).2.2

theorem walk_append_eq_ok {more : List String} :
    t.walk at_ (names ++ more) = .ok x ↔
      ∃ middle, t.walk at_ names = .ok middle ∧ t.walk middle more = .ok x := by
  induction names generalizing at_ with
  | nil => simp [walk]
  | cons name names ih =>
    simp only [List.cons_append, walk_cons_eq_ok, ih]
    grind

/-- Walking succeeds again wherever there are at least the same directories. -/
theorem walk_mono (hdirs : ∀ y, t.find? y = some .directory → t'.find? y = some .directory)
    (h : t.walk at_ names = .ok x) : t'.walk at_ names = .ok x := by
  induction names generalizing at_ with
  | nil => exact h
  | cons name names ih =>
    obtain ⟨hfound, hname, hrest⟩ := walk_cons_eq_ok.mp h
    exact walk_cons_eq_ok.mpr ⟨hdirs _ hfound, hname, ih hrest⟩

/-- A walk looks only at the locations that it passes. -/
theorem walk_congr (h : ∀ front, front <+: names → front ≠ names →
      t'.find? (front.foldl stepTo at_) = t.find? (front.foldl stepTo at_)) :
    t'.walk at_ names = t.walk at_ names := by
  induction names generalizing at_ with
  | nil => rfl
  | cons name names ih =>
    have hstart : t'.find? at_ = t.find? at_ := h [] (List.nil_prefix) (by simp)
    have hrest : t'.walk (stepTo at_ name) names = t.walk (stepTo at_ name) names := by
      refine ih fun front hfront hne ↦ ?_
      exact h (name :: front) ((List.cons_prefix_cons).mpr ⟨rfl, hfront⟩) (by simpa using hne)
    rw [walk, walk, hstart]
    unfold stepTo at hrest
    split
    · rfl
    · split
      · rename_i hup
        rwa [if_pos hup] at hrest
      · rename_i hup
        rw [if_neg hup] at hrest
        rw [hrest]
    · rfl

theorem walk_ne_nulInName : t.walk at_ names ≠ .error .nulInName := by
  induction names generalizing at_ with
  | nil => simp [walk]
  | cons name names ih =>
    rw [walk]
    split
    · simp
    · split
      · exact ih
      · split
        · simp
        · exact ih
    · simp

/-! ## Locating -/

/-- What is asked of a path before any of its names is walked. -/
def Admissible (p : Path) : Prop :=
  p.names.any (·.toList.contains '\x00') = false ∧ p.text.utf8ByteSize ≤ pathLimit

theorem locate_eq_ok :
    t.locate p = .ok x ↔
      Admissible p ∧ t.walk (if p.anchor = .here then t.directory else []) p.names = .ok x := by
  unfold locate Admissible
  by_cases hnul : p.names.any (·.toList.contains '\x00') = true
  · rw [if_pos hnul, hnul]
    simp
  · rw [if_neg hnul, Bool.eq_false_iff.mpr hnul]
    by_cases hsize : pathLimit < p.text.utf8ByteSize
    · simp [hsize, Nat.not_le.mpr hsize]
    · simp [hsize, Nat.le_of_not_lt hsize]

/-- A path is refused for a NUL character exactly if one of its names holds one. -/
theorem locate_eq_nulInName_iff :
    t.locate p = .error .nulInName ↔ ∃ name ∈ p.names, '\x00' ∈ name.toList := by
  unfold locate
  by_cases hnul : p.names.any (·.toList.contains '\x00') = true
  · rw [if_pos hnul]
    exact iff_of_true rfl (by simpa using hnul)
  · rw [if_neg hnul]
    refine iff_of_false ?_ (by simpa using hnul)
    split
    · simp
    · exact walk_ne_nulInName

theorem place_of_locate (h : t.locate p = .ok x) : t.place p = x :=
  (walk_eq_ok_place (locate_eq_ok.mp h).2).symm

theorem locate_mono (hdirectory : t'.directory = t.directory)
    (hdirs : ∀ y, t.find? y = some .directory → t'.find? y = some .directory)
    (h : t.locate p = .ok x) : t'.locate p = .ok x := by
  obtain ⟨hadmissible, hwalk⟩ := locate_eq_ok.mp h
  rw [← hdirectory] at hwalk
  exact locate_eq_ok.mpr ⟨hadmissible, walk_mono hdirs hwalk⟩

/-! ## Looking -/

theorem lookup_eq_ok {entry : FileEntry} :
    t.lookup p = .ok entry ↔ ∃ at_, t.locate p = .ok at_ ∧ t.find? at_ = some entry := by
  unfold lookup
  rcases t.locate p with problem | at_
  · simp
  · cases hfound : t.find? at_ <;> simp [hfound]

theorem exists?_iff :
    t.exists? p = true ↔ ∃ at_ entry, t.locate p = .ok at_ ∧ t.find? at_ = some entry := by
  have hlookup : t.exists? p = true ↔ ∃ entry, t.lookup p = .ok entry := by
    unfold exists?
    cases t.lookup p <;> simp
  rw [hlookup, exists_comm]
  simp only [lookup_eq_ok]

theorem exists?_eq_false {at_ : List String} (hlocate : t.locate p = .ok at_)
    (hmissing : t.find? at_ = none) : t.exists? p = false := by
  rw [← Bool.not_eq_true, exists?_iff]
  rintro ⟨x, entry, hx, hentry⟩
  obtain rfl : at_ = x := Except.ok.inj (hlocate.symm.trans hx)
  simp [hmissing] at hentry

theorem isDirectory_iff :
    t.isDirectory p = true ↔ ∃ at_, t.locate p = .ok at_ ∧ t.find? at_ = some .directory := by
  rw [← lookup_eq_ok]
  unfold isDirectory
  split <;> simp_all

theorem exists?_of_isDirectory (h : t.isDirectory p = true) : t.exists? p = true := by
  obtain ⟨at_, hlocate, hfound⟩ := isDirectory_iff.mp h
  exact exists?_iff.mpr ⟨at_, .directory, hlocate, hfound⟩

/-- Where something is found, it is at the place of the path. -/
theorem find?_place_of_exists (h : t.exists? p = true) : ∃ entry, t.find? (t.place p) = some entry := by
  obtain ⟨at_, entry, hlocate, hfound⟩ := exists?_iff.mp h
  exact ⟨entry, place_of_locate hlocate ▸ hfound⟩

/-- Where nothing is found although the path is located, nothing is. -/
theorem find?_eq_none_of_not_exists (h : ¬ t.exists? p = true) (hlocate : t.locate p = .ok x) :
    t.find? x = none := by
  cases hfound : t.find? x with
  | none => rfl
  | some entry => exact absurd (exists?_iff.mpr ⟨x, entry, hlocate, hfound⟩) h

end FileTree

end OfflineSupply
