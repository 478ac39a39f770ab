import Mathlib.Data.Option.Basic
import OfflineSupply.Proofs.Reference.Parts
import OfflineSupply.Reference.Image

/-!
# The grammar of images

An image is cut at the first at-sign, behind a registry at the first slash, and at the first colon
of the last name.  The references that come out of these cuts are described without them, as
references in normal form: what stands in one part cannot be taken for a mark of another one.  A
text is read as an image exactly if it is written by a reference in normal form, which is then the
one that is read.

Pointing an image at another authority keeps the other parts in normal form, so whether the result
is read as it was meant is a question about the authority alone: it has to be recognised as a
registry where it stands first.
-/

namespace OfflineSupply.Reference

variable {value registry : String} {ref : Reference} {cs tail whole name path : List Char}
  {authority version digest : Option (List Char)}

/-! ## Registries in front of an image -/

/-- A text that is taken for a registry when it stands first in an image. -/
def NamesRegistry (text : String) : Prop :=
  '.' ∈ text.toList ∨ ':' ∈ text.toList ∨ text = localHost

theorem isAuthority_iff {text : String} : isAuthority text.toList = true ↔ NamesRegistry text := by
  simp [isAuthority, NamesRegistry, or_assoc, String.toList_inj]

theorem NamesRegistry.ne_empty {text : String} (h : NamesRegistry text) : text ≠ "" := by
  rintro rfl
  exact absurd h (by simp [NamesRegistry, localHost])

/-- What stands in front of the first slash is taken for a registry. -/
def StartsAtRegistry (text : String) : Prop :=
  ∃ first rest, text = first ++ "/" ++ rest ∧ '/' ∉ first.toList ∧ NamesRegistry first

theorem startsAtRegistry_ofList : StartsAtRegistry (String.ofList cs) ↔
    ∃ first rest, cs = first ++ '/' :: rest ∧ '/' ∉ first ∧ isAuthority first = true := by
  constructor
  · intro ⟨first, rest, htext, hslash, hfirst⟩
    refine ⟨first.toList, rest.toList, ?_, hslash, isAuthority_iff.mpr hfirst⟩
    rw [← String.toList_inj] at htext
    simpa using htext
  · intro ⟨first, rest, htext, hslash, hfirst⟩
    refine ⟨String.ofList first, String.ofList rest, ?_, by simpa using hslash, ?_⟩
    · rw [← String.toList_inj, htext]
      simp
    · rwa [← isAuthority_iff, String.toList_ofList]

/-- What is added without a slash does not move the first one. -/
theorem startsAtRegistry_append_iff (h : '/' ∉ tail) :
    StartsAtRegistry (String.ofList (cs ++ tail)) ↔ StartsAtRegistry (String.ofList cs) := by
  rw [startsAtRegistry_ofList, startsAtRegistry_ofList]
  constructor
  · intro ⟨first, rest, htext, hslash, hfirst⟩
    cases List.append_eq_append_iff.mp htext with
    | inl hlonger =>
      obtain ⟨middle, -, htail⟩ := hlonger
      rw [htail] at h
      simp at h
    | inr hshorter =>
      obtain ⟨middle, hcs, hrest⟩ := hshorter
      cases middle with
      | nil =>
        rw [List.nil_append] at hrest
        rw [← hrest] at h
        simp at h
      | cons c middle =>
        obtain ⟨rfl, -⟩ := List.cons.inj hrest
        exact ⟨first, middle, hcs, hslash, hfirst⟩
  · intro ⟨first, rest, htext, hslash, hfirst⟩
    exact ⟨first, rest ++ tail, by simp [htext], hslash, hfirst⟩

theorem splitAuthority_append_slash {first : List Char} (hslash : '/' ∉ first)
    (hfirst : isAuthority first = true) (rest : List Char) :
    splitAuthority (first ++ '/' :: rest) = (some first, rest) := by
  unfold splitAuthority
  rw [Text.cutFirst_append hslash]
  exact if_pos hfirst

theorem splitAuthority_eq_self (h : ¬ StartsAtRegistry (String.ofList cs)) :
    splitAuthority cs = (none, cs) := by
  unfold splitAuthority
  split
  · rename_i first rest hcut
    obtain ⟨hcs, hslash⟩ := Text.cutFirst_eq_iff.mp hcut
    exact if_neg fun hfirst ↦ h (startsAtRegistry_ofList.mpr ⟨first, rest, hcs, hslash, hfirst⟩)
  · rfl

/-- An image is split behind its registry, if it starts with one, and otherwise not at all. -/
theorem splitAuthority_eq_iff :
    splitAuthority cs = (authority, name) ↔
      cs = rejoin authority name ∧ (∀ a ∈ authority, isAuthority a = true ∧ '/' ∉ a) ∧
        (authority = none → ¬ StartsAtRegistry (String.ofList name)) := by
  constructor
  · intro hsplit
    by_cases hstart : StartsAtRegistry (String.ofList cs)
    · obtain ⟨first, rest, rfl, hslash, hfirst⟩ := startsAtRegistry_ofList.mp hstart
      rw [splitAuthority_append_slash hslash hfirst, Prod.mk.injEq] at hsplit
      obtain ⟨rfl, rfl⟩ := hsplit
      exact ⟨rfl, by simpa using ⟨hfirst, hslash⟩, by simp⟩
    · rw [splitAuthority_eq_self hstart, Prod.mk.injEq] at hsplit
      obtain ⟨rfl, rfl⟩ := hsplit
      exact ⟨rfl, by simp, fun _ ↦ hstart⟩
  · rintro ⟨rfl, hauthority, hstart⟩
    cases authority with
    | none => exact splitAuthority_eq_self (hstart rfl)
    | some first =>
      obtain ⟨hfirst, hslash⟩ := hauthority first rfl
      exact splitAuthority_append_slash hslash hfirst name

/-! ## Images in normal form -/

/-- A registry as an image can name it. -/
structure ImageRegistry (text : String) : Prop where
  recognised : NamesRegistry text
  slash : '/' ∉ text.toList
  atSign : '@' ∉ text.toList

/-- The parts of an image, none of them empty and each without the marks that it would be cut at. -/
structure NormalImage (ref : Reference) : Prop where
  scheme : ref.scheme = none
  authority : ∀ authority ∈ ref.authority, ImageRegistry authority
  path_ne : ref.path ≠ ""
  path_atSign : '@' ∉ ref.path.toList
  /-- A colon in the last name would be the start of a tag. -/
  name_colon : ':' ∉ ref.name.toList
  /-- A registry in front of the path would be the authority. -/
  path_start : ref.authority = none → ¬ StartsAtRegistry ref.path
  version : ∀ version ∈ ref.version, version ≠ "" ∧ '/' ∉ version.toList ∧ '@' ∉ version.toList
  digest : ∀ digest ∈ ref.digest, digest ≠ ""

/-- The reference whose parts were cut out of an image. -/
def ofParts (authority : Option (List Char)) (path : List Char)
    (version digest : Option (List Char)) : Reference :=
  { authority := authority.map String.ofList
    path := String.ofList path
    version := version.map String.ofList
    digest := digest.map String.ofList }

theorem ofParts_toList (h : ref.scheme = none) :
    ofParts (ref.authority.map String.toList) ref.path.toList (ref.version.map String.toList)
      (ref.digest.map String.toList) = ref := by
  have hmap (part : Option String) : (part.map String.toList).map String.ofList = part := by
    simp [Function.comp_def]
  rw [ofParts, hmap, hmap, hmap, String.ofList_toList, ← h]

/-- An image is read when its path is not empty, nor its tag or digest if it has one. -/
theorem ofImage_eq_ok_iff_of_cuts (hat : Text.cutFirst '@' value.toList = (whole, digest))
    (hslash : splitAuthority whole = (authority, name))
    (hcolon : splitVersion name = (path, version)) :
    ofImage value = .ok ref ↔ digest ≠ some [] ∧ path ≠ [] ∧ version ≠ some [] ∧
      ofParts authority path version digest = ref := by
  unfold ofImage
  simp only [hat, hslash, hcolon]
  by_cases hvalue : value = ""
  · subst hvalue
    simp only [String.toList_empty] at hat
    obtain ⟨rfl, rfl⟩ := Prod.mk.inj hat
    obtain ⟨rfl, rfl⟩ := Prod.mk.inj hslash
    obtain ⟨rfl, rfl⟩ := Prod.mk.inj hcolon
    simp
  · rw [if_neg hvalue]
    by_cases hdigest : digest = some []
    · simp [hdigest]
    · rw [if_neg hdigest]
      have hempty : (path.isEmpty || decide (version = some [])) = true ↔
          path = [] ∨ version = some [] := by simp
      by_cases hparts : path = [] ∨ version = some []
      · rw [if_pos (hempty.mpr hparts)]
        refine iff_of_false (by simp) ?_
        intro ⟨_, hpath, hversion, _⟩
        exact hparts.elim hpath hversion
      · rw [if_neg (mt hempty.mp hparts), Except.ok.injEq]
        rw [not_or] at hparts
        rw [and_iff_right hdigest, and_iff_right hparts.1, and_iff_right hparts.2, ofParts]

/-- What is read is in normal form. -/
theorem normalImage_of_ofImage (h : ofImage value = .ok ref) : NormalImage ref := by
  rcases hat : Text.cutFirst '@' value.toList with ⟨whole, digest⟩
  rcases hslash : splitAuthority whole with ⟨authority, name⟩
  rcases hcolon : splitVersion name with ⟨path, version⟩
  obtain ⟨hdigest, hpath, hversion, rfl⟩ := (ofImage_eq_ok_iff_of_cuts hat hslash hcolon).mp h
  obtain ⟨-, hwhole⟩ := Text.cutFirst_eq_iff.mp hat
  obtain ⟨rfl, hauthority, hstart⟩ := splitAuthority_eq_iff.mp hslash
  obtain ⟨rfl, hlast, htag⟩ := splitVersion_eq_iff.mp hcolon
  -- Authority, path and version stand in front of the first at-sign.
  rw [mem_rejoin_iff (by decide), List.mem_append, not_or, not_or] at hwhole
  obtain ⟨hauthorityAt, hpathAt, hversionAt⟩ := hwhole
  have htail : '/' ∉ Text.behind ':' version := by
    rw [Text.mem_behind_iff (by decide)]
    exact fun ⟨v, hv, hmem⟩ ↦ htag v hv hmem
  exact
    { scheme := rfl
      authority := by
        intro text htext
        obtain ⟨a, ha, rfl⟩ := Option.mem_map.mp htext
        obtain ⟨hnames, hslash⟩ := hauthority a ha
        refine ⟨?_, by simpa using hslash, ?_⟩
        · rwa [← isAuthority_iff, String.toList_ofList]
        · rw [String.toList_ofList]
          exact fun hmem ↦ hauthorityAt ⟨a, ha, hmem⟩
      path_ne := ofList_ne_empty hpath
      path_atSign := by rwa [ofParts, String.toList_ofList]
      name_colon := by
        rw [Reference.name, ofParts, String.toList_ofList, String.toList_ofList]
        exact hlast
      path_start := by
        intro hnone
        have hstarts := hstart (Option.map_eq_none_iff.mp hnone)
        rwa [startsAtRegistry_append_iff htail] at hstarts
      version := by
        intro text htext
        obtain ⟨v, hv, rfl⟩ := Option.mem_map.mp htext
        rw [String.toList_ofList]
        refine ⟨ofList_ne_empty fun hempty ↦ hversion (hempty ▸ hv), htag v hv, fun hmem ↦ ?_⟩
        exact hversionAt ((Text.mem_behind_iff (by decide)).mpr ⟨v, hv, hmem⟩)
      digest := by
        intro text htext
        obtain ⟨d, hd, rfl⟩ := Option.mem_map.mp htext
        exact ofList_ne_empty fun hempty ↦ hdigest (hempty ▸ hd) }

namespace NormalImage

/-- An image in normal form is written as its parts, each behind or in front of its mark. -/
theorem toList_text (h : NormalImage ref) :
    ref.text.toList = rejoin (ref.authority.map String.toList)
      (ref.path.toList ++ Text.behind ':' (ref.version.map String.toList)) ++
        Text.behind '@' (ref.digest.map String.toList) := by
  have hversion : (marked ":" ref.version).toList =
      Text.behind ':' (ref.version.map String.toList) :=
    toList_marked rfl fun v hv ↦ (h.version v hv).1
  have hdigest : (marked "@" ref.digest).toList = Text.behind '@' (ref.digest.map String.toList) :=
    toList_marked rfl h.digest
  have hplace : ref.place.toList = rejoin (ref.authority.map String.toList) ref.path.toList := by
    unfold place
    rw [h.scheme]
    cases hauthority : ref.authority with
    | none => rfl
    | some a =>
      have ha : a ≠ "" := (h.authority a hauthority).recognised.ne_empty
      simp [ha, rejoin]
  calc
    ref.text.toList = ref.place.toList ++ (marked ":" ref.version).toList ++
        (marked "@" ref.digest).toList := by rw [text, String.toList_append, String.toList_append]
    _ = rejoin (ref.authority.map String.toList) ref.path.toList ++
        Text.behind ':' (ref.version.map String.toList) ++
          Text.behind '@' (ref.digest.map String.toList) := by rw [hplace, hversion, hdigest]
    _ = _ := by rw [rejoin_append]

/-- An image in normal form is read from its text. -/
theorem ofImage_text (h : NormalImage ref) : ofImage ref.text = .ok ref := by
  have hversion : ∀ v ∈ ref.version.map String.toList, v ≠ [] ∧ '/' ∉ v ∧ '@' ∉ v := by
    simpa using h.version
  have hdigest : ∀ d ∈ ref.digest.map String.toList, d ≠ [] := by
    simpa using h.digest
  have hat : '@' ∉ rejoin (ref.authority.map String.toList)
      (ref.path.toList ++ Text.behind ':' (ref.version.map String.toList)) := by
    rw [mem_rejoin_iff (by decide), List.mem_append, Text.mem_behind_iff (by decide), not_or,
      not_or]
    refine ⟨?_, h.path_atSign, fun ⟨v, hv, hmem⟩ ↦ (hversion v hv).2.2 hmem⟩
    simpa using fun a ha ↦ (h.authority a ha).atSign
  have hauthority : ∀ a ∈ ref.authority.map String.toList, isAuthority a = true ∧ '/' ∉ a := by
    rw [Option.forall_mem_map]
    exact fun a ha ↦ ⟨isAuthority_iff.mpr (h.authority a ha).recognised, (h.authority a ha).slash⟩
  have htail : '/' ∉ Text.behind ':' (ref.version.map String.toList) := by
    rw [Text.mem_behind_iff (by decide)]
    exact fun ⟨v, hv, hmem⟩ ↦ (hversion v hv).2.1 hmem
  have hstart : ref.authority.map String.toList = none → ¬ StartsAtRegistry
      (String.ofList (ref.path.toList ++ Text.behind ':' (ref.version.map String.toList))) := by
    intro hnone
    rw [startsAtRegistry_append_iff htail, String.ofList_toList]
    exact h.path_start (Option.map_eq_none_iff.mp hnone)
  have hlast : ':' ∉ Text.afterLast '/' ref.path.toList := by
    simpa [Reference.name] using h.name_colon
  have hwhole := Text.cutFirst_eq_iff.mpr ⟨h.toList_text, hat⟩
  have hslash := splitAuthority_eq_iff.mpr ⟨rfl, hauthority, hstart⟩
  have hcolon := splitVersion_eq_iff.mpr ⟨rfl, hlast, fun v hv ↦ (hversion v hv).2.1⟩
  refine (ofImage_eq_ok_iff_of_cuts hwhole hslash hcolon).mpr ⟨?_, ?_, ?_, ofParts_toList h.scheme⟩
  · exact fun hempty ↦ hdigest [] hempty rfl
  · simpa using h.path_ne
  · exact fun hempty ↦ (hversion [] hempty).1 rfl

/-- At a registry that an image can name, it stays in normal form. -/
theorem retarget (h : NormalImage ref) (hregistry : ImageRegistry registry) :
    NormalImage (ref.retarget registry) :=
  { h with
    authority := by
      intro authority hauthority
      rwa [← Option.some.inj hauthority]
    path_start := by simp [Reference.retarget] }

end NormalImage

/-- What is read as an image is written as the text that it was read from. -/
theorem text_of_ofImage (h : ofImage value = .ok ref) : ref.text = value := by
  have hnormal := normalImage_of_ofImage h
  rcases hat : Text.cutFirst '@' value.toList with ⟨whole, digest⟩
  rcases hslash : splitAuthority whole with ⟨authority, name⟩
  rcases hcolon : splitVersion name with ⟨path, version⟩
  obtain ⟨-, -, -, rfl⟩ := (ofImage_eq_ok_iff_of_cuts hat hslash hcolon).mp h
  have hmap (part : Option (List Char)) : (part.map String.ofList).map String.toList = part := by
    simp [Function.comp_def]
  rw [← String.toList_inj]
  calc
    (ofParts authority path version digest).text.toList =
        rejoin authority (path ++ Text.behind ':' version) ++ Text.behind '@' digest := by
      rw [hnormal.toList_text, ofParts, hmap, hmap, hmap, String.toList_ofList]
    _ = rejoin authority name ++ Text.behind '@' digest := by
      rw [← (splitVersion_eq_iff.mp hcolon).1]
    _ = whole ++ Text.behind '@' digest := by rw [← (splitAuthority_eq_iff.mp hslash).1]
    _ = value.toList := (Text.cutFirst_eq_iff.mp hat).1.symm

/-! ## What is read -/

theorem ofImage_eq_ok_iff : ofImage value = .ok ref ↔ NormalImage ref ∧ ref.text = value := by
  constructor
  · intro h
    exact ⟨normalImage_of_ofImage h, text_of_ofImage h⟩
  · rintro ⟨hnormal, rfl⟩
    exact hnormal.ofImage_text

/-- A text is read as the reference in normal form that is written so.  It is not read at all if
there is none, and there are never two. -/
theorem read_iff_normalImage (value : String) :
    (∀ ref, ofImage value = .ok ref ↔ NormalImage ref ∧ ref.text = value) ∧
      ((∃ ref, ofImage value = .ok ref) ↔ ∃! ref, NormalImage ref ∧ ref.text = value) := by
  refine ⟨fun ref ↦ ofImage_eq_ok_iff, ?_⟩
  simp only [← ofImage_eq_ok_iff]
  constructor
  · intro ⟨ref, href⟩
    exact ⟨ref, href, fun other hother ↦ Except.ok.inj (hother.symm.trans href)⟩
  · exact ExistsUnique.exists

/-! ## Retargeting -/

theorem retargetImage_of_ofImage (h : ofImage value = .ok ref) (registry : String) :
    retargetImage value registry = .ok (ref.retarget registry).text := by
  rw [retargetImage, h]
  rfl

/-- An image that is pointed at a registry is read as standing there exactly if an image can name
the registry.  It is then read with its other parts unchanged, so that the registry which it is
pointed at last is the one that counts. -/
theorem retargetImage_read_iff (h : ofImage value = .ok ref) (registry : String) :
    ((∃ target again, retargetImage value registry = .ok target ∧ ofImage target = .ok again ∧
        again.authority = some registry) ↔ ImageRegistry registry) ∧
      (ImageRegistry registry → ∃ target, retargetImage value registry = .ok target ∧
        ofImage target = .ok (ref.retarget registry) ∧
        (∀ other, retargetImage target other = retargetImage value other) ∧
        retargetImage target registry = .ok target) := by
  have htarget := retargetImage_of_ofImage h
  have hread (hregistry : ImageRegistry registry) :
      ofImage (ref.retarget registry).text = .ok (ref.retarget registry) :=
    ((normalImage_of_ofImage h).retarget hregistry).ofImage_text
  constructor
  · constructor
    · intro ⟨target, again, _, hagain, hauthority⟩
      exact (normalImage_of_ofImage hagain).authority registry hauthority
    · intro hregistry
      exact ⟨_, _, htarget registry, hread hregistry, rfl⟩
  · intro hregistry
    have hlast (other : String) : retargetImage (ref.retarget registry).text other =
        .ok (ref.retarget other).text := retargetImage_of_ofImage (hread hregistry) other
    exact ⟨_, htarget registry, hread hregistry,
      fun other ↦ (hlast other).trans (htarget other).symm, hlast registry⟩

/-- An image whose path starts with what could be a registry, pointed at a registry with a port. -/
theorem hostLike_path_read :
    ∃ ref, ofImage "localhost/c.example/a:1@sha256:0" = .ok ref ∧ ImageRegistry "mirror:5000" ∧
      ∃ target, retargetImage "localhost/c.example/a:1@sha256:0" "mirror:5000" = .ok target ∧
        ofImage target = .ok (ref.retarget "mirror:5000") := by
  have hread : ofImage "localhost/c.example/a:1@sha256:0" = .ok _ := rfl
  have hregistry : ImageRegistry "mirror:5000" :=
    { recognised := .inr (.inl (by decide))
      slash := by decide
      atSign := by decide }
  obtain ⟨target, htarget, hagain, -⟩ := (retargetImage_read_iff hread "mirror:5000").2 hregistry
  exact ⟨_, hread, hregistry, target, htarget, hagain⟩

end OfflineSupply.Reference
