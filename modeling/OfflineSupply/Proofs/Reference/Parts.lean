import OfflineSupply.Reference.Basic

/-!
# Parts of references

A part of a reference stands behind its mark or in front of it, and is cut out of a text where the
mark is found again.  A path and its version are cut apart at the first colon of the last name, so
they are told apart in every text in which the last name of the path holds no colon and the version
no slash.
-/

namespace OfflineSupply.Reference

variable {mark part : String} {cs path last : List Char} {front version : Option (List Char)}

theorem ofList_ne_empty (h : cs ≠ []) : String.ofList cs ≠ "" := by
  rwa [ne_eq, ← String.toList_inj, String.toList_ofList]

/-! ## Parts behind their marks -/

theorem marked_none : marked mark none = "" := rfl

theorem marked_some (h : part ≠ "") : marked mark (some part) = mark ++ part :=
  if_neg h

theorem toList_marked {c : Char} {part : Option String} (hmark : mark.toList = [c])
    (h : ∀ p ∈ part, p ≠ "") :
    (marked mark part).toList = Text.behind c (part.map String.toList) := by
  cases part with
  | none => rfl
  | some p =>
    rw [marked_some (h p rfl), String.toList_append, hmark]
    rfl

/-! ## Names behind the last slash -/

theorem rejoin_append (front : Option (List Char)) (last tail : List Char) :
    rejoin front (last ++ tail) = rejoin front last ++ tail := by
  cases front with
  | none => rfl
  | some front => simp [rejoin]

theorem mem_rejoin_iff {c : Char} (hc : c ≠ '/') :
    c ∈ rejoin front last ↔ (∃ f ∈ front, c ∈ f) ∨ c ∈ last := by
  cases front with
  | none => simp [rejoin]
  | some front => simp [rejoin, hc]

/-- A text is cut at its last slash: what stands behind it holds none. -/
theorem cutLast_eq_iff :
    Text.cutLast '/' cs = (front, last) ↔ cs = rejoin front last ∧ '/' ∉ last := by
  constructor
  · intro hcut
    have hmem := Text.not_mem_cutLast '/' cs
    rw [hcut] at hmem
    refine ⟨?_, hmem⟩
    cases front with
    | none => exact Text.cutLast_eq_self hcut
    | some front => exact Text.cutLast_eq_append hcut
  · rintro ⟨rfl, hmem⟩
    cases front with
    | none => exact Text.cutLast_of_not_mem hmem
    | some front => exact Text.cutLast_append front hmem

/-! ## Paths and versions -/

theorem splitVersion_of_cuts {name : List Char} (hslash : Text.cutLast '/' cs = (front, last))
    (hcolon : Text.cutFirst ':' last = (name, version)) :
    splitVersion cs = (rejoin front name, version) := by
  have hlast : last = name ++ Text.behind ':' version := (Text.cutFirst_eq_iff.mp hcolon).1
  unfold splitVersion
  simp only [hslash, hcolon]
  cases version with
  | none =>
    rw [Text.behind, Option.elim_none, List.append_nil] at hlast
    rw [(cutLast_eq_iff.mp hslash).1, hlast]
  | some version => rfl

/-- What a text is split into: a path whose last name has no colon, and a version without a slash
behind it. -/
theorem splitVersion_eq_iff :
    splitVersion cs = (path, version) ↔ cs = path ++ Text.behind ':' version ∧
      ':' ∉ Text.afterLast '/' path ∧ ∀ v ∈ version, '/' ∉ v := by
  constructor
  · intro hsplit
    rcases hslash : Text.cutLast '/' cs with ⟨front, last⟩
    rcases hcolon : Text.cutFirst ':' last with ⟨name, rest⟩
    obtain ⟨hcs, hlast⟩ := cutLast_eq_iff.mp hslash
    obtain ⟨hrest, hname⟩ := Text.cutFirst_eq_iff.mp hcolon
    rw [splitVersion_of_cuts hslash hcolon, Prod.mk.injEq] at hsplit
    obtain ⟨rfl, rfl⟩ := hsplit
    rw [hrest, List.mem_append, Text.mem_behind_iff (by decide), not_or] at hlast
    have hpath : Text.cutLast '/' (rejoin front name) = (front, name) :=
      cutLast_eq_iff.mpr ⟨rfl, hlast.1⟩
    refine ⟨?_, ?_, fun v hv hmem ↦ hlast.2 ⟨v, hv, hmem⟩⟩
    · rw [hcs, hrest, rejoin_append]
    · rwa [Text.afterLast, hpath]
  · rintro ⟨hcs, hcolon, hversion⟩
    rcases hslash : Text.cutLast '/' path with ⟨front, name⟩
    obtain ⟨hpath, hname⟩ := cutLast_eq_iff.mp hslash
    rw [Text.afterLast, hslash] at hcolon
    have hlast : Text.cutLast '/' cs = (front, name ++ Text.behind ':' version) := by
      refine cutLast_eq_iff.mpr ⟨by rw [hcs, hpath, rejoin_append], ?_⟩
      rw [List.mem_append, Text.mem_behind_iff (by decide), not_or]
      refine ⟨hname, ?_⟩
      rintro ⟨v, hv, hmem⟩
      exact hversion v hv hmem
    rw [splitVersion_of_cuts hlast (Text.cutFirst_eq_iff.mpr ⟨rfl, hcolon⟩), hpath]

/-- A path and the version split from it, put together again. -/
theorem splitVersion_eq_append {version : List Char}
    (h : splitVersion cs = (path, some version)) : cs = path ++ ':' :: version :=
  (splitVersion_eq_iff.mp h).1

/-- A path without a version is the text that was to be split. -/
theorem splitVersion_eq_self (h : splitVersion cs = (path, none)) : cs = path := by
  have hcs := (splitVersion_eq_iff.mp h).1
  rwa [Text.behind, Option.elim_none, List.append_nil] at hcs

theorem slash_not_mem_splitVersion {version : List Char}
    (h : splitVersion cs = (path, some version)) : '/' ∉ version :=
  (splitVersion_eq_iff.mp h).2.2 version rfl

/-- A colon behind the last slash is found, with at least what follows it. -/
theorem splitVersion_append (front : List Char) {tag : List Char} (h : '/' ∉ tag) :
    ∃ path version, splitVersion (front ++ ':' :: tag) = (path, some version) ∧ tag <:+ version := by
  have hslash : '/' ∉ ':' :: tag := by
    simp [h]
  obtain ⟨name, hlast⟩ := Text.suffix_cutLast front hslash
  obtain ⟨first, version, hcut, hsuffix⟩ := Text.suffix_cutFirst ':' name tag
  rw [hlast] at hcut
  exact ⟨_, version, splitVersion_of_cuts rfl hcut, hsuffix⟩

/-- What was split into a path and a version is written as the path with the version behind it. -/
theorem append_marked_splitVersion (h : splitVersion cs = (path, version))
    (hversion : version ≠ some []) :
    String.ofList path ++ marked ":" (version.map String.ofList) = String.ofList cs := by
  cases version with
  | none =>
    rw [splitVersion_eq_self h, Option.map_none, marked_none, String.append_empty]
  | some version =>
    have hpart : String.ofList version ≠ "" := by
      simpa [← String.toList_inj] using hversion
    rw [splitVersion_eq_append h, Option.map_some, marked_some hpart]
    simp

end OfflineSupply.Reference
