import OfflineSupply.Proofs.Discovery.Walk
import OfflineSupply.Stage.Outline

/-!
# Stages in their places

A stage of an outline is named by the way there: the numbers of the stages that are entered one below
the other.  It is reached if no stage to the left of its way gives up, and it is the one whose
failure ends the outline if it gives up and no stage that ends before it does.  Both are said of all
stages of an outline at once and do not speak of a run; for a list of outlines that are performed one
after the other they are led back to the first outline and to those after it.
-/

namespace OfflineSupply.Stage

namespace Outline

/-- The name of the outermost stage. -/
def name : Outline → String
  | .stage name _ _ => name

/-- The outlines below the outermost stage. -/
def children : Outline → List Outline
  | .stage _ children _ => children

/-- Whether the outermost stage gives up when those below it are done. -/
def givesUp : Outline → Bool
  | .stage _ _ givesUp => givesUp

end Outline

/-- A stage in its place: the names of the stages around it, the outermost first. -/
structure Place where
  around : List String
  stage : Outline

/-- The names from that of the outermost stage to its own. -/
def Place.path (p : Place) : List String :=
  p.around ++ [p.stage.name]

/-- The place when one more stage is around all. -/
def Place.inside (name : String) (p : Place) : Place :=
  { p with around := name :: p.around }

/-- A way leads to a stage of an outline. -/
inductive Outline.Leads : Outline → List Nat → Place → Prop
  | here (outline : Outline) : outline.Leads [] { around := [], stage := outline }
  | inside {outline child : Outline} {i : Nat} {way : List Nat} {place : Place}
      (h : outline.children[i]? = some child) (hrest : child.Leads way place) :
      outline.Leads (i :: way) (place.inside outline.name)

/-- The stages of some outlines that are numbered from `n` on. -/
def LeadsInto (n : Nat) (outlines : List Outline) : List Nat → Place → Prop :=
  InOneOf n outlines Outline.Leads

variable {n : Nat} {outline : Outline} {outlines : List Outline} {way way' : List Nat}
  {place : Place} {e e' : Failure}

theorem Outline.leads_iff : outline.Leads way place ↔
    (way = [] ∧ place = { around := [], stage := outline }) ∨
      ∃ inner, place = inner.inside outline.name ∧ LeadsInto 0 outline.children way inner := by
  constructor
  · intro h
    cases h with
    | here => exact .inl ⟨rfl, rfl⟩
    | @inside _ child i rest inner hchild hrest =>
      exact .inr ⟨inner, rfl, i, rest, child, by rw [Nat.zero_add], hchild, hrest⟩
  · rintro (⟨rfl, rfl⟩ | ⟨inner, rfl, i, rest, child, rfl, hchild, hrest⟩)
    · exact .here outline
    · rw [Nat.zero_add]
      exact .inside hchild hrest

/-- A way leads to one place only. -/
theorem Outline.Leads.unique {place' : Place} (h : outline.Leads way place)
    (h' : outline.Leads way place') : place = place' := by
  induction h generalizing place' with
  | here =>
    cases h'
    rfl
  | inside hchild _ ih =>
    cases h' with
    | inside hchild' hrest' =>
      rw [hchild, Option.some.injEq] at hchild'
      rw [ih (hchild' ▸ hrest')]

/-! ## Before and after -/

/-- A way turns off to the left of another one where they part. -/
def LeftOf : List Nat → List Nat → Prop
  | i :: way, j :: way' => i < j ∨ i = j ∧ LeftOf way way'
  | _, _ => False

/-- The stage at a way ends before another one does: it is to the left of it or below it. -/
def EndsBefore (earlier way : List Nat) : Prop :=
  LeftOf earlier way ∨ ∃ i rest, earlier = way ++ i :: rest

/-- What two ways have to do with each other is decided where they part, and nothing is said of the
stage that all others are below. -/
structure PartingOrder (before : List Nat → List Nat → Prop) : Prop where
  not_nil : ∀ way, ¬ before [] way
  cons_iff : ∀ i j way way', before (i :: way) (j :: way') ↔ i < j ∨ i = j ∧ before way way'

theorem partingOrder_leftOf : PartingOrder LeftOf where
  not_nil _ := id
  cons_iff _ _ _ _ := Iff.rfl

theorem partingOrder_endsBefore : PartingOrder EndsBefore where
  not_nil way := by
    rintro (hleft | ⟨i, rest, h⟩)
    · exact hleft
    · simp at h
  cons_iff i j way way' := by
    simp only [EndsBefore, LeftOf, List.cons_append, List.cons.injEq]
    constructor
    · rintro ((hlt | ⟨rfl, hleft⟩) | ⟨k, rest, rfl, hway⟩)
      · exact .inl hlt
      · exact .inr ⟨rfl, .inl hleft⟩
      · exact .inr ⟨rfl, .inr ⟨k, rest, hway⟩⟩
    · rintro (hlt | ⟨rfl, hleft | ⟨k, rest, hway⟩⟩)
      · exact .inl (.inl hlt)
      · exact .inl (.inr ⟨rfl, hleft⟩)
      · exact .inr ⟨k, rest, rfl, hway⟩

/-- Of two stages one ends before the other. -/
theorem eq_or_endsBefore (way way' : List Nat) :
    way = way' ∨ EndsBefore way way' ∨ EndsBefore way' way := by
  induction way generalizing way' with
  | nil =>
    cases way' with
    | nil => exact .inl rfl
    | cons j way' => exact .inr (.inr (.inr ⟨j, way', rfl⟩))
  | cons i way ih =>
    cases way' with
    | nil => exact .inr (.inl (.inr ⟨i, way, rfl⟩))
    | cons j way' =>
      simp only [partingOrder_endsBefore.cons_iff, List.cons.injEq]
      rcases Nat.lt_trichotomy i j with hlt | rfl | hlt
      · exact .inr (.inl (.inl hlt))
      · simpa using ih way'
      · exact .inr (.inr (.inl hlt))

/-! ## Stages that give up -/

/-- Some stage gives up. -/
def SomeGivesUp (leads : List Nat → Place → Prop) : Prop :=
  ∃ way place, leads way place ∧ place.stage.givesUp = true

/-- No stage that comes before a way gives up. -/
def Clear (before : List Nat → List Nat → Prop) (leads : List Nat → Place → Prop)
    (way : List Nat) : Prop :=
  ∀ earlier place, leads earlier place → before earlier way → place.stage.givesUp = false

/-- A way leads to a stage, and no stage that comes before it gives up. -/
def Reaches (before : List Nat → List Nat → Prop) (leads : List Nat → Place → Prop)
    (way : List Nat) (place : Place) : Prop :=
  leads way place ∧ Clear before leads way

/-- A stage is entered: no stage to the left of it gives up. -/
def Enters (leads : List Nat → Place → Prop) : List Nat → Place → Prop :=
  Reaches LeftOf leads

/-- A stage raises its failure: it gives up, and no stage that ends before it does. -/
def Raises (leads : List Nat → Place → Prop) (way : List Nat) (e : Failure) : Prop :=
  ∃ place, Reaches EndsBefore leads way place ∧ place.stage.givesUp = true ∧
    e = .stage place.stage.name

/-- Only one stage of an outline raises its failure. -/
theorem Raises.unique (h : Raises outline.Leads way e) (h' : Raises outline.Leads way' e') :
    way = way' ∧ e = e' := by
  obtain ⟨place, ⟨hleads, hclear⟩, hgives, rfl⟩ := h
  obtain ⟨place', ⟨hleads', hclear'⟩, hgives', rfl⟩ := h'
  rcases eq_or_endsBefore way way' with rfl | hbefore | hbefore
  · exact ⟨rfl, by rw [hleads.unique hleads']⟩
  · exact absurd hgives (by simp [hclear' way place hleads hbefore])
  · exact absurd hgives' (by simp [hclear way' place' hleads' hbefore])

/-! ## The first outline and those after it -/

variable {before : List Nat → List Nat → Prop}

theorem clear_first_iff (hbefore : PartingOrder before) :
    Clear before (LeadsInto n (outline :: outlines)) (n :: way) ↔ Clear before outline.Leads way := by
  constructor
  · intro h earlier place hleads hearlier
    exact h (n :: earlier) place (inOneOf_cons_iff.mpr (.inl ⟨earlier, rfl, hleads⟩))
      ((hbefore.cons_iff ..).mpr (.inr ⟨rfl, hearlier⟩))
  · intro h earlier place hleads hearlier
    cases inOneOf_cons_iff.mp hleads with
    | inl hfirst =>
      obtain ⟨rest, rfl, hin⟩ := hfirst
      rw [hbefore.cons_iff] at hearlier
      exact h rest place hin (by simpa using hearlier)
    | inr hlater =>
      obtain ⟨i, rest, rfl⟩ := exists_eq_cons_of_inOneOf hlater
      rw [hbefore.cons_iff] at hearlier
      omega

/-- What comes after the first outline is reached only if nothing in that one gives up. -/
theorem clear_later_iff (hbefore : PartingOrder before)
    (h : LeadsInto (n + 1) outlines way place) :
    Clear before (LeadsInto n (outline :: outlines)) way ↔
      ¬ SomeGivesUp outline.Leads ∧ Clear before (LeadsInto (n + 1) outlines) way := by
  obtain ⟨i, rest, rfl⟩ := exists_eq_cons_of_inOneOf h
  constructor
  · intro hclear
    constructor
    · intro ⟨earlier, place, hleads, hgives⟩
      have hnot := hclear (n :: earlier) place (inOneOf_cons_iff.mpr (.inl ⟨earlier, rfl, hleads⟩))
        ((hbefore.cons_iff ..).mpr (.inl (by omega)))
      rw [hgives] at hnot
      exact absurd hnot (by decide)
    · intro earlier place hleads
      exact hclear earlier place (inOneOf_cons_iff.mpr (.inr hleads))
  · intro ⟨hnone, hclear⟩ earlier place hleads hearlier
    cases inOneOf_cons_iff.mp hleads with
    | inl hfirst =>
      obtain ⟨rest', rfl, hin⟩ := hfirst
      exact Bool.eq_false_iff.mpr fun hgives ↦ hnone ⟨rest', place, hin, hgives⟩
    | inr hlater => exact hclear earlier place hlater hearlier

theorem reaches_cons_iff (hbefore : PartingOrder before) :
    Reaches before (LeadsInto n (outline :: outlines)) way place ↔
      (∃ rest, way = n :: rest ∧ Reaches before outline.Leads rest place) ∨
        ¬ SomeGivesUp outline.Leads ∧ Reaches before (LeadsInto (n + 1) outlines) way place := by
  constructor
  · intro ⟨hleads, hclear⟩
    cases inOneOf_cons_iff.mp hleads with
    | inl hfirst =>
      obtain ⟨rest, rfl, hin⟩ := hfirst
      exact .inl ⟨rest, rfl, hin, (clear_first_iff hbefore).mp hclear⟩
    | inr hlater =>
      obtain ⟨hnone, hclear'⟩ := (clear_later_iff hbefore hlater).mp hclear
      exact .inr ⟨hnone, hlater, hclear'⟩
  · rintro (⟨rest, rfl, hin, hclear⟩ | ⟨hnone, hlater, hclear⟩)
    · exact ⟨inOneOf_cons_iff.mpr (.inl ⟨rest, rfl, hin⟩), (clear_first_iff hbefore).mpr hclear⟩
    · exact ⟨inOneOf_cons_iff.mpr (.inr hlater), (clear_later_iff hbefore hlater).mpr ⟨hnone, hclear⟩⟩

theorem not_leadsInto_nil : ¬ LeadsInto n [] way place := by
  rintro ⟨i, _, part, _, hpart, _⟩
  simp at hpart

theorem raises_cons_iff : Raises (LeadsInto n (outline :: outlines)) way e ↔
    (∃ rest, way = n :: rest ∧ Raises outline.Leads rest e) ∨
      ¬ SomeGivesUp outline.Leads ∧ Raises (LeadsInto (n + 1) outlines) way e := by
  simp only [Raises, reaches_cons_iff partingOrder_endsBefore]
  constructor
  · rintro ⟨place, ⟨rest, hway, hreaches⟩ | ⟨hnone, hreaches⟩, hgives⟩
    · exact .inl ⟨rest, hway, place, hreaches, hgives⟩
    · exact .inr ⟨hnone, place, hreaches, hgives⟩
  · rintro (⟨rest, hway, place, hreaches, hgives⟩ | ⟨hnone, place, hreaches, hgives⟩)
    · exact ⟨place, .inl ⟨rest, hway, hreaches⟩, hgives⟩
    · exact ⟨place, .inr ⟨hnone, hreaches⟩, hgives⟩

theorem someGivesUp_cons_iff : SomeGivesUp (LeadsInto n (outline :: outlines)) ↔
    SomeGivesUp outline.Leads ∨ SomeGivesUp (LeadsInto (n + 1) outlines) := by
  constructor
  · intro ⟨way, place, hleads, hgives⟩
    cases inOneOf_cons_iff.mp hleads with
    | inl hfirst =>
      obtain ⟨rest, -, hin⟩ := hfirst
      exact .inl ⟨rest, place, hin, hgives⟩
    | inr hlater => exact .inr ⟨way, place, hlater, hgives⟩
  · rintro (⟨way, place, hin, hgives⟩ | ⟨way, place, hlater, hgives⟩)
    · exact ⟨n :: way, place, inOneOf_cons_iff.mpr (.inl ⟨way, rfl, hin⟩), hgives⟩
    · exact ⟨way, place, inOneOf_cons_iff.mpr (.inr hlater), hgives⟩

/-! ## The outermost stage and those below it -/

theorem someGivesUp_outline_iff : SomeGivesUp outline.Leads ↔
    SomeGivesUp (LeadsInto 0 outline.children) ∨ outline.givesUp = true := by
  constructor
  · intro ⟨way, place, hleads, hgives⟩
    rcases Outline.leads_iff.mp hleads with ⟨-, rfl⟩ | ⟨inner, rfl, hinner⟩
    · exact .inr hgives
    · exact .inl ⟨way, inner, hinner, hgives⟩
  · rintro (⟨way, inner, hinner, hgives⟩ | hgives)
    · exact ⟨way, _, Outline.leads_iff.mpr (.inr ⟨inner, rfl, hinner⟩), hgives⟩
    · exact ⟨[], _, .here outline, hgives⟩

/-- The outermost stage comes before none of those below it. -/
theorem clear_children_iff (hbefore : PartingOrder before) :
    Clear before (LeadsInto 0 outline.children) way ↔ Clear before outline.Leads way := by
  constructor
  · intro h earlier place hleads hearlier
    rcases Outline.leads_iff.mp hleads with ⟨rfl, -⟩ | ⟨inner, rfl, hinner⟩
    · exact absurd hearlier (hbefore.not_nil way)
    · exact h earlier inner hinner hearlier
  · intro h earlier inner hinner hearlier
    exact h earlier (inner.inside outline.name) (Outline.leads_iff.mpr (.inr ⟨inner, rfl, hinner⟩))
      hearlier

theorem reaches_outline_iff (hbefore : PartingOrder before) :
    Reaches before outline.Leads way place ↔
      ((way = [] ∧ place = { around := [], stage := outline }) ∧
        Clear before (LeadsInto 0 outline.children) []) ∨
      ∃ inner, place = inner.inside outline.name ∧
        Reaches before (LeadsInto 0 outline.children) way inner := by
  simp only [Reaches, Outline.leads_iff, clear_children_iff hbefore]
  constructor
  · rintro ⟨⟨rfl, hplace⟩ | ⟨inner, hplace, hinner⟩, hclear⟩
    · exact .inl ⟨⟨rfl, hplace⟩, hclear⟩
    · exact .inr ⟨inner, hplace, hinner, hclear⟩
  · rintro (⟨⟨rfl, hplace⟩, hclear⟩ | ⟨inner, hplace, hinner, hclear⟩)
    · exact ⟨.inl ⟨rfl, hplace⟩, hclear⟩
    · exact ⟨.inr ⟨inner, hplace, hinner⟩, hclear⟩

/-- The outermost stage is always entered. -/
theorem enters_outline_iff : Enters outline.Leads way place ↔
    (way = [] ∧ place = { around := [], stage := outline }) ∨
      ∃ inner, place = inner.inside outline.name ∧
        Enters (LeadsInto 0 outline.children) way inner := by
  have hclear : Clear LeftOf (LeadsInto 0 outline.children) [] := by
    intro earlier _ _ hleft
    cases earlier <;> exact hleft.elim
  simp only [Enters, reaches_outline_iff partingOrder_leftOf, hclear, and_true]

/-- The outermost stage raises its failure if it gives up and none below it does. -/
theorem raises_outline_iff : Raises outline.Leads way e ↔
    Raises (LeadsInto 0 outline.children) way e ∨
      way = [] ∧ outline.givesUp = true ∧ ¬ SomeGivesUp (LeadsInto 0 outline.children) ∧
        e = .stage outline.name := by
  have hclear : Clear EndsBefore (LeadsInto 0 outline.children) [] ↔
      ¬ SomeGivesUp (LeadsInto 0 outline.children) := by
    constructor
    · intro hclear ⟨earlier, place, hleads, hgives⟩
      obtain ⟨i, rest, rfl⟩ := exists_eq_cons_of_inOneOf hleads
      simp [hclear _ place hleads (.inr ⟨_, _, rfl⟩)] at hgives
    · intro hnone earlier place hleads _
      exact Bool.eq_false_iff.mpr fun hgives ↦ hnone ⟨earlier, place, hleads, hgives⟩
  simp only [Raises, reaches_outline_iff partingOrder_endsBefore, hclear]
  constructor
  · rintro ⟨place, ⟨⟨rfl, rfl⟩, hnone⟩ | ⟨inner, rfl, hreaches⟩, hgives, rfl⟩
    · exact .inr ⟨rfl, hgives, hnone, rfl⟩
    · exact .inl ⟨inner, hreaches, hgives, rfl⟩
  · rintro (⟨inner, hreaches, hgives, rfl⟩ | ⟨rfl, hgives, hnone, rfl⟩)
    · exact ⟨inner.inside outline.name, .inr ⟨inner, rfl, hreaches⟩, hgives, rfl⟩
    · exact ⟨_, .inl ⟨⟨rfl, rfl⟩, hnone⟩, hgives, rfl⟩

end OfflineSupply.Stage
