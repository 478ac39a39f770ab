import Mathlib.Data.List.Sort
import Mathlib.Order.WithBot
import OfflineSupply.Proofs.Stage.Place

/-!
# Announcements of stages in balance

A stage is announced when it begins and when it ends.  The time of an announcement is a word: the way
to the stage, and behind it a letter that is greater than all numbers if the stage ends.  In the order
of these words a stage has all that is below it between its own two announcements, and of two stages
none of which is below the other one has both before the other has its first.  So announcements that
are in this order, and are those of the stages that are entered, are in balance; for an outline and for
some outlines they are put together from those of the parts.
-/

open scoped List

namespace OfflineSupply.Stage

/-- A stage in its place is announced when it begins and when it ends. -/
inductive Announcement where
  | begins (way : List Nat) (place : Place)
  | ends (way : List Nat) (place : Place)

namespace Announcement

def way : Announcement → List Nat
  | begins way _ => way
  | ends way _ => way

def place : Announcement → Place
  | begins _ place => place
  | ends _ place => place

/-- The announcement when outlines are numbered and its own has the number `n`. -/
def numbered (n : Nat) : Announcement → Announcement
  | begins way place => begins (n :: way) place
  | ends way place => ends (n :: way) place

/-- The announcement when one more stage is around all. -/
def inside (name : String) : Announcement → Announcement
  | begins way place => begins way (place.inside name)
  | ends way place => ends way (place.inside name)

/-- When an announcement is made.  Times are compared as words: a stage begins before all that is
below it, and ends behind the last number that can follow. -/
def time : Announcement → List (WithTop Nat)
  | begins way _ => way.map WithTop.some
  | ends way _ => way.map WithTop.some ++ [⊤]

variable {n i : Nat} {name : String} {a : Announcement} {rest : List Nat}

theorem time_numbered : (a.numbered n).time = WithTop.some n :: a.time := by
  cases a <;> rfl

theorem time_inside : (a.inside name).time = a.time := by
  cases a <;> rfl

theorem exists_time_eq_cons (h : a.way = i :: rest) : ∃ later, a.time = WithTop.some i :: later := by
  cases a with
  | begins way place =>
    obtain rfl : way = i :: rest := h
    exact ⟨_, rfl⟩
  | ends way place =>
    obtain rfl : way = i :: rest := h
    exact ⟨_, rfl⟩

/-! Where the ways part decides, and behind the same way a number comes after nothing and before the
end of the stage. -/

theorem time_begins (way : List Nat) (place : Place) :
    (begins way place).time = way.map WithTop.some ++ [] :=
  (List.append_nil _).symm

theorem time_ends (way : List Nat) (place : Place) :
    (ends way place).time = way.map WithTop.some ++ [⊤] :=
  rfl

theorem begins_lt_ends {way : List Nat} {place place' : Place} :
    (begins way place).time < (ends way place').time := by
  rw [time_begins, time_ends]
  exact List.append_left_lt (List.nil_lt_cons ..)

theorem begins_lt_below {way : List Nat} {place inner : Place} :
    (begins way place).time < (begins (way ++ i :: rest) inner).time := by
  rw [time_begins, time_begins, List.map_append, List.append_assoc]
  exact List.append_left_lt (List.nil_lt_cons ..)

theorem below_lt_ends {way : List Nat} {place inner : Place} :
    (ends (way ++ i :: rest) inner).time < (ends way place).time := by
  rw [time_ends, time_ends, List.map_append, List.append_assoc]
  exact List.append_left_lt (List.cons_lt_cons_iff.mpr (.inl (WithTop.coe_lt_top i)))

theorem append_lt_of_leftOf {way way' : List Nat} (h : LeftOf way way')
    (last last' : List (WithTop Nat)) :
    way.map WithTop.some ++ last < way'.map WithTop.some ++ last' := by
  induction way generalizing way' with
  | nil => exact h.elim
  | cons i way ih =>
    cases way' with
    | nil => exact h.elim
    | cons j way' =>
      rw [List.map_cons, List.map_cons, List.cons_append, List.cons_append, List.cons_lt_cons_iff]
      rcases h with hlt | ⟨rfl, hleft⟩
      · exact .inl (WithTop.coe_lt_coe.mpr hlt)
      · exact .inr ⟨rfl, ih hleft⟩

theorem ends_lt_begins {way way' : List Nat} {place place' : Place} (h : LeftOf way way') :
    (ends way place).time < (begins way' place').time := by
  rw [time_begins, time_ends]
  exact append_lt_of_leftOf h _ _

end Announcement

/-! ## Announcements in the order of time -/

variable {n : Nat} {outline : Outline} {outlines : List Outline}
  {enters enters' leads : List Nat → Place → Prop} {order more : List Announcement}

/-- The announcements of all stages that are entered, in the order of time. -/
structure Ordered (enters : List Nat → Place → Prop) (order : List Announcement) : Prop where
  sorted : order.Pairwise fun a b ↦ a.time < b.time
  mem_iff : ∀ a, a ∈ order ↔ enters a.way a.place

theorem Ordered.congr (h : Ordered enters order)
    (hsame : ∀ way place, enters' way place ↔ enters way place) : Ordered enters' order :=
  ⟨h.sorted, fun a ↦ (h.mem_iff a).trans (hsame a.way a.place).symm⟩

theorem ordered_nil (h : ∀ way place, ¬ enters way place) : Ordered enters [] :=
  ⟨.nil, fun a ↦ iff_of_false (by simp) (h a.way a.place)⟩

theorem mem_map_numbered_iff {a : Announcement} (h : Ordered enters order) :
    a ∈ order.map (·.numbered n) ↔ ∃ rest, a.way = n :: rest ∧ enters rest a.place := by
  rw [List.mem_map]
  constructor
  · rintro ⟨b, hb, rfl⟩
    cases b with
    | begins way place => exact ⟨way, rfl, (h.mem_iff _).mp hb⟩
    | ends way place => exact ⟨way, rfl, (h.mem_iff _).mp hb⟩
  · intro ⟨rest, hway, henters⟩
    cases a with
    | begins way place =>
      obtain rfl : way = n :: rest := hway
      exact ⟨.begins rest place, (h.mem_iff _).mpr henters, rfl⟩
    | ends way place =>
      obtain rfl : way = n :: rest := hway
      exact ⟨.ends rest place, (h.mem_iff _).mpr henters, rfl⟩

theorem mem_map_inside_iff {a : Announcement} {name : String} (h : Ordered enters order) :
    a ∈ order.map (·.inside name) ↔ ∃ inner, a.place = inner.inside name ∧ enters a.way inner := by
  rw [List.mem_map]
  constructor
  · rintro ⟨b, hb, rfl⟩
    cases b with
    | begins way place => exact ⟨place, rfl, (h.mem_iff _).mp hb⟩
    | ends way place => exact ⟨place, rfl, (h.mem_iff _).mp hb⟩
  · intro ⟨inner, hplace, henters⟩
    cases a with
    | begins way place =>
      obtain rfl : place = inner.inside name := hplace
      exact ⟨.begins way inner, (h.mem_iff _).mpr henters, rfl⟩
    | ends way place =>
      obtain rfl : place = inner.inside name := hplace
      exact ⟨.ends way inner, (h.mem_iff _).mpr henters, rfl⟩

/-- What the first outline announces comes before what those after it do. -/
theorem Ordered.cons (h : Ordered enters order) (hmore : Ordered enters' more)
    (hlater : ∀ way place, enters' way place → ∃ i rest, way = (n + 1 + i) :: rest) :
    Ordered (fun way place ↦ (∃ rest, way = n :: rest ∧ enters rest place) ∨ enters' way place)
      (order.map (·.numbered n) ++ more) := by
  constructor
  · rw [List.pairwise_append, List.pairwise_map]
    refine ⟨?_, hmore.sorted, ?_⟩
    · apply h.sorted.imp
      intro a b hab
      rw [Announcement.time_numbered, Announcement.time_numbered, List.cons_lt_cons_iff]
      exact .inr ⟨rfl, hab⟩
    · intro a ha b hb
      obtain ⟨a', -, rfl⟩ := List.mem_map.mp ha
      obtain ⟨i, rest, hway⟩ := hlater _ _ ((hmore.mem_iff b).mp hb)
      obtain ⟨later, htime⟩ := Announcement.exists_time_eq_cons hway
      rw [Announcement.time_numbered, htime, List.cons_lt_cons_iff]
      exact .inl (WithTop.coe_lt_coe.mpr (by omega))
  · intro a
    rw [List.mem_append, mem_map_numbered_iff h, hmore.mem_iff]

/-- What is announced below a stage comes between its own announcements. -/
theorem Ordered.enclosed (h : Ordered (Enters (LeadsInto 0 outline.children)) order) :
    Ordered (Enters outline.Leads)
      (.begins [] { around := [], stage := outline } ::
        (order.map (·.inside outline.name) ++ [.ends [] { around := [], stage := outline }])) := by
  have htime {a : Announcement} (ha : a ∈ order.map (·.inside outline.name)) :
      ∃ (i : Nat) (later : List (WithTop Nat)), a.time = WithTop.some i :: later := by
    obtain ⟨inner, -, henters⟩ := (mem_map_inside_iff h).mp ha
    obtain ⟨i, rest, hway⟩ := exists_eq_cons_of_inOneOf henters.1
    obtain ⟨later, hlater⟩ := Announcement.exists_time_eq_cons hway
    exact ⟨_, later, hlater⟩
  constructor
  · rw [List.pairwise_cons, List.pairwise_append, List.pairwise_map]
    refine ⟨?_, ?_, List.pairwise_singleton .., ?_⟩
    · intro b hb
      rcases List.mem_append.mp hb with hinside | hend
      · obtain ⟨i, later, hlater⟩ := htime hinside
        rw [hlater]
        exact List.nil_lt_cons ..
      · rw [List.mem_singleton.mp hend]
        exact List.nil_lt_cons ..
    · apply h.sorted.imp
      intro a b hab
      rwa [Announcement.time_inside, Announcement.time_inside]
    · intro a ha b hb
      obtain ⟨i, later, hlater⟩ := htime ha
      rw [List.mem_singleton.mp hb, hlater]
      exact List.cons_lt_cons_iff.mpr (.inl (WithTop.coe_lt_top i))
  · intro a
    rw [List.mem_cons, List.mem_append, mem_map_inside_iff h, List.mem_singleton, enters_outline_iff]
    cases a <;> simp [Announcement.way, Announcement.place, or_comm]

/-! ## What the order of time says -/

theorem nodup_of_sorted (h : order.Pairwise fun a b ↦ a.time < b.time) : order.Nodup := by
  apply h.imp
  intro a b hab heq
  exact List.lt_irrefl a.time (heq ▸ hab)

/-- Announcements that are made one after the other stand in this order. -/
theorem Ordered.sublist {chosen : List Announcement} (h : Ordered enters order)
    (hmem : ∀ a ∈ chosen, enters a.way a.place)
    (hsorted : chosen.IsChain fun a b ↦ a.time < b.time) : chosen <+ order := by
  have : IsTrans Announcement fun a b ↦ a.time < b.time := ⟨fun _ _ _ ↦ List.lt_trans⟩
  have : Std.Antisymm fun a b : Announcement ↦ a.time < b.time :=
    ⟨fun _ _ hab hba ↦ absurd hba (List.lt_asymm hab)⟩
  have hpairwise := hsorted.pairwise
  have hsubset : chosen ⊆ order := fun a ha ↦ (h.mem_iff a).mpr (hmem a ha)
  have hsubperm := List.subperm_of_subset (nodup_of_sorted hpairwise) hsubset
  exact List.sublist_of_subperm_of_pairwise hsubperm hpairwise h.sorted

/-- Every stage that is entered is announced once when it begins and once when it ends.  All that is
below it is announced in between, and stages none of which is below the other are announced one
after the other. -/
structure Balanced (enters : List Nat → Place → Prop) (order : List Announcement) : Prop where
  once : order.Nodup
  begins_iff : ∀ way place, .begins way place ∈ order ↔ enters way place
  ends_iff : ∀ way place, .ends way place ∈ order ↔ enters way place
  paired : ∀ way place, enters way place → [.begins way place, .ends way place] <+ order
  nested : ∀ way place i rest inner, enters way place → enters (way ++ i :: rest) inner →
    [.begins way place, .begins (way ++ i :: rest) inner, .ends (way ++ i :: rest) inner,
      .ends way place] <+ order
  apart : ∀ way way' place place', enters way place → enters way' place' → LeftOf way way' →
    [.begins way place, .ends way place, .begins way' place', .ends way' place'] <+ order

theorem Ordered.balanced (h : Ordered enters order) : Balanced enters order where
  once := nodup_of_sorted h.sorted
  begins_iff _ _ := h.mem_iff _
  ends_iff _ _ := h.mem_iff _
  paired way place henters := by
    apply h.sublist
    · simp [Announcement.way, Announcement.place, henters]
    · simp [Announcement.begins_lt_ends]
  nested way place i rest inner henters hinner := by
    apply h.sublist
    · simp [Announcement.way, Announcement.place, henters, hinner]
    · simp [Announcement.begins_lt_ends, Announcement.begins_lt_below, Announcement.below_lt_ends]
  apart way way' place place' henters henters' hleft := by
    apply h.sublist
    · simp [Announcement.way, Announcement.place, henters, henters']
    · simp [Announcement.begins_lt_ends, Announcement.ends_lt_begins hleft]

end OfflineSupply.Stage
