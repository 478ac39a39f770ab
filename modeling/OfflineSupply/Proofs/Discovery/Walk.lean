import Mathlib.Data.List.Basic
import OfflineSupply.Failure

/-!
# Walks in order

A walk goes through a nested structure from left to right and looks for what is held in it.  A place
is named by the way there: the numbers of the parts that are entered one after the other.  What is
found is in the order of these ways, and a walk that something stops fails with the first thing that
does.
-/

namespace OfflineSupply

/-- The first thing, by the order of the ways, that makes a walk fail. -/
def IsFirst (stops : List Nat → Failure → Prop) (e : Failure) : Prop :=
  ∃ way, stops way e ∧ ∀ way' e', stops way' e' → ¬ way' < way

/-- The values that are held somewhere, in the order of their ways and each as often as it is. -/
def Enumerates {α : Type} (holds : List Nat → α → Prop) (found : List α) : Prop :=
  ∃ listed : List (List Nat × α), listed.Pairwise (fun a b ↦ a.1 < b.1) ∧
    (∀ way value, (way, value) ∈ listed ↔ holds way value) ∧ found = listed.map Prod.snd

/-- A walk that nothing stops finds all that is held; otherwise it fails with the first thing that
stops it. -/
def Walks {α : Type} (holds : List Nat → α → Prop) (stops : List Nat → Failure → Prop) :
    Except Failure (List α) → Prop
  | .ok found => (∀ way e, ¬ stops way e) ∧ Enumerates holds found
  | .error e => IsFirst stops e

/-- What is found is determined by what is held where. -/
theorem Enumerates.unique {α : Type} {holds : List Nat → α → Prop} {found found' : List α}
    (h : Enumerates holds found) (h' : Enumerates holds found') : found = found' := by
  obtain ⟨listed, hsorted, hlisted, rfl⟩ := h
  obtain ⟨listed', hsorted', hlisted', rfl⟩ := h'
  have hnodup {entries : List (List Nat × α)} (hentries : entries.Pairwise fun a b ↦ a.1 < b.1) :
      entries.Nodup := by
    apply hentries.imp
    intro a b hab heq
    exact List.lt_irrefl a.1 (heq ▸ hab)
  have hperm : listed.Perm listed' := by
    rw [List.perm_ext_iff_of_nodup (hnodup hsorted) (hnodup hsorted')]
    intro entry
    exact (hlisted entry.1 entry.2).trans (hlisted' entry.1 entry.2).symm
  rw [hperm.eq_of_pairwise ?_ hsorted hsorted']
  intro a b _ _ hab hba
  exact absurd hba (List.lt_asymm hab)

/-- The first failure is determined by what stops where, if no two things are at one place. -/
theorem IsFirst.unique {stops : List Nat → Failure → Prop} {e e' : Failure}
    (hstops : ∀ way e e', stops way e → stops way e' → e = e') (h : IsFirst stops e)
    (h' : IsFirst stops e') : e = e' := by
  obtain ⟨way, hstop, hleast⟩ := h
  obtain ⟨way', hstop', hleast'⟩ := h'
  have hsame : way = way' :=
    List.le_antisymm (List.not_lt.mp (hleast way' e' hstop')) (List.not_lt.mp (hleast' way e hstop))
  exact hstops way e e' hstop (hsame ▸ hstop')

theorem Walks.eq_ok_iff {α : Type} {holds : List Nat → α → Prop}
    {stops : List Nat → Failure → Prop} {result : Except Failure (List α)} {found : List α}
    (h : Walks holds stops result) :
    result = .ok found ↔ (∀ way e, ¬ stops way e) ∧ Enumerates holds found := by
  constructor
  · intro hok
    rw [hok] at h
    exact h
  · intro ⟨hpasses, hfound⟩
    cases result with
    | ok found' => rw [h.2.unique hfound]
    | error e =>
      obtain ⟨way, hstop, -⟩ := h
      exact absurd hstop (hpasses way e)

theorem Walks.eq_error_iff {α : Type} {holds : List Nat → α → Prop}
    {stops : List Nat → Failure → Prop} {result : Except Failure (List α)} {e : Failure}
    (hstops : ∀ way e e', stops way e → stops way e' → e = e') (h : Walks holds stops result) :
    result = .error e ↔ IsFirst stops e := by
  constructor
  · intro herror
    rw [herror] at h
    exact h
  · intro hfirst
    cases result with
    | ok found =>
      obtain ⟨way, hstop, -⟩ := hfirst
      exact absurd hstop (h.1 way e)
    | error e' => rw [IsFirst.unique hstops h hfirst]

/-- What is held or stops in one of some parts, which are numbered from `n` on. -/
def InOneOf {α γ : Type} (n : Nat) (parts : List γ) (inPart : γ → List Nat → α → Prop)
    (way : List Nat) (value : α) : Prop :=
  ∃ i rest part, way = (n + i) :: rest ∧ parts[i]? = some part ∧ inPart part rest value

variable {α γ : Type}

theorem inOneOf_cons_iff {n : Nat} {part : γ} {parts : List γ}
    {inPart : γ → List Nat → α → Prop} {way : List Nat} {value : α} :
    InOneOf n (part :: parts) inPart way value ↔
      (∃ rest, way = n :: rest ∧ inPart part rest value) ∨
        InOneOf (n + 1) parts inPart way value := by
  constructor
  · intro ⟨i, rest, part', hway, hpart, hin⟩
    cases i with
    | zero =>
      rw [List.getElem?_cons_zero, Option.some.injEq] at hpart
      exact .inl ⟨rest, hway, hpart ▸ hin⟩
    | succ i =>
      rw [List.getElem?_cons_succ] at hpart
      refine .inr ⟨i, rest, part', ?_, hpart, hin⟩
      rw [hway, Nat.add_assoc, Nat.add_comm 1 i]
  · intro h
    cases h with
    | inl hfirst =>
      obtain ⟨rest, hway, hin⟩ := hfirst
      exact ⟨0, rest, part, hway, rfl, hin⟩
    | inr hrest =>
      obtain ⟨i, rest, part', hway, hpart, hin⟩ := hrest
      refine ⟨i + 1, rest, part', ?_, hpart, hin⟩
      rw [hway, Nat.add_assoc, Nat.add_comm 1 i]

theorem exists_eq_cons_of_inOneOf {n : Nat} {parts : List γ} {inPart : γ → List Nat → α → Prop}
    {way : List Nat} {value : α} (h : InOneOf n parts inPart way value) :
    ∃ i rest, way = (n + i) :: rest := by
  obtain ⟨i, rest, _, hway, -, -⟩ := h
  exact ⟨i, rest, hway⟩

/-- A way into a later part comes after all ways into an earlier one. -/
theorem lt_of_inOneOf {n : Nat} {parts : List γ} {inPart : γ → List Nat → α → Prop}
    {way rest : List Nat} {value : α} (h : InOneOf (n + 1) parts inPart way value) :
    n :: rest < way := by
  obtain ⟨i, rest', rfl⟩ := exists_eq_cons_of_inOneOf h
  rw [List.cons_lt_cons_iff]
  left
  omega

theorem Enumerates.cons {n : Nat} {part : γ} {parts : List γ}
    {holds : γ → List Nat → α → Prop} {found more : List α} (h : Enumerates (holds part) found)
    (hmore : Enumerates (InOneOf (n + 1) parts holds) more) :
    Enumerates (InOneOf n (part :: parts) holds) (found ++ more) := by
  obtain ⟨listed, hsorted, hlisted, rfl⟩ := h
  obtain ⟨rest, hsorted', hlisted', rfl⟩ := hmore
  refine ⟨listed.map (fun entry ↦ (n :: entry.1, entry.2)) ++ rest, ?_, ?_, ?_⟩
  · rw [List.pairwise_append, List.pairwise_map]
    refine ⟨?_, hsorted', ?_⟩
    · apply hsorted.imp
      intro a b hab
      exact List.cons_lt_cons_iff.mpr (.inr ⟨rfl, hab⟩)
    · intro a ha b hb
      obtain ⟨entry, -, rfl⟩ := List.mem_map.mp ha
      exact lt_of_inOneOf ((hlisted' b.1 b.2).mp hb)
  · intro way value
    rw [List.mem_append, List.mem_map, inOneOf_cons_iff, hlisted']
    simp only [Prod.mk.injEq, Prod.exists, ← hlisted]
    constructor
    · rintro (⟨rest, _, hin, rfl, rfl⟩ | hlater)
      · exact .inl ⟨rest, rfl, hin⟩
      · exact .inr hlater
    · rintro (⟨rest, rfl, hin⟩ | hlater)
      · exact .inl ⟨rest, value, hin, rfl, rfl⟩
      · exact .inr hlater
  · rw [List.map_append, List.map_map]
    rfl

/-- Walks through some parts one after the other are a walk through all of them. -/
theorem walks_mapM {holds : γ → List Nat → α → Prop} {stops : γ → List Nat → Failure → Prop}
    {f : γ → Except Failure (List α)} (n : Nat) (parts : List γ)
    (h : ∀ part ∈ parts, Walks (holds part) (stops part) (f part)) :
    Walks (InOneOf n parts holds) (InOneOf n parts stops) ((parts.mapM f).map List.flatten) := by
  induction parts generalizing n with
  | nil =>
    refine ⟨fun way e ⟨i, _, part, _, hpart, _⟩ ↦ by simp at hpart, [], .nil, ?_, rfl⟩
    intro way value
    simp [InOneOf]
  | cons part parts ih =>
    obtain ⟨hfirst, hrest⟩ := List.forall_mem_cons.mp h
    rw [List.mapM_cons]
    cases hpart : f part with
    | error e =>
      rw [hpart] at hfirst
      obtain ⟨way, hstop, hleast⟩ := hfirst
      refine ⟨n :: way, inOneOf_cons_iff.mpr (.inl ⟨way, rfl, hstop⟩), ?_⟩
      intro way' e' hstop'
      cases inOneOf_cons_iff.mp hstop' with
      | inl hsame =>
        obtain ⟨rest, rfl, hin⟩ := hsame
        have hnot := hleast rest e' hin
        simpa [List.cons_lt_cons_iff] using hnot
      | inr hlater => exact List.not_lt.mpr (List.le_of_lt (lt_of_inOneOf hlater))
    | ok found =>
      rw [hpart] at hfirst
      obtain ⟨hpasses, hfound⟩ := hfirst
      have hothers := ih (n + 1) hrest
      cases hmore : parts.mapM f with
      | error e =>
        rw [hmore] at hothers
        obtain ⟨way, hstop, hleast⟩ := hothers
        refine ⟨way, inOneOf_cons_iff.mpr (.inr hstop), ?_⟩
        intro way' e' hstop'
        cases inOneOf_cons_iff.mp hstop' with
        | inl hsame =>
          obtain ⟨rest, -, hin⟩ := hsame
          exact absurd hin (hpasses rest e')
        | inr hlater => exact hleast way' e' hlater
      | ok more =>
        rw [hmore] at hothers
        obtain ⟨hpasses', hmore'⟩ := hothers
        refine ⟨?_, hfound.cons hmore'⟩
        intro way e hstop
        cases inOneOf_cons_iff.mp hstop with
        | inl hsame =>
          obtain ⟨rest, -, hin⟩ := hsame
          exact hpasses rest e hin
        | inr hlater => exact hpasses' way e hlater

end OfflineSupply
