import Mathlib.Data.List.Forall2
import OfflineSupply.Manifest.Basic

/-!
# Lists that are read

A list of texts is read entry by entry, and the first entry that is malformed stops the reading.
What a list was read as stands to it entry for entry.
-/

namespace OfflineSupply

variable {α β ε : Type} {f : α → Except ε β} {xs : List α}

theorem bind_eq_ok_iff {a : Except ε α} {g : α → Except ε β} {y : β} :
    a >>= g = .ok y ↔ ∃ x, a = .ok x ∧ g x = .ok y := by
  cases a <;> simp [bind, Except.bind]

theorem bind_eq_error_iff {a : Except ε α} {g : α → Except ε β} {e : ε} :
    a >>= g = .error e ↔ a = .error e ∨ ∃ x, a = .ok x ∧ g x = .error e := by
  cases a <;> simp [bind, Except.bind]

theorem map_eq_ok_iff {a : Except ε α} {g : α → β} {y : β} :
    a.map g = .ok y ↔ ∃ x, a = .ok x ∧ g x = y := by
  cases a <;> simp [Except.map]

theorem map_eq_error_iff {a : Except ε α} {g : α → β} {e : ε} :
    a.map g = .error e ↔ a = .error e := by
  cases a <;> simp [Except.map]

theorem mapM_cons_eq_ok {x : α} {ys : List β} :
    (x :: xs).mapM f = .ok ys ↔
      ∃ y ys', f x = .ok y ∧ xs.mapM f = .ok ys' ∧ ys = y :: ys' := by
  rw [List.mapM_cons]
  cases f x with
  | error e => simp [bind, Except.bind]
  | ok y =>
    cases xs.mapM f with
    | error e => simp [bind, Except.bind]
    | ok ys' => simp [bind, Except.bind, pure, Except.pure, eq_comm]

/-- A list is read when each of its entries is. -/
theorem mapM_eq_ok_iff {ys : List β} :
    xs.mapM f = .ok ys ↔ List.Forall₂ (fun x y ↦ f x = .ok y) xs ys := by
  induction xs generalizing ys with
  | nil => simp [pure, Except.pure, eq_comm]
  | cons x xs ih =>
    rw [mapM_cons_eq_ok, List.forall₂_cons_left_iff]
    constructor
    · rintro ⟨y, ys', hx, hxs, rfl⟩
      exact ⟨y, ys', hx, ih.mp hxs, rfl⟩
    · rintro ⟨y, ys', hx, hxs, rfl⟩
      exact ⟨y, ys', hx, ih.mpr hxs, rfl⟩

/-- Reading a list succeeds exactly if it does for each of its entries. -/
theorem mapM_isOk_iff : (∃ ys, xs.mapM f = .ok ys) ↔ ∀ x ∈ xs, ∃ y, f x = .ok y := by
  induction xs with
  | nil => simp [pure, Except.pure]
  | cons x xs ih =>
    rw [List.forall_mem_cons, ← ih]
    simp only [mapM_cons_eq_ok]
    constructor
    · intro ⟨_, y, ys, hx, hxs, _⟩
      exact ⟨⟨y, hx⟩, ys, hxs⟩
    · intro ⟨⟨y, hx⟩, ys, hxs⟩
      exact ⟨_, y, ys, hx, hxs, rfl⟩

/-- Reading a list fails exactly if it does for one of its entries. -/
theorem mapM_isError_iff : (∃ e, xs.mapM f = .error e) ↔ ∃ x ∈ xs, ∃ e, f x = .error e := by
  have hdone {γ : Type} (result : Except ε γ) :
      (∃ e, result = .error e) ↔ ¬ ∃ value, result = .ok value := by
    cases result <;> simp
  rw [hdone, mapM_isOk_iff]
  simp only [hdone, not_forall, exists_prop]

/-- What was read are the values of the entries. -/
theorem mem_read_iff {ys : List β} (h : List.Forall₂ (fun x y ↦ f x = .ok y) xs ys) {y : β} :
    y ∈ ys ↔ ∃ x ∈ xs, f x = .ok y := by
  induction h with
  | nil => simp
  | @cons x y' xs ys hx _ ih =>
    have hfirst : f x = .ok y ↔ y = y' := by
      rw [hx, Except.ok.injEq, eq_comm]
    rw [List.mem_cons, ih, List.exists_mem_cons_iff, hfirst]

/-- A list is split at its first element or at a later one. -/
theorem exists_split_cons_iff {x : α} {P : List α → α → List α → Prop} :
    (∃ before y after, x :: xs = before ++ y :: after ∧ P before y after) ↔
      P [] x xs ∨ ∃ before y after, xs = before ++ y :: after ∧ P (x :: before) y after := by
  constructor
  · intro ⟨before, y, after, hsplit, hP⟩
    cases before with
    | nil =>
      rw [List.nil_append, List.cons.injEq] at hsplit
      obtain ⟨rfl, rfl⟩ := hsplit
      exact .inl hP
    | cons first before =>
      rw [List.cons_append, List.cons.injEq] at hsplit
      obtain ⟨rfl, rfl⟩ := hsplit
      exact .inr ⟨before, y, after, rfl, hP⟩
  · intro h
    cases h with
    | inl hP => exact ⟨[], x, xs, rfl, hP⟩
    | inr h =>
      obtain ⟨before, y, after, rfl, hP⟩ := h
      exact ⟨x :: before, y, after, rfl, hP⟩

/-- The reading of a list fails with the failure of its first malformed entry. -/
theorem mapM_eq_error_iff {e : ε} :
    xs.mapM f = .error e ↔
      ∃ before x after, xs = before ++ x :: after ∧ (∀ y ∈ before, ∃ value, f y = .ok value) ∧
        f x = .error e := by
  induction xs with
  | nil => simp [pure, Except.pure]
  | cons x xs ih =>
    have hrest (value : β) :
        (xs.mapM f >>= fun ys ↦ pure (value :: ys)) = .error e ↔ xs.mapM f = .error e := by
      rw [bind_eq_error_iff]
      simp [pure, Except.pure]
    rw [List.mapM_cons, bind_eq_error_iff, exists_split_cons_iff]
    simp only [hrest, ih, List.forall_mem_cons]
    cases hx : f x with
    | error e' => simp
    | ok value => simp

namespace Manifest

variable {Image : Type} {m : Manifest Image} {refs : List Reference}

theorem chartReferences_eq_ok_iff : m.chartReferences = .ok refs ↔
    List.Forall₂ (fun value ref ↦ Reference.ofChart value = .ok ref) m.charts refs := by
  rw [← mapM_eq_ok_iff]
  unfold chartReferences
  cases m.charts.mapM Reference.ofChart <;> simp

/-- The charts that were read are those that the entries spell. -/
theorem mem_chartReferences_iff (h : m.chartReferences = .ok refs) {ref : Reference} :
    ref ∈ refs ↔ ∃ value ∈ m.charts, Reference.ofChart value = .ok ref :=
  mem_read_iff (chartReferences_eq_ok_iff.mp h)

theorem eq_nil_of_chartReferences (h : m.chartReferences = .ok refs)
    (hempty : m.charts.isEmpty = true) : refs = [] := by
  have hread := chartReferences_eq_ok_iff.mp h
  rwa [List.isEmpty_iff.mp hempty, List.forall₂_nil_left_iff] at hread

end Manifest

end OfflineSupply
