/-!
# Cutting a text at a separator

A reference is read by cutting its text at the first or at the last separator.  A cut
loses nothing: the parts, put back around the separator, are the text, and the part that
was searched holds no separator.
-/

namespace OfflineSupply.Text

/-- The text before the first separator, and the text after it when there is one. -/
def cutFirst (sep : Char) : List Char → List Char × Option (List Char)
  | [] => ([], none)
  | c :: cs =>
    if c = sep then ([], some cs) else
      let cut := cutFirst sep cs
      (c :: cut.1, cut.2)

/-- The text before the last separator when there is one, and the text after it. -/
def cutLast (sep : Char) : List Char → Option (List Char) × List Char
  | [] => (none, [])
  | c :: cs =>
    match cutLast sep cs with
    | (some before, after) => (some (c :: before), after)
    | (none, after) => if c = sep then (some [], after) else (none, c :: after)

/-- The text before the first occurrence of a word and the text after it. -/
def cutWord (word : List Char) : List Char → Option (List Char × List Char)
  | [] => if word.isEmpty then some ([], []) else none
  | c :: cs =>
    if word.isPrefixOf (c :: cs) then some ([], (c :: cs).drop word.length)
    else (cutWord word cs).map fun cut => (c :: cut.1, cut.2)

/-- The text after its last separator: all of it when there is none. -/
def afterLast (sep : Char) (cs : List Char) : List Char :=
  (cutLast sep cs).2

/-- The text without the copies of a character at its end. -/
def dropTrailing (c : Char) (cs : List Char) : List Char :=
  (cs.reverse.dropWhile (· = c)).reverse

/-- A part behind its separator; nothing for a part that is not there. -/
def behind (sep : Char) (part : Option (List Char)) : List Char :=
  part.elim [] (sep :: ·)

/-- Every piece between two separators, empty ones too. -/
def pieces (sep : Char) : List Char → List (List Char)
  | [] => [[]]
  | c :: cs =>
    if c = sep then [] :: pieces sep cs
    else match pieces sep cs with
      | [] => [[c]]
      | piece :: rest => (c :: piece) :: rest

theorem cutFirst_eq_append {sep : Char} {cs before : List Char} {after : List Char}
    (h : cutFirst sep cs = (before, some after)) : cs = before ++ sep :: after := by
  induction cs generalizing before with
  | nil => simp [cutFirst] at h
  | cons c cs ih =>
    by_cases hc : c = sep
    · simp only [cutFirst, if_pos hc, Prod.mk.injEq, Option.some.injEq] at h
      obtain ⟨rfl, rfl⟩ := h
      simp [hc]
    · simp only [cutFirst, if_neg hc, Prod.mk.injEq] at h
      obtain ⟨rfl, hafter⟩ := h
      have := @ih (cutFirst sep cs).1 (Prod.ext rfl hafter)
      simp [← this]

theorem cutFirst_eq_self {sep : Char} {cs before : List Char}
    (h : cutFirst sep cs = (before, none)) : cs = before := by
  induction cs generalizing before with
  | nil => simpa [cutFirst] using h
  | cons c cs ih =>
    by_cases hc : c = sep
    · simp [cutFirst, if_pos hc] at h
    · simp only [cutFirst, if_neg hc, Prod.mk.injEq] at h
      obtain ⟨rfl, hafter⟩ := h
      exact congrArg (c :: ·) (ih (Prod.ext rfl hafter))

theorem not_mem_cutFirst (sep : Char) (cs : List Char) : sep ∉ (cutFirst sep cs).1 := by
  induction cs with
  | nil => simp [cutFirst]
  | cons c cs ih =>
    by_cases hc : c = sep
    · simp [cutFirst, hc]
    · simp [cutFirst, hc, ih, Ne.symm hc]

theorem cutLast_eq_self {sep : Char} {cs after : List Char}
    (h : cutLast sep cs = (none, after)) : cs = after := by
  induction cs generalizing after with
  | nil => simpa [cutLast] using h
  | cons c cs ih =>
    rw [cutLast] at h
    split at h
    · simp at h
    · rename_i last heq
      split at h
      · simp at h
      · simp only [Prod.mk.injEq, true_and] at h
        rw [← h, ih heq]

theorem cutLast_eq_append {sep : Char} {cs before after : List Char}
    (h : cutLast sep cs = (some before, after)) : cs = before ++ sep :: after := by
  induction cs generalizing before with
  | nil => simp [cutLast] at h
  | cons c cs ih =>
    rw [cutLast] at h
    split at h
    · rename_i tail last heq
      simp only [Prod.mk.injEq, Option.some.injEq] at h
      obtain ⟨rfl, rfl⟩ := h
      simp [← ih heq]
    · rename_i last heq
      split at h
      · rename_i hc
        simp only [Prod.mk.injEq, Option.some.injEq] at h
        obtain ⟨rfl, rfl⟩ := h
        simp [hc, cutLast_eq_self heq]
      · simp at h

theorem not_mem_cutLast (sep : Char) (cs : List Char) : sep ∉ (cutLast sep cs).2 := by
  induction cs with
  | nil => simp [cutLast]
  | cons c cs ih =>
    rw [cutLast]
    split
    · rename_i heq
      simpa [heq] using ih
    · rename_i heq
      rw [heq] at ih
      split
      · exact ih
      · rename_i hc
        simp [ih, Ne.symm hc]

/-- What follows a separator anywhere in a text is the end of what follows the first one. -/
theorem suffix_cutFirst (sep : Char) (before after : List Char) :
    ∃ first rest, cutFirst sep (before ++ sep :: after) = (first, some rest) ∧ after <:+ rest := by
  induction before with
  | nil => exact ⟨[], after, by simp [cutFirst], List.suffix_refl after⟩
  | cons c before ih =>
    by_cases hc : c = sep
    · refine ⟨[], before ++ sep :: after, by simp [cutFirst, hc], before ++ [sep], by simp⟩
    · obtain ⟨first, rest, hcut, hsuffix⟩ := ih
      exact ⟨c :: first, rest, by simp [cutFirst, hc, hcut], hsuffix⟩

theorem mem_behind_iff {sep c : Char} {part : Option (List Char)} (hc : c ≠ sep) :
    c ∈ behind sep part ↔ ∃ p ∈ part, c ∈ p := by
  cases part with
  | none => simp [behind]
  | some p => simp [behind, hc]

theorem cutFirst_append {sep : Char} {before : List Char} (h : sep ∉ before) (after : List Char) :
    cutFirst sep (before ++ sep :: after) = (before, some after) := by
  induction before with
  | nil => simp [cutFirst]
  | cons c before ih =>
    rw [List.mem_cons, not_or] at h
    simp [cutFirst, Ne.symm h.1, ih h.2]

theorem cutFirst_of_not_mem {sep : Char} {cs : List Char} (h : sep ∉ cs) :
    cutFirst sep cs = (cs, none) := by
  induction cs with
  | nil => rfl
  | cons c cs ih =>
    rw [List.mem_cons, not_or] at h
    rw [cutFirst, if_neg (Ne.symm h.1), ih h.2]

/-- A text is cut at its first separator: what stands before it holds none. -/
theorem cutFirst_eq_iff {sep : Char} {cs before : List Char} {after : Option (List Char)} :
    cutFirst sep cs = (before, after) ↔ cs = before ++ behind sep after ∧ sep ∉ before := by
  constructor
  · intro hcut
    have hmem := not_mem_cutFirst sep cs
    rw [hcut] at hmem
    refine ⟨?_, hmem⟩
    cases after with
    | none => rw [behind, Option.elim_none, List.append_nil, cutFirst_eq_self hcut]
    | some after => exact cutFirst_eq_append hcut
  · rintro ⟨rfl, hmem⟩
    cases after with
    | none => rw [behind, Option.elim_none, List.append_nil, cutFirst_of_not_mem hmem]
    | some after => exact cutFirst_append hmem after

theorem cutLast_of_not_mem {sep : Char} {cs : List Char} (h : sep ∉ cs) :
    cutLast sep cs = (none, cs) := by
  induction cs with
  | nil => rfl
  | cons c cs ih =>
    rw [List.mem_cons, not_or] at h
    rw [cutLast, ih h.2]
    exact if_neg (Ne.symm h.1)

theorem cutLast_append {sep : Char} {after : List Char} (before : List Char) (h : sep ∉ after) :
    cutLast sep (before ++ sep :: after) = (some before, after) := by
  induction before with
  | nil => simp [cutLast, cutLast_of_not_mem h]
  | cons c before ih => simp [cutLast, ih]

/-- An end of a text without a separator is an end of what follows the last one. -/
theorem suffix_cutLast {sep : Char} {last : List Char} (before : List Char) (h : sep ∉ last) :
    last <:+ (cutLast sep (before ++ last)).2 := by
  induction before with
  | nil =>
    have hcut := cutLast_of_not_mem h
    exact ⟨[], by rw [List.nil_append, hcut]⟩
  | cons c before ih =>
    rw [List.cons_append, cutLast]
    split
    · rename_i hcut
      rwa [hcut] at ih
    · rename_i hcut
      rw [hcut] at ih
      split
      · exact ih
      · exact ih.trans (List.suffix_cons _ _)

theorem afterLast_eq_self {sep : Char} {cs : List Char} (h : sep ∉ cs) : afterLast sep cs = cs := by
  rw [afterLast, cutLast_of_not_mem h]

/-- What stands before a separator does not matter for what follows the last one. -/
theorem afterLast_append {sep : Char} (before after : List Char) :
    afterLast sep (before ++ sep :: after) = afterLast sep after := by
  have hmem := not_mem_cutLast sep after
  rcases hcut : cutLast sep after with ⟨_ | middle, last⟩
  · rw [cutLast_eq_self hcut, afterLast, afterLast_eq_self, cutLast_append]
    all_goals rwa [hcut] at hmem
  · have hafter := cutLast_eq_append hcut
    rw [hcut] at hmem
    have hwhole : before ++ sep :: after = (before ++ sep :: middle) ++ sep :: last := by
      simp [hafter]
    rw [afterLast, hwhole, cutLast_append _ hmem, afterLast, hcut]

/-- A text is cut at the first occurrence of a word. -/
theorem cutWord_eq_some_iff {word cs before after : List Char} :
    cutWord word cs = some (before, after) ↔
      cs = before ++ word ++ after ∧
        ∀ front rest, cs = front ++ word ++ rest → before.length ≤ front.length := by
  induction cs generalizing before with
  | nil =>
    cases word with
    | nil =>
      have hempty : cutWord [] [] = some ([], []) := rfl
      rw [hempty, Option.some.injEq, Prod.mk.injEq]
      constructor
      · intro ⟨hbefore, hafter⟩
        simp [← hbefore, ← hafter]
      · intro ⟨hsplit, _⟩
        simpa [eq_comm] using hsplit
    | cons w word => simp [cutWord]
  | cons c cs ih =>
    by_cases hprefix : word.isPrefixOf (c :: cs) = true
    · obtain ⟨rest, hrest⟩ := List.isPrefixOf_iff_prefix.mp hprefix
      have hcut : cutWord word (c :: cs) = some ([], rest) := by
        simp [cutWord, ← hrest]
      rw [hcut, Option.some.injEq, Prod.mk.injEq]
      constructor
      · intro ⟨hbefore, hafter⟩
        simp [← hbefore, ← hafter, hrest]
      · intro ⟨hsplit, hfirst⟩
        have hbefore : before = [] := by
          simpa using hfirst [] rest hrest.symm
        refine ⟨hbefore.symm, ?_⟩
        rw [← hrest, hbefore] at hsplit
        simpa using hsplit
    · have hcut : cutWord word (c :: cs) =
          (cutWord word cs).map fun cut => (c :: cut.1, cut.2) := by
        simp [cutWord, hprefix]
      rw [hcut, Option.map_eq_some_iff]
      constructor
      · intro ⟨⟨front, rest⟩, hfound, heq⟩
        obtain ⟨rfl, rfl⟩ := Prod.mk.inj heq
        obtain ⟨hsplit, hfirst⟩ := ih.mp hfound
        refine ⟨by simp [hsplit], fun front' rest' hsplit' => ?_⟩
        cases front' with
        | nil => exact absurd (List.isPrefixOf_iff_prefix.mpr ⟨rest', hsplit'.symm⟩) hprefix
        | cons d front' =>
          simp only [List.cons_append, List.cons.injEq] at hsplit'
          simpa using hfirst front' rest' hsplit'.2
      · intro ⟨hsplit, hfirst⟩
        cases before with
        | nil => exact absurd (List.isPrefixOf_iff_prefix.mpr ⟨after, hsplit.symm⟩) hprefix
        | cons d before =>
          simp only [List.cons_append, List.cons.injEq] at hsplit
          obtain ⟨rfl, hsplit⟩ := hsplit
          refine ⟨(before, after), ih.mpr ⟨hsplit, fun front rest hfront => ?_⟩, rfl⟩
          have hlength := hfirst (c :: front) rest (by simp [hfront])
          simpa using hlength

end OfflineSupply.Text
