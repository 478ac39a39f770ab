import Mathlib.Data.List.TakeWhile
import OfflineSupply.Yaml.Cursor

/-!
# Cursors before known characters

Where a cursor stands is told by the characters that it stands before: the next ones, how it goes on
behind some of them, and whether a line is broken there.
-/

namespace OfflineSupply.Yaml.Cursor

variable {c : Cursor} {cs taken rest : List Char} {ch : Char} {p : Char → Bool}

/-- A cursor stands before some characters and knows how many they are. -/
structure Before (c : Cursor) (cs : List Char) : Prop where
  rest : c.rest = cs
  left : c.left = cs.length

theorem before_start (cs : List Char) : (start cs).Before cs := ⟨rfl, rfl⟩

theorem Before.peek (h : c.Before cs) : c.peek = cs.head? :=
  congrArg List.head? h.rest

theorem Before.peekAt (h : c.Before cs) (n : Nat) : c.peekAt n = cs[n]? :=
  congrArg (·[n]?) h.rest

theorem Before.next (h : c.Before (ch :: cs)) : c.next.Before cs := by
  have hleft : c.left - 1 = cs.length := by rw [h.left]; rfl
  unfold Cursor.next
  rw [h.rest]
  dsimp only
  split <;> exact ⟨rfl, hleft⟩

theorem skip_add (c : Cursor) (m n : Nat) : c.skip (m + n) = (c.skip m).skip n := by
  induction m generalizing c with
  | zero => rw [Nat.zero_add, skip]
  | succ m ih => rw [Nat.succ_add, skip, skip, ih]

theorem skip_one (c : Cursor) : c.skip 1 = c.next := rfl

/-- Behind some characters a cursor stands before the others. -/
theorem Before.skip (h : c.Before (cs ++ rest)) : (c.skip cs.length).Before rest := by
  induction cs generalizing c with
  | nil => exact h
  | cons ch cs ih => exact ih h.next

theorem Before.left_skip_lt (h : c.Before (cs ++ rest)) (hcs : cs ≠ []) :
    (c.skip cs.length).left < c.left := by
  have hlength := List.length_pos_iff.mpr hcs
  rw [h.skip.left, h.left, List.length_append]
  omega

theorem Before.left_next_lt (h : c.Before (ch :: cs)) : c.next.left < c.left := by
  rw [h.next.left, h.left]
  exact Nat.lt_succ_self _

theorem Before.span (h : c.Before (taken ++ rest)) (htaken : ∀ ch ∈ taken, p ch = true)
    (hrest : ∀ ch ∈ rest.head?, p ch = false) : c.span p = (taken, c.skip taken.length) := by
  have hstop : rest.takeWhile p = [] := by
    cases rest with
    | nil => rfl
    | cons ch rest => exact List.takeWhile_cons_of_neg (by simp [hrest ch rfl])
  have hspan : c.rest.takeWhile p = taken := by
    rw [h.rest, List.takeWhile_append_of_pos htaken, hstop, List.append_nil]
  rw [Cursor.span, hspan]

/-- Where none of a class stands first, none is taken. -/
theorem Before.span_eq_nil (h : c.Before cs) (hcs : ∀ ch ∈ cs.head?, p ch = false) :
    c.span p = ([], c) :=
  @Before.span c [] cs p h (by simp) hcs

theorem Before.skipWhile (h : c.Before (taken ++ rest)) (htaken : ∀ ch ∈ taken, p ch = true)
    (hrest : ∀ ch ∈ rest.head?, p ch = false) : c.skipWhile p = c.skip taken.length := by
  rw [Cursor.skipWhile, h.span htaken hrest]

theorem Before.skipWhile_eq_self (h : c.Before cs) (hcs : ∀ ch ∈ cs.head?, p ch = false) :
    c.skipWhile p = c := by
  rw [Cursor.skipWhile, h.span_eq_nil hcs]

section Replicate

variable {n : Nat}

theorem Before.skip_replicate (h : c.Before (List.replicate n ch ++ rest)) :
    (c.skip n).Before rest := by
  have hskip := h.skip
  rwa [List.length_replicate] at hskip

theorem Before.span_replicate (h : c.Before (List.replicate n ch ++ rest)) (hch : p ch = true)
    (hrest : ∀ ch ∈ rest.head?, p ch = false) :
    c.span p = (List.replicate n ch, c.skip n) := by
  have hspan := h.span (fun d hd ↦ (List.eq_of_mem_replicate hd) ▸ hch) hrest
  rwa [List.length_replicate] at hspan

theorem Before.skipWhile_replicate (h : c.Before (List.replicate n ch ++ rest)) (hch : p ch = true)
    (hrest : ∀ ch ∈ rest.head?, p ch = false) : c.skipWhile p = c.skip n := by
  rw [Cursor.skipWhile, h.span_replicate hch hrest]

end Replicate

/-! ## Line breaks -/

theorem endsToken_eq_false_iff :
    endsToken (some ch) = false ↔ isSpaceOrTab ch = false ∧ isBreak ch = false :=
  Bool.or_eq_false_iff

theorem lineBreak_eq_self (h : c.Before cs) (hcs : ∀ ch ∈ cs.head?, isBreak ch = false) :
    c.lineBreak = ([], c) := by
  unfold lineBreak
  rw [h.rest]
  split
  · exact absurd (hcs '\r' rfl) (by decide)
  · rename_i ch cs hstart
    have hbreak : isBreak ch = false := hcs ch rfl
    have hseparators : ¬ (decide (ch = '\u2028') || decide (ch = '\u2029')) = true := by
      intro hseparator
      rw [Bool.or_eq_true, decide_eq_true_iff, decide_eq_true_iff] at hseparator
      rcases hseparator with rfl | rfl <;> exact absurd hbreak (by decide)
    rw [if_neg hseparators, if_neg (by simp [hbreak])]
  · rfl

theorem lineBreak_feed (h : c.Before ('\n' :: cs)) : c.lineBreak = (['\n'], c.next) := by
  unfold lineBreak
  rw [h.rest]
  rfl

theorem column_next_feed (h : c.Before ('\n' :: cs)) : c.next.column = 0 := by
  unfold next
  rw [h.rest]
  rfl

theorem column_next_space (h : c.Before (' ' :: cs)) : c.next.column = c.column + 1 := by
  unfold next
  rw [h.rest]
  rfl

/-- A mark of a document does not begin with anything but its own character. -/
theorem atDocumentMark_eq_false (h : c.Before (ch :: cs)) (hhyphen : ch ≠ '-') (hpoint : ch ≠ '.') :
    c.atDocumentMark = false := by
  unfold atDocumentMark atMark
  rw [h.rest]
  simp [hhyphen, hpoint]

/-- A mark of a document stands at the beginning of a line. -/
theorem atDocumentMark_of_column (h : 1 ≤ c.column) : c.atDocumentMark = false := by
  unfold atDocumentMark atMark
  rw [decide_eq_false (Nat.ne_of_gt h)]
  rfl

end OfflineSupply.Yaml.Cursor
