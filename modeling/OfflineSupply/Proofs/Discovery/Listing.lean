import Mathlib.Data.List.DropRight
import OfflineSupply.Discovery.Listing

/-!
# What a listing loses

The entries of a listing hold all of it but white space.  Every line break is white space, so that a
carriage return and a line feed may be taken for one break or for two with an empty line in between:
the entries are what is left of the pieces between single breaks.  A listing of entries is therefore
read as it was written, and listings one below the other are read one after the other.
-/

namespace OfflineSupply

namespace Text

variable {c : Char} {cs start line : List Char} {pieces pieces' : List (List Char)}

/-! ## White space at the ends -/

theorem isBlank_of_isLineBreak (h : isLineBreak c = true) : isBlank c = true := by
  simp only [isLineBreak, lineBreaks, List.contains_cons, List.contains_nil, Bool.or_false,
    Bool.or_eq_true, beq_iff_eq] at h
  unfold isBlank
  dsimp only
  rcases h with h | h | h | h | h | h | h | h | h | h <;> rw [h] <;> decide

/-- No white space is at the ends of a text. -/
structure IsTrimmed (cs : List Char) : Prop where
  first : ∀ c ∈ cs.head?, isBlank c = false
  last : ∀ c ∈ cs.getLast?, isBlank c = false

/-- Trimming takes white space off both ends and nothing else. -/
theorem exists_eq_append_trim (cs : List Char) : ∃ before after,
    cs = before ++ trim cs ++ after ∧ before.all isBlank = true ∧ after.all isBlank = true := by
  refine ⟨cs.takeWhile isBlank, (cs.dropWhile isBlank).rtakeWhile isBlank, ?_, ?_, ?_⟩
  · rw [List.append_assoc]
    change _ = _ ++ (List.rdropWhile isBlank (cs.dropWhile isBlank) ++ _)
    rw [List.rdropWhile_append_rtakeWhile, List.takeWhile_append_dropWhile]
  · exact List.all_takeWhile
  · rw [List.all_eq_true]
    intro c hc
    exact List.mem_rtakeWhile_imp hc

theorem isTrimmed_trim (cs : List Char) : IsTrimmed (trim cs) := by
  have hprefix : trim cs <+: cs.dropWhile isBlank := List.rdropWhile_prefix isBlank _
  constructor
  · intro c hc
    obtain ⟨rest, hrest⟩ := hprefix
    have hnot := List.head?_dropWhile_not isBlank cs
    rw [← hrest, List.head?_append, Option.mem_def.mp hc] at hnot
    exact hnot
  · intro c hc
    obtain ⟨hne, hlast⟩ := List.mem_getLast?_eq_getLast hc
    have hnot := List.rdropWhile_last_not isBlank (cs.dropWhile isBlank) hne
    rw [hlast]
    exact Bool.eq_false_iff.mpr hnot

theorem IsTrimmed.trim_eq (h : IsTrimmed cs) : trim cs = cs := by
  have hfirst : cs.dropWhile isBlank = cs := by
    cases cs with
    | nil => rfl
    | cons c cs => rw [List.dropWhile_cons_of_neg (by simp [h.first c rfl])]
  have hlast : List.rdropWhile isBlank cs = cs := by
    rw [List.rdropWhile_eq_self_iff]
    intro hne
    rw [h.last _ (List.getLast?_eq_some_getLast hne)]
    decide
  change List.rdropWhile isBlank (cs.dropWhile isBlank) = cs
  rw [hfirst, hlast]

theorem mem_of_mem_trim (h : c ∈ trim cs) : c ∈ cs := by
  obtain ⟨before, after, hcs, -, -⟩ := exists_eq_append_trim cs
  rw [hcs]
  simp [h]

/-- The characters of a text that are no white space. -/
def ink (cs : List Char) : List Char :=
  cs.filter (!isBlank ·)

theorem ink_eq_nil (h : cs.all isBlank = true) : ink cs = [] := by
  rw [ink, List.filter_eq_nil_iff]
  intro c hc
  simp [List.all_eq_true.mp h c hc]

theorem ink_append (cs cs' : List Char) : ink (cs ++ cs') = ink cs ++ ink cs' :=
  List.filter_append ..

theorem ink_cons_lineBreak (h : isLineBreak c = true) (cs : List Char) : ink (c :: cs) = ink cs := by
  rw [ink, List.filter_cons_of_neg (by simp [isBlank_of_isLineBreak h]), ink]

theorem ink_trim (cs : List Char) : ink (trim cs) = ink cs := by
  obtain ⟨before, after, hcs, hbefore, hafter⟩ := exists_eq_append_trim cs
  conv_rhs => rw [hcs, ink_append, ink_append, ink_eq_nil hbefore, ink_eq_nil hafter,
    List.nil_append, List.append_nil]

/-! ## Lines -/

theorem isLineBreak_of_mem_linesFrom (hstart : ∀ c ∈ start, isLineBreak c = false)
    (hline : line ∈ linesFrom start cs) (hc : c ∈ line) : isLineBreak c = false := by
  have hreverse : ∀ c ∈ start.reverse, isLineBreak c = false := by simpa using hstart
  fun_induction linesFrom start cs with
  | case1 => simp at hline
  | case2 =>
    rw [List.mem_singleton.mp hline] at hc
    exact hreverse c hc
  | case3 start cs ih =>
    rcases List.mem_cons.mp hline with rfl | hlater
    · exact hreverse c hc
    · exact ih (by simp) hlater (by simp)
  | case4 start b cs _ _ ih =>
    rcases List.mem_cons.mp hline with rfl | hlater
    · exact hreverse c hc
    · exact ih (by simp) hlater (by simp)
  | case5 start b cs _ hbreak ih =>
    have hmore : ∀ c ∈ b :: start, isLineBreak c = false := by
      simpa [hbreak] using hstart
    exact ih hmore hline fun c hc ↦ hmore c (List.mem_reverse.mp hc)

/-- Lines hold all of a text but white space. -/
theorem ink_flatten_linesFrom (start cs : List Char) :
    ink (linesFrom start cs).flatten = ink (start.reverse ++ cs) := by
  fun_induction linesFrom start cs with
  | case1 start hempty => simp [List.isEmpty_iff.mp hempty]
  | case2 start => simp
  | case3 start cs ih =>
    rw [List.flatten_cons, ink_append, ih, ink_append start.reverse,
      ink_cons_lineBreak (c := '\r') rfl, ink_cons_lineBreak (c := '\n') rfl, List.reverse_nil,
      List.nil_append]
  | case4 start b cs _ hb ih =>
    rw [List.flatten_cons, ink_append, ih, ink_append start.reverse, ink_cons_lineBreak hb,
      List.reverse_nil, List.nil_append]
  | case5 start b cs _ _ ih => rw [ih, List.reverse_cons, List.append_assoc, List.singleton_append]

/-- What remains of some pieces: each one trimmed, and none that is white space. -/
def remains (pieces : List (List Char)) : List (List Char) :=
  (pieces.map trim).filter (· ≠ [])

theorem remains_append (pieces pieces' : List (List Char)) :
    remains (pieces ++ pieces') = remains pieces ++ remains pieces' := by
  rw [remains, List.map_append, List.filter_append]
  rfl

theorem remains_cons (piece : List Char) (pieces : List (List Char)) :
    remains (piece :: pieces) = remains [piece] ++ remains pieces :=
  remains_append [piece] pieces

theorem remains_nil_cons (pieces : List (List Char)) : remains ([] :: pieces) = remains pieces :=
  rfl

theorem ink_flatten_remains (pieces : List (List Char)) :
    ink (remains pieces).flatten = ink pieces.flatten := by
  induction pieces with
  | nil => rfl
  | cons piece pieces ih =>
    have hpiece : ink (remains [piece]).flatten = ink piece := by
      rw [← ink_trim piece]
      by_cases h : trim piece = [] <;> simp [remains, h]
    rw [remains_cons, List.flatten_append, ink_append, hpiece, ih, List.flatten_cons, ink_append]

/-- An empty line that two breaks have between them does not remain, so that it does not matter
whether they are one break. -/
theorem remains_linesFrom (start cs : List Char) :
    remains (linesFrom start cs) = remains (cs.splitOnPPrepend isLineBreak start) := by
  fun_induction linesFrom start cs with
  | case1 start hempty => simp [List.isEmpty_iff.mp hempty, remains, trim]
  | case2 start => rfl
  | case3 start cs ih =>
    have hpieces : ('\r' :: '\n' :: cs).splitOnPPrepend isLineBreak start =
        start.reverse :: [] :: cs.splitOnP isLineBreak := rfl
    rw [hpieces, remains_cons _ (linesFrom [] cs), ih, remains_cons _ ([] :: _), remains_nil_cons]
    rfl
  | case4 start b cs _ hb ih =>
    rw [List.splitOnPPrepend_cons_pos hb, remains_cons _ (linesFrom [] cs), ih,
      remains_cons _ (List.splitOnP ..)]
    rfl
  | case5 start b cs _ hb ih =>
    rw [ih, List.splitOnPPrepend_cons_neg (Bool.eq_false_iff.mpr hb)]

theorem remains_lines (cs : List Char) :
    remains (lines cs) = remains (cs.splitOnP isLineBreak) :=
  remains_linesFrom [] cs

end Text

namespace Listing

open Text

variable {content entry : String} {listed : List String}

/-- What a listing has on one line: a text without a line break and with no white space at its
ends. -/
structure IsEntry (entry : String) : Prop where
  nonempty : entry ≠ ""
  trimmed : IsTrimmed entry.toList
  unbroken : ∀ c ∈ entry.toList, isLineBreak c = false

theorem toList_entries (content : String) :
    (entries content).map String.toList = remains (lines content.toList) := by
  rw [entries, List.map_map]
  exact (List.map_congr_left fun _ _ ↦ String.toList_ofList).trans (List.map_id _)

theorem isEntry_of_mem (h : entry ∈ entries content) : IsEntry entry := by
  have hmem : entry.toList ∈ remains (lines content.toList) := by
    rw [← toList_entries]
    exact List.mem_map_of_mem h
  obtain ⟨hline, hne⟩ := List.mem_filter.mp hmem
  obtain ⟨line, hline, htrim⟩ := List.mem_map.mp hline
  constructor
  · simpa using hne
  · exact htrim ▸ isTrimmed_trim line
  · intro c hc
    exact isLineBreak_of_mem_linesFrom (by simp) hline (mem_of_mem_trim (htrim ▸ hc))

/-- An entry by itself is a listing of it. -/
theorem IsEntry.entries_eq (h : IsEntry entry) : entries entry = [entry] := by
  have hne : entry.toList ≠ [] := by simpa using h.nonempty
  apply List.map_injective_iff.mpr fun _ _ ↦ String.toList_injective
  rw [toList_entries, remains_lines, List.splitOnP_eq_singleton h.unbroken]
  simp [remains, h.trimmed.trim_eq, hne]

/-- Listings that a line break stands between are read one after the other. -/
theorem entries_append_break {c : Char} (hc : isLineBreak c = true) (above below : String) :
    entries (above ++ String.singleton c ++ below) = entries above ++ entries below := by
  apply List.map_injective_iff.mpr fun _ _ ↦ String.toList_injective
  have hsplit := List.splitOnP_append_cons above.toList below.toList hc
  simp only [List.map_append, toList_entries, remains_lines, String.toList_append,
    String.toList_singleton, List.append_assoc, List.singleton_append, hsplit, remains_append]

/-- Entries one below the other are read as they are. -/
theorem entries_intercalate (h : ∀ entry ∈ listed, IsEntry entry) :
    entries ("\n".intercalate listed) = listed := by
  induction listed with
  | nil => rfl
  | cons entry listed ih =>
    obtain ⟨hentry, hlisted⟩ := List.forall_mem_cons.mp h
    cases listed with
    | nil => rw [String.intercalate_singleton, hentry.entries_eq]
    | cons next listed =>
      have hbreak := entries_append_break (c := '\n') rfl entry ("\n".intercalate (next :: listed))
      rw [hentry.entries_eq, ih hlisted] at hbreak
      rw [String.intercalate_cons_cons]
      exact hbreak

/-- The entries of a listing are not empty, have no white space at their ends and no line break in
them, and together they hold all of the listing but white space.  A list is read as it was written,
each element on a line, exactly if it consists of such entries; so the entries of a listing are.
Listings one below the other are read one after the other, whatever they begin and end with. -/
theorem entries_lossless (content : String) :
    (∀ entry ∈ entries content, IsEntry entry) ∧
    ink (String.join (entries content)).toList = ink content.toList ∧
    (∀ listed, entries ("\n".intercalate listed) = listed ↔ ∀ entry ∈ listed, IsEntry entry) ∧
    entries ("\n".intercalate (entries content)) = entries content ∧
    ∀ above below, entries (above ++ "\n" ++ below) = entries above ++ entries below := by
  have hentries : ∀ entry ∈ entries content, IsEntry entry := fun _ ↦ isEntry_of_mem
  refine ⟨hentries, ?_, ?_, entries_intercalate hentries, entries_append_break (c := '\n') rfl⟩
  · rw [String.toList_join, List.flatMap_def, toList_entries, ink_flatten_remains]
    exact ink_flatten_linesFrom [] _
  · intro listed
    refine ⟨fun hread entry hentry ↦ ?_, entries_intercalate⟩
    rw [← hread] at hentry
    exact isEntry_of_mem hentry

/-- White space inside of an entry stays, and every break ends one. -/
example : entries "\t a:1 b\r\n\u0085\r c\u3000\u2028\x0bd" = ["a:1 b", "c", "d"] := by
  decide

end Listing

end OfflineSupply
