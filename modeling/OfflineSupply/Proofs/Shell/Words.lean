import OfflineSupply.Command.Basic
import OfflineSupply.Shell.Words

/-!
# The words of a quoted line

Quoting puts the arguments of a command into a line, and a shell takes the line apart again.  Reading
the word that stands for an argument leads from between two words to the argument itself, whatever its
characters are, and the blank behind it ends the word.  So a shell finds exactly the arguments, and no
text in the place of an argument can change how many words there are or what the others are.
-/

namespace OfflineSupply.Shell

variable {c : Char} {cs argument written rest : List Char}

/-! ## Characters that stand for themselves -/

/-- The characters that end a word, begin a comment or begin a quotation. -/
def shellMarks : List Char :=
  [' ', '\t', '#', '\\', '\x27', '\x22']

theorem isHarmless_eq_false_of_mem (h : c ∈ shellMarks ++ bareSpecials) : isHarmless c = false := by
  have hall : (shellMarks ++ bareSpecials).all (fun c ↦ !isHarmless c) = true := by decide
  simpa using List.all_eq_true.mp hall c h

theorem not_mem_of_isHarmless (h : isHarmless c = true) : c ∉ shellMarks ∧ c ∉ bareSpecials := by
  constructor
  · intro hmark
    simp [isHarmless_eq_false_of_mem (List.mem_append_left _ hmark)] at h
  · intro hspecial
    simp [isHarmless_eq_false_of_mem (List.mem_append_right _ hspecial)] at h

theorem bareStep_of_isHarmless (h : isHarmless c = true) :
    bareStep written c = some (.bare (c :: written)) := by
  obtain ⟨hmark, hspecial⟩ := not_mem_of_isHarmless h
  simp only [shellMarks, List.mem_cons, not_or] at hmark
  simp [bareStep, hmark, hspecial]

/-- A harmless character begins a word. -/
theorem wordsFrom_between_harmless (h : isHarmless c = true) :
    wordsFrom .between (c :: cs) = wordsFrom (.bare [c]) cs := by
  obtain ⟨hmark, -⟩ := not_mem_of_isHarmless h
  simp only [shellMarks, List.mem_cons, not_or] at hmark
  simp [wordsFrom, bareStep_of_isHarmless h, hmark]

/-- Harmless characters continue a word. -/
theorem wordsFrom_bare_harmless (h : ∀ c ∈ cs, isHarmless c = true) :
    wordsFrom (.bare written) (cs ++ rest) = wordsFrom (.bare (cs.reverse ++ written)) rest := by
  induction cs generalizing written with
  | nil => rfl
  | cons c cs ih =>
    obtain ⟨hc, hcs⟩ := List.forall_mem_cons.mp h
    obtain ⟨hmark, -⟩ := not_mem_of_isHarmless hc
    simp only [shellMarks, List.mem_cons, not_or] at hmark
    have hstep : wordsFrom (.bare written) (c :: (cs ++ rest)) =
        wordsFrom (.bare (c :: written)) (cs ++ rest) := by
      simp [wordsFrom, bareStep_of_isHarmless hc, hmark]
    rw [List.cons_append, hstep, ih hcs]
    simp

/-! ## Quotations -/

/-- A character between single quotes continues the word, and so does the detour that a single quote
takes through double quotes. -/
theorem wordsFrom_single_quotedChar :
    wordsFrom (.single written) (quotedChar c ++ rest) = wordsFrom (.single (c :: written)) rest := by
  by_cases hc : c = '\x27'
  · rw [hc]
    rfl
  · simp [quotedChar, wordsFrom, hc]

theorem wordsFrom_single_quoted :
    wordsFrom (.single written) (cs.flatMap quotedChar ++ '\x27' :: rest) =
      wordsFrom (.bare (cs.reverse ++ written)) rest := by
  induction cs generalizing written with
  | nil => rfl
  | cons c cs ih =>
    rw [List.flatMap_cons, List.append_assoc, wordsFrom_single_quotedChar, ih]
    simp

/-! ## Words and lines -/

/-- Reading the word for an argument leads to the argument. -/
theorem wordsFrom_word :
    wordsFrom .between (word argument ++ rest) = wordsFrom (.bare argument.reverse) rest := by
  unfold word
  split
  · rename_i h
    rw [Bool.and_eq_true, List.all_eq_true] at h
    obtain ⟨hne, hharmless⟩ := h
    cases argument with
    | nil => simp at hne
    | cons c cs =>
      obtain ⟨hc, hcs⟩ := List.forall_mem_cons.mp hharmless
      rw [List.cons_append, wordsFrom_between_harmless hc, wordsFrom_bare_harmless hcs]
      simp
  · have hopen : ∀ text, wordsFrom .between ('\x27' :: text) = wordsFrom (.single []) text :=
      fun _ ↦ rfl
    rw [List.append_assoc, List.cons_append, hopen, List.singleton_append,
      wordsFrom_single_quoted, List.append_nil]

/-- The blank between two words keeps them apart. -/
theorem wordsFrom_word_blank :
    wordsFrom .between (word argument ++ ' ' :: rest) =
      (wordsFrom .between rest).map (argument :: ·) := by
  rw [wordsFrom_word]
  simp [wordsFrom]

theorem toList_line (arguments : List String) :
    (line arguments).toList = [' '].intercalate (arguments.map fun a ↦ word a.toList) := by
  rw [line, String.toList_intercalate, List.map_map]
  congr 1
  apply List.map_congr_left
  intro a _
  simp

/-- The words of a line are the arguments that it was made of. -/
theorem wordsFrom_intercalate (arguments : List (List Char)) :
    wordsFrom .between ([' '].intercalate (arguments.map word)) = some arguments := by
  induction arguments with
  | nil => rfl
  | cons argument arguments ih =>
    cases arguments with
    | nil =>
      have hword : wordsFrom .between (word argument ++ []) = wordsFrom (.bare argument.reverse) [] :=
        wordsFrom_word
      rw [List.append_nil] at hword
      simp [hword, wordsFrom]
    | cons next arguments =>
      rw [List.map_cons, List.map_cons, List.intercalate_cons_cons, List.append_assoc,
        List.singleton_append, wordsFrom_word_blank, ← List.map_cons, ih]
      rfl

theorem words?_line (arguments : List String) : words? (line arguments) = some arguments := by
  have hwords : wordsFrom .between (line arguments).toList = some (arguments.map String.toList) := by
    rw [toList_line, ← wordsFrom_intercalate, List.map_map]
    rfl
  rw [words?, hwords, Option.map_some, List.map_map]
  simp

theorem line_injective : Function.Injective line := by
  intro arguments arguments' h
  have hwords : some arguments = some arguments' := by
    rw [← words?_line, ← words?_line, h]
  exact Option.some.inj hwords

end OfflineSupply.Shell

namespace OfflineSupply.Command

/-- A shell takes the line of a command apart into exactly its arguments.  Commands with the same line
have the same arguments, and a text that takes the place of an argument takes the place of that word
and no other. -/
theorem line_lossless (c : Command) :
    Shell.words? c.line = some c.arguments ∧
      (∀ c' : Command, c'.line = c.line ↔ c'.arguments = c.arguments) ∧
      ∀ (i : Nat) (text : String),
        Shell.words? { c with arguments := c.arguments.set i text }.line =
          (Shell.words? c.line).map fun words ↦ words.set i text := by
  have hwords (c : Command) : Shell.words? c.line = some c.arguments := Shell.words?_line c.arguments
  refine ⟨hwords c, ?_, ?_⟩
  · intro c'
    constructor
    · intro h
      exact Shell.line_injective h
    · intro h
      exact congrArg Shell.line h
  · intro i text
    rw [hwords, hwords]
    rfl

/-- Quotes, blanks, marks and empty texts are words like any other. -/
example : Shell.words? (Shell.line ["helm", "it's", "", "a b;$c", "# \n"]) =
    some ["helm", "it's", "", "a b;$c", "# \n"] := by
  decide

end OfflineSupply.Command
