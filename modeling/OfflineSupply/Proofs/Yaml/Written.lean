import Mathlib.Data.List.Basic
import OfflineSupply.Proofs.Yaml.Quoted
import OfflineSupply.Yaml.ScalarWriter

/-!
# Written between quotes

Whatever is written between quotes is read back, on however many lines.  Between single quotes words
and the runs of white space between them are written one after the other; between double quotes the
characters are, each as itself or as its escape.
-/

namespace OfflineSupply.Yaml

open Cursor

variable {p : Pen} {cs rest : List Char} {parts : List (List Char)} {c : Char} {first : Bool}

theorem Pen.written_write (p : Pen) (cs : List Char) :
    (p.write cs).written = cs.reverse ++ p.written :=
  List.reverseAux_eq

/-- A line that is not empty is broken before the indentation. -/
theorem Pen.written_indent (h : p.column ≠ 0) :
    p.indent.written = ['\n', ' ', ' '].reverse ++ p.written := by
  rw [indent, if_neg h]
  rfl

/-! ## Words and white space -/

/-- A run of characters that are neither spaces nor line feeds. -/
structure IsWord (run : List Char) : Prop where
  ne_nil : run ≠ []
  ink : ∀ c ∈ run, c ≠ ' ' ∧ c ≠ '\n'

/-- Words with runs of spaces or of line feeds between them. -/
inductive Spaced : List (List Char) → Prop
  | nil : Spaced []
  | word {run : List Char} {parts : List (List Char)} (hword : IsWord run) (h : Spaced parts)
      (hnext : ∀ run ∈ parts.head?, ¬ IsWord run) : Spaced (run :: parts)
  | spaces (n : Nat) {parts : List (List Char)} (h : Spaced parts)
      (hnext : ∀ run ∈ parts.head?, IsWord run) : Spaced (List.replicate (n + 1) ' ' :: parts)
  | feeds (n : Nat) {parts : List (List Char)} (h : Spaced parts)
      (hnext : ∀ run ∈ parts.head?, IsWord run) : Spaced (List.replicate (n + 1) '\n' :: parts)

theorem not_isWord_spaces (n : Nat) : ¬ IsWord (List.replicate (n + 1) ' ') :=
  fun h ↦ absurd rfl (h.ink ' ' (by simp)).1

theorem not_isWord_feeds (n : Nat) : ¬ IsWord (List.replicate (n + 1) '\n') :=
  fun h ↦ absurd rfl (h.ink '\n' (by simp)).2

theorem isWord_singleton (hspace : c ≠ ' ') (hfeed : c ≠ '\n') : IsWord [c] :=
  ⟨by simp, by simp [hspace, hfeed]⟩

/-- What a character is part of: white space of the one kind or the other, or a word. -/
def kind (c : Char) : Nat :=
  if c = ' ' then 0 else if c = '\n' then 1 else 2

theorem kind_of_isWord {run : List Char} (h : IsWord run) (hc : c ∈ run) : kind c = 2 := by
  rw [kind, if_neg (h.ink c hc).1, if_neg (h.ink c hc).2]

theorem runs_cons_of_nil (h : runs cs = []) : runs (c :: cs) = [[c]] := by
  rw [runs, h]

theorem runs_cons {d : Char} {run : List Char} (h : runs cs = (d :: run) :: parts) :
    runs (c :: cs) =
      if kind c = kind d then (c :: d :: run) :: parts else [c] :: (d :: run) :: parts := by
  rw [runs, h]
  rfl

/-- Text falls into runs without a rest. -/
theorem flatten_runs (cs : List Char) : (runs cs).flatten = cs ∧ ∀ run ∈ runs cs, run ≠ [] := by
  induction cs with
  | nil => exact ⟨rfl, by simp [runs]⟩
  | cons c cs ih =>
    obtain ⟨hflatten, hsome⟩ := ih
    cases hruns : runs cs with
    | nil =>
      rw [hruns] at hflatten
      rw [runs_cons_of_nil hruns, ← hflatten]
      simp
    | cons first parts =>
      rw [hruns] at hflatten hsome
      cases first with
      | nil => exact absurd rfl (hsome [] (by simp))
      | cons d run =>
        rw [runs_cons hruns, ← hflatten]
        split
        · simpa using fun run hrun ↦ hsome run (by simp [hrun])
        · simpa using fun run hrun ↦ hsome run (by simp [hrun])

/-- A text in which no space stands beside a line feed falls into words and white space. -/
theorem spaced_runs (hfeed : hasPair ' ' '\n' cs = false) (hspace : hasPair '\n' ' ' cs = false) :
    Spaced (runs cs) := by
  induction cs with
  | nil => exact .nil
  | cons c cs ih =>
    have hspaced : Spaced (runs cs) := by
      cases cs with
      | nil => exact .nil
      | cons d cs =>
        simp only [hasPair, Bool.or_eq_false_iff] at hfeed hspace
        exact ih hfeed.2 hspace.2
    have hflatten := (flatten_runs cs).1
    cases hruns : runs cs with
    | nil =>
      rw [runs_cons_of_nil hruns]
      by_cases hc : c = ' '
      · subst hc
        exact .spaces 0 .nil (by simp)
      by_cases hc' : c = '\n'
      · subst hc'
        exact .feeds 0 .nil (by simp)
      · exact .word (isWord_singleton hc hc') .nil (by simp)
    | cons first parts =>
      rw [hruns] at hspaced hflatten
      cases hspaced with
      | word hword h hnext =>
        obtain ⟨d, run, rfl⟩ := List.exists_cons_of_ne_nil hword.ne_nil
        rw [runs_cons hruns, kind_of_isWord hword List.mem_cons_self]
        by_cases hc : c = ' '
        · subst hc
          exact .spaces 0 (.word hword h hnext) (by simpa using hword)
        by_cases hc' : c = '\n'
        · subst hc'
          exact .feeds 0 (.word hword h hnext) (by simpa using hword)
        · rw [kind, if_neg hc, if_neg hc', if_pos rfl]
          refine .word ⟨by simp, ?_⟩ h hnext
          intro e he
          cases he with
          | head => exact ⟨hc, hc'⟩
          | tail _ he => exact hword.ink e he
      | spaces n h hnext =>
        rw [runs_cons hruns]
        by_cases hc : c = ' '
        · subst hc
          exact .spaces (n + 1) h hnext
        by_cases hc' : c = '\n'
        · subst hc'
          rw [← hflatten] at hspace
          simp [hasPair, List.replicate_succ] at hspace
        · rw [kind, if_neg hc, if_neg hc', if_neg (by decide)]
          exact .word (isWord_singleton hc hc') (.spaces n h hnext)
            (fun _ hrun ↦ Option.some.inj hrun ▸ not_isWord_spaces n)
      | feeds n h hnext =>
        rw [runs_cons hruns]
        by_cases hc : c = ' '
        · subst hc
          rw [← hflatten] at hfeed
          simp [hasPair, List.replicate_succ] at hfeed
        by_cases hc' : c = '\n'
        · subst hc'
          exact .feeds (n + 1) h hnext
        · rw [kind, if_neg hc, if_neg hc', if_neg (by decide)]
          exact .word (isWord_singleton hc hc') (.feeds n h hnext)
            (fun _ hrun ↦ Option.some.inj hrun ▸ not_isWord_feeds n)

/-! ## Runs, one after the other -/

/-- A word as it is written. -/
def inStyle (quoted : Bool) (run : List Char) : List Char :=
  if quoted then singleWord run else run

/-- How runs can be written: a single space may break the line, and line feeds do. -/
inductive Written (quoted : Bool) : List (List Char) → List Char → Prop
  | nil : Written quoted [] []
  | word {run ws : List Char} {parts : List (List Char)} (hword : IsWord run)
      (h : Written quoted parts ws) (hnext : ∀ run ∈ parts.head?, ¬ IsWord run) :
    Written quoted (run :: parts) (inStyle quoted run ++ ws)
  | spaces (n : Nat) {ws : List Char} {parts : List (List Char)} (h : Written quoted parts ws)
      (hnext : ∀ run ∈ parts.head?, IsWord run) :
    Written quoted (List.replicate (n + 1) ' ' :: parts) (List.replicate (n + 1) ' ' ++ ws)
  | broken {ws : List Char} {parts : List (List Char)} (h : Written quoted parts ws)
      (hnext : ∀ run ∈ parts.head?, IsWord run) :
    Written quoted ([' '] :: parts) (['\n', ' ', ' '] ++ ws)
  | feeds (n : Nat) {ws : List Char} {parts : List (List Char)} (h : Written quoted parts ws)
      (hnext : ∀ run ∈ parts.head?, IsWord run) :
    Written quoted (List.replicate (n + 1) '\n' :: parts)
      ('\n' :: (List.replicate (n + 1) '\n' ++ [' ', ' ']) ++ ws)

theorem written_foldl_breakLine (run : List Char) (p : Pen) :
    (run.foldl (fun p _ ↦ p.breakLine) p.breakLine).written =
      List.replicate run.length '\n' ++ '\n' :: p.written ∧
    (run.foldl (fun p _ ↦ p.breakLine) p.breakLine).column = 0 := by
  induction run generalizing p with
  | nil => exact ⟨rfl, rfl⟩
  | cons c run ih =>
    rw [List.foldl_cons, (ih p.breakLine).1, (ih p.breakLine).2]
    refine ⟨?_, rfl⟩
    rw [List.length_cons, List.replicate_succ', List.append_assoc]
    rfl

theorem writeRuns_word {run : List Char} (hword : IsWord run) (quoted first : Bool) (p : Pen) :
    writeRuns quoted first p (run :: parts) =
      writeRuns quoted false (p.write (inStyle quoted run)) parts := by
  rw [writeRuns]
  · rfl
  · rintro rfl
    exact absurd rfl (hword.ink ' ' (by simp)).1
  · rintro tail rfl
    exact absurd rfl (hword.ink '\n' (by simp)).2

theorem inStyle_spaces (quoted : Bool) (n : Nat) :
    inStyle quoted (List.replicate n ' ') = List.replicate n ' ' := by
  cases quoted with
  | false => rfl
  | true =>
    change singleWord (List.replicate n ' ') = _
    induction n with
    | zero => rfl
    | succ n ih =>
      rw [List.replicate_succ, singleWord, List.flatMap_cons, ← singleWord, ih]
      rfl

/-- Runs are written behind what is written already. -/
theorem exists_written (h : Spaced parts) (quoted first : Bool) (p : Pen) :
    ∃ ws, (writeRuns quoted first p parts).written = ws.reverse ++ p.written ∧
      Written quoted parts ws := by
  induction h generalizing first p with
  | nil => exact ⟨[], rfl, .nil⟩
  | @word run parts hword h hnext ih =>
    obtain ⟨ws, hws, hwritten⟩ := ih false (p.write (inStyle quoted run))
    refine ⟨_, ?_, .word hword hwritten hnext⟩
    rw [writeRuns_word hword, hws, Pen.written_write, List.reverse_append, List.append_assoc]
  | @spaces n parts h hnext ih =>
    have hkept {p' : Pen} (hp' : p'.written = (List.replicate (n + 1) ' ').reverse ++ p.written)
        (hruns : writeRuns quoted first p (List.replicate (n + 1) ' ' :: parts) =
          writeRuns quoted false p' parts) :
        ∃ ws, (writeRuns quoted first p (List.replicate (n + 1) ' ' :: parts)).written =
            ws.reverse ++ p.written ∧
          Written quoted (List.replicate (n + 1) ' ' :: parts) ws := by
      obtain ⟨ws, hws, hwritten⟩ := ih false p'
      refine ⟨_, ?_, .spaces n hwritten hnext⟩
      rw [hruns, hws, hp', List.reverse_append, List.append_assoc]
    cases n with
    | zero =>
      change ∃ ws, (writeRuns quoted first p ([' '] :: parts)).written = _ ∧ _
      by_cases hlong : ((!quoted || (!first && !parts.isEmpty)) && decide (lineWidth < p.column)) =
          true
      · have hcolumn : p.column ≠ 0 := by
          rw [Bool.and_eq_true, decide_eq_true_iff] at hlong
          exact Nat.ne_of_gt (Nat.zero_lt_of_lt hlong.2)
        obtain ⟨ws, hws, hwritten⟩ := ih false p.indent
        refine ⟨_, ?_, .broken hwritten hnext⟩
        rw [writeRuns]
        simp only [if_pos hlong]
        rw [hws, Pen.written_indent hcolumn, List.reverse_append, List.append_assoc]
      · apply hkept (Pen.written_write p [' '])
        change writeRuns quoted first p ([' '] :: parts) = _
        rw [writeRuns]
        simp only [if_neg hlong]
    | succ n =>
      refine @hkept (p.write (inStyle quoted (List.replicate (n + 2) ' '))) ?_ rfl
      rw [inStyle_spaces, Pen.written_write]
  | @feeds n parts h hnext ih =>
    have hfold := written_foldl_breakLine (List.replicate (n + 1) '\n') p
    obtain ⟨ws, hws, hwritten⟩ := ih false
      ((List.replicate (n + 1) '\n').foldl (fun p _ ↦ p.breakLine) p.breakLine).indent
    refine ⟨_, ?_, .feeds n hwritten hnext⟩
    have hruns : writeRuns quoted first p (List.replicate (n + 1) '\n' :: parts) =
        writeRuns quoted false ((List.replicate (n + 1) '\n').foldl (fun p _ ↦ p.breakLine)
          p.breakLine).indent parts := rfl
    rw [hruns, hws, Pen.indent, if_pos hfold.2, Pen.written_write, hfold.1]
    simp [continuation]

/-! ## Single quotes -/

/-- What can be shown and is no white space stands for itself. -/
theorem ink_of_isShown (hshown : isShown c = true) (hspace : c ≠ ' ') (hfeed : c ≠ '\n') :
    isSpaceOrTab c = false ∧ isBreak c = false := by
  simp only [isShown, Bool.or_eq_true, Bool.and_eq_true, decide_eq_true_iff, hfeed,
    false_or] at hshown
  have hother (d : Char) (hd : d.toNat < 0x20 ∨ 0x7E < d.toNat) : c ≠ d := by
    rintro rfl
    omega
  constructor
  · simp [isSpaceOrTab, hspace, hother '\t' (by decide)]
  · simp [isBreak, hfeed, hother '\r' (by decide), hother '\x85' (by decide),
      hother '\u2028' (by decide), hother '\u2029' (by decide)]

theorem reads_singleWord {run : List Char} (hword : IsWord run)
    (hshown : ∀ c ∈ run, isShown c = true) :
    Reads '\x27' (singleWord run) rest (run.map .char) := by
  have hink := hword.ink
  clear hword
  induction run with
  | nil => exact .nil
  | cons c run ih =>
    rw [List.forall_mem_cons] at hshown hink
    have hrest : Reads '\x27' (singleWord run) rest (run.map .char) := ih hshown.2 hink.2
    rw [singleWord, List.flatMap_cons, ← singleWord]
    split
    · rename_i hquote
      subst hquote
      exact .append .doubled hrest
    · rename_i hquote
      obtain ⟨hblank, hbreak⟩ := ink_of_isShown hshown.1 hink.1.1 hink.1.2
      exact .append (.char hquote (by simp) hblank hbreak) hrest

/-- Behind white space something solid is written. -/
theorem Written.solid {ws : List Char} (h : Written true parts ws)
    (hnext : ∀ run ∈ parts.head?, IsWord run) (hshown : ∀ c ∈ parts.flatten, isShown c = true) :
    Solid (ws ++ '\x27' :: rest) := by
  cases h with
  | nil => exact ⟨'\x27', rest, rfl, by decide, by decide⟩
  | @word run ws parts hword h =>
    obtain ⟨c, run, rfl⟩ := List.exists_cons_of_ne_nil hword.ne_nil
    obtain ⟨hspace, hfeed⟩ := hword.ink c List.mem_cons_self
    obtain ⟨hblank, hbreak⟩ := ink_of_isShown (hshown c (by simp)) hspace hfeed
    by_cases hquote : c = '\x27'
    · subst hquote
      exact ⟨'\x27', _, rfl, hblank, hbreak⟩
    · refine ⟨c, singleWord run ++ ws ++ '\x27' :: rest, ?_, hblank, hbreak⟩
      simp [inStyle, singleWord, hquote]
  | spaces n => exact absurd (hnext _ rfl) (not_isWord_spaces n)
  | broken => exact absurd (hnext _ rfl) (not_isWord_spaces 0)
  | feeds n => exact absurd (hnext _ rfl) (not_isWord_feeds n)

theorem reads_written {ws : List Char} (h : Written true parts ws)
    (hshown : ∀ c ∈ parts.flatten, isShown c = true) :
    Reads '\x27' ws ('\x27' :: rest) (parts.flatten.map .char) := by
  induction h with
  | nil => exact .nil
  | @word run ws parts hword h hnext ih =>
    rw [List.flatten_cons, List.forall_mem_append] at hshown
    rw [List.flatten_cons, List.map_append]
    exact .append (reads_singleWord hword hshown.1) (ih hshown.2)
  | @spaces n ws parts h hnext ih =>
    rw [List.flatten_cons, List.forall_mem_append] at hshown
    rw [List.flatten_cons, List.map_append, List.map_replicate]
    exact .append (.spaces (.inr rfl) _ (h.solid hnext hshown.2)) (ih hshown.2)
  | @broken ws parts h hnext ih =>
    rw [List.flatten_cons, List.forall_mem_append] at hshown
    rw [List.flatten_cons, List.map_append]
    exact .append (.breaks (.inr rfl) 0 (h.solid hnext hshown.2)) (ih hshown.2)
  | @feeds n ws parts h hnext ih =>
    rw [List.flatten_cons, List.forall_mem_append] at hshown
    rw [List.flatten_cons, List.map_append]
    exact .append (.breaks (.inr rfl) (n + 1) (h.solid hnext hshown.2)) (ih hshown.2)

theorem isShown_of_mem_inStyle {run : List Char} {quoted : Bool}
    (hshown : ∀ c ∈ run, isShown c = true) (hc : c ∈ inStyle quoted run) : isShown c = true := by
  cases quoted with
  | false => exact hshown c hc
  | true =>
    change c ∈ singleWord run at hc
    rw [singleWord, List.mem_flatMap] at hc
    obtain ⟨d, hd, hc⟩ := hc
    split at hc
    · rename_i hquote
      obtain rfl : c = '\x27' := by simpa using hc
      decide
    · rw [List.mem_singleton] at hc
      exact hc ▸ hshown d hd

/-- Nothing is written that cannot be shown. -/
theorem Written.all_shown {quoted : Bool} {ws : List Char} (h : Written quoted parts ws)
    (hshown : ∀ c ∈ parts.flatten, isShown c = true) : ∀ c ∈ ws, isShown c = true := by
  have hspace : isShown ' ' = true := by decide
  have hfeed : isShown '\n' = true := by decide
  induction h with
  | nil => simp
  | @word run ws parts hword h hnext ih =>
    rw [List.flatten_cons, List.forall_mem_append] at hshown
    rw [List.forall_mem_append]
    exact ⟨fun c hc ↦ isShown_of_mem_inStyle hshown.1 hc, ih hshown.2⟩
  | @spaces n ws parts h hnext ih =>
    rw [List.flatten_cons, List.forall_mem_append] at hshown
    rw [List.forall_mem_append]
    exact ⟨hshown.1, ih hshown.2⟩
  | @broken ws parts h hnext ih =>
    rw [List.flatten_cons, List.forall_mem_append] at hshown
    rw [List.forall_mem_append]
    exact ⟨by simp [hspace, hfeed], ih hshown.2⟩
  | @feeds n ws parts h hnext ih =>
    rw [List.flatten_cons, List.forall_mem_append] at hshown
    rw [List.forall_mem_append]
    exact ⟨by simp [hspace, hfeed], ih hshown.2⟩

/-! ## Double quotes -/

theorem length_hexDigits (width n : Nat) : (Text.hexDigits width n).length = width := by
  induction width generalizing n with
  | zero => rfl
  | succ width ih => rw [Text.hexDigits, List.length_append, ih, List.length_singleton]

/-- Digits in upper case spell the same number. -/
theorem upperHexDigits (width n : Nat) :
    ((Text.hexDigits width n).map Char.toUpper).all Text.isHexDigit = true ∧
      Text.digitsValue 16 ((Text.hexDigits width n).map Char.toUpper) = n % 16 ^ width := by
  have hdigit : ∀ c ∈ Text.hexDigits width n,
      Text.digitValue? 16 c.toUpper = Text.digitValue? 16 c := by
    intro c hc
    obtain ⟨d, hd, rfl⟩ := Text.exists_digit_of_mem_hexDigits hc
    have hall : ∀ d < 16, Text.digitValue? 16 (Nat.digitChar d).toUpper =
        Text.digitValue? 16 (Nat.digitChar d) := by decide
    exact hall d hd
  constructor
  · rw [List.all_map, List.all_eq_true]
    intro c hc
    have hhex := Text.isHexDigit_of_mem_hexDigits hc
    rwa [Function.comp_apply, Text.isHexDigit, hdigit c hc]
  · rw [← Text.digitsValue_hexDigits, Text.digitsValue, Text.digitsValue, List.foldl_map]
    apply List.foldl_ext
    intro value c hc
    rw [hdigit c hc]

theorem toNat_lt (c : Char) : c.toNat < 0x110000 := by
  have hvalid : c.toNat.isValidChar := c.valid
  unfold Nat.isValidChar at hvalid
  omega

/-- A code with so many digits is read as its character. -/
theorem reads_code {letter : Char} {width : Nat} (hletter : escapes.lookup letter = none)
    (hlength : codeLength? letter = some width) (hsmall : c.toNat < 16 ^ width) :
    Reads '\x22' ('\\' :: letter :: (Text.hexDigits width c.toNat).map Char.toUpper) rest
      [.char c] := by
  obtain ⟨hdigits, hvalue⟩ := upperHexDigits width c.toNat
  rw [Nat.mod_eq_of_lt hsmall] at hvalue
  have hpoint : CodePoint.ofNat c.toNat = .char c := Json.ofNat_toNat (.char c)
  have hcount : codeLength? letter =
      some ((Text.hexDigits width c.toNat).map Char.toUpper).length := by
    rw [List.length_map, length_hexDigits, hlength]
  have hread : Reads '\x22' _ rest _ :=
    .code hletter hcount hdigits (by rw [hvalue]; exact toNat_lt c)
  rwa [hvalue, hpoint] at hread

/-- A character is read from its escape. -/
theorem reads_escaped (c : Char) : Reads '\x22' (escaped c) rest [.char c] := by
  unfold escaped
  split
  · rename_i letter hletter
    have hall : ∀ entry ∈ escapeLetters, escapes.lookup entry.2 = some entry.1 := by decide
    obtain ⟨before, after, hsplit, -⟩ := List.lookup_eq_some_iff.mp hletter
    exact .letter (hall (c, letter) (by simp [hsplit]))
  · have hvalid : c.toNat < 16 ^ 8 := (toNat_lt c).trans (by decide)
    dsimp only
    split
    · rename_i hsmall
      exact reads_code (by decide) rfl (Nat.lt_succ_of_le hsmall)
    · split
      · rename_i hsmall
        exact reads_code (by decide) rfl (Nat.lt_succ_of_le hsmall)
      · exact reads_code (by decide) rfl hvalid

/-- A character between double quotes. -/
def inDoubles (c : Char) : List Char :=
  if isDoublePlain c then [c] else escaped c

/-- A line that is broken without being read. -/
def lineEnd : List Char := ['\\', '\n', ' ', ' ']

/-- How characters can be written between double quotes: the line may be broken before each of them,
behind which a space is escaped. -/
inductive DoublyWritten : List Char → List Char → Prop
  | nil : DoublyWritten [] []
  | char (c : Char) {cs ws : List Char} (h : DoublyWritten cs ws) :
    DoublyWritten (c :: cs) (inDoubles c ++ ws)
  | broken {c : Char} (hc : c ≠ ' ') {cs ws : List Char} (h : DoublyWritten cs ws) :
    DoublyWritten (c :: cs) (lineEnd ++ (inDoubles c ++ ws))
  | brokenSpace {cs ws : List Char} (h : DoublyWritten cs ws) :
    DoublyWritten (' ' :: cs) (lineEnd ++ (['\\', ' '] ++ ws))

/-- The pen behind a broken line, before the next character. -/
def breakBefore (p : Pen) (next : Option Char) : Pen :=
  let p := (p.write ['\\']).indent
  if next = some ' ' then p.write ['\\'] else p

theorem written_breakBefore (p : Pen) (next : Option Char) :
    (breakBefore p next).written =
      (lineEnd ++ if next = some ' ' then ['\\'] else []).reverse ++ p.written ∧
    (breakBefore p next).column ≤ lineWidth := by
  have hindent : ((p.write ['\\']).indent).written = lineEnd.reverse ++ p.written := by
    rw [Pen.written_indent (Nat.succ_ne_zero p.column), Pen.written_write]
    rfl
  have hcolumn : ((p.write ['\\']).indent).column = 2 := by
    have hsome : (p.write ['\\']).column ≠ 0 := Nat.succ_ne_zero p.column
    rw [Pen.indent, if_neg hsome]
    rfl
  unfold breakBefore
  dsimp only
  split
  · rw [Pen.written_write, hindent]
    refine ⟨by simp, ?_⟩
    change ((p.write ['\\']).indent).column + 1 ≤ 80
    omega
  · rw [hindent]
    refine ⟨by simp, ?_⟩
    change ((p.write ['\\']).indent).column ≤ 80
    omega

theorem writeDouble_plain (hc : isDoublePlain c = true) (held : List Char) (first : Bool) (p : Pen) :
    writeDouble held first p (c :: cs) =
      if !first && !cs.isEmpty && ((decide (c = ' ') || held.isEmpty) &&
          decide (lineWidth < p.column + held.length)) then
        writeDouble [c] false (breakBefore (p.write held.reverse) (some c)) cs
      else writeDouble (c :: held) false p cs := by
  rw [writeDouble, if_pos hc]
  rfl

theorem writeDouble_escaped (hc : ¬ isDoublePlain c = true) (held : List Char) (first : Bool)
    (p : Pen) : ∃ b : Bool, (b = true → cs ≠ []) ∧ writeDouble held first p (c :: cs) =
      writeDouble [] false
        (if b then breakBefore ((p.write held.reverse).write (escaped c)) cs.head?
          else (p.write held.reverse).write (escaped c)) cs := by
  rw [writeDouble, if_neg hc]
  refine ⟨_, ?_, rfl⟩
  intro hbreak hnil
  simp [hnil] at hbreak

/-- Characters are written behind those that are held and what is written already; and so they are
behind a broken line. -/
theorem exists_doublyWritten (cs : List Char) :
    (∀ held first p, ∃ ws, (writeDouble held first p cs).written =
      ws.reverse ++ (held ++ p.written) ∧ DoublyWritten cs ws) ∧
    ∀ (b : Bool) p, (b = true → cs ≠ []) →
      ∃ ws, (writeDouble [] false (if b then breakBefore p cs.head? else p) cs).written =
        ws.reverse ++ p.written ∧ DoublyWritten cs ws := by
  induction cs with
  | nil =>
    have hheld (held : List Char) (first : Bool) (p : Pen) :
        (writeDouble held first p []).written = held ++ p.written := by
      rw [writeDouble, Pen.written_write, List.reverse_reverse]
    refine ⟨fun held first p ↦ ⟨[], hheld held first p, .nil⟩, fun b p hb ↦ ?_⟩
    cases b with
    | false => exact ⟨[], hheld [] false p, .nil⟩
    | true => exact absurd rfl (hb rfl)
  | cons c cs ih =>
    obtain ⟨ihheld, ihbroken⟩ := ih
    -- the character stands for itself behind a broken line
    have hbroken (hc : isDoublePlain c = true) (q : Pen) :
        ∃ ws, (writeDouble [c] false (breakBefore q (some c)) cs).written =
          ws.reverse ++ q.written ∧ DoublyWritten (c :: cs) ws := by
      obtain ⟨ws, hws, hwritten⟩ := ihheld [c] false (breakBefore q (some c))
      by_cases hspace : c = ' '
      · subst hspace
        refine ⟨_, ?_, .brokenSpace hwritten⟩
        rw [hws, (written_breakBefore q _).1]
        simp
      · refine ⟨_, ?_, .broken hspace hwritten⟩
        rw [hws, (written_breakBefore q _).1]
        simp [inDoubles, hc, hspace]
    have hall (held : List Char) (first : Bool) (p : Pen) :
        ∃ ws, (writeDouble held first p (c :: cs)).written = ws.reverse ++ (held ++ p.written) ∧
          DoublyWritten (c :: cs) ws := by
      by_cases hc : isDoublePlain c = true
      · rw [writeDouble_plain hc]
        split
        · obtain ⟨ws, hws, hwritten⟩ := hbroken hc (p.write held.reverse)
          refine ⟨ws, ?_, hwritten⟩
          rw [hws, Pen.written_write, List.reverse_reverse]
        · obtain ⟨ws, hws, hwritten⟩ := ihheld (c :: held) false p
          refine ⟨_, ?_, .char c hwritten⟩
          rw [hws]
          simp [inDoubles, hc]
      · obtain ⟨b, hb, hwrite⟩ := writeDouble_escaped hc held first p
        obtain ⟨ws, hws, hwritten⟩ := ihbroken b ((p.write held.reverse).write (escaped c)) hb
        refine ⟨_, ?_, .char c hwritten⟩
        rw [hwrite, hws, Pen.written_write, Pen.written_write]
        simp [inDoubles, hc]
    refine ⟨hall, fun b p _ ↦ ?_⟩
    cases b with
    | false => exact hall [] false p
    | true =>
      obtain ⟨hbreak, hcolumn⟩ := written_breakBefore p (some c)
      simp only [if_true, List.head?_cons]
      by_cases hc : isDoublePlain c = true
      · have hshort : ¬ (!false && !cs.isEmpty && ((decide (c = ' ') || ([] : List Char).isEmpty) &&
            decide (lineWidth < (breakBefore p (some c)).column + ([] : List Char).length))) =
            true := by
          rw [List.length_nil, Nat.add_zero, decide_eq_false (Nat.not_lt_of_le hcolumn)]
          simp
        rw [writeDouble_plain hc, if_neg hshort]
        exact hbroken hc p
      · have hspace : c ≠ ' ' := by
          rintro rfl
          exact hc (by decide)
        obtain ⟨b, hb, hwrite⟩ := writeDouble_escaped hc [] false (breakBefore p (some c))
        obtain ⟨ws, hws, hwritten⟩ :=
          ihbroken b (((breakBefore p (some c)).write [].reverse).write (escaped c)) hb
        refine ⟨_, ?_, .broken hspace hwritten⟩
        rw [hwrite, hws, Pen.written_write, Pen.written_write, hbreak]
        simp [inDoubles, hc, hspace]

/-- Something solid stands behind spaces, if there are any. -/
def Firm (cs : List Char) : Prop :=
  ∃ n tail, cs = List.replicate n ' ' ++ tail ∧ Solid tail

theorem Solid.firm (h : Solid cs) : Firm cs := ⟨0, cs, rfl, h⟩

/-- A space that others may follow is read alone. -/
theorem Reads.space (hrest : Firm rest) : Reads '\x22' [' '] rest [.char ' '] := by
  obtain ⟨n, tail, rfl, htail⟩ := hrest
  intro c taken hc
  have hall : Reads '\x22' (List.replicate (n + 1) ' ') tail _ := .spaces (.inl rfl) (n + 1) htail
  have hmore : Reads '\x22' (List.replicate n ' ') tail _ := .spaces (.inl rfl) n htail
  have hlater := hmore (c.skip 1) (.char ' ' :: taken) hc.next
  change _ = quotedFrom '\x22' (.char ' ' :: taken) (c.skip 1)
  rw [hall c taken hc, hlater, ← skip_add, List.length_replicate, List.length_replicate,
    Nat.add_comm 1 n, List.replicate_succ, List.reverse_cons, List.append_assoc]
  rfl

theorem not_blank_of_isDoublePlain (hc : isDoublePlain c = true) (hspace : c ≠ ' ') :
    isSpaceOrTab c = false ∧ isBreak c = false := by
  simp only [isDoublePlain, Bool.and_eq_true, decide_eq_true_iff] at hc
  obtain ⟨⟨⟨hlow, hhigh⟩, -⟩, -⟩ := hc
  have hshown : isShown c = true := by
    simp [isShown, hlow, hhigh]
  apply ink_of_isShown hshown hspace
  rintro rfl
  exact absurd hlow (by decide)

theorem reads_inDoubles (hrest : Firm rest) (c : Char) :
    Reads '\x22' (inDoubles c) rest [.char c] ∧ Firm (inDoubles c ++ rest) ∧
      (c ≠ ' ' → Solid (inDoubles c ++ rest)) := by
  by_cases hspace : c = ' '
  · subst hspace
    obtain ⟨n, tail, rfl, htail⟩ := hrest
    exact ⟨.space ⟨n, tail, rfl, htail⟩, ⟨n + 1, tail, rfl, htail⟩, fun h ↦ absurd rfl h⟩
  unfold inDoubles
  split
  · rename_i hc
    obtain ⟨hblank, hbreak⟩ := not_blank_of_isDoublePlain hc hspace
    have hsolid : Solid ([c] ++ rest) := ⟨c, rest, rfl, hblank, hbreak⟩
    simp only [isDoublePlain, Bool.and_eq_true, decide_eq_true_iff] at hc
    exact ⟨.char hc.1.2 (fun _ ↦ hc.2) hblank hbreak, hsolid.firm, fun _ ↦ hsolid⟩
  · have hsolid : Solid (escaped c ++ rest) := by
      obtain ⟨digits, hescaped⟩ : ∃ digits, escaped c = '\\' :: digits := by
        unfold escaped
        split
        · exact ⟨_, rfl⟩
        · dsimp only
          split
          · exact ⟨_, rfl⟩
          · split <;> exact ⟨_, rfl⟩
      exact ⟨'\\', digits ++ rest, by rw [hescaped]; rfl, by decide, by decide⟩
    exact ⟨reads_escaped c, hsolid.firm, fun _ ↦ hsolid⟩

/-- What is written between double quotes is read back. -/
theorem reads_doublyWritten {ws : List Char} (h : DoublyWritten cs ws) (rest : List Char) :
    Reads '\x22' ws ('\x22' :: rest) (cs.map .char) ∧ Firm (ws ++ '\x22' :: rest) := by
  have hend {rest : List Char} : Solid (lineEnd ++ rest) :=
    ⟨'\\', _, rfl, by decide, by decide⟩
  induction h with
  | nil => exact ⟨.nil, Solid.firm ⟨'\x22', rest, rfl, by decide, by decide⟩⟩
  | @char c cs ws h ih =>
    obtain ⟨hread, hfirm, -⟩ := reads_inDoubles ih.2 c
    rw [List.append_assoc]
    exact ⟨.append hread ih.1, hfirm⟩
  | @broken c hc cs ws h ih =>
    obtain ⟨hread, -, hsolid⟩ := reads_inDoubles ih.2 c
    have hline : Reads '\x22' lineEnd ((inDoubles c ++ ws) ++ '\x22' :: rest) [] := by
      rw [List.append_assoc]
      exact .brokenLine (hsolid hc)
    rw [List.append_assoc]
    exact ⟨.append hline (.append hread ih.1), hend.firm⟩
  | @brokenSpace cs ws h ih =>
    have hspace : Reads '\x22' ['\\', ' '] (ws ++ '\x22' :: rest) [.char ' '] := .letter (by decide)
    have hline : Reads '\x22' lineEnd ((['\\', ' '] ++ ws) ++ '\x22' :: rest) [] :=
      .brokenLine ⟨'\\', _, rfl, by decide, by decide⟩
    rw [List.append_assoc]
    exact ⟨.append hline (.append hspace ih.1), hend.firm⟩

theorem isShown_of_mem_upperHexDigits {width n : Nat}
    (hc : c ∈ (Text.hexDigits width n).map Char.toUpper) : isShown c = true := by
  rw [List.mem_map] at hc
  obtain ⟨d, hd, rfl⟩ := hc
  obtain ⟨value, hvalue, rfl⟩ := Text.exists_digit_of_mem_hexDigits hd
  have hall : ∀ value < 16, isShown (Nat.digitChar value).toUpper = true := by decide
  exact hall value hvalue

theorem isShown_of_mem_escaped {d : Char} (hd : d ∈ escaped c) : isShown d = true := by
  unfold escaped at hd
  split at hd
  · rename_i letter hletter
    have hall : ∀ entry ∈ escapeLetters, isShown entry.2 = true := by decide
    obtain ⟨before, after, hsplit, -⟩ := List.lookup_eq_some_iff.mp hletter
    simp only [List.mem_cons, List.not_mem_nil, or_false] at hd
    rcases hd with rfl | rfl
    · decide
    · exact hall (c, d) (by simp [hsplit])
  · dsimp only at hd
    have hcode {letter : Char} {width : Nat} (hletter : isShown letter = true)
        (h : d ∈ '\\' :: letter :: (Text.hexDigits width c.toNat).map Char.toUpper) :
        isShown d = true := by
      rw [List.mem_cons, List.mem_cons] at h
      rcases h with rfl | rfl | h
      · decide
      · exact hletter
      · exact isShown_of_mem_upperHexDigits h
    split at hd
    · exact hcode (by decide) hd
    · split at hd
      · exact hcode (by decide) hd
      · exact hcode (by decide) hd

theorem isShown_of_mem_inDoubles {d : Char} (hd : d ∈ inDoubles c) : isShown d = true := by
  unfold inDoubles at hd
  split at hd
  · rename_i hc
    rw [List.mem_singleton] at hd
    subst hd
    simp only [isDoublePlain, Bool.and_eq_true, decide_eq_true_iff] at hc
    simp [isShown, hc.1.1.1, hc.1.1.2]
  · exact isShown_of_mem_escaped hd

theorem DoublyWritten.all_shown {ws : List Char} (h : DoublyWritten cs ws) :
    ∀ c ∈ ws, isShown c = true := by
  have hline : ∀ c ∈ lineEnd, isShown c = true := List.all_eq_true.mp (by decide)
  have hspace : ∀ c ∈ ['\\', ' '], isShown c = true := List.all_eq_true.mp (by decide)
  induction h with
  | nil => simp
  | char c h ih =>
    rw [List.forall_mem_append]
    exact ⟨fun d hd ↦ isShown_of_mem_inDoubles hd, ih⟩
  | broken hc h ih =>
    rw [List.forall_mem_append, List.forall_mem_append]
    exact ⟨hline, fun d hd ↦ isShown_of_mem_inDoubles hd, ih⟩
  | brokenSpace h ih =>
    rw [List.forall_mem_append, List.forall_mem_append]
    exact ⟨hline, hspace, ih⟩

/-! ## Quoted scalars -/

/-- A text that is not written plain stands between quotes, from which it is read back. -/
theorem exists_quoted (column : Nat) {text : String} (hplain : canBePlain text.toList = false) :
    ∃ quote ws, (quote = '\x22' ∨ quote = '\x27') ∧
      writeScalar column text = ' ' :: quote :: (ws ++ [quote]) ∧
      (∀ c ∈ ws, isShown c = true) ∧
      ∀ rest, Reads quote ws (quote :: rest) (text.toList.map .char) := by
  unfold writeScalar
  simp only [hplain, Bool.false_eq_true, if_false]
  split
  · rename_i hsingle
    simp only [canBeSingle, Bool.and_eq_true, Bool.not_eq_true', List.all_eq_true] at hsingle
    obtain ⟨⟨hshown, hfeed⟩, hspace⟩ := hsingle
    obtain ⟨ws, hws, hwritten⟩ := exists_written (spaced_runs hfeed hspace) true true
      ((({ column } : Pen).write [' ']).write ['\x27'])
    have hflatten := (flatten_runs text.toList).1
    refine ⟨'\x27', ws, .inr rfl, ?_, hwritten.all_shown (by rwa [hflatten]), fun rest ↦ ?_⟩
    · rw [Pen.written_write, hws, Pen.written_write, Pen.written_write]
      simp
    · have hread : Reads '\x27' ws ('\x27' :: rest) ((runs text.toList).flatten.map .char) :=
        reads_written hwritten (by rwa [hflatten])
      rwa [hflatten] at hread
  · obtain ⟨ws, hws, hwritten⟩ := (exists_doublyWritten text.toList).1 [] true
      ((({ column } : Pen).write [' ']).write ['\x22'])
    refine ⟨'\x22', ws, .inl rfl, ?_, hwritten.all_shown, fun rest ↦ ?_⟩
    · rw [Pen.written_write, hws, Pen.written_write, Pen.written_write]
      simp
    · exact (reads_doublyWritten hwritten rest).1

end OfflineSupply.Yaml
