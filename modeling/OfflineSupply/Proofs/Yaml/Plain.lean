import OfflineSupply.Proofs.Yaml.Written

/-!
# Plain scalars

A plain scalar is read word by word.  Spaces between words are kept, a broken line reads as one space,
and a line that is not indented ends the scalar.  What is written plain is so read back, since nothing
in it is a mark.
-/

namespace OfflineSupply.Yaml

open Cursor

variable {cs rest word ws : List Char} {parts : List (List Char)} {c : Cursor} {ch : Char}
  {before : Option Char} {n : Nat}

/-! ## Words -/

/-- A word of a text without marks is read up to the white space behind it, whatever white space that
is. -/
theorem plainWord_append {text : List Char} (hword : ∀ ch ∈ word, endsToken (some ch) = false)
    (hmarks : marksInside before (word ++ text) = false) (htext : endsToken text.head? = true)
    (hrest : endsToken rest.head? = true) : plainWord false (word ++ rest) = word := by
  induction word generalizing before with
  | nil =>
    cases rest with
    | nil => rfl
    | cons ch rest =>
      have hends : endsPlain false ch rest.head? = true := by
        rw [endsPlain, show endsToken (some ch) = true from hrest, Bool.true_or, Bool.true_or]
      rw [List.nil_append, plainWord, if_pos hends]
  | cons ch word ih =>
    rw [List.forall_mem_cons] at hword
    rw [List.cons_append, marksInside, Bool.or_eq_false_iff, Bool.or_eq_false_iff] at hmarks
    obtain ⟨⟨hcolon, -⟩, hmarks⟩ := hmarks
    have hnext : (decide (ch = ':') && endsToken (word ++ rest).head?) = false := by
      cases word with
      | nil =>
        rw [List.nil_append, htext, Bool.and_true] at hcolon
        rw [hcolon, Bool.false_and]
      | cons d word => exact hcolon
    have hends : ¬ endsPlain false ch (word ++ rest).head? = true := by
      rw [endsPlain, hword.1, Bool.false_or, Bool.false_and, Bool.or_false, Bool.false_and,
        Bool.or_false, hnext]
      exact Bool.false_ne_true
    rw [List.cons_append, plainWord, if_neg hends, ih hword.2 hmarks]

theorem marksInside_append (h : marksInside before (cs ++ rest) = false) :
    marksInside (cs.getLast?.or before) rest = false := by
  induction cs generalizing before with
  | nil => exact h
  | cons ch cs ih =>
    rw [List.cons_append, marksInside, Bool.or_eq_false_iff] at h
    have hrest := ih h.2
    rw [List.getLast?_cons]
    cases hlast : cs.getLast? with
    | none =>
      rw [hlast] at hrest
      exact hrest
    | some d =>
      rw [hlast] at hrest
      exact hrest

/-- Behind spaces no comment begins. -/
theorem marks_behind_spaces (n : Nat)
    (h : marksInside before (cs ++ (List.replicate (n + 1) ' ' ++ rest)) = false) :
    marksInside (some ' ') rest = false ∧ rest.head? ≠ some '#' := by
  rw [← List.append_assoc] at h
  have hmarks : marksInside (some ' ') rest = false := by
    have hrest := marksInside_append h
    rwa [List.getLast?_append, List.getLast?_replicate, if_neg (Nat.succ_ne_zero n)] at hrest
  refine ⟨hmarks, ?_⟩
  intro hhead
  cases rest with
  | nil => simp at hhead
  | cons ch rest =>
    obtain rfl : ch = '#' := Option.some.inj hhead
    rw [marksInside, Bool.or_eq_false_iff, Bool.or_eq_false_iff] at hmarks
    exact absurd hmarks.1.2 (by decide)

/-! ## White space -/

/-- What stands before neither a space nor a line break has no white space in front. -/
theorem plainGap_none (h : c.Before (ch :: rest)) (hspace : isSpace ch = false)
    (hbreak : isBreak ch = false) : plainGap c = (some [], c, false) := by
  have hspan : c.span isSpace = ([], c) :=
    h.span_eq_nil (by simpa using hspace)
  unfold plainGap
  rw [hspan]
  simp only [lineBreak_eq_self h (by simpa using hbreak), List.isEmpty_nil, if_true]

theorem plainGap_spaces (n : Nat) (h : c.Before (List.replicate n ' ' ++ ch :: rest))
    (hspace : isSpace ch = false) (hbreak : isBreak ch = false) :
    plainGap c = (some (List.replicate n ' '), c.skip n, false) := by
  have hspan : c.span isSpace = (List.replicate n ' ', c.skip n) :=
    h.span_replicate rfl (by simpa using hspace)
  have hbehind : (c.skip n).Before (ch :: rest) := h.skip_replicate
  unfold plainGap
  rw [hspan]
  simp only [lineBreak_eq_self hbehind (by simpa using hbreak), List.isEmpty_nil, if_true]

/-- A broken line reads as one space, whether another line follows or none. -/
theorem plainGap_feed (n : Nat) (h : c.Before ('\n' :: (List.replicate n ' ' ++ rest)))
    (hstart : ∀ ch ∈ (List.replicate n ' ' ++ rest).head?, ch ≠ '-' ∧ ch ≠ '.')
    (hrest : ∀ ch ∈ rest.head?, isSpace ch = false ∧ isBreak ch = false) :
    plainGap c = (some [' '], c.skip (n + 1), true) := by
  have hspan : c.span isSpace = ([], c) :=
    h.span_eq_nil (by simp [isSpace])
  have hmark : c.next.atDocumentMark = false := by
    have hnext := h.next
    cases hcs : List.replicate n ' ' ++ rest with
    | nil =>
      rw [hcs] at hnext
      unfold atDocumentMark atMark
      rw [hnext.rest]
      simp
    | cons ch cs =>
      rw [hcs] at hnext hstart
      obtain ⟨hhyphen, hpoint⟩ := hstart ch rfl
      exact atDocumentMark_eq_false hnext hhyphen hpoint
  have hskip : c.next.skipWhile isSpace = c.next.skip n :=
    h.next.skipWhile_replicate rfl fun ch hch ↦ (hrest ch hch).1
  have hbehind : (c.next.skip n).Before rest := h.next.skip_replicate
  have hbreaks : plainBreaks [] c.next = (some [], c.next.skip n) := by
    rw [plainBreaks]
    simp only [hskip, lineBreak_eq_self hbehind fun ch hch ↦ (hrest ch hch).2, List.isEmpty_nil,
      if_true, List.reverse_nil]
  unfold plainGap
  rw [hspan]
  simp only [lineBreak_feed h, List.isEmpty_cons, Bool.false_eq_true, if_false, hmark, hbreaks]
  rfl

/-- Where no line is broken the column does not fall. -/
theorem kept_skip (h : c.Before (cs ++ rest)) (hcs : ∀ ch ∈ cs, isBreak ch = false) :
    (c.skip cs.length).line = c.line ∧ c.column ≤ (c.skip cs.length).column := by
  induction cs generalizing c with
  | nil => exact ⟨rfl, Nat.le_refl _⟩
  | cons ch cs ih =>
    rw [List.forall_mem_cons] at hcs
    have hnext : c.next.line = c.line ∧ c.column ≤ c.next.column := by
      unfold Cursor.next
      rw [h.rest]
      simp only [List.cons_append, hcs.1, Bool.false_and, Bool.false_eq_true, if_false]
      refine ⟨trivial, ?_⟩
      split
      · exact Nat.le_refl _
      · exact Nat.le_succ _
    obtain ⟨hline, hcolumn⟩ := ih h.next hcs.2
    exact ⟨hline.trans hnext.1, hnext.2.trans hcolumn⟩

/-! ## Words between white space -/

/-- How words can be written plain, with the spaces between them. -/
inductive PlainlyWritten : List (List Char) → List Char → Prop
  | last {run : List Char} (hword : IsWord run) : PlainlyWritten [run] run
  | spaces {run ws : List Char} {parts : List (List Char)} (hword : IsWord run) (n : Nat)
      (h : PlainlyWritten parts ws) :
    PlainlyWritten (run :: List.replicate (n + 1) ' ' :: parts)
      (run ++ (List.replicate (n + 1) ' ' ++ ws))
  | broken {run ws : List Char} {parts : List (List Char)} (hword : IsWord run)
      (h : PlainlyWritten parts ws) :
    PlainlyWritten (run :: [' '] :: parts) (run ++ (['\n', ' ', ' '] ++ ws))

theorem getLast?_of_append (h : (cs ++ rest).getLast? ≠ some ch) : rest.getLast? ≠ some ch := by
  intro hlast
  rw [List.getLast?_append, hlast] at h
  exact h rfl

/-- Runs that begin and end with a word and have no line feeds are words between spaces. -/
theorem plainlyWritten_of_written (h : Written false parts ws) (hfeed : '\n' ∉ parts.flatten)
    (hlast : parts.flatten.getLast? ≠ some ' ') :
    (parts ≠ [] → (∀ run ∈ parts.head?, IsWord run) → PlainlyWritten parts ws) ∧
      ((∀ run ∈ parts.head?, ¬ IsWord run) → ∀ run, IsWord run →
        PlainlyWritten (run :: parts) (run ++ ws)) := by
  induction h with
  | nil =>
    refine ⟨fun h ↦ absurd rfl h, fun _ run hword ↦ ?_⟩
    rw [List.append_nil]
    exact .last hword
  | @word run ws parts hword h hnext ih =>
    rw [List.flatten_cons, List.mem_append, not_or] at hfeed
    refine ⟨fun _ _ ↦ ?_, fun hstart ↦ absurd hword (hstart run rfl)⟩
    exact (ih hfeed.2 (getLast?_of_append hlast)).2 hnext run hword
  | @spaces n ws parts h hnext ih =>
    rw [List.flatten_cons, List.mem_append, not_or] at hfeed
    refine ⟨fun _ hstart ↦ absurd (hstart _ rfl) (not_isWord_spaces n), fun _ run hword ↦ ?_⟩
    have hsome : parts ≠ [] := by
      rintro rfl
      exact hlast (by simp [List.getLast?_replicate])
    exact .spaces hword n ((ih hfeed.2 (getLast?_of_append hlast)).1 hsome hnext)
  | @broken ws parts h hnext ih =>
    rw [List.flatten_cons, List.mem_append, not_or] at hfeed
    refine ⟨fun _ hstart ↦ absurd (hstart _ rfl) (not_isWord_spaces 0), fun _ run hword ↦ ?_⟩
    have hsome : parts ≠ [] := by
      rintro rfl
      exact hlast rfl
    exact .broken hword ((ih hfeed.2 (getLast?_of_append hlast)).1 hsome hnext)
  | @feeds n ws parts h hnext ih => exact absurd (by simp) hfeed

/-- Plain words begin as their text does, and their second character is that of the text unless a word
ends there. -/
theorem PlainlyWritten.head (h : PlainlyWritten parts ws) :
    ∃ ch tail behind, ws = ch :: tail ∧ parts.flatten = ch :: behind ∧ ch ≠ ' ' ∧ ch ≠ '\n' ∧
      (endsToken behind.head? = true ∨ behind.head? = tail.head?) := by
  have hstart {run written rest : List Char} (hword : IsWord run)
      (hrest : endsToken rest.head? = true) :
      ∃ ch tail behind, run ++ written = ch :: tail ∧ run ++ rest = ch :: behind ∧ ch ≠ ' ' ∧
        ch ≠ '\n' ∧ (endsToken behind.head? = true ∨ behind.head? = tail.head?) := by
    obtain ⟨ch, run, rfl⟩ := List.exists_cons_of_ne_nil hword.ne_nil
    obtain ⟨hspace, hfeed⟩ := hword.ink ch List.mem_cons_self
    refine ⟨ch, run ++ written, run ++ rest, rfl, rfl, hspace, hfeed, ?_⟩
    cases run with
    | nil => exact .inl hrest
    | cons d run => exact .inr rfl
  cases h with
  | last hword =>
    obtain ⟨ch, tail, behind, hwritten, htext, h⟩ := @hstart _ [] [] hword rfl
    rw [List.append_nil] at hwritten htext
    exact ⟨ch, tail, behind, hwritten, by simpa using htext, h⟩
  | spaces hword n h => exact hstart hword rfl
  | broken hword h => exact hstart hword rfl

theorem IsWord.endsToken_eq_false (hword : IsWord word) (hshown : ∀ ch ∈ word, isShown ch = true) :
    ∀ ch ∈ word, endsToken (some ch) = false := by
  intro ch hch
  obtain ⟨hspace, hfeed⟩ := hword.ink ch hch
  exact endsToken_eq_false_iff.mpr (ink_of_isShown (hshown ch hch) hspace hfeed)

theorem PlainlyWritten.peek_ne_hash (h : PlainlyWritten parts ws)
    (hhash : parts.flatten.head? ≠ some '#') (hc : c.Before (ws ++ ['\n'])) :
    c.peek ≠ some '#' := by
  obtain ⟨ch, tail, behind, rfl, htext, -⟩ := h.head
  rw [htext] at hhash
  rw [hc.peek]
  exact hhash

theorem plainFrom_eq {taken gap gap' : List Char} {broken broken' : Bool} {least : Int}
    {after : Cursor} (hhash : c.peek ≠ some '#') (hword : plainWord false c.rest = word)
    (hsome : word ≠ []) (hgap : plainGap (c.skip word.length) = (some gap', after, broken'))
    (hgap' : gap' ≠ []) (hafter : after.peek ≠ some '#') (hshorter : after.left < c.left) :
    plainFrom false least taken gap broken c =
      if (after.column : Int) < least then
        plainStop (word.reverse ++ (gap.reverse ++ taken)) after broken'
      else plainFrom false least (word.reverse ++ (gap.reverse ++ taken)) gap' broken' after := by
  have hword' : ¬ word.isEmpty = true := by simpa using hsome
  have hgap'' : gap'.isEmpty = false := by simpa using hgap'
  rw [plainFrom, if_neg hhash]
  simp only [hword, if_neg hword', hgap, hgap'', decide_eq_false hafter, Bool.or_false,
    Bool.false_or, Bool.not_false, Bool.true_and, decide_eq_true_iff, List.reverseAux_eq,
    if_pos hshorter]

/-- Behind a word of a text reading goes on with the next one, once the white space between them is
read. -/
theorem plainFrom_word {behind taken gap : List Char} {broken broken' : Bool} {after : Cursor}
    (n : Nat) (hword : IsWord word) (hshown : ∀ ch ∈ word, isShown ch = true)
    (h : PlainlyWritten parts ws)
    (hmarks : marksInside before (word ++ (List.replicate (n + 1) ' ' ++ parts.flatten)) = false)
    (hhash : c.peek ≠ some '#') (hc : c.Before (word ++ behind))
    (hbehind : endsToken behind.head? = true)
    (hgap : plainGap (c.skip word.length) = (some (List.replicate (n + 1) ' '), after, broken'))
    (hafter : after.Before (ws ++ ['\n'])) (hcolumn : 1 ≤ after.column)
    (hshorter : after.left < c.left) :
    plainFrom false 1 taken gap broken c =
      plainFrom false 1 (word.reverse ++ (gap.reverse ++ taken)) (List.replicate (n + 1) ' ') broken'
        after := by
  have hread : plainWord false c.rest = word := by
    rw [hc.rest]
    exact plainWord_append (hword.endsToken_eq_false hshown) hmarks rfl hbehind
  have hpeek : after.peek ≠ some '#' := h.peek_ne_hash (marks_behind_spaces n hmarks).2 hafter
  rw [plainFrom_eq hhash hread hword.ne_nil hgap (by simp) hpeek hshorter, if_neg (by omega)]

/-- Plain words are read with the white space between them, up to the end of the text. -/
theorem plainFrom_plainlyWritten (h : PlainlyWritten parts ws)
    (hshown : ∀ ch ∈ parts.flatten, isShown ch = true)
    (hmarks : marksInside before parts.flatten = false) (hhash : parts.flatten.head? ≠ some '#')
    {taken gap : List Char} {broken : Bool} (hc : c.Before (ws ++ ['\n'])) (hcolumn : 1 ≤ c.column) :
    plainFrom false 1 taken gap broken c =
      (String.ofList (taken.reverse ++ (gap ++ parts.flatten)), c.skip (ws.length + 1), true) := by
  induction h generalizing before taken gap broken c with
  | @last run hword =>
    rw [List.flatten_cons, List.flatten_nil, List.append_nil] at hshown hmarks ⊢
    have hends := hword.endsToken_eq_false hshown
    have hread : plainWord false c.rest = run := by
      rw [hc.rest]
      rw [← List.append_nil run] at hmarks
      exact plainWord_append hends hmarks rfl rfl
    have hbehind : (c.skip run.length).Before ('\n' :: (List.replicate 0 ' ' ++ [])) := hc.skip
    have hgap := plainGap_feed 0 hbehind (by simp) (by simp)
    have hend : ((c.skip run.length).skip 1).Before [] := hbehind.next
    have hcolumn' : ((c.skip run.length).skip 1).column = 0 := column_next_feed hbehind
    have hshorter : ((c.skip run.length).skip 1).left < c.left := by
      rw [hend.left, hc.left]
      simp
    have hpeek : c.peek ≠ some '#' :=
      (PlainlyWritten.last hword).peek_ne_hash (by simpa using hhash) hc
    rw [plainFrom_eq hpeek hread hword.ne_nil hgap (by simp) (by simp [hend.peek]) hshorter,
      hcolumn', if_pos (by decide), plainStop, ← skip_add]
    simp
  | @spaces run ws parts hword n h ih =>
    obtain ⟨hmarks', hhash'⟩ := marks_behind_spaces n hmarks
    rw [List.flatten_cons, List.flatten_cons, List.forall_mem_append,
      List.forall_mem_append] at hshown
    have hpeek : c.peek ≠ some '#' := (h.spaces hword n).peek_ne_hash hhash hc
    rw [List.append_assoc, List.append_assoc] at hc
    obtain ⟨ch, tail, behind, rfl, htext, hspace, hfeed, -⟩ := h.head
    obtain ⟨-, hbreak⟩ := ink_of_isShown (hshown.2.2 ch (by simp [htext])) hspace hfeed
    have hgap := plainGap_spaces (n + 1) hc.skip (by simpa [isSpace] using hspace) hbreak
    have hafter : ((c.skip run.length).skip (n + 1)).Before (ch :: tail ++ ['\n']) :=
      hc.skip.skip_replicate
    have hcolumn' : 1 ≤ ((c.skip run.length).skip (n + 1)).column := by
      have hends := hword.endsToken_eq_false hshown.1
      have hkept : ∀ ch ∈ run ++ List.replicate (n + 1) ' ', isBreak ch = false := by
        rw [List.forall_mem_append]
        exact ⟨fun ch hch ↦ (endsToken_eq_false_iff.mp (hends ch hch)).2, by simp [isBreak]⟩
      have hle := (kept_skip (by rwa [List.append_assoc]) hkept).2
      rw [List.length_append, List.length_replicate, skip_add] at hle
      exact hcolumn.trans hle
    have hshorter : ((c.skip run.length).skip (n + 1)).left < c.left := by
      rw [hafter.left, hc.left]
      simp
      omega
    rw [plainFrom_word n hword hshown.1 h hmarks hpeek hc rfl hgap hafter hcolumn' hshorter,
      ih hshown.2.2 hmarks' hhash' hafter hcolumn', ← skip_add, ← skip_add]
    simp [Nat.add_assoc]
  | @broken run ws parts hword h ih =>
    obtain ⟨hmarks', hhash'⟩ := marks_behind_spaces 0 hmarks
    rw [List.flatten_cons, List.flatten_cons, List.forall_mem_append,
      List.forall_mem_append] at hshown
    have hpeek : c.peek ≠ some '#' := (h.broken hword).peek_ne_hash hhash hc
    rw [List.append_assoc, List.append_assoc] at hc
    obtain ⟨ch, tail, behind, rfl, htext, hspace, hfeed, -⟩ := h.head
    obtain ⟨-, hbreak⟩ := ink_of_isShown (hshown.2.2 ch (by simp [htext])) hspace hfeed
    have hbehind : (c.skip run.length).Before
        ('\n' :: (List.replicate 2 ' ' ++ (ch :: tail ++ ['\n']))) := hc.skip
    have hgap := plainGap_feed 2 hbehind (by simp) (by simpa [isSpace] using ⟨hspace, hbreak⟩)
    have hafter : ((c.skip run.length).skip 3).Before (ch :: tail ++ ['\n']) := hc.skip.skip
    have hcolumn' : ((c.skip run.length).skip 3).column = 2 := by
      have hspaces := hbehind.next
      calc
        _ = (c.skip run.length).next.next.column + 1 := column_next_space hspaces.next
        _ = (c.skip run.length).next.column + 1 + 1 := by rw [column_next_space hspaces]
        _ = 2 := by rw [column_next_feed hbehind]
    have hcolumn'' : 1 ≤ ((c.skip run.length).skip 3).column := by
      rw [hcolumn']
      decide
    have hshorter : ((c.skip run.length).skip 3).left < c.left := by
      rw [hafter.left, hc.left]
      simp
      omega
    rw [plainFrom_word 0 hword hshown.1 h hmarks hpeek hc rfl hgap hafter hcolumn'' hshorter,
      ih hshown.2.2 hmarks' hhash' hafter hcolumn'', ← skip_add, ← skip_add]
    simp only [List.length_append, List.length_cons, List.length_nil, List.reverse_append,
      List.reverse_reverse, List.flatten_cons, List.append_assoc, Prod.mk.injEq, and_true]
    exact ⟨rfl, congrArg c.skip (by omega)⟩

/-! ## Plain scalars -/

/-- A plain scalar can begin with a character before another. -/
structure BeginsPlain (ch : Char) (next : Option Char) : Prop where
  ink : endsToken (some ch) = false
  mark : openingMarks.contains ch = false
  indicator : endsToken next = true → ch ≠ '-' ∧ ch ≠ '?' ∧ ch ≠ ':'

theorem mem_of_hasPair {first second : Char} (h : hasPair first second cs = true) :
    first ∈ cs ∧ second ∈ cs := by
  induction cs with
  | nil => cases h
  | cons a cs ih =>
    cases cs with
    | nil => cases h
    | cons b cs =>
      rw [hasPair, Bool.or_eq_true, Bool.and_eq_true, decide_eq_true_iff, decide_eq_true_iff] at h
      rcases h with ⟨rfl, rfl⟩ | h
      · simp
      · exact ⟨List.mem_cons_of_mem a (ih h).1, List.mem_cons_of_mem a (ih h).2⟩

/-- Without line feeds the words of a text and its spaces follow one another. -/
theorem spaced_runs_line (hfeed : '\n' ∉ cs) : Spaced (runs cs) := by
  apply spaced_runs
  · rw [← Bool.not_eq_true]
    exact fun h ↦ hfeed (mem_of_hasPair h).2
  · rw [← Bool.not_eq_true]
    exact fun h ↦ hfeed (mem_of_hasPair h).1

/-- What begins with ink begins with a word. -/
theorem Written.isWord_head (h : Written false parts ws) (hspace : parts.flatten.head? ≠ some ' ')
    (hfeed : parts.flatten.head? ≠ some '\n') : ∀ run ∈ parts.head?, IsWord run := by
  cases h with
  | nil => simp
  | word hword => simpa using hword
  | spaces n => exact absurd rfl hspace
  | broken => exact absurd rfl hspace
  | feeds n => exact absurd rfl hfeed

/-- What can be written plain does not begin as a mark would. -/
theorem exists_beginning {text : List Char} (hplain : canBePlain text = true) :
    ∃ ch behind, text = ch :: behind ∧ BeginsPlain ch behind.head? ∧
      marksInside none text = false := by
  simp only [canBePlain, Bool.and_eq_true, Bool.not_eq_true', decide_eq_true_iff,
    List.all_eq_true] at hplain
  obtain ⟨⟨⟨⟨⟨htag, hshown⟩, -⟩, hfirst⟩, -⟩, hmarks⟩ := hplain
  cases text with
  | nil => exact absurd htag (by decide)
  | cons ch behind =>
    simp only [marksFirst, Bool.or_eq_false_iff] at hmarks
    obtain ⟨⟨⟨⟨hopening, hindicator⟩, -⟩, -⟩, hinside⟩ := hmarks
    have hfirst' : ch ≠ ' ' ∧ ch ≠ '\n' := by simpa [isSpaceOrFeed] using hfirst
    have hink : endsToken (some ch) = false :=
      endsToken_eq_false_iff.mpr (ink_of_isShown (hshown ch List.mem_cons_self) hfirst'.1 hfirst'.2)
    have hindicators : endsToken behind.head? = true → ch ≠ '-' ∧ ch ≠ '?' ∧ ch ≠ ':' := by
      intro hends
      simp only [hends, Bool.and_true, Bool.or_eq_false_iff, decide_eq_false_iff_not] at hindicator
      exact ⟨hindicator.2, hindicator.1.1, hindicator.1.2⟩
    refine ⟨ch, behind, rfl, ⟨hink, hopening, hindicators⟩, ?_⟩
    have hcolon : (decide (ch = ':') && endsToken behind.head?) = false := by
      rw [Bool.and_eq_false_iff, decide_eq_false_iff_not, or_iff_not_imp_right,
        Bool.not_eq_false]
      exact fun hends ↦ (hindicators hends).2.2
    have hhash : decide (ch = '#') = false := by
      rw [decide_eq_false_iff_not]
      rintro rfl
      exact absurd hopening (by decide)
    rw [marksInside, hcolon, hhash, hinside]
    rfl

/-- A text that is written plain is read back, where the line is indented. -/
theorem exists_plain (column : Nat) {text : String} (hplain : canBePlain text.toList = true) :
    ∃ ch ws, writeScalar column text = ' ' :: ch :: ws ∧ (∀ d ∈ ch :: ws, isShown d = true) ∧
      BeginsPlain ch (ws ++ ['\n']).head? ∧
      ∀ c : Cursor, c.Before (ch :: (ws ++ ['\n'])) → 1 ≤ c.column →
        plainScalar false 0 c = (text, c.skip (ws.length + 2), true) := by
  obtain ⟨ch, behind, htext, hbegins, hmarks⟩ := exists_beginning hplain
  have hplain' := hplain
  simp only [canBePlain, Bool.and_eq_true, Bool.not_eq_true', List.all_eq_true,
    List.contains_eq_mem, decide_eq_false_iff_not] at hplain'
  obtain ⟨⟨⟨⟨⟨-, hshown⟩, hfeed⟩, -⟩, hlast⟩, -⟩ := hplain'
  have hflatten := (flatten_runs text.toList).1
  obtain ⟨ws, hws, hwritten⟩ := exists_written (spaced_runs_line hfeed) false true
    (({ column } : Pen).write [' '])
  have hallshown := hwritten.all_shown (by rwa [hflatten])
  obtain ⟨hspace, hfeed'⟩ : ch ≠ ' ' ∧ ch ≠ '\n' := by
    have hink := hbegins.ink
    constructor <;> rintro rfl <;> exact absurd hink (by decide)
  have hplainly : PlainlyWritten (runs text.toList) ws := by
    apply (plainlyWritten_of_written hwritten (by rwa [hflatten]) ?_).1
    · intro hempty
      rw [hempty, htext] at hflatten
      cases hflatten
    · have hhead : (runs text.toList).flatten.head? = some ch := by rw [hflatten, htext]; rfl
      exact hwritten.isWord_head (by simp [hhead, hspace]) (by simp [hhead, hfeed'])
    · rw [hflatten]
      intro hspace'
      rw [hspace'] at hlast
      cases hlast
  obtain ⟨ch', tail, behind', rfl, htext', -, -, hnext⟩ := hplainly.head
  rw [hflatten, htext, List.cons.injEq] at htext'
  obtain ⟨rfl, rfl⟩ := htext'
  refine ⟨ch, tail, ?_, hallshown, ⟨hbegins.ink, hbegins.mark, fun hends ↦ ?_⟩, ?_⟩
  · unfold writeScalar
    simp only [hplain, if_true]
    rw [hws, Pen.written_write]
    simp
  · apply hbegins.indicator
    rcases hnext with hnext | hnext
    · exact hnext
    · rw [hnext]
      cases tail with
      | nil => rfl
      | cons d tail => exact hends
  · intro c hc hcolumn
    have hhash : (runs text.toList).flatten.head? ≠ some '#' := by
      rw [hflatten, htext]
      intro hhash
      obtain rfl : ch = '#' := Option.some.inj hhash
      exact absurd hbegins.mark (by decide)
    have hread := @plainFrom_plainlyWritten _ _ _ none hplainly (by rwa [hflatten])
      (by rwa [hflatten]) hhash [] [] false hc hcolumn
    rw [hflatten, List.reverse_nil, List.nil_append, List.nil_append, String.ofList_toList] at hread
    exact hread

end OfflineSupply.Yaml
