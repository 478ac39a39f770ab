import OfflineSupply.Proofs.Json.Text
import OfflineSupply.Proofs.Yaml.Cursor
import OfflineSupply.Yaml.Token.Scalar

/-!
# Between quotes

A quoted scalar is read piece by piece: a character, an escape, or white space with the line breaks in
it.  What each piece reads as is said for whatever comes behind it, so that the pieces of a scalar are
put together up to its closing quote.
-/

namespace OfflineSupply.Yaml

open Cursor

variable {quote ch : Char} {cs cs' rest : List Char} {points points' taken : List CodePoint}
  {c : Cursor} {n : Nat}

/-- Something stands first that neither leaves blank nor breaks a line. -/
def Solid (cs : List Char) : Prop :=
  ∃ ch rest, cs = ch :: rest ∧ isSpaceOrTab ch = false ∧ isBreak ch = false

/-- Between such quotes some characters before others are read as code points. -/
def Reads (quote : Char) (cs rest : List Char) (points : List CodePoint) : Prop :=
  ∀ (c : Cursor) (taken : List CodePoint), c.Before (cs ++ rest) →
    quotedFrom quote taken c = quotedFrom quote (points.reverse ++ taken) (c.skip cs.length)

namespace Reads

theorem nil : Reads quote [] rest [] := fun _ _ _ ↦ rfl

theorem append (h : Reads quote cs (cs' ++ rest) points) (h' : Reads quote cs' rest points') :
    Reads quote (cs ++ cs') rest (points ++ points') := by
  intro c taken hc
  rw [List.append_assoc] at hc
  rw [h c taken hc, h' _ _ hc.skip, ← skip_add, List.length_append, List.reverse_append,
    List.append_assoc]

theorem cons (h : Reads quote [ch] (cs' ++ rest) points) (h' : Reads quote cs' rest points') :
    Reads quote (ch :: cs') rest (points ++ points') :=
  @append quote [ch] cs' rest points points' h h'

/-- A piece of a quoted scalar. -/
theorem of_piece (hcs : cs ≠ [])
    (h : ∀ c : Cursor, c.Before (cs ++ rest) →
      quotedPiece quote c = .ok (some (points, c.skip cs.length))) :
    Reads quote cs rest points := by
  intro c taken hc
  rw [quotedFrom, h c hc]
  simp only [if_pos (hc.left_skip_lt hcs), List.reverseAux_eq]

theorem char (hquote : ch ≠ quote) (hbackslash : quote = '\x22' → ch ≠ '\\')
    (hblank : isSpaceOrTab ch = false) (hbreak : isBreak ch = false) :
    Reads quote [ch] rest [.char ch] := by
  apply of_piece (by simp)
  intro c hc
  have hescape : ¬ (decide (ch = '\\') && decide (quote = '\x22')) = true := by
    simpa [and_comm] using hbackslash
  unfold quotedPiece
  rw [hc.peek]
  simp only [List.cons_append, List.head?_cons, if_neg hquote, if_neg hescape, hblank, hbreak,
    Bool.or_self, Bool.false_eq_true, if_false]
  rfl

/-- A single quote that is written twice. -/
theorem doubled : Reads '\x27' ['\x27', '\x27'] rest [.char '\x27'] := by
  apply of_piece (by simp)
  intro c hc
  unfold quotedPiece
  rw [hc.peek, hc.peekAt]
  rfl

/-! ## White space -/

theorem of_gap {gap : List Char} (hstart : isSpaceOrTab ch = true ∨ isBreak ch = true)
    (hquote : quote = '\x22' ∨ quote = '\x27')
    (h : ∀ c : Cursor, c.Before (ch :: cs ++ rest) →
      quotedGap c = .ok (gap, c.skip (ch :: cs).length)) :
    Reads quote (ch :: cs) rest (gap.map .char) := by
  apply of_piece (by simp)
  intro c hc
  have hne (d : Char) (hblank : isSpaceOrTab d = false) (hbreak : isBreak d = false) : ch ≠ d := by
    rintro rfl
    simp [hblank, hbreak] at hstart
  have hch : ch ≠ quote := by
    rcases hquote with rfl | rfl
    · exact hne _ (by decide) (by decide)
    · exact hne _ (by decide) (by decide)
  have hescape : ¬ (decide (ch = '\\') && decide (quote = '\x22')) = true := by
    simp [hne '\\' (by decide) (by decide)]
  have hgap : (isSpaceOrTab ch || isBreak ch) = true := by
    rwa [Bool.or_eq_true]
  unfold quotedPiece
  rw [hc.peek]
  simp only [List.cons_append, List.head?_cons, if_neg hch, if_neg hescape, if_pos hgap, h c hc]
  rfl

theorem spaces (hquote : quote = '\x22' ∨ quote = '\x27') (n : Nat) (hrest : Solid rest) :
    Reads quote (List.replicate n ' ') rest (List.replicate n (.char ' ')) := by
  cases n with
  | zero => exact nil
  | succ n =>
    rw [← List.map_replicate (f := CodePoint.char)]
    apply of_gap (.inl rfl) hquote
    intro c hc
    obtain ⟨ch, tail, rfl, hblank, hbreak⟩ := hrest
    have hspan : c.span isSpaceOrTab = (List.replicate (n + 1) ' ', c.skip (n + 1)) :=
      hc.span_replicate rfl (by simpa using hblank)
    have hbehind : (c.skip (n + 1)).Before (ch :: tail) := hc.skip_replicate
    unfold quotedGap
    rw [hspan]
    simp only [lineBreak_eq_self hbehind (by simpa using hbreak), List.isEmpty_nil, if_true]
    simp

end Reads

/-- Line breaks in front of an indented line that goes on with the scalar. -/
theorem quotedBreaks_indented (taken : List Char)
    (h : c.Before (List.replicate n '\n' ++ ' ' :: ' ' :: rest)) (hrest : Solid rest) :
    quotedBreaks taken c = .ok (taken.reverse ++ List.replicate n '\n', c.skip (n + 2)) := by
  obtain ⟨ch, tail, rfl, hblank, hbreak⟩ := hrest
  induction n generalizing taken c with
  | zero =>
    have hmark : c.atDocumentMark = false := atDocumentMark_eq_false h (by decide) (by decide)
    have hspaces : c.Before (List.replicate 2 ' ' ++ ch :: tail) := h
    have hskip : c.skipWhile isSpaceOrTab = c.skip 2 :=
      hspaces.skipWhile_replicate rfl (by simpa using hblank)
    have hbehind : (c.skip 2).Before (ch :: tail) := hspaces.skip_replicate
    have hline : (c.skip 2).lineBreak = ([], c.skip 2) :=
      lineBreak_eq_self hbehind (by simpa using hbreak)
    rw [quotedBreaks]
    simp [hmark, hskip, hline]
  | succ n ih =>
    rw [List.replicate_succ, List.cons_append] at h
    have hmark : c.atDocumentMark = false := atDocumentMark_eq_false h (by decide) (by decide)
    have hskip : c.skipWhile isSpaceOrTab = c :=
      h.skipWhile_eq_self (by simp [isSpaceOrTab])
    have hshorter : c.next.left < c.left := h.left_next_lt
    rw [quotedBreaks, hskip]
    simp only [hmark, lineBreak_feed h, List.isEmpty_cons, Bool.false_eq_true, if_false,
      if_pos hshorter, List.reverseAux_cons, List.reverseAux_nil]
    rw [ih _ h.next, List.reverse_cons, List.append_assoc]
    rfl

namespace Reads

/-- Line breaks inside a scalar, of which the first is dropped, or read as a space if it is the only
one. -/
theorem breaks (hquote : quote = '\x22' ∨ quote = '\x27') (n : Nat) (hrest : Solid rest) :
    Reads quote ('\n' :: (List.replicate n '\n' ++ [' ', ' '])) rest
      ((foldBreaks ['\n'] (List.replicate n '\n')).map .char) := by
  apply of_gap (.inr rfl) hquote
  intro c hc
  have hspan : c.span isSpaceOrTab = ([], c) := hc.span_eq_nil (by simp [isSpaceOrTab])
  have hnext : c.next.Before (List.replicate n '\n' ++ ' ' :: ' ' :: rest) := by
    have := hc.next
    simpa using this
  unfold quotedGap
  rw [hspan]
  simp only [lineBreak_feed hc, List.isEmpty_cons, Bool.false_eq_true, if_false,
    quotedBreaks_indented [] hnext hrest, List.reverse_nil, List.nil_append]
  simp [Cursor.skip]

/-! ## Escapes -/

theorem of_escape (hread : ∀ c : Cursor, c.Before (cs ++ rest) →
    escape c = .ok (points, c.skip cs.length)) : Reads '\x22' ('\\' :: cs) rest points := by
  apply of_piece (by simp)
  intro c hc
  unfold quotedPiece
  rw [hc.peek]
  simp only [List.cons_append, List.head?_cons, if_neg (by decide : ¬ '\\' = '\x22'),
    hread c.next hc.next]
  rfl

/-- A letter that stands for a character. -/
theorem letter {letter meant : Char} (h : escapes.lookup letter = some meant) :
    Reads '\x22' ['\\', letter] rest [.char meant] := by
  apply @of_escape [letter]
  intro c hc
  unfold escape
  rw [hc.peek]
  simp only [List.singleton_append, List.head?_cons, h]
  rfl

/-- A code with as many digits as its letter says. -/
theorem code {letter : Char} {digits : List Char} (hletter : escapes.lookup letter = none)
    (hlength : codeLength? letter = some digits.length)
    (hdigits : digits.all Text.isHexDigit = true)
    (hsmall : Text.digitsValue 16 digits < 0x110000) :
    Reads '\x22' ('\\' :: letter :: digits) rest
      [.ofNat (Text.digitsValue 16 digits)] := by
  apply @of_escape (letter :: digits)
  intro c hc
  have htake : c.next.rest.take digits.length = digits := by
    rw [hc.next.rest]
    exact List.take_left
  have hcode : codeAt? c =
      some (Text.digitsValue 16 digits, c.skip (letter :: digits).length) := by
    unfold codeAt?
    rw [hc.peek]
    simp only [List.cons_append, List.head?_cons, Option.bind_eq_bind, Option.bind_some, hlength,
      htake, hdigits, decide_true, Bool.and_self, if_true]
    rfl
  unfold escape
  rw [hc.peek]
  simp only [List.cons_append, List.head?_cons, hletter, hcode, pointOfCode, if_pos hsmall]
  rfl

/-- A line that is broken where nothing is read. -/
theorem brokenLine (hrest : Solid rest) : Reads '\x22' ['\\', '\n', ' ', ' '] rest [] := by
  apply @of_escape ['\n', ' ', ' ']
  intro c hc
  have hcode : codeAt? c = none := by
    unfold codeAt?
    rw [hc.peek]
    rfl
  have hnext : c.next.Before (List.replicate 0 '\n' ++ ' ' :: ' ' :: rest) := hc.next
  have hletter : escapes.lookup '\n' = none := by decide
  unfold escape
  rw [hc.peek]
  simp only [List.cons_append, List.head?_cons, hletter, hcode, lineBreak_feed hc,
    quotedBreaks_indented [] hnext hrest]
  rfl

end Reads

/-- A scalar between quotes is read as far as its closing quote. -/
theorem quotedScalar_of_reads (hc : c.Before (quote :: (cs ++ quote :: rest)))
    (hend : quote = '\x27' → rest.head? ≠ some '\x27')
    (h : Reads quote cs (quote :: rest) points) :
    quotedScalar quote c = .ok ({ points }, c.skip (cs.length + 2)) := by
  have hclose : (c.next.skip cs.length).Before (quote :: rest) := hc.next.skip
  have hpiece : quotedPiece quote (c.next.skip cs.length) = .ok none := by
    have hsingle : ¬ (decide (quote = '\x27') &&
        decide ((c.next.skip cs.length).peekAt 1 = some '\x27')) = true := by
      rw [hclose.peekAt, Bool.and_eq_true, decide_eq_true_iff, decide_eq_true_iff]
      intro hquote
      exact hend hquote.1 (by simpa [List.head?_eq_getElem?] using hquote.2)
    unfold quotedPiece
    rw [hclose.peek]
    simp only [List.head?_cons, if_true, if_neg hsingle]
  have hend : (c.next.skip cs.length).next = c.skip (cs.length + 2) := by
    rw [Nat.add_comm cs.length 2, ← skip_one c, ← skip_one, ← skip_add, ← skip_add]
    congr 1
    omega
  rw [quotedScalar, h _ _ hc.next, quotedFrom, hpiece]
  simp only [List.append_nil, List.reverse_reverse, hend]

end OfflineSupply.Yaml
