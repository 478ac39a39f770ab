import Mathlib.Algebra.Group.Nat.Defs
import Mathlib.Data.Nat.Basic
import OfflineSupply.Json.Reader
import OfflineSupply.Json.Writer

/-!
# Texts between double quotes

A character is written as itself, as a letter behind a backslash, as one escaped code or as the codes
of its two halves, and a half as one code.  Reading a written text gives back its code points, whatever
they are and whatever follows the closing quote, but that a first half and a second one behind it are
read as one character: the codes do not tell whether they were written for two halves or for one
character.  A text of characters is therefore read as it was.
-/

namespace OfflineSupply

namespace Text

/-! ## Digits of base sixteen -/

theorem digitValue?_digitChar {d : Nat} (h : d < 16) :
    digitValue? 16 (Nat.digitChar d) = some d := by
  have hall : ∀ d < 16, digitValue? 16 (Nat.digitChar d) = some d := by decide
  exact hall d h

theorem digitsValue_append (cs : List Char) (c : Char) :
    digitsValue 16 (cs ++ [c]) = digitsValue 16 cs * 16 + (digitValue? 16 c).getD 0 := by
  simp [digitsValue]

/-- Digits spell the number that they were taken from, as far as they reach. -/
theorem digitsValue_hexDigits (width n : Nat) :
    digitsValue 16 (hexDigits width n) = n % 16 ^ width := by
  induction width generalizing n with
  | zero => rw [Nat.pow_zero, Nat.mod_one]; rfl
  | succ width ih =>
    have hdigit : n % 16 < 16 := Nat.mod_lt n (by decide)
    calc
      digitsValue 16 (hexDigits (width + 1) n)
          = digitsValue 16 (hexDigits width (n / 16)) * 16 +
              (digitValue? 16 (Nat.digitChar (n % 16))).getD 0 := digitsValue_append _ _
      _ = n / 16 % 16 ^ width * 16 + n % 16 := by
        rw [ih, digitValue?_digitChar hdigit, Option.getD_some]
      _ = n % 16 + 16 * (n / 16 % 16 ^ width) := by omega
      _ = n % (16 * 16 ^ width) := Nat.mod_mul.symm
      _ = n % 16 ^ (width + 1) := by rw [Nat.pow_succ']

theorem exists_digit_of_mem_hexDigits {width n : Nat} {c : Char} (h : c ∈ hexDigits width n) :
    ∃ d < 16, c = Nat.digitChar d := by
  induction width generalizing n with
  | zero => simp [hexDigits] at h
  | succ width ih =>
    rw [hexDigits, List.mem_append, List.mem_singleton] at h
    cases h with
    | inl hfront => exact ih hfront
    | inr hlast => exact ⟨n % 16, Nat.mod_lt n (by decide), hlast⟩

theorem isHexDigit_of_mem_hexDigits {width n : Nat} {c : Char} (h : c ∈ hexDigits width n) :
    isHexDigit c = true := by
  obtain ⟨d, hd, rfl⟩ := exists_digit_of_mem_hexDigits h
  rw [isHexDigit, digitValue?_digitChar hd, Option.isSome_some]

theorem le_toNat_of_mem_hexDigits {width n : Nat} {c : Char} (h : c ∈ hexDigits width n) :
    0x20 ≤ c.toNat := by
  obtain ⟨d, hd, rfl⟩ := exists_digit_of_mem_hexDigits h
  have hall : ∀ d < 16, 0x20 ≤ (Nat.digitChar d).toNat := by decide
  exact hall d hd

end Text

namespace Json

variable {α : Type} {n : Nat} {start cs rest after : List Char} {points : List CodePoint}
  {p : CodePoint} {text : RawText}

/-- Four digits of base sixteen spell every number below `0x10000`. -/
theorem exists_hexDigits_four (h : n < 0x10000) :
    ∃ a b c d, Text.hexDigits 4 n = [a, b, c, d] ∧ hexCode? a b c d = some n := by
  refine ⟨_, _, _, _, rfl, ?_⟩
  have hdigits : (Text.hexDigits 4 n).all Text.isHexDigit = true := by
    rw [List.all_eq_true]
    intro c hc
    exact Text.isHexDigit_of_mem_hexDigits hc
  have hvalue : Text.digitsValue 16 (Text.hexDigits 4 n) = n := by
    rw [Text.digitsValue_hexDigits]
    exact Nat.mod_eq_of_lt h
  unfold hexCode?
  exact (if_pos hdigits).trans (congrArg some hvalue)

/-! ## Code points by their numbers -/

theorem ofNat_toNat (p : CodePoint) : CodePoint.ofNat p.toNat = p := by
  cases p with
  | char c =>
    have hvalid : c.toNat.isValidChar := c.valid
    rw [CodePoint.toNat, CodePoint.ofNat, if_pos hvalid, Char.ofNat_toNat]
  | half index =>
    have hinvalid : ¬ (CodePoint.half index).toNat.isValidChar := by
      simp only [Nat.isValidChar, CodePoint.toNat, CodePoint.firstHalf]
      omega
    have hindex : (CodePoint.half index).toNat - CodePoint.firstHalf = index.val :=
      Nat.add_sub_cancel_left ..
    rw [CodePoint.ofNat, if_neg hinvalid, hindex, Fin.ofNat_val_eq_self]

theorem toNat_half_lt (index : Fin 0x800) : (CodePoint.half index).toNat < 0x10000 := by
  simp only [CodePoint.toNat, CodePoint.firstHalf]
  omega

/-- Only a first half and a second one are joined. -/
theorem join?_eq_some_iff {p q : CodePoint} {c : Char} : p.join? q = some c ↔
    ∃ first second : Fin 0x800, p = .half first ∧ q = .half second ∧
      first.val < CodePoint.pairSize ∧ CodePoint.pairSize ≤ second.val ∧
        c = Char.ofNat (0x10000 + first * CodePoint.pairSize + (second - CodePoint.pairSize)) := by
  constructor
  · intro h
    cases p with
    | char d => simp [CodePoint.join?] at h
    | half first =>
      cases q with
      | char d => simp [CodePoint.join?] at h
      | half second =>
        rw [CodePoint.join?, Option.ite_none_right_eq_some, Bool.and_eq_true, decide_eq_true_iff,
          decide_eq_true_iff] at h
        obtain ⟨⟨hfirst, hsecond⟩, hc⟩ := h
        exact ⟨first, second, rfl, rfl, hfirst, hsecond, (Option.some.inj hc).symm⟩
  · rintro ⟨first, second, rfl, rfl, hfirst, hsecond, hc⟩
    have hpair : (decide (first.val < CodePoint.pairSize) &&
        decide (CodePoint.pairSize ≤ second.val)) = true := by
      rw [Bool.and_eq_true, decide_eq_true_iff, decide_eq_true_iff]
      exact ⟨hfirst, hsecond⟩
    rw [CodePoint.join?, if_pos hpair, hc]

/-- The halves of a character above `U+FFFF`. -/
theorem exists_join?_eq_some {c : Char} {m : Nat} (hm : m < 0x100000)
    (hnumber : c.toNat = 0x10000 + m) : ∃ first second : Fin 0x800,
      (CodePoint.half first).toNat = 0xD800 + m / 0x400 ∧
        (CodePoint.half second).toNat = 0xDC00 + m % 0x400 ∧
        (CodePoint.half first).join? (.half second) = some c := by
  refine ⟨⟨m / 0x400, by omega⟩, ⟨0x400 + m % 0x400, by omega⟩, ?_, ?_, ?_⟩
  · simp only [CodePoint.toNat, CodePoint.firstHalf]
  · simp only [CodePoint.toNat, CodePoint.firstHalf]
    omega
  · refine join?_eq_some_iff.mpr ⟨_, _, rfl, rfl, ?_, ?_, ?_⟩
    · simp only [CodePoint.pairSize]
      omega
    · simp only [CodePoint.pairSize]
      omega
    · have hsum : 0x10000 + m / 0x400 * CodePoint.pairSize +
          (0x400 + m % 0x400 - CodePoint.pairSize) = c.toNat := by
        simp only [CodePoint.pairSize]
        omega
      rw [hsum, Char.ofNat_toNat]

/-! ## How a character is written -/

/-- The spellings of a character between two double quotes. -/
inductive Spells (c : Char) : List Char → Prop where
  | letter {letter : Char} (hcode : letter ≠ 'u') (h : letterEscape? letter = some c) :
      Spells c ['\\', letter]
  | plain (hquote : c ≠ '\x22') (hbackslash : c ≠ '\\') (hcontrol : 0x20 ≤ c.toNat) :
      Spells c [c]
  | code (hsmall : c.toNat < 0x10000) : Spells c (codeEscape c.toNat)
  | pair {m : Nat} (hm : m < 0x100000) (hnumber : c.toNat = 0x10000 + m) :
      Spells c (codeEscape (0xD800 + m / 0x400) ++ codeEscape (0xDC00 + m % 0x400))

theorem spells_writeChar (c : Char) : Spells c (writeChar c) := by
  unfold writeChar
  split
  iterate 7 exact .letter (by decide) rfl
  rename_i hquote hbackslash _ _ _ _ _
  dsimp only
  split
  · rename_i hplain
    rw [Bool.and_eq_true, decide_eq_true_iff, decide_eq_true_iff] at hplain
    exact .plain hquote hbackslash hplain.1
  split
  · rename_i hsmall
    exact .code hsmall
  · rename_i hlarge
    have hvalid : c.toNat.isValidChar := c.valid
    unfold Nat.isValidChar at hvalid
    exact .pair (by omega) (by omega)

theorem le_toNat_of_mem_codeEscape {c : Char} (h : c ∈ codeEscape n) : 0x20 ≤ c.toNat := by
  rw [codeEscape, List.mem_cons, List.mem_cons] at h
  rcases h with rfl | rfl | hdigit
  · decide
  · decide
  · exact Text.le_toNat_of_mem_hexDigits hdigit

/-- No spelling holds a control character. -/
theorem Spells.le_toNat {c d : Char} {spelling : List Char} (h : Spells c spelling)
    (hd : d ∈ spelling) : 0x20 ≤ d.toNat := by
  cases h with
  | @letter letter hcode hletter =>
    rw [List.mem_cons, List.mem_singleton] at hd
    cases hd with
    | inl hbackslash => rw [hbackslash]; decide
    | inr hletterEq =>
      rw [hletterEq]
      unfold letterEscape? at hletter
      split at hletter
      iterate 8 decide
      cases hletter
  | plain hquote hbackslash hcontrol =>
    rw [List.mem_singleton] at hd
    rwa [hd]
  | code hsmall => exact le_toNat_of_mem_codeEscape hd
  | pair hm hnumber =>
    rw [List.mem_append] at hd
    cases hd with
    | inl hfirst => exact le_toNat_of_mem_codeEscape hfirst
    | inr hsecond => exact le_toNat_of_mem_codeEscape hsecond

/-! ## One escape -/

/-- A reader found a value and stopped before a rest. -/
def Gives (result : Except Stop (Parsed α n)) (value : α) (rest : List Char) : Prop :=
  ∃ h, result = .ok ⟨value, rest, h⟩

theorem gives_readEscape_letter {letter c : Char} (hletter : letter ≠ 'u')
    (h : letterEscape? letter = some c) :
    Gives (readEscape start (letter :: rest)) (.char c) rest := by
  refine ⟨by simp, ?_⟩
  rw [readEscape]
  · rw [h]
  · intro a b c d e tail hu
    exact absurd hu hletter
  · exact hletter

/-- What stands next is not joined with a code point. -/
def JoinsNothing (p : CodePoint) (cs : List Char) : Prop :=
  secondPoint? cs = .ok none ∨
    ∃ q after, secondPoint? cs = .ok (some (q, after)) ∧ p.join? q = none

theorem secondPoint?_codeEscape (hn : n < 0x10000) (hrest : rest ≠ []) :
    ∃ h, secondPoint? (codeEscape n ++ rest) = .ok (some (.ofNat n, ⟨rest, h⟩)) := by
  obtain ⟨a, b, c, d, hdigits, hcode⟩ := exists_hexDigits_four hn
  obtain ⟨e, tail, rfl⟩ := List.exists_cons_of_ne_nil hrest
  rw [codeEscape, hdigits]
  refine ⟨by simp, ?_⟩
  simp only [List.cons_append, List.nil_append, secondPoint?, hcode]

theorem secondPoint?_of_ne {cs : List Char} (h : ∀ tail, cs ≠ '\\' :: 'u' :: tail) :
    secondPoint? cs = .ok none := by
  unfold secondPoint?
  split
  · exact absurd rfl (h _)
  · rfl

theorem Spells.joinsNothing {c : Char} {spelling : List Char} (h : Spells c spelling)
    (p : CodePoint) (hrest : rest ≠ []) : JoinsNothing p (spelling ++ rest) := by
  cases h with
  | letter hcode hletter =>
    refine .inl (secondPoint?_of_ne ?_)
    intro tail htail
    simp only [List.cons_append, List.cons.injEq] at htail
    exact hcode htail.2.1
  | plain hquote hbackslash hcontrol =>
    refine .inl (secondPoint?_of_ne ?_)
    intro tail htail
    exact hbackslash (List.cons.inj htail).1
  | code hsmall =>
    obtain ⟨hshorter, hsecond⟩ := secondPoint?_codeEscape hsmall hrest
    refine .inr ⟨_, _, hsecond, ?_⟩
    have hchar : CodePoint.ofNat c.toNat = .char c := ofNat_toNat (.char c)
    rw [hchar]
    cases p <;> rfl
  | @pair m hm hnumber =>
    obtain ⟨first, second, hfirst, -, -⟩ := exists_join?_eq_some hm hnumber
    have hlimit : 0xD800 + m / 0x400 < 0x10000 := by omega
    rw [List.append_assoc]
    have hsome : codeEscape (0xDC00 + m % 0x400) ++ rest ≠ [] := by simp [codeEscape]
    obtain ⟨hshorter, hsecond⟩ := secondPoint?_codeEscape hlimit hsome
    refine .inr ⟨_, _, hsecond, ?_⟩
    rw [← hfirst, ofNat_toNat, Option.eq_none_iff_forall_ne_some]
    intro d hd
    obtain ⟨-, second', -, heq, -, hpair, -⟩ := join?_eq_some_iff.mp hd
    rw [← CodePoint.half.inj heq] at hpair
    simp only [CodePoint.toNat, CodePoint.firstHalf, CodePoint.pairSize] at hfirst hpair
    omega

theorem codeEscape_append (n : Nat) (rest : List Char) :
    codeEscape n ++ rest = '\\' :: ('u' :: (Text.hexDigits 4 n ++ rest)) := rfl

/-- A code is read by itself if what follows it is not joined with it. -/
theorem gives_readEscape_code (hp : p.toNat < 0x10000)
    (halone : p.isFirstHalf = true → JoinsNothing p rest) (hrest : rest ≠ []) :
    Gives (readEscape start ('u' :: (Text.hexDigits 4 p.toNat ++ rest))) p rest := by
  obtain ⟨a, b, c, d, hdigits, hcode⟩ := exists_hexDigits_four hp
  obtain ⟨e, tail, rfl⟩ := List.exists_cons_of_ne_nil hrest
  rw [hdigits]
  refine ⟨by simp, ?_⟩
  simp only [List.cons_append, List.nil_append, readEscape, hcode, ofNat_toNat]
  split
  · rename_i hhalf
    obtain hnone | ⟨q, after, hsecond, hjoin⟩ := halone hhalf
    · simp [bind, Except.bind, hnone]
    · simp [bind, Except.bind, hsecond, hjoin]
  · rfl

/-- The codes of two halves that are joined are read as one character. -/
theorem gives_readEscape_pair {q : CodePoint} {c : Char} (start : List Char)
    (hjoin : p.join? q = some c) (hrest : rest ≠ []) :
    Gives (readEscape start ('u' :: (Text.hexDigits 4 p.toNat ++ (codeEscape q.toNat ++ rest))))
      (.char c) rest := by
  obtain ⟨first, second, rfl, rfl, hfirst, -, -⟩ := join?_eq_some_iff.mp hjoin
  obtain ⟨a, b, c', d, hdigits, hcode⟩ := exists_hexDigits_four (toNat_half_lt first)
  obtain ⟨a', b', c'', d', hdigits', hcode'⟩ := exists_hexDigits_four (toNat_half_lt second)
  obtain ⟨e, tail, rfl⟩ := List.exists_cons_of_ne_nil hrest
  have hhalf : (CodePoint.half first).isFirstHalf = true := by
    rwa [CodePoint.isFirstHalf, decide_eq_true_iff]
  rw [codeEscape, hdigits, hdigits']
  refine ⟨by simp, ?_⟩
  simp only [List.cons_append, List.nil_append, readEscape, hcode, ofNat_toNat, hhalf,
    secondPoint?, hcode']
  simp [bind, Except.bind, hjoin]

/-! ## Whole texts -/

theorem gives_readText_plain {c : Char} (hquote : c ≠ '\x22') (hbackslash : c ≠ '\\')
    (hcontrol : 0x20 ≤ c.toNat) (h : Gives (readText start (.char c :: points) rest) text after) :
    Gives (readText start points (c :: rest)) text after := by
  obtain ⟨hshorter, hrest⟩ := h
  rw [readText, if_neg hquote, if_neg hbackslash, if_neg (Nat.not_lt.mpr hcontrol), hrest]
  exact ⟨_, rfl⟩

theorem gives_readText_escape (hescape : Gives (readEscape start cs) p rest)
    (h : Gives (readText start (p :: points) rest) text after) :
    Gives (readText start points ('\\' :: cs)) text after := by
  obtain ⟨hfirst, hp⟩ := hescape
  obtain ⟨hshorter, hrest⟩ := h
  rw [readText, if_neg (by decide), if_pos rfl, hp]
  simp only
  rw [hrest]
  exact ⟨_, rfl⟩

theorem gives_readText_quote :
    Gives (readText start points ('\x22' :: rest)) { points := points.reverse } rest := by
  rw [readText, if_pos rfl]
  exact ⟨_, rfl⟩

/-- A spelled character is read, and the reading goes on behind it. -/
theorem gives_readText_spelled {c : Char} {spelling : List Char} (hc : Spells c spelling)
    (hrest : rest ≠ []) (h : Gives (readText start (.char c :: points) rest) text after) :
    Gives (readText start points (spelling ++ rest)) text after := by
  cases hc with
  | letter hcode hletter => exact gives_readText_escape (gives_readEscape_letter hcode hletter) h
  | plain hquote hbackslash hcontrol => exact gives_readText_plain hquote hbackslash hcontrol h
  | code hsmall =>
    have hcode : Gives (readEscape start ('u' :: (Text.hexDigits 4 (CodePoint.char c).toNat ++ rest)))
        (.char c) rest :=
      gives_readEscape_code hsmall (by simp [CodePoint.isFirstHalf]) hrest
    exact gives_readText_escape hcode h
  | pair hm hnumber =>
    obtain ⟨first, second, hfirst, hsecond, hjoin⟩ := exists_join?_eq_some hm hnumber
    rw [← hfirst, ← hsecond, List.append_assoc, codeEscape_append]
    exact gives_readText_escape (gives_readEscape_pair start hjoin hrest) h

/-- A written code point that is not joined with what follows is read, and the reading goes on behind
it. -/
theorem gives_readText_point (halone : JoinsNothing p rest) (hrest : rest ≠ [])
    (h : Gives (readText start (p :: points) rest) text after) :
    Gives (readText start points (writePoint p ++ rest)) text after := by
  cases p with
  | char c => exact gives_readText_spelled (spells_writeChar c) hrest h
  | half index =>
    rw [writePoint, codeEscape_append]
    exact gives_readText_escape
      (gives_readEscape_code (toNat_half_lt index) (fun _ ↦ halone) hrest) h

theorem joinsNothing_writePoint {q : CodePoint} (h : p.join? q = none) (hrest : rest ≠ []) :
    JoinsNothing p (writePoint q ++ rest) := by
  cases q with
  | char c => exact (spells_writeChar c).joinsNothing p hrest
  | half index =>
    obtain ⟨hshorter, hsecond⟩ := secondPoint?_codeEscape (toNat_half_lt index) hrest
    rw [ofNat_toNat] at hsecond
    exact .inr ⟨_, _, hsecond, h⟩

/-- Code points that were written are read up to the closing quote, with halves joined. -/
theorem gives_readText (start : List Char) (points written : List CodePoint) (rest : List Char) :
    Gives (readText start points (written.flatMap writePoint ++ '\x22' :: rest))
      { points := points.reverse ++ RawText.joinHalves written } rest := by
  induction written using RawText.joinHalves.induct generalizing points with
  | case1 =>
    rw [RawText.joinHalves, List.append_nil]
    exact gives_readText_quote
  | case2 p =>
    rw [RawText.joinHalves, ← List.reverse_cons, List.flatMap_cons, List.flatMap_nil,
      List.append_nil]
    have hquote : JoinsNothing p ('\x22' :: rest) := .inl (secondPoint?_of_ne (by simp))
    exact gives_readText_point hquote (by simp) gives_readText_quote
  | case3 p q written c hjoin ih =>
    obtain ⟨first, second, rfl, rfl, -⟩ := join?_eq_some_iff.mp hjoin
    have hnext := ih (.char c :: points)
    rw [List.reverse_cons, List.append_assoc] at hnext
    rw [RawText.joinHalves, hjoin, List.flatMap_cons, List.flatMap_cons, List.append_assoc,
      List.append_assoc, writePoint, codeEscape_append]
    exact gives_readText_escape (gives_readEscape_pair start hjoin (by simp)) hnext
  | case4 p q written hjoin ih =>
    have hnext := ih (p :: points)
    rw [List.reverse_cons, List.append_assoc] at hnext
    rw [RawText.joinHalves, hjoin, List.flatMap_cons, List.append_assoc]
    refine gives_readText_point ?_ (by simp) hnext
    rw [List.flatMap_cons, List.append_assoc]
    exact joinsNothing_writePoint hjoin (by simp)

theorem writeText_eq (text : RawText) :
    writeText text = '\x22' :: (text.points.flatMap writePoint ++ ['\x22']) := rfl

/-- No written text holds a control character. -/
theorem le_toNat_of_mem_writeText {d : Char} (h : d ∈ writeText text) : 0x20 ≤ d.toNat := by
  have hquote : 0x20 ≤ '\x22'.toNat := by decide
  rw [writeText_eq, List.mem_cons, List.mem_append, List.mem_flatMap, List.mem_singleton] at h
  rcases h with rfl | ⟨p, -, hd⟩ | rfl
  · exact hquote
  · cases p with
    | char c => exact (spells_writeChar c).le_toNat hd
    | half index => exact le_toNat_of_mem_codeEscape hd
  · exact hquote

end Json

end OfflineSupply
