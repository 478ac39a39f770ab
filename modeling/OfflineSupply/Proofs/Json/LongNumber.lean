import Mathlib.Data.List.TakeWhile
import OfflineSupply.Json.Reader
import OfflineSupply.Text.Blank

/-!
# Whole numbers that are too long

Reading stops at a whole number with more digits than the limit.  Such a number stands outside of
what is between double quotes: every reader takes whole words, numbers and quoted texts off the
front, so that outside of the quotes the rest of a text is the end of the text.  A text without so
long a run of digits there is read without this stop, however it is nested and wherever it is
malformed.
-/

namespace OfflineSupply

namespace Text

theorem isBlank_eq_false_of_isDigit {c : Char} (h : isDigit c = true) : isBlank c = false := by
  have hall : ∀ n < 0x3A, 0x30 ≤ n → wideBlanks.contains n = false := by decide
  rw [isDigit, Bool.and_eq_true, decide_eq_true_eq, decide_eq_true_eq] at h
  unfold isBlank
  dsimp only
  rw [hall c.toNat (by omega) h.1]
  simp only [Bool.or_false, Bool.or_eq_false_iff, Bool.and_eq_false_iff, decide_eq_false_iff_not]
  omega

end Text

namespace Json

variable {α β : Type} {n m : Nat} {start cs front rest given given' : List Char} {stop : Stop}

/-! ## Outside of the quotes -/

/-- A text without what stands between double quotes; the flag tells whether it begins there. -/
def unquoted : Bool → List Char → List Char
  | _, [] => []
  | true, '\\' :: _ :: cs => unquoted true cs
  | true, c :: cs => unquoted (c ≠ '\x22') cs
  | false, c :: cs => c :: unquoted (c = '\x22') cs

theorem unquoted_escape (c : Char) (cs : List Char) :
    unquoted true ('\\' :: c :: cs) = unquoted true cs := rfl

theorem unquoted_inside {c : Char} (hslash : c ≠ '\\') (hquote : c ≠ '\x22') (cs : List Char) :
    unquoted true (c :: cs) = unquoted true cs := by
  rw [unquoted]
  · simp [hquote]
  · simp [hslash]

theorem unquoted_append (h : '\x22' ∉ front) (cs : List Char) :
    unquoted false (front ++ cs) = front ++ unquoted false cs := by
  induction front with
  | nil => rfl
  | cons c front ih =>
    rw [List.mem_cons, not_or] at h
    rw [List.cons_append, unquoted, decide_eq_false (Ne.symm h.1), ih h.2, List.cons_append]

theorem mem_of_mem_unquoted {quoted : Bool} {c : Char} (h : c ∈ unquoted quoted cs) : c ∈ cs := by
  fun_induction unquoted quoted cs with
  | case1 => exact h
  | case2 d cs ih => exact List.mem_cons_of_mem _ (List.mem_cons_of_mem _ (ih h))
  | case3 d cs _ ih => exact List.mem_cons_of_mem _ (ih h)
  | case4 d cs ih =>
    rw [List.mem_cons] at h ⊢
    exact h.imp_right ih

/-- The text goes on behind some characters, none of them a double quote. -/
def Skips (cs rest : List Char) : Prop :=
  ∃ front, '\x22' ∉ front ∧ front ++ rest = cs

namespace Skips

theorem refl (cs : List Char) : Skips cs cs := ⟨[], by simp, rfl⟩

theorem trans {last : List Char} (h : Skips cs rest) (h' : Skips rest last) : Skips cs last := by
  obtain ⟨front, hfront, rfl⟩ := h
  obtain ⟨front', hfront', rfl⟩ := h'
  exact ⟨front ++ front', by simp [hfront, hfront'], List.append_assoc ..⟩

theorem cons {c : Char} (hc : c ≠ '\x22') (cs : List Char) : Skips (c :: cs) cs :=
  ⟨[c], by simpa using hc.symm, rfl⟩

theorem dropWhile {p : Char → Bool} (hp : p '\x22' = false) (cs : List Char) :
    Skips cs (cs.dropWhile p) := by
  refine ⟨cs.takeWhile p, ?_, List.takeWhile_append_dropWhile⟩
  intro hmem
  rw [List.mem_takeWhile_imp hmem] at hp
  contradiction

theorem gap (cs : List Char) : Skips cs (skipGap cs) :=
  dropWhile (by decide) cs

/-- What is skipped outside of the quotes is the front of what stands there. -/
theorem unquoted_suffix (h : Skips cs rest) : unquoted false rest <:+ unquoted false cs := by
  obtain ⟨front, hfront, rfl⟩ := h
  exact ⟨front, (unquoted_append hfront rest).symm⟩

end Skips

/-! ## What a reader leaves -/

/-- A run of more digits than a whole number may have. -/
def LongRun (cs : List Char) : Prop :=
  ∃ digits, digits <:+: cs ∧ (∀ c ∈ digits, Text.isDigit c = true) ∧ digitLimit < digits.length

theorem LongRun.of_suffix (h : LongRun given') (hsuffix : given' <:+ given) : LongRun given := by
  obtain ⟨digits, hdigits, hall, hlong⟩ := h
  exact ⟨digits, hdigits.trans hsuffix.isInfix, hall, hlong⟩

theorem LongRun.exists_digit (h : LongRun cs) : ∃ c ∈ cs, Text.isDigit c = true := by
  obtain ⟨digits, hdigits, hall, hlong⟩ := h
  obtain ⟨c, hc⟩ := List.exists_mem_of_length_pos (Nat.zero_lt_of_lt hlong)
  exact ⟨c, hdigits.subset hc, hall c hc⟩

/-- Of what stands outside of the quotes a reader leaves an end, which begins between quotes or not,
and it stops at a long number only if there is one. -/
structure Leaves (quoted : Bool) (given : List Char) (result : Except Stop (Parsed α n)) :
    Prop where
  rest : ∀ parsed, result = .ok parsed → unquoted quoted parsed.rest <:+ given
  long : ∀ digits, result = .error (.tooLong digits) → LongRun given

namespace Leaves

variable {quoted quoted' : Bool} {result : Except Stop (Parsed α n)}

theorem ok {value : α} {hshorter : rest.length < n} (h : unquoted quoted rest <:+ given) :
    Leaves quoted given (.ok ⟨value, rest, hshorter⟩) where
  rest _ hparsed := Except.ok.inj hparsed ▸ h
  long _ hstop := by contradiction

theorem fault {f : Fault} :
    Leaves quoted given (.error (.fault f rest) : Except Stop (Parsed α n)) where
  rest _ hparsed := by contradiction
  long _ hstop := by simp at hstop

/-- The stop of a part is passed on. -/
theorem error (h : Leaves quoted' given' result) (hresult : result = .error stop)
    (hgiven : given' <:+ given) :
    Leaves quoted given (.error stop : Except Stop (Parsed β m)) where
  rest _ hparsed := by contradiction
  long digits hstop := by
    rw [Except.error.inj hstop] at hresult
    exact (h.long digits hresult).of_suffix hgiven

end Leaves

/-! ## Texts between double quotes -/

theorem unquoted_hexDigit {c : Char} (h : Text.isHexDigit c = true) (cs : List Char) :
    unquoted true (c :: cs) = unquoted true cs := by
  apply unquoted_inside
  · rintro rfl
    exact absurd h (by decide)
  · rintro rfl
    exact absurd h (by decide)

theorem unquoted_hexCode {a b c d : Char} {code : Nat} (h : hexCode? a b c d = some code)
    (cs : List Char) : unquoted true (a :: b :: c :: d :: cs) = unquoted true cs := by
  unfold hexCode? at h
  split at h
  · rename_i hall
    simp only [List.all_cons, List.all_nil, Bool.and_true, Bool.and_eq_true] at hall
    obtain ⟨ha, hb, hc, hd⟩ := hall
    rw [unquoted_hexDigit ha, unquoted_hexDigit hb, unquoted_hexDigit hc, unquoted_hexDigit hd]
  · contradiction

theorem secondPoint?_cases (cs : List Char) :
    (∃ f rest, secondPoint? cs = .error (.fault f rest)) ∨ secondPoint? cs = .ok none ∨
      ∃ q after, secondPoint? cs = .ok (some (q, after)) ∧
        unquoted true after = unquoted true cs := by
  unfold secondPoint?
  split
  · split
    · exact .inl ⟨_, _, rfl⟩
    · rename_i hcode
      refine .inr (.inr ⟨_, _, rfl, ?_⟩)
      rw [unquoted_escape, unquoted_hexCode hcode]
  · exact .inr (.inl rfl)

theorem leaves_readEscape (start cs : List Char) :
    Leaves true (unquoted true ('\\' :: cs)) (readEscape start cs) := by
  unfold readEscape
  split
  · exact .fault
  · rename_i a b c d e rest
    split
    · exact .fault
    · rename_i code hcode
      rw [unquoted_escape, unquoted_hexCode hcode]
      dsimp only
      split
      · rcases secondPoint?_cases (e :: rest) with ⟨f, at_, h⟩ | h | ⟨q, after, h, hafter⟩
        · rw [h]
          exact .fault
        · rw [h]
          exact .ok List.suffix_rfl
        · rw [h, ← hafter]
          simp only [bind, Except.bind]
          -- The second code is left for the next character unless the two halves join.
          split
          · exact .ok List.suffix_rfl
          · exact .ok (hafter ▸ List.suffix_rfl)
      · exact .ok List.suffix_rfl
  · exact .fault
  · rename_i c rest _ _
    rw [unquoted_escape]
    split
    · exact .ok List.suffix_rfl
    · exact .fault

theorem leaves_readText (start : List Char) (done : List CodePoint) (cs : List Char) :
    Leaves false (unquoted true cs) (readText start done cs) := by
  fun_induction readText start done cs with
  | case1 => exact .fault
  | case2 done rest => exact .ok List.suffix_rfl
  | case3 done rest stop hescape =>
    exact (leaves_readEscape start rest).error hescape List.suffix_rfl
  | case4 done rest escape hescape stop htext _ ih =>
    exact ih.error htext ((leaves_readEscape start rest).rest escape hescape)
  | case5 done rest escape hescape text htext _ ih =>
    exact .ok ((ih.rest text htext).trans ((leaves_readEscape start rest).rest escape hescape))
  | case6 => exact .fault
  | case7 done c rest hquote hslash _ stop htext ih =>
    exact ih.error htext (unquoted_inside hslash hquote rest ▸ List.suffix_rfl)
  | case8 done c rest hquote hslash _ text htext ih =>
    rw [unquoted_inside hslash hquote]
    exact .ok (ih.rest text htext)

/-! ## Words and numbers -/

theorem skips_dropDigits (cs : List Char) : Skips cs (dropDigits cs) :=
  .dropWhile (by decide) cs

theorem skips_readFraction (cs : List Char) : Skips cs (readFraction cs).2 := by
  unfold readFraction
  split
  · rename_i rest
    split
    · exact .refl _
    · exact (Skips.cons (by decide) rest).trans (skips_dropDigits rest)
  · exact .refl cs

theorem skips_readSign (cs : List Char) : Skips cs (readSign cs).2 := by
  unfold readSign
  split
  · exact .cons (by decide) _
  · exact .cons (by decide) _
  · exact .refl cs

theorem skips_readExponent (cs : List Char) : Skips cs (readExponent cs).2 := by
  unfold readExponent
  split
  · rename_i c rest
    split
    · rename_i hletter
      have hc : c ≠ '\x22' := by
        rintro rfl
        exact absurd hletter (by decide)
      dsimp only
      split
      · exact .refl _
      · exact ((Skips.cons hc rest).trans (skips_readSign rest)).trans (skips_dropDigits _)
    · exact .refl _
  · exact .refl _

/-- The whole digits of a number stand behind its sign, and nothing in it is a double quote. -/
theorem readNumber_spec {number : NumberText} (h : readNumber cs = some (number, rest)) :
    Skips cs rest ∧ (∀ c ∈ number.whole, Text.isDigit c = true) ∧
      ∃ body, Skips cs body ∧ number.whole <+: body := by
  unfold readNumber at h
  split at h
  rename_i negative body hsign
  have hbody : Skips cs body := by
    split at hsign
    · obtain ⟨-, rfl⟩ := Prod.mk.inj hsign
      exact .cons (by decide) _
    · obtain ⟨-, rfl⟩ := Prod.mk.inj hsign
      exact .refl _
  extract_lets whole at h
  have hwhole : whole <+: body ∧ ∀ c ∈ whole, Text.isDigit c = true := by
    unfold whole
    split
    · refine ⟨⟨_, rfl⟩, fun c hc ↦ ?_⟩
      rw [List.mem_singleton.mp hc]
      rfl
    · exact ⟨List.takeWhile_prefix _, fun c hc ↦ List.mem_takeWhile_imp hc⟩
  have hskips : Skips body (body.drop whole.length) := by
    have htake : whole ++ body.drop whole.length = body :=
      List.prefix_iff_eq_append.mp hwhole.1
    exact ⟨whole, fun hquote ↦ absurd (hwhole.2 _ hquote) (by decide), htake⟩
  split at h
  · contradiction
  · obtain ⟨rfl, rfl⟩ := Prod.mk.inj (Option.some.inj h)
    exact ⟨((hbody.trans hskips).trans (skips_readFraction _)).trans (skips_readExponent _),
      hwhole.2, body, hbody, hwhole.1⟩

theorem NumberText.tooLong_of_value {number : NumberText} {digits : Nat}
    (h : number.value = .error (.tooLong digits)) : digitLimit < number.whole.length := by
  unfold value at h
  split at h
  · split at h
    · assumption
    · contradiction
  · contradiction

theorem longRun_of_value {number : NumberText} {digits : Nat}
    (hread : readNumber cs = some (number, rest)) (h : number.value = .error (.tooLong digits)) :
    LongRun (unquoted false cs) := by
  obtain ⟨-, hdigits, body, hbody, tail, htail⟩ := readNumber_spec hread
  have hquote : '\x22' ∉ number.whole := fun hmem ↦ absurd (hdigits _ hmem) (by decide)
  refine LongRun.of_suffix ?_ hbody.unquoted_suffix
  rw [← htail, unquoted_append hquote]
  exact ⟨number.whole, (List.prefix_append _ _).isInfix, hdigits, NumberText.tooLong_of_value h⟩

theorem skips_word {word : List Char} {value : Json}
    (h : wordValues.find? (fun entry ↦ entry.1.isPrefixOf cs) = some (word, value)) :
    Skips cs (cs.drop word.length) := by
  have hquotes : ∀ entry ∈ wordValues, '\x22' ∉ entry.1 := by decide
  have hprefix : word.isPrefixOf cs = true := by
    simpa using List.find?_some h
  exact ⟨word, hquotes _ (List.mem_of_find?_eq_some h),
    List.prefix_iff_eq_append.mp (List.isPrefixOf_iff_prefix.mp hprefix)⟩

theorem leaves_readAtom (cs : List Char) : Leaves false (unquoted false cs) (readAtom cs) := by
  unfold readAtom
  split
  · rename_i word value hfind
    split
    · exact .ok (skips_word hfind).unquoted_suffix
    · exact .fault
  · split
    · exact .fault
    · rename_i number rest hread
      split
      · rename_i stop hvalue
        exact ⟨by simp, fun digits hstop ↦
          longRun_of_value hread (hvalue.trans (by rw [Except.error.inj hstop]))⟩
      · split
        · exact .ok (readNumber_spec hread).1.unquoted_suffix
        · exact .fault

/-! ## Documents -/

theorem unquoted_suffix_of_cons {c : Char} (hc : c ≠ '\x22')
    (h : unquoted false (c :: rest) <:+ given) : unquoted false rest <:+ given :=
  (Skips.cons hc rest).unquoted_suffix.trans h

theorem unquoted_suffix_of_gap (h : unquoted false rest <:+ given) :
    unquoted false (skipGap rest) <:+ given :=
  (Skips.gap rest).unquoted_suffix.trans h

theorem length_lt_of_skipGap {c : Char} (h : skipGap rest = c :: cs) :
    (skipGap cs).length < rest.length := by
  have hrest := length_skipGap_le rest
  rw [h, List.length_cons] at hrest
  exact Nat.lt_of_le_of_lt (length_skipGap_le cs) hrest

/-- What a reader leaves of a text that begins outside of the quotes. -/
def LeavesOf (read : (cs : List Char) → Except Stop (Parsed α cs.length)) (cs : List Char) : Prop :=
  Leaves false (unquoted false cs) (read cs)

theorem leaves_readValue
    (hitems : ∀ body : List Char, body.length < cs.length → LeavesOf readItems body)
    (hmembers : ∀ body : List Char, body.length < cs.length → LeavesOf readMembers body) :
    LeavesOf readValue cs := by
  unfold LeavesOf readValue
  split
  · exact .fault
  · rename_i c tail
    have hshorter : (skipGap tail).length < (c :: tail).length :=
      Nat.lt_succ_of_le (length_skipGap_le tail)
    split
    · rename_i hquote
      subst hquote
      -- The opening quote itself still stands outside.
      have htext := leaves_readText ('\x22' :: tail) [] tail
      have hinside : unquoted true tail <:+ unquoted false ('\x22' :: tail) := List.suffix_cons _ _
      split
      · rename_i stop hstop
        exact htext.error hstop hinside
      · rename_i text hread
        exact .ok ((htext.rest text hread).trans hinside)
    · rename_i hquote
      have hbody : unquoted false (skipGap tail) <:+ unquoted false (c :: tail) :=
        unquoted_suffix_of_gap (unquoted_suffix_of_cons hquote List.suffix_rfl)
      split
      · dsimp only
        split
        · rename_i rest hclose
          rw [hclose] at hbody
          exact .ok (unquoted_suffix_of_cons (by decide) hbody)
        · split
          · rename_i stop hstop
            exact (hitems _ hshorter).error hstop hbody
          · rename_i items hread
            exact .ok (((hitems _ hshorter).rest items hread).trans hbody)
      · split
        · dsimp only
          split
          · rename_i rest hclose
            rw [hclose] at hbody
            exact .ok (unquoted_suffix_of_cons (by decide) hbody)
          · split
            · rename_i stop hstop
              exact (hmembers _ hshorter).error hstop hbody
            · rename_i members hread
              exact .ok (((hmembers _ hshorter).rest members hread).trans hbody)
        · exact leaves_readAtom _

theorem leaves_readItems (hvalue : LeavesOf readValue cs)
    (hitems : ∀ body : List Char, body.length < cs.length → LeavesOf readItems body) :
    LeavesOf readItems cs := by
  unfold LeavesOf readItems
  split
  · rename_i stop hstop
    exact hvalue.error hstop List.suffix_rfl
  · rename_i item hitem
    have hleft : unquoted false (skipGap item.rest) <:+ unquoted false cs :=
      unquoted_suffix_of_gap (hvalue.rest item hitem)
    dsimp only
    split
    · rename_i rest hclose
      rw [hclose] at hleft
      exact .ok (unquoted_suffix_of_cons (by decide) hleft)
    · rename_i rest hcomma
      rw [hcomma] at hleft
      have hnext := unquoted_suffix_of_gap (unquoted_suffix_of_cons (by decide) hleft)
      have hshorter := (length_lt_of_skipGap hcomma).trans item.shorter
      split
      · rename_i stop hstop
        exact (hitems _ hshorter).error hstop hnext
      · rename_i items hread
        exact .ok (((hitems _ hshorter).rest items hread).trans hnext)
    · exact .fault

theorem leaves_readMembers
    (hvalue : ∀ body : List Char, body.length < cs.length → LeavesOf readValue body)
    (hmembers : ∀ body : List Char, body.length < cs.length → LeavesOf readMembers body) :
    LeavesOf readMembers cs := by
  unfold LeavesOf readMembers
  split
  · rename_i tail
    have htext := leaves_readText ('\x22' :: tail) [] tail
    have hinside : unquoted true tail <:+ unquoted false ('\x22' :: tail) := List.suffix_cons _ _
    split
    · rename_i stop hstop
      exact htext.error hstop hinside
    · rename_i name hname
      have hleftName := unquoted_suffix_of_gap ((htext.rest name hname).trans hinside)
      have hshorterName : name.rest.length < ('\x22' :: tail).length :=
        Nat.lt_succ_of_lt name.shorter
      dsimp only
      split
      · rename_i afterColon hcolon
        rw [hcolon] at hleftName
        have hbody := unquoted_suffix_of_gap (unquoted_suffix_of_cons (by decide) hleftName)
        have hshorterBody := (length_lt_of_skipGap hcolon).trans hshorterName
        have hmember := hvalue _ hshorterBody
        split
        · rename_i stop hstop
          exact hmember.error hstop hbody
        · rename_i member hread
          have hleft := unquoted_suffix_of_gap ((hmember.rest member hread).trans hbody)
          split
          · rename_i rest hclose
            rw [hclose] at hleft
            exact .ok (unquoted_suffix_of_cons (by decide) hleft)
          · rename_i rest hcomma
            rw [hcomma] at hleft
            have hnext := unquoted_suffix_of_gap (unquoted_suffix_of_cons (by decide) hleft)
            have hshorter :=
              ((length_lt_of_skipGap hcomma).trans member.shorter).trans hshorterBody
            split
            · rename_i stop hstop
              exact (hmembers _ hshorter).error hstop hnext
            · rename_i members hread
              exact .ok (((hmembers _ hshorter).rest members hread).trans hnext)
          · exact .fault
      · exact .fault
  · exact .fault

/-- The three readers call each other on shorter texts, and items begin with a value. -/
theorem leaves_readers (cs : List Char) :
    LeavesOf readValue cs ∧ LeavesOf readItems cs ∧ LeavesOf readMembers cs := by
  induction hlength : cs.length using Nat.strongRecOn generalizing cs with
  | ind n ih =>
    subst hlength
    have hshorter (body : List Char) (h : body.length < cs.length) := ih body.length h body rfl
    have hvalue : LeavesOf readValue cs :=
      leaves_readValue (fun body h ↦ (hshorter body h).2.1) (fun body h ↦ (hshorter body h).2.2)
    exact ⟨hvalue, leaves_readItems hvalue fun body h ↦ (hshorter body h).2.1,
      leaves_readMembers (fun body h ↦ (hshorter body h).1) fun body h ↦ (hshorter body h).2.2⟩

/-- A text with a whole number that is too long has a run of as many digits outside of its
quotes. -/
theorem longRun_of_parse {text : String} {digits : Nat}
    (h : parse text = .error (.integerTooLong digits)) : LongRun (unquoted false text.toList) := by
  unfold parse parseChars at h
  split at h
  · simp at h
  · split at h
    · rename_i stop hstop
      have hlong : stop = .tooLong digits := by
        cases stop with
        | fault f rest => simp [Stop.error] at h
        | tooLong digits => simpa [Stop.error] using h
      subst hlong
      exact ((leaves_readers _).1.long digits hstop).of_suffix (Skips.gap _).unquoted_suffix
    · split at h
      · contradiction
      · simp [Stop.error] at h

/-- A text with such a number does not hold white space alone. -/
theorem allBlank_of_parse {text : String} {digits : Nat}
    (h : parse text = .error (.integerTooLong digits)) : Text.allBlank text.toList = false := by
  obtain ⟨c, hmem, hdigit⟩ := (longRun_of_parse h).exists_digit
  rw [Text.allBlank, List.all_eq_false]
  exact ⟨c, mem_of_mem_unquoted hmem, by simp [Text.isBlank_eq_false_of_isDigit hdigit]⟩

end Json

end OfflineSupply
