import OfflineSupply.Proofs.Yaml.Tokens
import OfflineSupply.Yaml.Load

/-!
# A key with one item

A document can hold nothing but a key and one item below it, and an item written there is loaded as
the text that was written, whatever the text is.
-/

namespace OfflineSupply.Yaml

variable {column : Nat} {text : String} {key : List Char}

/-- The characters of a document that is a key with one item below it. -/
def itemBelow (key : List Char) (column : Nat) (text : String) : List Char :=
  key ++ ':' :: '\n' :: '-' :: (writeScalar column text ++ ['\n'])

/-! ## Tokens -/

theorem isStreamChar_of_isShown {ch : Char} (h : isShown ch = true) : isStreamChar ch = true := by
  simp only [isShown, Bool.or_eq_true, decide_eq_true_iff] at h
  rcases h with rfl | h
  · rfl
  · simp [isStreamChar, h]

theorem IsKey.shown {ch : Char} (hkey : IsKey key) (hch : ch ∈ key) : isShown ch = true := by
  have hword : isWordChar ch = true := List.all_eq_true.mp hkey.word ch hch
  rw [isWordChar, Bool.or_eq_true, decide_eq_true_iff] at hword
  rcases hword with hword | rfl
  · unfold Char.isAlphanum Char.isAlpha Char.isUpper Char.isLower Char.isDigit at hword
    simp only [Bool.or_eq_true, Bool.and_eq_true, decide_eq_true_iff, UInt32.le_iff_toNat_le,
      ge_iff_le] at hword
    have hrange : 0x20 ≤ ch.val.toNat ∧ ch.val.toNat ≤ 0x7E := by
      rcases hword with (⟨hleast, hmost⟩ | ⟨hleast, hmost⟩) | ⟨hleast, hmost⟩ <;>
        exact ⟨le_trans (by decide) hleast, le_trans hmost (by decide)⟩
    rw [isShown, Bool.or_eq_true, Bool.and_eq_true, decide_eq_true_iff, decide_eq_true_iff,
      decide_eq_true_iff]
    exact .inr hrange
  · rfl

/-- What stands behind the hyphen can be shown. -/
theorem writeScalar_shown (column : Nat) (text : String) :
    ∃ ws, writeScalar column text = ' ' :: ws ∧ ∀ ch ∈ ws, isShown ch = true := by
  cases hplain : canBePlain text.toList with
  | true =>
    obtain ⟨ch, ws, hwrite, hshown, -⟩ := exists_plain column hplain
    exact ⟨ch :: ws, hwrite, hshown⟩
  | false =>
    obtain ⟨quote, ws, hquote, hwrite, hshown, -⟩ := exists_quoted column hplain
    have hquoteShown : isShown quote = true := by
      rcases hquote with rfl | rfl <;> decide
    refine ⟨quote :: (ws ++ [quote]), hwrite, ?_⟩
    rw [List.forall_mem_cons, List.forall_mem_append]
    exact ⟨hquoteShown, hshown, by simpa using hquoteShown⟩

/-- A written item is read as the text that was written, with which its document ends. -/
theorem run_writeScalar {c : Cursor} {tokens : TokenRow} (column : Nat) (text : String)
    (hc : c.Before (writeScalar column text ++ ['\n'])) : ∃ plain,
      (plain = true → canBePlain text.toList = true) ∧
      (Lexer.inMapping c tokens true []).run.toList =
        tokens.toList ++ [.scalar (.ofString text) plain, .blockEnd, .streamEnd] := by
  cases hplain : canBePlain text.toList with
  | true =>
    obtain ⟨ch, ws, hwrite, -, hbegins, hread⟩ := exists_plain column hplain
    rw [hwrite] at hc
    have hcolumn : 1 ≤ c.next.column := by
      rw [Cursor.column_next_space hc]
      omega
    exact ⟨true, fun _ ↦ rfl, run_plain hc hbegins (hread c.next hc.next hcolumn) optional_nil⟩
  | false =>
    obtain ⟨quote, ws, hquote, hwrite, -, hreads⟩ := exists_quoted column hplain
    rw [hwrite, List.cons_append, List.cons_append, List.append_assoc] at hc
    exact ⟨false, id, run_quoted hquote hc (.inr rfl) (hreads _) optional_nil⟩

theorem ofText_itemBelow (hkey : IsKey key) (column : Nat) (text : String) : ∃ plain,
    (plain = true → canBePlain text.toList = true) ∧
      Token.ofText (String.ofList (itemBelow key column text)) =
        [.blockMappingStart, .key, .scalar (.ofString (String.ofList key)) true, .value, .blockEntry,
          .scalar (.ofString text) plain, .blockEnd, .streamEnd] := by
  obtain ⟨written, hwrite, hshown⟩ := writeScalar_shown column text
  have hmark : (itemBelow key column text).head? ≠ some '\uFEFF' := by
    obtain ⟨ch, rest, rfl⟩ := List.exists_cons_of_ne_nil hkey.ne_nil
    intro hhead
    obtain rfl : ch = '\uFEFF' := Option.some.inj hhead
    exact absurd (hkey.shown List.mem_cons_self) (by decide)
  have hstream : (itemBelow key column text).all isStreamChar = true := by
    rw [itemBelow, hwrite]
    simp only [List.all_append, List.all_cons, List.all_nil, Bool.and_eq_true, List.all_eq_true]
    exact ⟨fun ch hch ↦ isStreamChar_of_isShown (hkey.shown hch), rfl, rfl, rfl,
      ⟨rfl, fun ch hch ↦ isStreamChar_of_isShown (hshown ch hch)⟩, rfl, trivial⟩
  obtain ⟨c, tokens, hc, hrun, htokens⟩ := @run_key
    ('\n' :: '-' :: (writeScalar column text ++ ['\n'])) key hkey rfl
  have hscalar : (c.skip 2).Before (writeScalar column text ++ ['\n']) := hc.next.next
  rw [hwrite] at hc
  have hitem := run_item tokens false hc
  obtain ⟨plain, hplain, htext⟩ := run_writeScalar column text hscalar
  refine ⟨plain, hplain, ?_⟩
  rw [Token.ofText_eq (by rwa [String.toList_ofList]) (by rwa [String.toList_ofList]),
    String.toList_ofList, itemBelow, hrun, hitem, htext, TokenRow.toList_push, htokens]
  rfl

/-! ## Loading -/

/-- A scalar whose tag asks for a text. -/
def Properties.IsText (text : RawText) (plain : Bool) : Prop :=
  ({} : Properties).scalar text plain = { tag := .text, content := .scalar text }

theorem loadFrom_item {key text : RawText} {plain : Bool} (hkey : Properties.IsText key true)
    (htext : Properties.IsText text plain) : ∃ document, loadFrom 9 true
        [.blockMappingStart, .key, .scalar key true, .value, .blockEntry, .scalar text plain,
          .blockEnd, .streamEnd] = .ok [document] ∧
      document.tree? Document.nestingLimit [] document.root =
        some (.map [(.text key, .list [.scalar (.text text)])]) := by
  let table (keyNode textNode : Node) : NodeTable :=
    { nodes := #[{ tag := .mapping, content := .mapping [(1, 2)] }, keyNode,
        { tag := .sequence, content := .sequence [3] }, textNode] }
  let document : Document :=
    { root := .collection 0
      collections := #[.map [(.text key, .collection 2)], .list [], .list [.scalar (.text text)],
        .list []] }
  have hread : readDocument true
        [.blockMappingStart, .key, .scalar key true, .value, .blockEntry, .scalar text plain,
          .blockEnd, .streamEnd] =
      .ok (some ({ root := 0
                   table := table (({} : Properties).scalar key true)
                    (({} : Properties).scalar text plain) }, [.streamEnd])) := by rfl
  have hload : Composition.load
      { root := 0, table := table { tag := .text, content := .scalar key }
          { tag := .text, content := .scalar text } } = .ok document := by rfl
  refine ⟨document, ?_, rfl⟩
  rw [loadFrom, hread, hkey, htext]
  change (Composition.load _ >>= _) = _
  rw [hload]
  rfl

/-- A text is loaded back from below its key, whatever the text is. -/
theorem load_itemBelow (hkey : IsKey key) (htag : Tag.ofPlain (String.ofList key) = .text)
    (column : Nat) (text : String) :
    ∃ document, load (String.ofList (itemBelow key column text)) = .ok [document] ∧
      document.tree? Document.nestingLimit [] document.root =
        some (.map [(.text (.ofString (String.ofList key)),
          .list [.scalar (.text (.ofString text))])]) := by
  obtain ⟨plain, hplain, htokens⟩ := ofText_itemBelow hkey column text
  have hkeyText : Properties.IsText (.ofString (String.ofList key)) true := by
    simp [Properties.IsText, Properties.scalar, htag]
  have htext : Properties.IsText (.ofString text) plain := by
    cases plain with
    | false => rfl
    | true =>
      have hbe := hplain rfl
      simp only [canBePlain, Bool.and_eq_true, decide_eq_true_iff, String.ofList_toList] at hbe
      simp [Properties.IsText, Properties.scalar, hbe]
  have hitem := loadFrom_item hkeyText htext
  rw [load, htokens]
  exact hitem

end OfflineSupply.Yaml
