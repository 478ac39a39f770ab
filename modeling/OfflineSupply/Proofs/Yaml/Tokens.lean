import OfflineSupply.Proofs.Yaml.Plain
import OfflineSupply.Yaml.Token.Lexer

/-!
# From token to token

The lexer settles before each token, reads it and goes on where it ends, and behind the last one it
ends the stream.  The tokens of a text are followed in these steps: the key at the beginning of a
text, the hyphen of an item, and a scalar with which the text ends.
-/

namespace OfflineSupply.Yaml

open Cursor

variable {l settled after : Lexer} {c : Cursor} {ch : Char} {cs rest key : List Char}
  {inFlow allowed : Bool} {text : String}

/-! ## Steps -/

theorem Lexer.run_of_token (hsettle : l.settle = .ok settled)
    (hpeek : settled.cursor.peek = some ch) (htoken : settled.token ch = .ok after)
    (hshorter : after.cursor.left < l.cursor.left) : l.run = after.run := by
  rw [run, hsettle]
  simp only [hpeek, htoken, if_pos hshorter]

theorem Lexer.run_of_end (hsettle : l.settle = .ok settled) (hpeek : settled.cursor.peek = none)
    (hend : settled.streamEnd = .ok after) : l.run = after.tokens := by
  rw [run, hsettle]
  simp only [hpeek, hend]

/-- The row without tokens. -/
def TokenRow.empty : TokenRow :=
  { length_lastFirst := List.length_nil }

/-- The lexer before a text. -/
def Lexer.start (cs : List Char) : Lexer :=
  { cursor := Cursor.start cs, tokens := .empty }

/-- A text without a byte order mark is read from its first character on. -/
theorem Token.ofText_eq (hmark : text.toList.head? ≠ some '\uFEFF')
    (hstream : text.toList.all isStreamChar = true) :
    Token.ofText text = (Lexer.start text.toList).run.toList := by
  have hpeek : ¬ (Cursor.start text.toList).peek = some '\uFEFF' := hmark
  have hall : (Cursor.start text.toList).rest.all isStreamChar = true := hstream
  rw [Token.ofText]
  simp only [if_neg hpeek, if_pos hall]
  rfl

/-! ## Gaps between tokens -/

/-- A token can begin with this character. -/
structure BeginsToken (ch : Char) : Prop where
  space : isSpace ch = false
  comment : ch ≠ '#'
  lineBreak : isBreak ch = false

theorem skipGap_spaces (n : Nat) (h : c.Before (List.replicate n ' ' ++ cs))
    (hcs : ∀ ch ∈ cs.head?, BeginsToken ch) :
    Lexer.skipGap inFlow allowed c = (c.skip n, allowed) := by
  have hskip : c.skipWhile isSpace = c.skip n :=
    h.skipWhile_replicate rfl fun ch hch ↦ (hcs ch hch).space
  have hbehind : (c.skip n).Before cs := h.skip_replicate
  have hcomment : (c.skip n).skipComment = c.skip n := by
    have hpeek : ¬ (c.skip n).peek = some '#' := by
      rw [hbehind.peek]
      intro hhash
      exact (hcs '#' hhash).comment rfl
    rw [skipComment, if_neg hpeek]
  rw [Lexer.skipGap]
  simp only [hskip, hcomment, lineBreak_eq_self hbehind fun ch hch ↦ (hcs ch hch).lineBreak,
    List.isEmpty_nil, if_true]

/-- Behind a line break outside of flow collections a key may begin. -/
theorem skipGap_feed (h : c.Before ('\n' :: cs)) (hcs : ∀ ch ∈ cs.head?, BeginsToken ch) :
    Lexer.skipGap false allowed c = (c.next, true) := by
  have hskip : c.skipWhile isSpace = c := h.skipWhile_eq_self (by simp [isSpace])
  have hcomment : c.skipComment = c := by
    rw [skipComment, if_neg (by rw [h.peek]; simp)]
  have hshorter : c.next.left < c.left := h.left_next_lt
  rw [Lexer.skipGap]
  simp only [hskip, hcomment, lineBreak_feed h, List.isEmpty_cons, Bool.false_eq_true, if_false,
    if_pos hshorter, Bool.not_false, Bool.or_true]
  exact skipGap_spaces 0 h.next hcs

/-- A possible key that is not required is forgotten without harm. -/
def Optional (keys : List (Nat × KeyStart)) : Prop :=
  ∀ entry ∈ keys, entry.2.required = false

theorem optional_nil : Optional [] := by simp [Optional]

theorem settle_eq (hgap : Lexer.skipGap l.inFlow l.keyAllowed l.cursor = (c, allowed))
    (hkeys : Optional l.keys) : ∃ keys, Optional keys ∧ (l.keys = [] → keys = []) ∧
      l.settle = .ok (({ l with cursor := c, keyAllowed := allowed, keys } : Lexer).closeBlocks
        c.column) := by
  have hnone (l' : Lexer) (hl' : l'.keys = l.keys) :
      (l'.keys.any fun entry ↦ l'.isStale entry.2 && entry.2.required) = false := by
    rw [hl', List.any_eq_false]
    intro entry hentry
    simp [hkeys entry hentry]
  refine ⟨l.keys.filter fun entry ↦
    !({ l with cursor := c, keyAllowed := allowed } : Lexer).isStale entry.2, ?_, ?_, ?_⟩
  · intro entry hentry
    exact hkeys entry (List.mem_of_mem_filter hentry)
  · intro hempty
    rw [hempty]
    rfl
  · unfold Lexer.settle
    rw [hgap]
    change (Lexer.dropStaleKeys { l with cursor := c, keyAllowed := allowed } >>= _) = _
    rw [Lexer.dropStaleKeys, if_neg (by rw [Bool.not_eq_true]; exact hnone _ rfl)]
    rfl

/-- Outside of flow collections no blocks are closed by what is not indented less than they are. -/
theorem closeBlocks_eq_self {column : Int} (h : ¬ column < l.indent) :
    l.closeBlocks column = l := by
  unfold Lexer.closeBlocks
  split
  · rfl
  · obtain ⟨cursor, tokens, flow, indent, outer, keyAllowed, keys⟩ := l
    cases outer with
    | nil => rfl
    | cons o outer =>
      rw [Lexer.closeBlocks.go, if_neg h]

/-- Before a token, with keys that may still be some, nothing changes. -/
theorem settle_eq_self (hgap : Lexer.skipGap l.inFlow l.keyAllowed l.cursor = (l.cursor, l.keyAllowed))
    (hkeys : ∀ entry ∈ l.keys, l.isStale entry.2 = false)
    (hcolumn : ¬ (l.cursor.column : Int) < l.indent) : l.settle = .ok l := by
  have hnone : ¬ (l.keys.any fun entry ↦ l.isStale entry.2 && entry.2.required) = true := by
    rw [Bool.not_eq_true, List.any_eq_false]
    intro entry hentry
    simp [hkeys entry hentry]
  have hall : l.keys.filter (fun entry ↦ !l.isStale entry.2) = l.keys := by
    rw [List.filter_eq_self]
    intro entry hentry
    simp [hkeys entry hentry]
  unfold Lexer.settle
  rw [hgap]
  change (l.dropStaleKeys >>= fun l' ↦ .ok (l'.closeBlocks l.cursor.column)) = _
  rw [Lexer.dropStaleKeys, if_neg hnone, hall]
  change Except.ok (l.closeBlocks l.cursor.column) = _
  rw [closeBlocks_eq_self hcolumn]

theorem dropKey_eq (hkeys : Optional l.keys) :
    ∃ keys, Optional keys ∧ (l.keys = [] → keys = []) ∧ l.dropKey = .ok { l with keys } := by
  unfold Lexer.dropKey
  split
  · exact ⟨l.keys, hkeys, id, rfl⟩
  · rename_i key hkey
    have hrequired : key.required = false := by
      obtain ⟨before, behind, hsplit, -⟩ := List.lookup_eq_some_iff.mp hkey
      exact hkeys (l.flow, key) (by simp [hsplit])
    rw [hrequired]
    refine ⟨_, fun entry hentry ↦ hkeys entry (List.mem_of_mem_filter hentry), ?_, rfl⟩
    intro hempty
    rw [hempty] at hkey
    cases hkey

/-- A key that may begin here is required in the column of the innermost block only. -/
theorem saveKey_eq (hkeys : Optional l.keys) (hcolumn : l.indent ≠ l.cursor.column) :
    ∃ keys, Optional keys ∧ l.saveKey = .ok { l with keys } := by
  unfold Lexer.saveKey
  split
  · obtain ⟨keys, hoptional, -, hdrop⟩ := dropKey_eq hkeys
    rw [hdrop]
    refine ⟨_, ?_, rfl⟩
    rw [Optional, List.forall_mem_cons]
    refine ⟨?_, hoptional⟩
    simp [hcolumn]
  · exact ⟨l.keys, hkeys, rfl⟩

/-! ## A scalar with which a text ends -/

/-- The lexer inside the block mapping with which a text begins. -/
def Lexer.inMapping (c : Cursor) (tokens : TokenRow) (allowed : Bool)
    (keys : List (Nat × KeyStart)) : Lexer :=
  { cursor := c, tokens, indent := 0, outer := [-1], keyAllowed := allowed, keys }

variable {tokens : TokenRow} {keys : List (Nat × KeyStart)} {token : Token} {behind : Cursor}
  {allowed' : Bool}

theorem settle_inMapping (tokens : TokenRow)
    (hgap : Lexer.skipGap false allowed c = (behind, allowed')) (hkeys : Optional keys) :
    ∃ keys', Optional keys' ∧ (keys = [] → keys' = []) ∧
      (Lexer.inMapping c tokens allowed keys).settle =
        .ok (Lexer.inMapping behind tokens allowed' keys') := by
  obtain ⟨keys', hkeys', hempty, hsettle⟩ :=
    @settle_eq (Lexer.inMapping c tokens allowed keys) behind allowed' hgap hkeys
  refine ⟨keys', hkeys', hempty, ?_⟩
  rw [hsettle, closeBlocks_eq_self]
  · rfl
  · change ¬ (behind.column : Int) < 0
    omega

/-- Behind the last token of a mapping its block is closed. -/
theorem run_end (hkeys : Optional keys) (hc : c.Before [] ∨ c.Before ['\n']) :
    (Lexer.inMapping c tokens allowed keys).run.toList =
      tokens.toList ++ [.blockEnd, .streamEnd] := by
  obtain ⟨c', allowed', hgap, hc'⟩ : ∃ c' allowed', Lexer.skipGap false allowed c = (c', allowed') ∧
      c'.Before [] := by
    rcases hc with hc | hc
    · exact ⟨c, allowed, skipGap_spaces 0 hc (by simp), hc⟩
    · exact ⟨c.next, true, skipGap_feed hc (by simp), hc.next⟩
  obtain ⟨keys', hkeys', -, hsettle⟩ := settle_inMapping tokens hgap hkeys
  let closed : Lexer :=
    { cursor := c', tokens := tokens.push .blockEnd, keyAllowed := allowed', keys := keys' }
  obtain ⟨keys'', -, -, hdrop⟩ := @dropKey_eq closed hkeys'
  have hend : (Lexer.inMapping c' tokens allowed' keys').streamEnd =
      .ok { closed with
        tokens := (tokens.push .blockEnd).push .streamEnd
        keyAllowed := false
        keys := [] } := by
    change (closed.dropKey >>= _) = _
    rw [hdrop]
    rfl
  rw [Lexer.run_of_end hsettle hc'.peek hend]
  simp

/-! ## Plain and quoted scalars -/

theorem BeginsPlain.beginsToken {next : Option Char} (h : BeginsPlain ch next) : BeginsToken ch := by
  obtain ⟨hblank, hbreak⟩ := endsToken_eq_false_iff.mp h.ink
  rw [isSpaceOrTab, Bool.or_eq_false_iff] at hblank
  refine ⟨hblank.1, ?_, hbreak⟩
  rintro rfl
  exact absurd h.mark (by decide)

theorem token_plain (hflow : l.inFlow = false) (hc : l.cursor.Before (ch :: cs))
    (hbegins : BeginsPlain ch cs.head?) (hmark : l.cursor.atDocumentMark = false) :
    l.token ch = l.plain := by
  have hopening : ∀ d ∈ openingMarks, ch ≠ d := by
    rintro d hd rfl
    exact absurd hbegins.mark (by simp [hd])
  have hnext : l.cursor.peekAt 1 = cs.head? := by
    rw [hc.peekAt, List.head?_eq_getElem?]
    rfl
  simp only [openingMarks, List.forall_mem_cons] at hopening
  have hbegin : Lexer.beginsPlain false ch cs.head? = true := by
    unfold Lexer.beginsPlain
    rw [hbegins.ink]
    cases hends : endsToken cs.head? with
    | true =>
      obtain ⟨hhyphen, hquestion, hcolon⟩ := hbegins.indicator hends
      simp [Lexer.indicators, hopening, hhyphen, hquestion, hcolon]
    | false =>
      by_cases hindicator : ch = '-' ∨ ch = '?' ∨ ch = ':'
      · rcases hindicator with rfl | rfl | rfl <;> rfl
      · rw [not_or, not_or] at hindicator
        simp [Lexer.indicators, hopening, hindicator]
  rw [atDocumentMark, Bool.or_eq_false_iff] at hmark
  unfold Lexer.token
  cases hends : endsToken cs.head? with
  | true =>
    obtain ⟨hhyphen, hquestion, hcolon⟩ := hbegins.indicator hends
    simp [hopening, hmark, hflow, hnext, hbegin, hhyphen, hquestion, hcolon]
  | false => simp [hopening, hmark, hflow, hnext, hbegin, hends]

theorem token_quoted {quote : Char} (hquote : quote = '\x22' ∨ quote = '\x27')
    (hc : l.cursor.Before (quote :: cs)) :
    l.token quote = l.keyPart fun cursor ↦
      (quotedScalar quote cursor).map fun (text, c) ↦ (.scalar text false, c) := by
  have hmark : l.cursor.atDocumentMark = false := by
    rcases hquote with rfl | rfl <;> exact atDocumentMark_eq_false hc (by decide) (by decide)
  rw [atDocumentMark, Bool.or_eq_false_iff] at hmark
  rcases hquote with rfl | rfl <;> simp [Lexer.token, hmark]

theorem token_colon (hc : l.cursor.Before (':' :: cs)) (hends : endsToken cs.head? = true) :
    l.token ':' = l.valueMark := by
  have hmark := atDocumentMark_eq_false hc (by decide) (by decide)
  have hnext : l.cursor.peekAt 1 = cs.head? := by
    rw [hc.peekAt, List.head?_eq_getElem?]
    rfl
  rw [atDocumentMark, Bool.or_eq_false_iff] at hmark
  simp [Lexer.token, hmark, hnext, hends]

theorem token_hyphen (hc : l.cursor.Before ('-' :: ' ' :: cs)) : l.token '-' = l.blockEntry := by
  have hmark : l.cursor.atDocumentMark = false := by
    unfold atDocumentMark atMark
    rw [hc.rest]
    simp
  have hnext : l.cursor.peekAt 1 = some ' ' := hc.peekAt 1
  rw [atDocumentMark, Bool.or_eq_false_iff] at hmark
  simp [Lexer.token, hmark, hnext, show endsToken (some ' ') = true from rfl]

/-- A scalar behind a space, with which a text ends. -/
theorem run_scalar (hc : c.Before (' ' :: ch :: cs)) (hch : BeginsToken ch)
    (hkeys : Optional keys) (hbehind : behind.Before [] ∨ behind.Before ['\n'])
    (htoken : ∀ keys, Optional keys → ∃ allowed' keys', Optional keys' ∧
      (Lexer.inMapping c.next tokens allowed keys).token ch =
        .ok (.inMapping behind (tokens.push token) allowed' keys')) :
    (Lexer.inMapping c tokens allowed keys).run.toList =
      tokens.toList ++ [token, .blockEnd, .streamEnd] := by
  have hgap : Lexer.skipGap false allowed c = (c.next, allowed) :=
    skipGap_spaces 1 hc (by simpa using hch)
  obtain ⟨keys', hkeys', -, hsettle⟩ := settle_inMapping tokens hgap hkeys
  obtain ⟨allowed', keys'', hkeys'', htoken⟩ := htoken keys' hkeys'
  have hshorter : behind.left < c.left := by
    rw [hc.left]
    rcases hbehind with hbehind | hbehind <;> rw [hbehind.left] <;> simp
  rw [Lexer.run_of_token hsettle hc.next.peek htoken hshorter, run_end hkeys'' hbehind]
  simp

/-- Inside a mapping what is indented further may be a key without harm. -/
theorem saveKey_inMapping (tokens : TokenRow) (allowed : Bool) (hkeys : Optional keys)
    (hcolumn : 1 ≤ c.column) :
    ∃ keys', Optional keys' ∧ (Lexer.inMapping c tokens allowed keys).saveKey =
      .ok (.inMapping c tokens allowed keys') :=
  @saveKey_eq (.inMapping c tokens allowed keys) hkeys fun hzero ↦ by
    have hzero' : (0 : Int) = c.column := hzero
    omega

theorem run_quoted {quote : Char} {ws : List Char} {points : List CodePoint}
    (hquote : quote = '\x22' ∨ quote = '\x27') (hc : c.Before (' ' :: quote :: (ws ++ quote :: rest)))
    (hrest : rest = [] ∨ rest = ['\n']) (hreads : Reads quote ws (quote :: rest) points)
    (hkeys : Optional keys) :
    (Lexer.inMapping c tokens allowed keys).run.toList =
      tokens.toList ++ [.scalar { points } false, .blockEnd, .streamEnd] := by
  have hnext := hc.next
  have hread : quotedScalar quote c.next = .ok ({ points }, c.next.skip (ws.length + 2)) :=
    quotedScalar_of_reads hnext (by rcases hrest with rfl | rfl <;> simp) hreads
  have hbehind : (c.next.skip (ws.length + 2)).Before rest := by
    have hskip := @Before.skip c.next (quote :: (ws ++ [quote])) rest (by simpa using hnext)
    rwa [List.length_cons, List.length_append] at hskip
  have hbegins : BeginsToken quote := by
    rcases hquote with rfl | rfl <;> exact ⟨by decide, by decide, by decide⟩
  refine run_scalar hc hbegins hkeys (hrest.imp (· ▸ hbehind) (· ▸ hbehind)) fun keys hkeys ↦ ?_
  obtain ⟨keys', hkeys', hsave⟩ := saveKey_inMapping tokens allowed hkeys
    (by rw [column_next_space hc]; omega)
  refine ⟨false, keys', hkeys', ?_⟩
  rw [token_quoted hquote hnext]
  change (Lexer.saveKey _ >>= _) = _
  rw [hsave]
  change ((quotedScalar quote c.next).map _ >>= _) = _
  rw [hread]
  rfl

theorem run_plain {ws : List Char} {text : String} (hc : c.Before (' ' :: ch :: (ws ++ ['\n'])))
    (hbegins : BeginsPlain ch (ws ++ ['\n']).head?)
    (hread : plainScalar false 0 c.next = (text, c.next.skip (ws.length + 2), true))
    (hkeys : Optional keys) :
    (Lexer.inMapping c tokens allowed keys).run.toList =
      tokens.toList ++ [.scalar (.ofString text) true, .blockEnd, .streamEnd] := by
  have hnext := hc.next
  have hbehind : (c.next.skip (ws.length + 2)).Before [] := by
    have hskip := @Before.skip c.next (ch :: (ws ++ ['\n'])) [] (by simpa using hnext)
    rwa [List.length_cons, List.length_append] at hskip
  refine run_scalar hc hbegins.beginsToken hkeys (.inl hbehind) fun keys hkeys ↦ ?_
  have hcolumn : 1 ≤ c.next.column := by
    rw [column_next_space hc]
    omega
  obtain ⟨keys', hkeys', hsave⟩ := saveKey_inMapping tokens allowed hkeys hcolumn
  refine ⟨true, keys', hkeys', ?_⟩
  rw [token_plain rfl hnext hbegins (atDocumentMark_of_column hcolumn)]
  have hread' : plainScalar (Lexer.inMapping c.next tokens allowed keys').inFlow
      (Lexer.inMapping c.next tokens allowed keys').indent
      (Lexer.inMapping c.next tokens allowed keys').cursor =
        (text, c.next.skip (ws.length + 2), true) := hread
  simp only [Lexer.plain, hsave, bind, Except.bind, hread']
  rfl

/-! ## The key with which a text begins, and the hyphen of an item -/

/-- Letters, digits and underscores of ASCII. -/
def isWordChar (ch : Char) : Bool :=
  ch.isAlphanum || ch = '_'

/-- A word that can be written as a key. -/
structure IsKey (key : List Char) : Prop where
  ne_nil : key ≠ []
  short : key.length ≤ keyLimit
  word : key.all isWordChar = true

theorem IsKey.ink (hkey : IsKey key) (hch : ch ∈ key) :
    endsToken (some ch) = false ∧ openingMarks.contains ch = false ∧
      ch ≠ '-' ∧ ch ≠ '?' ∧ ch ≠ ':' ∧ ch ≠ '.' := by
  have hword : isWordChar ch = true := List.all_eq_true.mp hkey.word ch hch
  have hother (d : Char) (hd : isWordChar d = false) : ch ≠ d := by
    rintro rfl
    simp [hword] at hd
  refine ⟨?_, ?_, hother _ (by decide), hother _ (by decide), hother _ (by decide),
    hother _ (by decide)⟩
  · simp [endsToken, isSpaceOrTab, isBreak, hother ' ' (by decide), hother '\t' (by decide),
      hother '\n' (by decide), hother '\r' (by decide), hother '\x85' (by decide),
      hother '\u2028' (by decide), hother '\u2029' (by decide)]
  · rw [← Bool.not_eq_true, List.contains_iff_mem]
    intro hmark
    have hmarks : openingMarks.all (!isWordChar ·) = true := by decide
    have hother' := List.all_eq_true.mp hmarks ch hmark
    simp [hword] at hother'

theorem plainWord_key (hkey : ∀ ch ∈ key, endsToken (some ch) = false ∧ ch ≠ ':')
    (hcs : endsToken cs.head? = true) : plainWord false (key ++ ':' :: cs) = key := by
  induction key with
  | nil =>
    rw [List.nil_append, plainWord, if_pos]
    rw [endsPlain, hcs]
    rfl
  | cons ch key ih =>
    rw [List.forall_mem_cons] at hkey
    obtain ⟨⟨hends, hcolon⟩, hkey⟩ := hkey
    rw [List.cons_append, plainWord, if_neg, ih hkey]
    simp [endsPlain, hends, hcolon]

theorem plainScalar_key (hkey : IsKey key) (hcs : endsToken cs.head? = true)
    (hc : c.Before (key ++ ':' :: cs)) {indent : Int} :
    plainScalar false indent c = (String.ofList key, c.skip key.length, false) := by
  have hword : plainWord false c.rest = key := by
    rw [hc.rest]
    exact plainWord_key (fun ch hch ↦ ⟨(hkey.ink hch).1, (hkey.ink hch).2.2.2.2.1⟩) hcs
  have hgap : plainGap (c.skip key.length) = (some [], c.skip key.length, false) :=
    plainGap_none hc.skip (by decide) (by decide)
  obtain ⟨ch, rest, rfl⟩ := List.exists_cons_of_ne_nil hkey.ne_nil
  have hpeek : ¬ c.peek = some '#' := by
    rw [hc.peek]
    intro hhash
    obtain rfl : ch = '#' := Option.some.inj hhash
    exact absurd (hkey.ink List.mem_cons_self).2.1 (by decide)
  rw [plainScalar, plainFrom, if_neg hpeek]
  simp only [hword, hgap]
  simp [plainStop]

/-- The tokens of a key and its colon, with which a mapping begins. -/
def TokenRow.ofKey (key : List Char) : TokenRow :=
  let row := TokenRow.empty.push (.scalar (.ofString (String.ofList key)) true)
  ((row.insert 0 .key).insert 0 .blockMappingStart).push .value

/-- The place at which a text of some length begins. -/
def KeyStart.first (left : Nat) : KeyStart :=
  { token := 0, required := false, left, line := 0, column := 0 }

/-- The lexer behind the word with which a text begins, which may be a key. -/
def Lexer.behindWord (text word : List Char) : Lexer where
  cursor := (Cursor.start text).skip word.length
  tokens := TokenRow.empty.push (.scalar (.ofString (String.ofList word)) true)
  keyAllowed := false
  keys := [(0, .first text.length)]

theorem run_start (hkey : IsKey key) (hcs : endsToken cs.head? = true) :
    (Lexer.start (key ++ ':' :: cs)).run = (Lexer.behindWord (key ++ ':' :: cs) key).run := by
  have hstart : (Cursor.start (key ++ ':' :: cs)).Before (key ++ ':' :: cs) := before_start _
  obtain ⟨ch, rest, hcons⟩ := List.exists_cons_of_ne_nil hkey.ne_nil
  have hch : ch ∈ key := by
    rw [hcons]
    exact List.mem_cons_self
  obtain ⟨hink, hopening, hhyphen, hquestion, hcolon, hpoint⟩ := hkey.ink hch
  have hbegins : BeginsPlain ch (rest ++ ':' :: cs).head? :=
    ⟨hink, hopening, fun _ ↦ ⟨hhyphen, hquestion, hcolon⟩⟩
  have hfirst : (Cursor.start (key ++ ':' :: cs)).Before (ch :: (rest ++ ':' :: cs)) := by
    simpa only [hcons, List.cons_append] using hstart
  have hgap : Lexer.skipGap false true (Cursor.start (key ++ ':' :: cs)) =
      (Cursor.start (key ++ ':' :: cs), true) :=
    skipGap_spaces 0 hfirst (by simpa using hbegins.beginsToken)
  have hsettle : (Lexer.start (key ++ ':' :: cs)).settle = .ok (Lexer.start (key ++ ':' :: cs)) :=
    settle_eq_self hgap (fun _ hentry ↦ absurd hentry List.not_mem_nil)
      (show ¬ (0 : Int) < -1 by decide)
  have htoken : (Lexer.start (key ++ ':' :: cs)).token ch =
      .ok (.behindWord (key ++ ':' :: cs) key) := by
    rw [token_plain rfl hfirst hbegins (atDocumentMark_eq_false hfirst hhyphen hpoint)]
    let begun : Lexer :=
      { Lexer.start (key ++ ':' :: cs) with keys := [(0, .first (key ++ ':' :: cs).length)] }
    have hsave : (Lexer.start (key ++ ':' :: cs)).saveKey = .ok begun := rfl
    have hread : plainScalar begun.inFlow begun.indent begun.cursor =
        (String.ofList key, (Cursor.start (key ++ ':' :: cs)).skip key.length, false) :=
      plainScalar_key hkey hcs hstart
    simp only [Lexer.plain, hsave, bind, Except.bind, hread]
    rfl
  refine Lexer.run_of_token hsettle hfirst.peek htoken ?_
  exact hstart.left_skip_lt hkey.ne_nil

theorem run_behindWord (hkey : IsKey key) (hcs : endsToken cs.head? = true) :
    (Lexer.behindWord (key ++ ':' :: cs) key).run =
      (Lexer.inMapping ((Cursor.start (key ++ ':' :: cs)).skip (key.length + 1)) (.ofKey key) false
        []).run := by
  have hstart : (Cursor.start (key ++ ':' :: cs)).Before (key ++ ':' :: cs) := before_start _
  have hcolon := hstart.skip
  have hgap : Lexer.skipGap false false ((Cursor.start (key ++ ':' :: cs)).skip key.length) =
      ((Cursor.start (key ++ ':' :: cs)).skip key.length, false) :=
    skipGap_spaces 0 hcolon (by simpa using ⟨by decide, by decide, by decide⟩)
  have hfresh : (Lexer.behindWord (key ++ ':' :: cs) key).isStale (.first (key ++ ':' :: cs).length) =
      false := by
    have hkept := kept_skip hstart fun ch hch ↦ (endsToken_eq_false_iff.mp (hkey.ink hch).1).2
    have hline : (0 : Nat) = ((Cursor.start (key ++ ':' :: cs)).skip key.length).line := hkept.1.symm
    have hleft : ((Cursor.start (key ++ ':' :: cs)).skip key.length).left = (':' :: cs).length :=
      hcolon.left
    have hshort := hkey.short
    simp only [Lexer.isStale, Lexer.behindWord, KeyStart.first, hleft, List.length_append]
    simp [← hline, hshort]
  have hsettle : (Lexer.behindWord (key ++ ':' :: cs) key).settle =
      .ok (.behindWord (key ++ ':' :: cs) key) := by
    refine settle_eq_self hgap ?_ (by change ¬ ((_ : Nat) : Int) < -1; omega)
    rintro entry hentry
    obtain rfl := List.mem_singleton.mp hentry
    exact hfresh
  have htoken : (Lexer.behindWord (key ++ ':' :: cs) key).token ':' =
      .ok (.inMapping ((Cursor.start (key ++ ':' :: cs)).skip key.length).next (.ofKey key) false
        []) :=
    (token_colon hcolon hcs).trans rfl
  rw [skip_add]
  exact Lexer.run_of_token hsettle hcolon.peek htoken hcolon.left_next_lt

/-- The tokens of a key of a mapping that begins with it. -/
theorem run_key (hkey : IsKey key) (hcs : endsToken cs.head? = true) :
    ∃ c tokens, c.Before cs ∧ (Lexer.start (key ++ ':' :: cs)).run =
        (Lexer.inMapping c tokens false []).run ∧
      tokens.toList =
        [.blockMappingStart, .key, .scalar (.ofString (String.ofList key)) true, .value] := by
  have hstart : (Cursor.start (key ++ ':' :: cs)).Before (key ++ ':' :: cs) := before_start _
  refine ⟨_, _, ?_, (run_start hkey hcs).trans (run_behindWord hkey hcs), rfl⟩
  rw [skip_add]
  exact hstart.skip.next

/-- The hyphen of an item below a key. -/
theorem run_item (tokens : TokenRow) (allowed : Bool) (hc : c.Before ('\n' :: '-' :: ' ' :: cs)) :
    (Lexer.inMapping c tokens allowed []).run =
      (Lexer.inMapping (c.skip 2) (tokens.push .blockEntry) true []).run := by
  have hgap : Lexer.skipGap false allowed c = (c.next, true) :=
    skipGap_feed hc (by simpa using ⟨by decide, by decide, by decide⟩)
  obtain ⟨keys, -, hkeys, hsettle⟩ := settle_inMapping tokens hgap optional_nil
  obtain rfl := hkeys rfl
  have hopen : (Lexer.inMapping c.next tokens true []).openBlock c.next.column .blockSequenceStart
      tokens.size = .inMapping c.next tokens true [] := by
    apply if_neg
    rw [column_next_feed hc]
    exact Int.lt_irrefl 0
  have htoken : (Lexer.inMapping c.next tokens true []).token '-' =
      .ok (.inMapping (c.skip 2) (tokens.push .blockEntry) true []) := by
    rw [token_hyphen hc.next]
    change (Lexer.dropKey (Lexer.openBlock _ c.next.column .blockSequenceStart tokens.size) >>= _) = _
    rw [hopen]
    rfl
  refine Lexer.run_of_token hsettle hc.next.peek htoken ?_
  change (c.skip 2).left < c.left
  rw [show (c.skip 2).left = _ from hc.next.next.left, hc.left]
  simp

end OfflineSupply.Yaml
