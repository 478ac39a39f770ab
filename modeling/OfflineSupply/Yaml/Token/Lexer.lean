import OfflineSupply.Yaml.Token.Row
import OfflineSupply.Yaml.Token.Tag

/-!
# Reading tokens

The lexer steps from token to token.  It keeps the columns of the open blocks, the depth of
flow collections, and for each depth the last place where a simple key may have begun: such a
key ends at a colon on the same line within 1024 characters, and the tokens that mark it are
put in front of it only then.  Where the text cannot be read any further the tokens stop in
front of the first possible key, because what marks it would come there, and the last one is
not the end of the stream.
-/

namespace OfflineSupply.Yaml

/-- A place where a simple key may have begun. -/
structure KeyStart where
  /-- The number of tokens before it. -/
  token : Nat
  /-- Whether a block mapping cannot go on without the key. -/
  required : Bool
  /-- The length of the text from it on. -/
  left : Nat
  line : Nat
  column : Nat

/-- The greatest length of a simple key. -/
def keyLimit : Nat := 1024

/-- A lexer between two tokens. -/
structure Lexer where
  cursor : Cursor
  tokens : TokenRow := {}
  /-- The number of open flow collections. -/
  flow : Nat := 0
  /-- The column of the innermost open block. -/
  indent : Int := -1
  /-- The columns of the blocks around it. -/
  outer : List Int := []
  /-- Whether a simple key may begin here. -/
  keyAllowed : Bool := true
  /-- The possible keys of each depth. -/
  keys : List (Nat × KeyStart) := []

namespace Lexer

/-- A step that reads a token, or finds that there is none to read. -/
abbrev Step := Except Trouble Lexer

/-- Whether a flow collection is open. -/
def inFlow (l : Lexer) : Bool := l.flow ≠ 0

/-- The lexer with one more token. -/
def emit (l : Lexer) (token : Token) : Lexer :=
  { l with tokens := l.tokens.push token }

/-- Closes the blocks that are indented deeper than a column. -/
def closeBlocks (l : Lexer) (column : Int) : Lexer :=
  if l.inFlow then l
  else
    let rec go (tokens : TokenRow) (indent : Int) : List Int → Lexer
      | [] => { l with tokens, indent, outer := [] }
      | o :: outer =>
        if column < indent then go (tokens.push .blockEnd) o outer
        else { l with tokens, indent, outer := o :: outer }
    go l.tokens l.indent l.outer

/-- Opens a block at a column, when it is deeper than the innermost one; the token goes to a
place among the tokens. -/
def openBlock (l : Lexer) (column : Nat) (token : Token) (place : Nat) : Lexer :=
  if l.indent < column then
    { l with
      outer := l.indent :: l.outer
      indent := column
      tokens := l.tokens.insert place token }
  else l

/-- Forgets the possible key of the present depth, unless it is required. -/
def dropKey (l : Lexer) : Step :=
  match l.keys.lookup l.flow with
  | none => .ok l
  | some key =>
    if key.required then .error .malformed
    else .ok { l with keys := l.keys.filter (·.1 ≠ l.flow) }

/-- Whether a possible key has become too long or left its line. -/
def isStale (l : Lexer) (key : KeyStart) : Bool :=
  key.line ≠ l.cursor.line || keyLimit < key.left - l.cursor.left

/-- Forgets the keys that have become too long or left their line. -/
def dropStaleKeys (l : Lexer) : Step :=
  if l.keys.any fun entry => l.isStale entry.2 && entry.2.required then .error .malformed
  else .ok { l with keys := l.keys.filter fun entry => !l.isStale entry.2 }

/-- Remembers that a simple key may begin at the cursor. -/
def saveKey (l : Lexer) : Step := do
  if l.keyAllowed then
    let c := l.cursor
    let l ← l.dropKey
    let key : KeyStart :=
      { token := l.tokens.size
        required := !l.inFlow && l.indent == (c.column : Int)
        left := c.left, line := c.line, column := c.column }
    return { l with keys := (l.flow, key) :: l.keys }
  else return l

/-- Skips spaces, comments and line breaks; behind a break outside flow collections a simple
key may begin. -/
def skipGap (inFlow keyAllowed : Bool) (c : Cursor) : Cursor × Bool :=
  let c' := (c.skipWhile isSpace).skipComment
  let (mark, after) := c'.lineBreak
  if mark.isEmpty then (c', keyAllowed)
  else if after.left < c.left then skipGap inFlow (keyAllowed || !inFlow) after
  else (c', keyAllowed)
termination_by c.left

/-- The end of the stream. -/
def streamEnd (l : Lexer) : Step := do
  let l ← (l.closeBlocks (-1)).dropKey
  return { l.emit .streamEnd with keyAllowed := false, keys := [] }

/-- A directive. -/
def directive (l : Lexer) : Step := do
  let l ← (l.closeBlocks (-1)).dropKey
  let (token, cursor) ← directiveAt l.cursor
  return { l.emit token with cursor, keyAllowed := false }

/-- A mark that begins or ends a document. -/
def documentMark (l : Lexer) (token : Token) : Step := do
  let l ← (l.closeBlocks (-1)).dropKey
  return { l.emit token with cursor := l.cursor.skip 3, keyAllowed := false }

/-- The opening bracket of a flow collection. -/
def flowStart (l : Lexer) (token : Token) : Step := do
  let l ← l.saveKey
  return { l.emit token with cursor := l.cursor.next, flow := l.flow + 1, keyAllowed := true }

/-- The closing bracket of a flow collection. -/
def flowEnd (l : Lexer) (token : Token) : Step := do
  let l ← l.dropKey
  return { l.emit token with cursor := l.cursor.next, flow := l.flow - 1, keyAllowed := false }

/-- The comma of a flow collection. -/
def flowEntry (l : Lexer) : Step := do
  let l ← l.dropKey
  return { l.emit .flowEntry with cursor := l.cursor.next, keyAllowed := true }

/-- The hyphen before an item. -/
def blockEntry (l : Lexer) : Step := do
  if !l.inFlow && !l.keyAllowed then .error .malformed
  else
    let l := if l.inFlow then l
      else l.openBlock l.cursor.column .blockSequenceStart l.tokens.size
    let l ← l.dropKey
    return { l.emit .blockEntry with cursor := l.cursor.next, keyAllowed := true }

/-- The question mark before a key. -/
def explicitKey (l : Lexer) : Step := do
  if !l.inFlow && !l.keyAllowed then .error .malformed
  else
    let l := if l.inFlow then l
      else l.openBlock l.cursor.column .blockMappingStart l.tokens.size
    let l ← l.dropKey
    return { l.emit .key with cursor := l.cursor.next, keyAllowed := !l.inFlow }

/-- The colon before a value.  When a simple key may have begun, it has, and its tokens are
put in front of it. -/
def valueMark (l : Lexer) : Step := do
  match l.keys.lookup l.flow with
  | some key =>
    let l := { l with
      keys := l.keys.filter (·.1 ≠ l.flow)
      tokens := l.tokens.insert key.token .key }
    let l := if l.inFlow then l else l.openBlock key.column .blockMappingStart key.token
    return { l.emit .value with cursor := l.cursor.next, keyAllowed := false }
  | none =>
    if !l.inFlow && !l.keyAllowed then .error .malformed
    else
      let l := if l.inFlow then l
        else l.openBlock l.cursor.column .blockMappingStart l.tokens.size
      let l ← l.dropKey
      return { l.emit .value with cursor := l.cursor.next, keyAllowed := !l.inFlow }

/-- An alias, an anchor, a tag or a quoted scalar: what may begin a simple key. -/
def keyPart (l : Lexer) (read : Cursor → Scanned Token) : Step := do
  let l ← l.saveKey
  let (token, cursor) ← read l.cursor
  return { l.emit token with cursor, keyAllowed := false }

/-- A block scalar. -/
def block (l : Lexer) (folded : Bool) : Step := do
  let l ← l.dropKey
  let (text, cursor) ← blockScalar folded l.indent l.cursor
  return { l.emit (.scalar (.ofString text) false) with cursor, keyAllowed := true }

/-- A plain scalar. -/
def plain (l : Lexer) : Step := do
  let l ← l.saveKey
  let (text, cursor, broken) := plainScalar l.inFlow l.indent l.cursor
  return { l.emit (.scalar (.ofString text) true) with cursor, keyAllowed := broken }

/-- The marks that begin no plain scalar. -/
def indicators : List Char :=
  ['-', '?', ':', ',', '[', ']', '\x7b', '\x7d', '#', '&', '*', '!', '|', '>', '\x27', '\x22', '%',
   '@', '\x60']

/-- Whether a plain scalar begins with a character before another. -/
def beginsPlain (inFlow : Bool) (c : Char) (next : Option Char) : Bool :=
  !(endsToken (some c) || indicators.contains c)
    || (!endsToken next && (c = '-' || (!inFlow && (c = '?' || c = ':'))))

/-- The token at the cursor, which stands before a character. -/
def token (l : Lexer) (c : Char) : Step :=
  let cursor := l.cursor
  let next := cursor.peekAt 1
  if c = '%' && cursor.column = 0 then l.directive
  else if cursor.atMark '-' then l.documentMark .documentStart
  else if cursor.atMark '.' then l.documentMark .documentEnd
  else if c = '[' then l.flowStart .flowSequenceStart
  else if c = '\x7b' then l.flowStart .flowMappingStart
  else if c = ']' then l.flowEnd .flowSequenceEnd
  else if c = '\x7d' then l.flowEnd .flowMappingEnd
  else if c = ',' then l.flowEntry
  else if c = '-' && endsToken next then l.blockEntry
  else if c = '?' && (l.inFlow || endsToken next) then l.explicitKey
  else if c = ':' && (l.inFlow || endsToken next) then l.valueMark
  else if c = '*' then l.keyPart fun c => (anchorName c).map fun (name, c) => (.alias name, c)
  else if c = '&' then l.keyPart fun c => (anchorName c).map fun (name, c) => (.anchor name, c)
  else if c = '!' then l.keyPart tagAt
  else if c = '|' && !l.inFlow then l.block false
  else if c = '>' && !l.inFlow then l.block true
  else if c = '\x27' || c = '\x22' then
    l.keyPart fun cursor => (quotedScalar c cursor).map fun (text, c) => (.scalar text false, c)
  else if beginsPlain l.inFlow c next then l.plain
  else .error .malformed

/-- The lexer before the next token, with the blocks closed that end there. -/
def settle (l : Lexer) : Step := do
  let (cursor, keyAllowed) := skipGap l.inFlow l.keyAllowed l.cursor
  let l ← { l with cursor, keyAllowed }.dropStaleKeys
  return l.closeBlocks cursor.column

/-- The tokens that stand for sure: those in front of every possible key. -/
def sureTokens (l : Lexer) : TokenRow :=
  let unsettled := l.keys.filter fun entry => entry.2.required || !l.isStale entry.2
  l.tokens.take (unsettled.foldl (fun n entry => min n entry.2.token) l.tokens.size)

/-- The tokens before a trouble. -/
def stop (l : Lexer) (trouble : Trouble) : TokenRow :=
  match trouble with
  | .malformed => l.sureTokens
  | .breakdown cause => l.sureTokens.push (.impossible cause)

/-- All tokens from here on. -/
def run (l : Lexer) : TokenRow :=
  match l.settle with
  | .error trouble => l.stop trouble
  | .ok settled =>
    match settled.cursor.peek with
    | none =>
      match settled.streamEnd with
      | .error trouble => l.stop trouble
      | .ok after => after.tokens
    | some c =>
      match settled.token c with
      | .error trouble => l.stop trouble
      | .ok after =>
        if after.cursor.left < l.cursor.left then run after else after.tokens
termination_by l.cursor.left

end Lexer

/-- Whether a character may occur in a stream. -/
def isStreamChar (c : Char) : Bool :=
  let n := c.toNat
  n = 0x09 || n = 0x0A || n = 0x0D || (0x20 ≤ n && n ≤ 0x7E) || n = 0x85 ||
    (0xA0 ≤ n && n ≤ 0xFFFD) || 0x10000 ≤ n

/-- The tokens of a text, as far as it can be read; nothing of a text with a character that
may not occur.  A byte order mark may stand in front. -/
def Token.ofText (text : String) : List Token :=
  let c := Cursor.start text.toList
  let cursor := if c.peek = some '\uFEFF' then c.next else c
  if c.rest.all isStreamChar then (Lexer.run { cursor }).toList else []

end OfflineSupply.Yaml
