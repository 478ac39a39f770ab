import OfflineSupply.Text.Digit
import OfflineSupply.Yaml.Cursor
import OfflineSupply.Yaml.Token

/-!
# Scalars

A scalar is written plain, between quotes, or as a block below its header.  A line break
inside a plain or quoted scalar is folded: a single one reads as a space, and of several the
first is dropped.  A block keeps its lines, or folds those that are neither empty nor
indented further.
-/

namespace OfflineSupply.Yaml

/-- The cursor's result: reversed text read so far, and where the reading stopped. -/
abbrev Scanned (α : Type) := Except Trouble (α × Cursor)

/-! ## Line breaks inside a flow scalar -/

/-- The line breaks from a cursor on, after the reversed ones `taken`, inside quotes, where
blanks stand before each.  A mark of a document may not begin a line there. -/
def quotedBreaks (taken : List Char) (c : Cursor) : Scanned (List Char) :=
  if c.atDocumentMark then .error .malformed
  else
    let blank := c.skipWhile isSpaceOrTab
    let (mark, after) := blank.lineBreak
    if mark.isEmpty then .ok (taken.reverse, blank)
    else if after.left < c.left then quotedBreaks (mark.reverseAux taken) after
    else .error .malformed
termination_by c.left

/-- What a line break and the further ones read as. -/
def foldBreaks (first more : List Char) : List Char :=
  if first ≠ ['\n'] then first ++ more
  else if more.isEmpty then [' ']
  else more

/-- The white space at a cursor inside quotes as it is read. -/
def quotedGap (c : Cursor) : Scanned (List Char) :=
  let (blanks, after) := c.span isSpaceOrTab
  let (mark, behind) := after.lineBreak
  if mark.isEmpty then .ok (blanks, after)
  else match quotedBreaks [] behind with
    | .error trouble => .error trouble
    | .ok (more, c) => .ok (foldBreaks mark more, c)

/-! ## Quoted scalars -/

/-- The character that a letter after a backslash stands for. -/
def escapes : List (Char × Char) :=
  [('0', '\x00'), ('a', '\x07'), ('b', '\x08'), ('t', '\t'), ('\t', '\t'), ('n', '\n'),
   ('v', '\x0b'), ('f', '\x0c'), ('r', '\r'), ('e', '\x1b'), (' ', ' '), ('\x22', '\x22'),
   ('\\', '\\'), ('/', '/'), ('N', '\x85'), ('_', '\xa0'), ('L', '\u2028'), ('P', '\u2029')]

/-- How many digits follow a letter that introduces a code. -/
def codeLength? (c : Char) : Option Nat :=
  if c = 'x' then some 2 else if c = 'u' then some 4 else if c = 'U' then some 8 else none

/-- The code point of a code. -/
def pointOfCode (n : Nat) : Except Trouble CodePoint :=
  if n < 0x110000 then .ok (.ofNat n) else .error (.breakdown (.noSuchCharacter n))

/-- The code behind a backslash, whose letter says how many digits it has. -/
def codeAt? (c : Cursor) : Option (Nat × Cursor) := do
  let n ← codeLength? (← c.peek)
  let digits := c.next.rest.take n
  if digits.length = n && digits.all Text.isHexDigit then
    some (Text.digitsValue 16 digits, c.skip (n + 1))
  else none

/-- What an escape reads as, from the cursor behind the backslash. -/
def escape (c : Cursor) : Scanned (List CodePoint) :=
  match c.peek with
  | none => .error .malformed
  | some ch =>
    match escapes.lookup ch, codeAt? c with
    | some meant, _ => .ok ([.char meant], c.next)
    | none, some (code, after) => (pointOfCode code).map fun meant => ([meant], after)
    | none, none =>
      if isBreak ch then
        (quotedBreaks [] c.lineBreak.2).map fun (breaks, c) => (breaks.map .char, c)
      else .error .malformed

/-- What stands next inside quotes, as it is read; `none` before the closing quote. -/
def quotedPiece (quote : Char) (c : Cursor) :
    Except Trouble (Option (List CodePoint × Cursor)) :=
  match c.peek with
  | none => .error .malformed
  | some ch =>
    if ch = quote then
      if quote = '\x27' && c.peekAt 1 = some '\x27' then .ok (some ([.char '\x27'], c.skip 2))
      else .ok none
    else if ch = '\\' && quote = '\x22' then (escape c.next).map some
    else if isSpaceOrTab ch || isBreak ch then
      (quotedGap c).map fun (gap, c) => some (gap.map .char, c)
    else .ok (some ([.char ch], c.next))

/-- The text up to the closing quote, after the reversed code points read so far. -/
def quotedFrom (quote : Char) (taken : List CodePoint) (c : Cursor) : Scanned RawText :=
  match quotedPiece quote c with
  | .error trouble => .error trouble
  | .ok none => .ok ({ points := taken.reverse }, c.next)
  | .ok (some (piece, after)) =>
    if after.left < c.left then
      quotedFrom quote (piece.reverseAux taken) after
    else .error .malformed
termination_by c.left

/-- The scalar between the quotes at a cursor. -/
def quotedScalar (quote : Char) (c : Cursor) : Scanned RawText :=
  quotedFrom quote [] c.next

/-! ## Plain scalars -/

/-- The marks of flow collections. -/
def flowMarks : List Char := [',', '[', ']', '\x7b', '\x7d']

/-- Whether a plain scalar stops before the first of some characters. -/
def endsPlain (inFlow : Bool) (c : Char) (next : Option Char) : Bool :=
  endsToken (some c)
    || (c = ':' && (endsToken next || (inFlow && next.any flowMarks.contains)))
    || (inFlow && (c = '?' || flowMarks.contains c))

/-- The characters of a plain scalar up to white space or its end. -/
def plainWord (inFlow : Bool) : List Char → List Char
  | [] => []
  | c :: cs => if endsPlain inFlow c cs.head? then [] else c :: plainWord inFlow cs

/-- The line breaks from a cursor on, after the reversed ones `taken`, behind a first break;
`none` before a mark of a document. -/
def plainBreaks (taken : List Char) (c : Cursor) : Option (List Char) × Cursor :=
  let c' := c.skipWhile isSpace
  let (mark, after) := c'.lineBreak
  if mark.isEmpty then (some taken.reverse, c')
  else if after.atDocumentMark then (none, after)
  else if after.left < c.left then plainBreaks (mark.reverseAux taken) after
  else (none, after)
termination_by c.left

/-- The white space behind a word of a plain scalar as it would be read, the cursor behind it,
and whether it breaks the line. -/
def plainGap (c : Cursor) : Option (List Char) × Cursor × Bool :=
  let (blanks, after) := c.span isSpace
  let (mark, behind) := after.lineBreak
  if mark.isEmpty then (some blanks, after, false)
  else if behind.atDocumentMark then (none, behind, true)
  else match plainBreaks [] behind with
    | (none, c) => (none, c, true)
    | (some more, c) => (some (foldBreaks mark more), c, true)

/-- A plain scalar that stops, from its reversed text. -/
def plainStop (taken : List Char) (c : Cursor) (broken : Bool) : String × Cursor × Bool :=
  (String.ofList taken.reverse, c, broken)

/-- A plain scalar read on: `gap` is the white space before the cursor, `least` the least
column of a further line, and `broken` tells whether the last gap broke the line. -/
def plainFrom (inFlow : Bool) (least : Int) (taken gap : List Char) (broken : Bool)
    (c : Cursor) : String × Cursor × Bool :=
  if c.peek = some '#' then plainStop taken c broken
  else
    let word := plainWord inFlow c.rest
    if word.isEmpty then plainStop taken c broken
    else
      let taken := word.reverseAux (gap.reverseAux taken)
      let behind := c.skip word.length
      match plainGap behind with
      | (none, after, broken) => plainStop taken after broken
      | (some gap, after, broken) =>
        if gap.isEmpty || after.peek = some '#' || (!inFlow && (after.column : Int) < least) then
          plainStop taken after broken
        else if after.left < c.left then plainFrom inFlow least taken gap broken after
        else plainStop taken after broken
termination_by c.left

/-- The plain scalar at a cursor, the cursor behind it and behind the white space that
follows, and whether a line break is behind it. -/
def plainScalar (inFlow : Bool) (indent : Int) (c : Cursor) : String × Cursor × Bool :=
  plainFrom inFlow (indent + 1) [] [] false c

/-! ## Block scalars -/

/-- What becomes of the breaks at the end of a block: only the first is kept, all are, or
none is. -/
inductive Chomping where
  | clip
  | keep
  | strip
  deriving DecidableEq

/-- The chomping that a sign asks for. -/
def chomping? : Option Char → Option Chomping
  | some '+' => some .keep
  | some '-' => some .strip
  | _ => none

/-- The indentation that a digit asks for. -/
def increment? (c : Option Char) : Option Nat :=
  c.bind (Text.digitValue? 10)

/-- The header of a block behind its mark: chomping and indentation, in either order. -/
def blockHeader (c : Cursor) : Except Trouble (Chomping × Option Nat × Cursor) :=
  let (chomping, c) := match chomping? c.peek with
    | some chomping => (some chomping, c.next)
    | none => (none, c)
  let (increment, c) := match increment? c.peek with
    | some n => (some n, c.next)
    | none => (none, c)
  let (chomping, c) := match chomping, increment, chomping? c.peek with
    | none, some _, some chomping => (some chomping, c.next)
    | chomping, _, _ => (chomping, c)
  if increment = some 0 || !endsName c.peek then .error .malformed
  else
    let c := (c.skipWhile isSpace).skipComment
    if endsLine c.peek then .ok (chomping.getD .clip, increment, c.lineBreak.2)
    else .error .malformed

/-- The empty lines at a cursor, after the reversed ones `taken`, and the greatest column that
their spaces and those behind them reach. -/
def emptyLines (taken : List Char) (widest : Nat) (c : Cursor) : List Char × Nat × Cursor :=
  let c' := c.skipWhile isSpace
  let widest := max widest c'.column
  let (mark, after) := c'.lineBreak
  if mark.isEmpty then (taken.reverse, widest, c')
  else if after.left < c.left then emptyLines (mark.reverseAux taken) widest after
  else (taken.reverse, widest, c')
termination_by c.left

/-- The cursor behind the spaces up to a column. -/
def skipIndent (indent : Nat) (c : Cursor) : Cursor :=
  c.skip ((c.rest.takeWhile isSpace).take (indent - c.column)).length

/-- The empty lines at a cursor inside a block of a known indentation, after the reversed ones
`taken`. -/
def blockBreaks (indent : Nat) (taken : List Char) (c : Cursor) : List Char × Cursor :=
  let c' := skipIndent indent c
  let (mark, after) := c'.lineBreak
  if mark.isEmpty then (taken.reverse, c')
  else if after.left < c.left then blockBreaks indent (mark.reverseAux taken) after
  else (taken.reverse, c')
termination_by c.left

/-- The lines of a block read on, after the reversed text read so far; `breaks` are the empty
lines before the cursor. -/
def blockLines (folded : Bool) (chomping : Chomping) (indent : Nat) (taken breaks : List Char)
    (c : Cursor) : String × Cursor :=
  let finish (taken lineBreak breaks : List Char) (c : Cursor) : String × Cursor :=
    let taken := if chomping = .strip then taken else lineBreak.reverseAux taken
    let taken := if chomping = .keep then breaks.reverseAux taken else taken
    (String.ofList taken.reverse, c)
  if c.column ≠ indent || c.rest.isEmpty then finish taken [] breaks c
  else
    let flush := !c.peek.any isSpaceOrTab
    let (line, behind) := c.span (!isBreak ·)
    let taken := line.reverseAux (breaks.reverseAux taken)
    let (mark, after) := behind.lineBreak
    let (breaks, after) := blockBreaks indent [] after
    if after.column ≠ indent || after.rest.isEmpty then finish taken mark breaks after
    else
      let joined :=
        if folded && mark = ['\n'] && flush && !after.peek.any isSpaceOrTab then
          if breaks.isEmpty then [' '] else []
        else mark
      if after.left < c.left then
        blockLines folded chomping indent (joined.reverseAux taken) breaks after
      else finish taken mark breaks after
termination_by c.left

/-- The block scalar at a cursor, below a block of the given indentation. -/
def blockScalar (folded : Bool) (indent : Int) (c : Cursor) : Scanned String :=
  match blockHeader c.next with
  | .error trouble => .error trouble
  | .ok (chomping, increment, c) =>
    let least := (max (indent + 1) 1).toNat
    match increment with
    | some n =>
      let indent := least + n - 1
      let (breaks, c) := blockBreaks indent [] c
      .ok (blockLines folded chomping indent [] breaks c)
    | none =>
      let (breaks, widest, c) := emptyLines [] 0 c
      .ok (blockLines folded chomping (max least widest) [] breaks c)

end OfflineSupply.Yaml
