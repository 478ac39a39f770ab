/-!
# Cursors

A cursor stands before the rest of a text and knows its length, the line and the column.  Five
characters break a line; a carriage return before a line feed does not.  A byte order mark
takes no column.
-/

namespace OfflineSupply.Yaml

/-- The characters that break a line. -/
def isBreak (c : Char) : Bool :=
  c = '\n' || c = '\r' || c = '\x85' || c = '\u2028' || c = '\u2029'

/-- Whether a character is a space. -/
def isSpace (c : Char) : Bool := c = ' '

/-- Whether a character is a space or a tab. -/
def isSpaceOrTab (c : Char) : Bool := c = ' ' || c = '\t'

/-- Whether a token ends before this: white space or the end of the text. -/
def endsToken : Option Char → Bool
  | none => true
  | some c => isSpaceOrTab c || isBreak c

/-- Whether a directive, a tag or an anchor ends before this: a tab does not end it. -/
def endsName : Option Char → Bool
  | none => true
  | some c => isSpace c || isBreak c

/-- Whether a line ends before this. -/
def endsLine : Option Char → Bool
  | none => true
  | some c => isBreak c

/-- Letters, digits, hyphens and underscores of ASCII. -/
def isNameChar (c : Char) : Bool :=
  c.isAlphanum || c = '-' || c = '_'

/-- A place in a text. -/
structure Cursor where
  rest : List Char
  /-- The length of the rest, kept so that it need not be counted. -/
  left : Nat
  line : Nat := 0
  column : Nat := 0

namespace Cursor

/-- The cursor at the beginning of a text. -/
def start (text : List Char) : Cursor :=
  { rest := text, left := text.length }

/-- The next character. -/
def peek (c : Cursor) : Option Char :=
  c.rest.head?

/-- The character after some others. -/
def peekAt (c : Cursor) (n : Nat) : Option Char :=
  c.rest[n]?

/-- The cursor behind the next character. -/
def next (c : Cursor) : Cursor :=
  match c.rest with
  | [] => c
  | ch :: rest =>
    if isBreak ch && !(ch = '\r' && rest.head? = some '\n') then
      { rest, left := c.left - 1, line := c.line + 1, column := 0 }
    else
      { rest, left := c.left - 1, line := c.line
        column := if ch = '\uFEFF' then c.column else c.column + 1 }

/-- The cursor behind some characters. -/
def skip (c : Cursor) : Nat → Cursor
  | 0 => c
  | n + 1 => c.next.skip n

/-- The next characters of a class, and the cursor behind them. -/
def span (c : Cursor) (p : Char → Bool) : List Char × Cursor :=
  let taken := c.rest.takeWhile p
  (taken, c.skip taken.length)

/-- The cursor behind the next characters of a class. -/
def skipWhile (c : Cursor) (p : Char → Bool) : Cursor :=
  (c.span p).2

/-- What a line break reads as, and the cursor behind it; nothing where there is none.  The two
separators of Unicode are kept, and every other break is a line feed. -/
def lineBreak (c : Cursor) : List Char × Cursor :=
  match c.rest with
  | '\r' :: '\n' :: _ => (['\n'], c.skip 2)
  | ch :: _ =>
    if ch = '\u2028' || ch = '\u2029' then ([ch], c.next)
    else if isBreak ch then (['\n'], c.next)
    else ([], c)
  | [] => ([], c)

/-- The cursor behind a comment, if it stands before one. -/
def skipComment (c : Cursor) : Cursor :=
  if c.peek = some '#' then c.skipWhile (!isBreak ·) else c

/-- Whether the cursor stands before one of the marks that begin or end a document, which
three equal characters and white space make. -/
def atMark (c : Cursor) (ch : Char) : Bool :=
  c.column = 0 && c.rest.take 3 == [ch, ch, ch] && endsToken (c.peekAt 3)

/-- Whether the cursor stands before either mark of a document. -/
def atDocumentMark (c : Cursor) : Bool :=
  c.atMark '-' || c.atMark '.'

end Cursor

end OfflineSupply.Yaml
