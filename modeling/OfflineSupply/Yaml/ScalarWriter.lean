import OfflineSupply.Text.Digit
import OfflineSupply.Yaml.Cursor
import OfflineSupply.Yaml.Tag

/-!
# Writing scalars

A text is written plain when it reads back as itself that way, and else between quotes:
single ones while all its characters can be shown and no blank touches a line break, double
ones with escapes otherwise.  Between words a line that has become longer than its width is
broken.
-/

namespace OfflineSupply.Yaml

/-- The width of a line. -/
def lineWidth : Nat := 80

/-- The indentation of a line that goes on with a scalar. -/
def continuation : Nat := 2

/-- Text written so far, in reverse, with the column it ends in. -/
structure Pen where
  written : List Char := []
  column : Nat := 0

namespace Pen

/-- The pen behind more text. -/
def write (p : Pen) (cs : List Char) : Pen :=
  { written := cs.reverseAux p.written, column := p.column + cs.length }

/-- Breaks the line. -/
def breakLine (p : Pen) : Pen :=
  { written := '\n' :: p.written, column := 0 }

/-- Goes to the continuation column, of a new line unless the present one is empty. -/
def indent (p : Pen) : Pen :=
  (if p.column = 0 then p else p.breakLine).write (List.replicate continuation ' ')

end Pen

/-! ## Which style is possible -/

/-- Whether a character can be shown outside double quotes. -/
def isShown (c : Char) : Bool :=
  c = '\n' || (0x20 ≤ c.toNat && c.toNat ≤ 0x7E)

/-- The characters that a plain scalar cannot begin with. -/
def openingMarks : List Char :=
  ['#', ',', '[', ']', '\x7b', '\x7d', '&', '*', '!', '|', '>', '\x27', '\x22', '%', '@', '\x60']

/-- Whether the first of some characters, after another one, would be read as a mark inside a
plain scalar. -/
def marksInside : Option Char → List Char → Bool
  | _, [] => false
  | before, c :: cs =>
    (c = ':' && endsToken cs.head?) || (c = '#' && endsToken before)
      || marksInside (some c) cs

/-- Whether the beginning of a text would be read as a mark. -/
def marksFirst (cs : List Char) : Bool :=
  match cs with
  | [] => false
  | c :: rest =>
    openingMarks.contains c || ((c = '?' || c = ':' || c = '-') && endsToken rest.head?)
      || ("---".toList).isPrefixOf cs || ("...".toList).isPrefixOf cs
      || marksInside (some c) rest

/-- Whether one of two characters directly follows the other somewhere. -/
def hasPair (first second : Char) : List Char → Bool
  | a :: b :: cs => (a = first && b = second) || hasPair first second (b :: cs)
  | _ => false

/-- Whether a character is a space or a line feed. -/
def isSpaceOrFeed (c : Char) : Bool := c = ' ' || c = '\n'

/-- Whether a text can be written plain. -/
def canBePlain (cs : List Char) : Bool :=
  Tag.ofPlain (String.ofList cs) = .text && cs.all isShown && !cs.contains '\n'
    && !cs.head?.any isSpaceOrFeed && !cs.getLast?.any isSpaceOrFeed && !marksFirst cs

/-- Whether a text can be written between single quotes. -/
def canBeSingle (cs : List Char) : Bool :=
  cs.all isShown && !hasPair ' ' '\n' cs && !hasPair '\n' ' ' cs

/-! ## Plain and single quoted scalars -/

/-- The words, runs of spaces and runs of line breaks of a text, one after the other. -/
def runs : List Char → List (List Char)
  | [] => []
  | c :: cs =>
    let kind (c : Char) : Nat := if c = ' ' then 0 else if c = '\n' then 1 else 2
    match runs cs with
    | (d :: run) :: rest =>
      if kind c = kind d then (c :: d :: run) :: rest else [c] :: (d :: run) :: rest
    | rest => [c] :: rest

/-- A word between single quotes, where a quote is written twice. -/
def singleWord (cs : List Char) : List Char :=
  cs.flatMap fun c => if c = '\x27' then ['\x27', '\x27'] else [c]

/-- The runs of a scalar written one after the other.  A single space breaks a line that is
too long, but between quotes only inside the text; a run of line breaks begins with one more
than it has. -/
def writeRuns (quoted : Bool) (first : Bool) (p : Pen) : List (List Char) → Pen
  | [] => p
  | run :: rest =>
    let p := match run with
      | [' '] =>
        let inside := !quoted || (!first && !rest.isEmpty)
        if inside && lineWidth < p.column then p.indent else p.write run
      | '\n' :: _ => (run.foldl (fun p _ => p.breakLine) p.breakLine).indent
      | _ => p.write (if quoted then singleWord run else run)
    writeRuns quoted false p rest

/-! ## Double quoted scalars -/

/-- The letters that stand for characters behind a backslash. -/
def escapeLetters : List (Char × Char) :=
  [('\x00', '0'), ('\x07', 'a'), ('\x08', 'b'), ('\t', 't'), ('\n', 'n'), ('\x0b', 'v'),
   ('\x0c', 'f'), ('\r', 'r'), ('\x1b', 'e'), ('\x22', '\x22'), ('\\', '\\'), ('\x85', 'N'),
   ('\xa0', '_'), ('\u2028', 'L'), ('\u2029', 'P')]

/-- Whether a character stands for itself between double quotes. -/
def isDoublePlain (c : Char) : Bool :=
  0x20 ≤ c.toNat && c.toNat ≤ 0x7E && c ≠ '\x22' && c ≠ '\\'

/-- A character's escape, with upper case digits. -/
def escaped (c : Char) : List Char :=
  match escapeLetters.lookup c with
  | some letter => ['\\', letter]
  | none =>
    let n := c.toNat
    let digits (width : Nat) := (Text.hexDigits width n).map Char.toUpper
    if n ≤ 0xFF then '\\' :: 'x' :: digits 2
    else if n ≤ 0xFFFF then '\\' :: 'u' :: digits 4
    else '\\' :: 'U' :: digits 8

/-- A text between double quotes, written on: `held` are the last characters in reverse, which
stand for themselves and are not yet written, and `first` tells whether the next character is
the first.  A line that is too long is broken before a space or next to an escape, but not
before the last character. -/
def writeDouble (held : List Char) (first : Bool) (p : Pen) : List Char → Pen
  | [] => p.write held.reverse
  | c :: cs =>
    let breaks (tooLong : Bool) : Bool := !first && !cs.isEmpty && tooLong
    let broken (p : Pen) (next : Option Char) : Pen :=
      let p := (p.write ['\\']).indent
      if next = some ' ' then p.write ['\\'] else p
    if isDoublePlain c then
      let canBreak := c = ' ' || held.isEmpty
      if breaks (canBreak && lineWidth < p.column + held.length) then
        writeDouble [c] false (broken (p.write held.reverse) (some c)) cs
      else writeDouble (c :: held) false p cs
    else
      let p := (p.write held.reverse).write (escaped c)
      let p := if breaks (lineWidth + 1 < p.column) then broken p cs.head? else p
      writeDouble [] false p cs

/-! ## Scalars -/

/-- A text as a scalar behind a mark that ends in some column, with the space before it. -/
def writeScalar (column : Nat) (text : String) : List Char :=
  let cs := text.toList
  let p : Pen := ({ column } : Pen).write [' ']
  let p :=
    if canBePlain cs then writeRuns false true p (runs cs)
    else if canBeSingle cs then
      (writeRuns true true (p.write ['\x27']) (runs cs)).write ['\x27']
    else (writeDouble [] true (p.write ['\x22']) cs).write ['\x22']
  p.written.reverse

end OfflineSupply.Yaml
