import OfflineSupply.Json.Basic
import OfflineSupply.Number.Shortest
import OfflineSupply.Text.Digit

/-!
# Writing JSON

A document is written in ASCII: every other code point by its number in base sixteen, one above
`U+FFFF` by its two halves.  It stands on one line, or each item and member
stands on a line of its own, indented by its depth.  An empty list and an empty object have
nothing between their brackets.
-/

namespace OfflineSupply.Json

/-- The escaped form of a code below `0x10000`. -/
def codeEscape (n : Nat) : List Char :=
  '\\' :: 'u' :: Text.hexDigits 4 n

/-- A character as it is written between two double quotes. -/
def writeChar (c : Char) : List Char :=
  match c with
  | '\x22' => ['\\', '\x22']
  | '\\' => ['\\', '\\']
  | '\n' => ['\\', 'n']
  | '\r' => ['\\', 'r']
  | '\t' => ['\\', 't']
  | '\x08' => ['\\', 'b']
  | '\x0c' => ['\\', 'f']
  | _ =>
    let n := c.toNat
    if 0x20 ≤ n && n < 0x7F then [c]
    else if n < 0x10000 then codeEscape n
    else
      let m := n - 0x10000
      codeEscape (0xD800 + m / 0x400) ++ codeEscape (0xDC00 + m % 0x400)

/-- A code point as it is written between two double quotes. -/
def writePoint (p : CodePoint) : List Char :=
  match p with
  | .char c => writeChar c
  | .half _ => codeEscape p.toNat

/-- A text between double quotes. -/
def writeText (text : RawText) : List Char :=
  '\x22' :: text.points.flatMap writePoint ++ ['\x22']

/-- Whether a document stands on one line, or how deep each level is indented. -/
inductive Spread where
  | oneLine
  | indented (width : Nat)

/-- What stands before the first item of a level and after its last one. -/
def Spread.edge : Spread → Nat → List Char
  | oneLine, _ => []
  | indented width, level => '\n' :: List.replicate (width * level) ' '

/-- What stands between two items of a level. -/
def Spread.between : Spread → Nat → List Char
  | oneLine, _ => [',', ' ']
  | indented width, level => ',' :: '\n' :: List.replicate (width * level) ' '

/-- The spellings of the doubles that are no decimals. -/
def doubleLayout : Double.Layout :=
  { Double.layout with infinity := "Infinity", none := "NaN" }

mutual

/-- A document at a level. -/
def write (spread : Spread) (level : Nat) : Json → List Char
  | null => "null".toList
  | bool b => (if b then "true" else "false").toList
  | integer n => (Text.signedDecimal n).toList
  | double d => (d.text doubleLayout).toList
  | string s => writeText s
  | array [] => ['[', ']']
  | array (item :: items) =>
    '[' :: spread.edge (level + 1) ++ write spread (level + 1) item ++
      writeItems spread (level + 1) items ++ spread.edge level ++ [']']
  | object [] => ['\x7b', '\x7d']
  | object ((name, member) :: members) =>
    '\x7b' :: spread.edge (level + 1) ++ writeText name ++ ':' :: ' ' ::
      write spread (level + 1) member ++
      writeMembers spread (level + 1) members ++ spread.edge level ++ ['\x7d']

/-- The further items of a list. -/
def writeItems (spread : Spread) (level : Nat) : List Json → List Char
  | [] => []
  | item :: items =>
    spread.between level ++ write spread level item ++ writeItems spread level items

/-- The further members of an object. -/
def writeMembers (spread : Spread) (level : Nat) : List (RawText × Json) → List Char
  | [] => []
  | (name, member) :: members =>
    spread.between level ++ writeText name ++ ':' :: ' ' :: write spread level member ++
      writeMembers spread level members

end

/-- A document as a text. -/
def render (spread : Spread) (doc : Json) : String :=
  String.ofList (write spread 0 doc)

end OfflineSupply.Json
