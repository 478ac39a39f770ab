/-!
# Lines

A text falls into lines at each of ten line breaks; a carriage return followed by a line
feed is one break.  A break at the end of the text opens no further line.
-/

namespace OfflineSupply.Text

/-- The characters that end a line. -/
def lineBreaks : List Nat :=
  [0x0A, 0x0B, 0x0C, 0x0D, 0x1C, 0x1D, 0x1E, 0x85, 0x2028, 0x2029]

/-- Whether a character ends a line. -/
def isLineBreak (c : Char) : Bool :=
  lineBreaks.contains c.toNat

/-- The lines of a text whose first line has begun with the reversed characters `start`. -/
def linesFrom (start : List Char) : List Char → List (List Char)
  | [] => if start.isEmpty then [] else [start.reverse]
  | '\r' :: '\n' :: cs => start.reverse :: linesFrom [] cs
  | c :: cs =>
    if isLineBreak c then start.reverse :: linesFrom [] cs else linesFrom (c :: start) cs

/-- The lines of a text, without their breaks. -/
def lines (cs : List Char) : List (List Char) :=
  linesFrom [] cs

/-- The lines of a text as texts. -/
def linesOf (text : String) : List String :=
  (lines text.toList).map String.ofList

/-- A text with each carriage return, followed by a line feed or alone, made a line feed. -/
def unifyBreaks : List Char → List Char
  | [] => []
  | '\r' :: '\n' :: cs => '\n' :: unifyBreaks cs
  | c :: cs => (if c = '\r' then '\n' else c) :: unifyBreaks cs

end OfflineSupply.Text
