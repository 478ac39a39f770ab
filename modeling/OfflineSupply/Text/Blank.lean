/-!
# White space

The white space of Unicode, with the four separators `U+001C` to `U+001F` and the next-line
control, and the trimming of a text at both ends.  Zero-width characters are not white space.
-/

namespace OfflineSupply.Text

/-- White space characters above the ASCII range. -/
def wideBlanks : List Nat :=
  [0x85, 0xA0, 0x1680, 0x2000, 0x2001, 0x2002, 0x2003, 0x2004, 0x2005, 0x2006, 0x2007, 0x2008,
   0x2009, 0x200A, 0x2028, 0x2029, 0x202F, 0x205F, 0x3000]

/-- White space: tab to carriage return, the separators before the space, the space itself,
and the wide blanks. -/
def isBlank (c : Char) : Bool :=
  let n := c.toNat
  (0x09 ≤ n && n ≤ 0x0D) || (0x1C ≤ n && n ≤ 0x20) || wideBlanks.contains n

/-- The text without the white space at its ends. -/
def trim (cs : List Char) : List Char :=
  ((cs.dropWhile isBlank).reverse.dropWhile isBlank).reverse

/-- Whether a text holds nothing but white space. -/
def allBlank (cs : List Char) : Bool :=
  cs.all isBlank

end OfflineSupply.Text
