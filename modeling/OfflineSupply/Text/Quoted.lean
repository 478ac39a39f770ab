import OfflineSupply.Text.Digit
import OfflineSupply.Text.Printable
import OfflineSupply.Text.Raw

/-!
# Quoted texts

A text inside a larger message is quoted: single quotes around it, or double quotes when the
text holds single quotes only.  Inside, the quote in use and the backslash follow a backslash,
three breaks have letters of their own, and a code point that is not printable is written by
its number in two, four or eight digits of base sixteen.
-/

namespace OfflineSupply.Text

/-- The quote that surrounds a text. -/
def quoteFor (cs : List Char) : Char :=
  if cs.contains '\x27' && !cs.contains '\x22' then '\x22' else '\x27'

/-- The written form of a code point that is not shown as a character. -/
def hexEscape (n : Nat) : List Char :=
  if n < 0x100 then '\\' :: 'x' :: hexDigits 2 n
  else if n < 0x10000 then '\\' :: 'u' :: hexDigits 4 n
  else '\\' :: 'U' :: hexDigits 8 n

/-- The written form of a character between two quotes. -/
def quotedChar (quote c : Char) : List Char :=
  if c = quote || c = '\\' then ['\\', c]
  else if c = '\n' then ['\\', 'n']
  else if c = '\r' then ['\\', 'r']
  else if c = '\t' then ['\\', 't']
  else if isPrintable c then [c]
  else hexEscape c.toNat

/-- A text between quotes. -/
def quoted (text : String) : String :=
  let cs := text.toList
  let quote := quoteFor cs
  String.ofList (quote :: cs.flatMap (quotedChar quote) ++ [quote])

/-- The written form of a code point between two quotes. -/
def quotedPoint (quote : Char) (p : CodePoint) : List Char :=
  match p with
  | .char c => quotedChar quote c
  | .half _ => hexEscape p.toNat

/-- A raw text between quotes. -/
def quotedRaw (text : RawText) : String :=
  let quote := quoteFor text.chars
  String.ofList (quote :: text.points.flatMap (quotedPoint quote) ++ [quote])

/-- The written form of an octet between two quotes: only ASCII is shown as characters. -/
def quotedOctet (quote : Char) (b : UInt8) : List Char :=
  let c := Char.ofNat b.toNat
  if c = quote || c = '\\' then ['\\', c]
  else if c = '\n' then ['\\', 'n']
  else if c = '\r' then ['\\', 'r']
  else if c = '\t' then ['\\', 't']
  else if 0x20 ≤ b.toNat && b.toNat < 0x7F then [c]
  else '\\' :: 'x' :: hexDigits 2 b.toNat

/-- Octets between quotes, marked by the letter `b`. -/
def quotedOctets (octets : List UInt8) : String :=
  let quote := quoteFor (octets.map fun b => Char.ofNat b.toNat)
  String.ofList ('b' :: quote :: octets.flatMap (quotedOctet quote) ++ [quote])

end OfflineSupply.Text
