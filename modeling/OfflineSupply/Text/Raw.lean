/-!
# Raw texts

An escape can write half a code point, so what is loaded from an escaped text is a raw one: its
code points are characters and halves.  A text is a raw text without halves.  Where a text is
needed, a first half before a second one is joined with it, and any other half is replaced.
-/

namespace OfflineSupply

/-- A code point of a raw text: a character, or half a code point, numbered from the first
one. -/
inductive CodePoint where
  | char (c : Char)
  | half (index : Fin 0x800)
  deriving DecidableEq, Repr, Inhabited

namespace CodePoint

/-- The code of the first half. -/
def firstHalf : Nat := 0xD800

/-- How many halves are first ones; the others are second ones. -/
def pairSize : Nat := 0x400

/-- The number of a code point. -/
def toNat : CodePoint → Nat
  | char c => c.toNat
  | half index => firstHalf + index

/-- The code point of a number below `0x110000`. -/
def ofNat (n : Nat) : CodePoint :=
  if n.isValidChar then char (Char.ofNat n) else half (Fin.ofNat 0x800 (n - firstHalf))

/-- Whether a code point is a half that may come first in a pair. -/
def isFirstHalf : CodePoint → Bool
  | half index => index < pairSize
  | char _ => false

/-- The character that two code points make as halves. -/
def join? : CodePoint → CodePoint → Option Char
  | half first, half second =>
    if first < pairSize && pairSize ≤ second then
      some (Char.ofNat (0x10000 + first * pairSize + (second - pairSize)))
    else none
  | _, _ => none

/-- The character that a code point is shown as. -/
def shown : CodePoint → Char
  | char c => c
  | half _ => '\uFFFD'

end CodePoint

/-- A text of which code points may be halves. -/
structure RawText where
  points : List CodePoint
  deriving DecidableEq, Repr, Inhabited

namespace RawText

/-- The raw text of some characters. -/
def ofChars (cs : List Char) : RawText :=
  { points := cs.map .char }

/-- The raw text of a text. -/
def ofString (text : String) : RawText :=
  ofChars text.toList

/-- Some code points, with every first half before a second one joined with it. -/
def joinHalves : List CodePoint → List CodePoint
  | [] => []
  | [p] => [p]
  | p :: q :: rest =>
    match p.join? q with
    | some c => .char c :: joinHalves rest
    | none => p :: joinHalves (q :: rest)

/-- A raw text with every first half before a second one joined with it. -/
def joined (t : RawText) : RawText :=
  { points := joinHalves t.points }

/-- The characters of a raw text, with halves joined or replaced. -/
def chars (t : RawText) : List Char :=
  t.joined.points.map CodePoint.shown

/-- A raw text as a text, with halves joined or replaced. -/
def text (t : RawText) : String :=
  String.ofList t.chars

/-- Whether nothing is in a raw text. -/
def isEmpty (t : RawText) : Bool :=
  t.points.isEmpty

@[simp]
theorem joined_ofChars (cs : List Char) : (ofChars cs).joined = ofChars cs := by
  simp only [ofChars, joined, RawText.mk.injEq]
  induction cs with
  | nil => rfl
  | cons c cs ih =>
    cases cs with
    | nil => rfl
    | cons d cs => simpa [joinHalves, CodePoint.join?] using ih

@[simp]
theorem chars_ofChars (cs : List Char) : (ofChars cs).chars = cs := by
  have hshown : CodePoint.shown ∘ CodePoint.char = id := rfl
  rw [chars, joined_ofChars, ofChars, List.map_map, hshown, List.map_id]

@[simp]
theorem text_ofString (text : String) : (ofString text).text = text := by
  rw [RawText.text, ofString, chars_ofChars, String.ofList_toList]

end RawText

/-- The texts that can be kept as raw ones. -/
class ToRawText (α : Type) where
  raw : α → RawText

instance : ToRawText RawText := ⟨id⟩

instance : ToRawText String := ⟨RawText.ofString⟩

end OfflineSupply
