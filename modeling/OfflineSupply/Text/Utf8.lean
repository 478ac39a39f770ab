/-!
# Octets and text

A file holds octets; its text is their UTF-8 reading.  The strict reading refuses what is not
UTF-8.  The lenient one, for showing files, puts one replacement character for the longest
start of a character that the octets break off, and one for an octet that starts none.
-/

namespace OfflineSupply.Text

/-- The text that octets spell, when they are UTF-8. -/
def strictText? (octets : ByteArray) : Option String :=
  String.fromUTF8? octets

/-- What a first octet announces: how many octets follow, and the least and the greatest value
of the next one. -/
def announced (b : Nat) : Option (Nat × Nat × Nat) :=
  if 0xC2 ≤ b && b ≤ 0xDF then some (1, 0x80, 0xBF)
  else if b = 0xE0 then some (2, 0xA0, 0xBF)
  else if b = 0xED then some (2, 0x80, 0x9F)
  else if 0xE1 ≤ b && b ≤ 0xEF then some (2, 0x80, 0xBF)
  else if b = 0xF0 then some (3, 0x90, 0xBF)
  else if 0xF1 ≤ b && b ≤ 0xF3 then some (3, 0x80, 0xBF)
  else if b = 0xF4 then some (3, 0x80, 0x8F)
  else none

/-- The bits that a first octet contributes when `owed` octets follow it. -/
def leadBits (b owed : Nat) : Nat :=
  match owed with
  | 1 => b % 0x20
  | 2 => b % 0x10
  | _ => b % 0x08

/-- The lenient reading inside a character: `owed` octets are due, the next one between `low`
and `high`, and `bits` is what has been read of the code point; with nothing due, the reading
between two characters. -/
def lenient : Nat → Nat → Nat → Nat → List Nat → List Char
  | 0, _, _, _, [] => []
  | _ + 1, _, _, _, [] => ['\uFFFD']
  | 0, _, _, _, b :: bs =>
    if b < 0x80 then Char.ofNat b :: lenient 0 0 0 0 bs
    else match announced b with
      | none => '\uFFFD' :: lenient 0 0 0 0 bs
      | some (owed, low, high) => lenient owed low high (leadBits b owed) bs
  | owed + 1, low, high, bits, b :: bs =>
    if low ≤ b && b ≤ high then
      let bits := bits * 0x40 + b % 0x40
      if owed = 0 then Char.ofNat bits :: lenient 0 0 0 0 bs
      else lenient owed 0x80 0xBF bits bs
    else '\uFFFD' ::
      if b < 0x80 then Char.ofNat b :: lenient 0 0 0 0 bs
      else match announced b with
        | none => '\uFFFD' :: lenient 0 0 0 0 bs
        | some (owed, low, high) => lenient owed low high (leadBits b owed) bs

/-- The text that octets spell, with replacement characters for what is not UTF-8. -/
def lenientText (octets : ByteArray) : String :=
  match strictText? octets with
  | some text => text
  | none => String.ofList (lenient 0 0 0 0 (octets.toList.map UInt8.toNat))

theorem strictText?_toUTF8 (text : String) : strictText? text.toUTF8 = some text := by
  unfold strictText? String.fromUTF8?
  exact dif_pos text.isValidUTF8

end OfflineSupply.Text
