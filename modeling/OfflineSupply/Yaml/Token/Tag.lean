import OfflineSupply.Text.Utf8
import OfflineSupply.Yaml.Token.Scalar

/-!
# Names in a stream

Anchors, aliases, tags and directives have names.  A tag has a handle between exclamation
marks, or none, and a suffix in which octets may be escaped.
-/

namespace OfflineSupply.Yaml

/-- The punctuation that a tag may hold. -/
def addressMarks : List Char :=
  ['-', ';', '/', '?', ':', '@', '&', '=', '+', '$', ',', '_', '.', '!', '~', '*', '\x27', '(',
   ')', '[', ']', '%']

/-- Whether an anchor may end before this. -/
def endsAnchor : Option Char → Bool
  | none => true
  | some c =>
    endsToken (some c) || ['?', ':', ',', ']', '\x7d', '%', '@', '\x60'].contains c

/-- The name of an anchor or an alias, from its mark on. -/
def anchorName (c : Cursor) : Scanned String :=
  let (name, after) := c.next.span isNameChar
  if name.isEmpty || !endsAnchor after.peek then .error .malformed
  else .ok (String.ofList name, after)

/-- The octets that escapes at a cursor stand for. -/
def escapedOctets (taken : List UInt8) (c : Cursor) : Scanned (List UInt8) :=
  match c.rest with
  | '%' :: a :: b :: _ =>
    if Text.isHexDigit a && Text.isHexDigit b then
      let octet := UInt8.ofNat (Text.digitsValue 16 [a, b])
      if (c.skip 3).left < c.left then
        escapedOctets (taken ++ [octet]) (c.skip 3)
      else .error .malformed
    else .error .malformed
  | '%' :: _ => .error .malformed
  | _ => .ok (taken, c)
termination_by c.left

/-- A tag's suffix or lead read on.  Escaped octets are UTF-8. -/
def addressFrom (taken : List Char) (c : Cursor) : Scanned String :=
  let (plain, behind) := c.span fun ch =>
    (ch.isAlphanum || addressMarks.contains ch) && ch ≠ '%'
  let taken := plain.reverseAux taken
  if behind.peek = some '%' then
    match escapedOctets [] behind with
    | .error trouble => .error trouble
    | .ok (octets, after) =>
      match Text.strictText? ⟨octets.toArray⟩ with
      | none => .error .malformed
      | some text =>
        if after.left < c.left then
          addressFrom (text.toList.reverseAux taken) after
        else .error .malformed
  else if taken.isEmpty then .error .malformed
  else .ok (String.ofList taken.reverse, behind)
termination_by c.left

/-- A tag's suffix, or what a handle is short for: at least one character. -/
def address (c : Cursor) : Except Trouble (String × Cursor) :=
  addressFrom [] c

/-- The handle of a tag: one exclamation mark, or two with a name between them. -/
def tagHandle (c : Cursor) : Except Trouble (String × Cursor) :=
  if c.peek ≠ some '!' then .error .malformed
  else if c.peekAt 1 = some ' ' then .ok ("!", c.next)
  else
    let (name, after) := c.next.span isNameChar
    if after.peek = some '!' then .ok ("!" ++ String.ofList name ++ "!", after.next)
    else .error .malformed

/-- A tag, from its exclamation mark on: handle and suffix. -/
def tagAt (c : Cursor) : Scanned Token :=
  let second := c.peekAt 1
  let found : Scanned Token :=
    if second = some '<' then
      match address (c.skip 2) with
      | .error trouble => .error trouble
      | .ok (suffix, after) =>
        if after.peek = some '>' then .ok (.tag none suffix, after.next) else .error .malformed
    else if endsToken second then .ok (.tag none "!", c.next)
    else
      let word := c.next.rest.takeWhile fun ch => !endsName (some ch)
      let handle : Scanned String := if word.contains '!' then tagHandle c else .ok ("!", c.next)
      match handle with
      | .error trouble => .error trouble
      | .ok (handle, after) =>
        (address after).map fun (suffix, behind) => (.tag (some handle) suffix, behind)
  match found with
  | .error trouble => .error trouble
  | .ok (tag, after) => if endsName after.peek then .ok (tag, after) else .error .malformed

/-! ## Directives -/

/-- A whole number in a directive. -/
def directiveNumber (c : Cursor) : Except Trouble (Nat × Cursor) :=
  let (digits, after) := c.span Text.isDigit
  if digits.isEmpty then .error .malformed
  else if Scalar.decimalLimit < digits.length then .error (.breakdown .numberTooLong)
  else .ok (Text.digitsValue 10 digits, after)

/-- The version that a directive names. -/
def versionDirective (c : Cursor) : Except Trouble (Token × Cursor) := do
  let (major, c) ← directiveNumber (c.skipWhile isSpace)
  if c.peek ≠ some '.' then .error .malformed
  else
    let (_, c) ← directiveNumber c.next
    if endsName c.peek then .ok (.versionDirective major, c) else .error .malformed

/-- The handle that a directive declares, and what it is short for. -/
def tagDirective (c : Cursor) : Except Trouble (Token × Cursor) := do
  let (handle, c) ← tagHandle (c.skipWhile isSpace)
  if c.peek ≠ some ' ' then .error .malformed
  else
    let (lead, c) ← address (c.skipWhile isSpace)
    if endsName c.peek then .ok (.tagDirective handle lead, c) else .error .malformed

/-- A directive, from its percent sign on, with its line.  Unknown ones are skipped. -/
def directiveAt (c : Cursor) : Except Trouble (Token × Cursor) := do
  let (name, after) := c.next.span isNameChar
  if name.isEmpty || !endsName after.peek then .error .malformed
  else
    let (directive, c) ←
      if name = "YAML".toList then versionDirective after
      else if name = "TAG".toList then tagDirective after
      else .ok (Token.otherDirective, after.skipWhile (!isBreak ·))
    let c := (c.skipWhile isSpace).skipComment
    if endsLine c.peek then .ok (directive, c.lineBreak.2) else .error .malformed

end OfflineSupply.Yaml
