import OfflineSupply.Text.Digit

/-!
# What can be wrong with a JSON text

A text that is no document is refused at one place, given by line, column and offset.  Lines
end at line feeds only; columns and offsets count characters.  A whole number with more
digits than the limit is refused by itself, wherever it stands.
-/

namespace OfflineSupply.Json

/-- What a reader met or missed. -/
inductive Fault where
  | valueExpected
  | nameExpected
  | colonExpected
  | commaExpected
  | unterminatedText
  | controlCharacter
  | unknownEscape
  | malformedCode
  | extraText
  | byteOrderMark
  deriving DecidableEq, Repr

/-- The wording of a fault. -/
def Fault.text : Fault → String
  | valueExpected => "Expecting value"
  | nameExpected => "Expecting property name enclosed in double quotes"
  | colonExpected => "Expecting ':' delimiter"
  | commaExpected => "Expecting ',' delimiter"
  | unterminatedText => "Unterminated string starting at"
  | controlCharacter => "Invalid control character at"
  | unknownEscape => "Invalid \\escape"
  | malformedCode => "Invalid \\uXXXX escape"
  | extraText => "Extra data"
  | byteOrderMark => "Unexpected UTF-8 BOM (decode using utf-8-sig)"

/-- A place in a text, counted in characters from one, and from zero for the offset. -/
structure Place where
  line : Nat
  column : Nat
  offset : Nat
  deriving DecidableEq, Repr

/-- The place of the character at an offset. -/
def placeAt (text : List Char) (offset : Nat) : Place :=
  let before := text.take offset
  { line := before.count '\n' + 1
    column := (before.reverse.takeWhile (· ≠ '\n')).length + 1
    offset }

/-- A place as it is shown. -/
def Place.text (p : Place) : String :=
  "line " ++ Text.decimal p.line ++ " column " ++ Text.decimal p.column ++
    " (char " ++ Text.decimal p.offset ++ ")"

/-- The greatest number of digits of a whole number. -/
def digitLimit : Nat := 4300

/-- Why a text is no document. -/
inductive Error where
  | malformed (fault : Fault) (place : Place)
  | integerTooLong (digits : Nat)
  deriving DecidableEq, Repr

/-- The wording of an error. -/
def Error.message : Error → String
  | malformed fault place => fault.text ++ ": " ++ place.text
  | integerTooLong digits =>
    "Exceeds the limit (" ++ Text.decimal digitLimit ++
      " digits) for integer string conversion: value has " ++ Text.decimal digits ++
      " digits; use sys.set_int_max_str_digits() to increase the limit"

end OfflineSupply.Json
