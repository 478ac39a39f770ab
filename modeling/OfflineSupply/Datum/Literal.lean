import OfflineSupply.Datum.Basic
import OfflineSupply.Number.Shortest
import OfflineSupply.Text.Quoted

/-!
# The text of loaded data in a message

A message shows a datum: a text as it is, a date and an instant in the form of the calendar,
and all else as a literal, with brackets around lists, parentheses around pairs, braces around
maps and sets, and the texts inside them quoted.  A whole number is only written up to a
certain length.
-/

namespace OfflineSupply

/-- The literal of an offset in seconds. -/
def Instant.offsetLiteral (seconds : Int) : String :=
  if seconds = 0 then "datetime.timezone.utc"
  else
    let days := seconds.fdiv 86400
    let rest := seconds.fmod 86400
    let dayPart := if days = 0 then [] else ["days=" ++ Text.signedDecimal days]
    let restPart := if rest = 0 then [] else ["seconds=" ++ Text.signedDecimal rest]
    "datetime.timezone(datetime.timedelta(" ++ ", ".intercalate (dayPart ++ restPart) ++ "))"

/-- A day as it is written inside a collection. -/
def Date.literal (d : Date) : String :=
  "datetime.date(" ++ ", ".intercalate ([d.year, d.month, d.day].map Text.decimal) ++ ")"

/-- An instant by its fields; seconds and fraction that are zero at the end are left out. -/
def Instant.literal (i : Instant) : String :=
  let fields := [i.date.year, i.date.month, i.date.day, i.hour, i.minute] ++
    (if i.micro ≠ 0 then [i.second, i.micro] else if i.second ≠ 0 then [i.second] else [])
  let zone := match i.offset with
    | none => []
    | some seconds => ["tzinfo=" ++ Instant.offsetLiteral seconds]
  "datetime.datetime(" ++ ", ".intercalate (fields.map Text.decimal ++ zone) ++ ")"

/-- A scalar as a literal. -/
def Scalar.literal : Scalar → String
  | null => "None"
  | bool b => if b then "True" else "False"
  | integer n => Text.signedDecimal n
  | double d _ => d.text Double.layout
  | text s => Text.quotedRaw s
  | octets bs => Text.quotedOctets bs
  | date d => d.literal
  | instant i => i.literal

/-- Whether a number is among the first eight whole numbers from zero on. -/
def isSmall (n : Int) : Bool :=
  0 ≤ n && n < 8

/-- The members of a set in the order in which they are written: small whole numbers in
ascending order, and all else as it was put in. -/
def Scalar.writtenOrder (members : List Scalar) : List Scalar :=
  match members.mapM Scalar.wholeNumber? with
  | some values =>
    if values.all isSmall then
      (values.zip members).mergeSort (fun a b => a.1 ≤ b.1) |>.map (·.2)
    else members
  | none => members

namespace Datum

mutual

/-- A datum as a literal. -/
def literal : Datum → String
  | scalar value => value.literal
  | list items => "[" ++ ", ".intercalate (literals items) ++ "]"
  | pairs entries => "[" ++ ", ".intercalate (pairLiterals entries) ++ "]"
  | map entries => "\x7b" ++ ", ".intercalate (entryLiterals entries) ++ "\x7d"
  | set [] => "set()"
  | set (member :: members) =>
    let written := Scalar.writtenOrder (member :: members)
    "\x7b" ++ ", ".intercalate (written.map Scalar.literal) ++ "\x7d"
  | cycle ofMap => if ofMap then "\x7b...\x7d" else "[...]"

/-- The items of a list as they are written. -/
def literals : List Datum → List String
  | [] => []
  | item :: items => item.literal :: literals items

/-- The pairs of a list as they are written. -/
def pairLiterals : List (Datum × Datum) → List String
  | [] => []
  | (a, b) :: entries => ("(" ++ a.literal ++ ", " ++ b.literal ++ ")") :: pairLiterals entries

/-- The entries of a map as they are written. -/
def entryLiterals : List (Scalar × Datum) → List String
  | [] => []
  | (key, value) :: entries => (key.literal ++ ": " ++ value.literal) :: entryLiterals entries

end

/-- A datum as a message shows it. -/
def shown : Datum → String
  | scalar (.text s) => s.text
  | scalar (.date d) => d.text
  | scalar (.instant i) => i.text
  | d => d.literal

mutual

/-- Whether a whole number in a datum has more digits than are written. -/
def isTooLong : Datum → Bool
  | scalar value => value.isTooLong
  | list items => anyTooLong items
  | pairs entries => anyPairTooLong entries
  | map entries => anyEntryTooLong entries
  | set members => members.any Scalar.isTooLong
  | cycle _ => false

/-- Whether a number in some items is too long. -/
def anyTooLong : List Datum → Bool
  | [] => false
  | item :: items => item.isTooLong || anyTooLong items

/-- Whether a number in some pairs is too long. -/
def anyPairTooLong : List (Datum × Datum) → Bool
  | [] => false
  | (a, b) :: entries => a.isTooLong || b.isTooLong || anyPairTooLong entries

/-- Whether a number in some entries is too long. -/
def anyEntryTooLong : List (Scalar × Datum) → Bool
  | [] => false
  | (key, value) :: entries =>
    key.isTooLong || value.isTooLong || anyEntryTooLong entries

end

end Datum

/-- A JSON document as a message shows it. -/
def Json.shown (doc : Json) : String :=
  doc.datum.shown

/-- A JSON document as a literal. -/
def Json.literal (doc : Json) : String :=
  doc.datum.literal

end OfflineSupply
