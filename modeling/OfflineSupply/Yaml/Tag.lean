import OfflineSupply.Text.Cut
import OfflineSupply.Text.Digit

/-!
# Tags

A tag says what a node is.  A plain scalar without a tag has the first kind whose written form
it has: a truth value, a decimal with a point, a whole number, a merge key, null, a time, the
default key; and if it has none of these forms it is a text.
-/

namespace OfflineSupply.Yaml

/-- What a node is to be loaded as. -/
inductive Tag where
  | null
  | bool
  | integer
  | double
  | binary
  | timestamp
  | orderedMap
  | pairs
  | set
  | text
  | sequence
  | mapping
  | merge
  | defaultKey
  | unknown
  deriving DecidableEq, Repr

/-- What the names of all known tags begin with. -/
def tagLead : String := "tag:yaml.org,2002:"

/-- The known tags by the rest of their names. -/
def knownTags : List (String × Tag) :=
  [("null", .null), ("bool", .bool), ("int", .integer), ("float", .double), ("binary", .binary),
   ("timestamp", .timestamp), ("omap", .orderedMap), ("pairs", .pairs), ("set", .set),
   ("str", .text), ("seq", .sequence), ("map", .mapping), ("merge", .merge),
   ("value", .defaultKey)]

/-- The tag of a full name. -/
def Tag.ofName (name : String) : Tag :=
  ((knownTags.find? fun known => tagLead ++ known.1 == name).map (·.2)).getD .unknown

/-! ## Written forms -/

/-- Whether a character may stand in a number. -/
def isDigitOrUnderscore (c : Char) : Bool := Text.isDigit c || c = '_'

/-- The words for truth values. -/
def truthWords : List (String × Bool) :=
  [("yes", true), ("Yes", true), ("YES", true), ("no", false), ("No", false), ("NO", false),
   ("true", true), ("True", true), ("TRUE", true), ("false", false), ("False", false),
   ("FALSE", false), ("on", true), ("On", true), ("ON", true), ("off", false), ("Off", false),
   ("OFF", false)]

/-- The words for nothing. -/
def nullWords : List String := ["~", "null", "Null", "NULL", ""]

/-- A text without a sign in front. -/
def unsigned (cs : List Char) : List Char :=
  match cs with
  | '+' :: rest => rest
  | '-' :: rest => rest
  | _ => cs

/-- Whether a text is an exponent: nothing, or a letter, a sign and digits. -/
def isExponent (cs : List Char) : Bool :=
  match cs with
  | [] => true
  | e :: s :: digits =>
    (e = 'e' || e = 'E') && (s = '+' || s = '-') && !digits.isEmpty && digits.all Text.isDigit
  | _ => false

/-- Whether a text is a place of base sixty: one digit, or two of which the first is at most
five. -/
def isSixtieth (cs : List Char) : Bool :=
  match cs with
  | [a] => Text.isDigit a
  | [a, b] => Text.isDigit a && a.toNat ≤ 0x35 && Text.isDigit b
  | _ => false

/-- Whether texts between colons are the further places of a number of base sixty. -/
def areSixtieths (places : List (List Char)) : Bool :=
  !places.isEmpty && places.all isSixtieth

/-- Whether a text begins with a digit and goes on with digits and underscores. -/
def isDigits (cs : List Char) : Bool :=
  match cs with
  | [] => false
  | c :: rest => Text.isDigit c && rest.all isDigitOrUnderscore

/-- Whether a text begins with a digit other than zero and goes on with digits and
underscores. -/
def isDigitsFromOne (cs : List Char) : Bool :=
  isDigits cs && cs.head? ≠ some '0'

/-- Whether a text is a decimal with a point, an infinity, or the word for no number. -/
def isDoubleForm (cs : List Char) : Bool :=
  let body := unsigned cs
  let (whole, fraction) := Text.cutFirst '.' body
  let named := [".inf", ".Inf", ".INF"].any (·.toList == body) ||
    [".nan", ".NaN", ".NAN"].any (·.toList == cs)
  match fraction with
  | none => false
  | some tail =>
    let digits := tail.takeWhile isDigitOrUnderscore
    let rest := tail.dropWhile isDigitOrUnderscore
    let pointed := (isDigits whole || (cs == body && whole.isEmpty && isDigits digits)) &&
      isExponent rest
    let sixties := match Text.pieces ':' whole with
      | first :: places => isDigits first && areSixtieths places && rest.isEmpty
      | [] => false
    named || pointed || sixties

/-- Whether a text is a whole number of base two, eight, ten, sixteen or sixty. -/
def isIntegerForm (cs : List Char) : Bool :=
  let body := unsigned cs
  match body with
  | '0' :: 'b' :: digits =>
    !digits.isEmpty && digits.all fun c => c = '0' || c = '1' || c = '_'
  | '0' :: 'x' :: digits =>
    !digits.isEmpty && digits.all fun c => Text.isHexDigit c || c = '_'
  | '0' :: digits => digits.all fun c => (Text.digitValue? 8 c).isSome || c = '_'
  | _ =>
    match Text.pieces ':' body with
    | [digits] => isDigitsFromOne digits
    | first :: places => isDigitsFromOne first && areSixtieths places
    | [] => false

/-! ## Times -/

/-- The parts of a written time. -/
structure TimeText where
  year : List Char
  month : List Char
  day : List Char
  /-- Hour, minute, second and the digits behind the second. -/
  clock : Option (List Char × List Char × List Char × List Char) := none
  /-- Whether an offset is negative, and its hours and minutes; none for universal time. -/
  zone : Option (Option (Bool × List Char × List Char)) := none

/-- Digits at the front of a text, at least and at most so many, and the rest. -/
def someDigits (least most : Nat) (cs : List Char) : Option (List Char × List Char) :=
  let digits := (cs.takeWhile Text.isDigit).take most
  if digits.length < least then none else some (digits, cs.drop digits.length)

/-- The rest behind a character. -/
def behind (c : Char) (cs : List Char) : Option (List Char) :=
  match cs with
  | d :: rest => if d = c then some rest else none
  | [] => none

/-- The offset at the end of a time. -/
def zoneAt (cs : List Char) : Option (Option (Option (Bool × List Char × List Char))) :=
  match cs.dropWhile fun c => c = ' ' || c = '\t' with
  | [] => if cs.isEmpty then some none else none
  | ['Z'] => some (some none)
  | s :: rest =>
    if s = '+' || s = '-' then do
      let (hours, rest) ← someDigits 1 2 rest
      match rest with
      | [] => some (some (some (s = '-', hours, [])))
      | _ =>
        let (minutes, rest) ← someDigits 2 2 (← behind ':' rest)
        if rest.isEmpty then some (some (some (s = '-', hours, minutes))) else none
    else none

/-- The time of day behind a date, with what separates them, to the end of the text. -/
def clockAt (date : TimeText) (cs : List Char) : Option TimeText :=
  let rest? := match cs with
    | c :: rest =>
      if c = 'T' || c = 't' then some rest
      else if c = ' ' || c = '\t' then some (rest.dropWhile fun c => c = ' ' || c = '\t')
      else none
    | [] => none
  do
    let (hour, rest) ← someDigits 1 2 (← rest?)
    let (minute, rest) ← someDigits 2 2 (← behind ':' rest)
    let (second, rest) ← someDigits 2 2 (← behind ':' rest)
    let (fraction, rest) := match rest with
      | '.' :: tail => (tail.takeWhile Text.isDigit, tail.dropWhile Text.isDigit)
      | _ => ([], rest)
    let zone ← zoneAt rest
    return { date with clock := some (hour, minute, second, fraction), zone }

/-- The parts of a date, alone or with a time of day.  One digit is enough for a month and a
day. -/
def timeText? (cs : List Char) : Option TimeText := do
  let (year, rest) ← someDigits 4 4 cs
  let (month, rest) ← someDigits 1 2 (← behind '-' rest)
  let (day, rest) ← someDigits 1 2 (← behind '-' rest)
  let date : TimeText := { year, month, day }
  if rest.isEmpty then some date else clockAt date rest

/-- Whether a text has the form of a time.  A date alone has two digits for month and day. -/
def isTimeForm (cs : List Char) : Bool :=
  match timeText? cs with
  | none => false
  | some time => time.clock.isSome || (time.month.length = 2 && time.day.length = 2)

/-- The marks that stand in front of a node, which are no texts of their own. -/
def markWords : List String := ["!", "&", "*"]

/-- The tag of a plain scalar.  One line feed at the end does not matter to the forms that
begin with a digit, a sign, a point or a letter. -/
def Tag.ofPlain (text : String) : Tag :=
  let cs := text.toList
  let cs := if cs.length ≠ 1 && cs.getLast? = some '\n' then cs.dropLast else cs
  let form := String.ofList cs
  if truthWords.any (·.1 == form) then .bool
  else if isDoubleForm cs then .double
  else if isIntegerForm cs then .integer
  else if form = "<<" then .merge
  else if nullWords.contains form then .null
  else if isTimeForm cs then .timestamp
  else if form = "=" then .defaultKey
  else if markWords.contains form then .unknown
  else .text

end OfflineSupply.Yaml
