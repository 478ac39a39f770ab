import OfflineSupply.Datum.Scalar
import OfflineSupply.Text.Blank
import OfflineSupply.Yaml.Tag
import OfflineSupply.Yaml.Token

/-!
# The values of scalars

A scalar whose tag is known has a value.  Its tag may have been written by hand, so its text
may have no such value; then the loading breaks off, except for octets, whose text is simply
malformed.
-/

namespace OfflineSupply.Yaml

/-- The text without its underscores. -/
def withoutUnderscores (cs : List Char) : List Char :=
  cs.filter (· ≠ '_')

/-- Whether a minus sign is in front. -/
def isNegative (cs : List Char) : Bool :=
  cs.head? = some '-'

/-- Whether a character may stand around a number: white space other than the separators
before the space. -/
def isNumberBlank (c : Char) : Bool :=
  Text.isBlank c && !(0x1C ≤ c.toNat && c.toNat < 0x20)

/-- The text of a number without the white space around it. -/
def trimNumber (cs : List Char) : List Char :=
  ((cs.dropWhile isNumberBlank).reverse.dropWhile isNumberBlank).reverse

/-- The end of a loading that finds no value. -/
def breakOff {α : Type} (cause : Breakdown) : Except Trouble α :=
  .error (.breakdown cause)

/-! ## Truth values -/

/-- The truth value of a word, in letters of either case. -/
def truthValue (cs : List Char) : Except Trouble Bool :=
  match truthWords.lookup (String.ofList (cs.map Char.toLower)) with
  | some b => .ok b
  | none => breakOff .unknownTruthWord

/-! ## Whole numbers -/

/-- The value of a digit of a base; a decimal digit may be of any script. -/
def scriptDigitValue? (base : Nat) (c : Char) : Option Nat :=
  match Text.digitValue? base c with
  | some n => some n
  | none => (Text.decimalValue? c).filter (· < base)

/-- The letter that may stand between a zero and the digits of a base. -/
def baseLetter? : Nat → Option (Char × Char)
  | 2 => some ('b', 'B')
  | 8 => some ('o', 'O')
  | 16 => some ('x', 'X')
  | _ => none

/-- The digits behind a zero and the letter of a base. -/
def withoutBaseLetter (base : Nat) (cs : List Char) : List Char :=
  match baseLetter? base, cs with
  | some (lower, upper), '0' :: c :: rest => if c = lower || c = upper then rest else cs
  | _, _ => cs

/-- The number that digits of a base write, with white space around them and a sign. -/
def baseNumber (base : Nat) (cs : List Char) : Except Trouble Int :=
  let cs := trimNumber cs
  let digits := withoutBaseLetter base (unsigned cs)
  match digits.mapM (scriptDigitValue? base) with
  | none => breakOff .malformedNumber
  | some values =>
    if values.isEmpty || (base = 10 && Scalar.decimalLimit < values.length) then
      breakOff .malformedNumber
    else
      let n : Nat := values.foldl (fun n d => n * base + d) 0
      .ok (if isNegative cs then -n else n)

/-- The number whose places of base sixty are given, the greatest first. -/
def sixtieths (places : List Int) : Int :=
  places.foldl (fun n d => n * 60 + d) 0

/-- The value of a whole number. -/
def integerValue (cs : List Char) : Except Trouble Int := do
  let cs := withoutUnderscores cs
  if cs.isEmpty then breakOff .emptyNumber
  else
    let body := unsigned cs
    let n ← match body with
      | [] => breakOff .emptyNumber
      | ['0'] => .ok 0
      | '0' :: 'b' :: digits => baseNumber 2 digits
      | '0' :: 'x' :: digits => baseNumber 16 digits
      | '0' :: _ => baseNumber 8 body
      | _ =>
        if body.contains ':' then (Text.pieces ':' body).mapM (baseNumber 10) |>.map sixtieths
        else baseNumber 10 body
    return if isNegative cs then -n else n

/-! ## Doubles -/

/-- The words for the doubles that are no decimals, in lower case. -/
def doubleWords : List (String × Double) :=
  [("inf", .infinite false), ("infinity", .infinite false), ("nan", .notANumber)]

/-- The number that an exponent asks for; nothing asks for zero. -/
def exponentValue? (cs : List Char) : Option Int :=
  match cs with
  | [] => some 0
  | e :: rest =>
    match (unsigned rest).mapM Text.decimalValue? with
    | none => none
    | some values =>
      if e ≠ 'e' || values.isEmpty then none
      else
        let n : Nat := values.foldl (fun n d => n * 10 + d) 0
        some (if isNegative rest then -n else n)

/-- The double that a decimal writes, in lower case and with white space around it. -/
def decimalDouble (cs : List Char) : Except Trouble Double :=
  let cs := trimNumber cs
  let body := unsigned cs
  let isDecimal (c : Char) : Bool := (Text.decimalValue? c).isSome
  match doubleWords.lookup (String.ofList body) with
  | some d => .ok (if isNegative cs then d.negate else d)
  | none =>
    let whole := body.takeWhile isDecimal
    let rest := body.dropWhile isDecimal
    let (fraction, rest) := match rest with
      | '.' :: tail => (tail.takeWhile isDecimal, tail.dropWhile isDecimal)
      | _ => ([], rest)
    match (whole ++ fraction).mapM Text.decimalValue?, exponentValue? rest with
    | some [], _ => breakOff .malformedNumber
    | some values, some exponent =>
      .ok (Double.ofDecimal (isNegative cs) (values.foldl (fun n d => n * 10 + d) 0)
        (exponent - fraction.length))
    | _, _ => breakOff .malformedNumber

/-- How many places of base sixty are each worth a finite double. -/
def sixtiethLimit : Nat := 174

/-- The sum of doubles, the last one as it is and each one before it times sixty more. -/
def sixtiethDoubles (places : List Double) : Except Trouble Double :=
  if sixtiethLimit < places.length then breakOff .numberOutOfRange
  else
    let weighted := places.reverse.zipIdx.map fun (d, i) => d.mul (Double.ofInt (power 60 i))
    .ok (weighted.foldl Double.add (.finite false 0 (-1074)))

/-- Whether a text is the word for what is no number. -/
def isNoNumberWord (cs : List Char) : Bool :=
  unsigned ((withoutUnderscores cs).map Char.toLower) = ".nan".toList

/-- The value of a double. -/
def doubleValue (cs : List Char) : Except Trouble Double := do
  let cs := (withoutUnderscores cs).map Char.toLower
  if cs.isEmpty then breakOff .emptyNumber
  else
    let body := unsigned cs
    let d ←
      if body = ".inf".toList then .ok (.infinite false)
      else if body = ".nan".toList then .ok .notANumber
      else if body.contains ':' then
        (Text.pieces ':' body).mapM decimalDouble >>= sixtiethDoubles
      else decimalDouble body
    return if isNegative cs then d.negate else d

/-! ## Octets -/

/-- The value of a character of base sixty-four. -/
def sextet? (c : Char) : Option Nat :=
  let n := c.toNat
  if 0x41 ≤ n && n ≤ 0x5A then some (n - 0x41)
  else if 0x61 ≤ n && n ≤ 0x7A then some (n - 0x61 + 26)
  else if 0x30 ≤ n && n ≤ 0x39 then some (n - 0x30 + 52)
  else if c = '+' then some 62
  else if c = '/' then some 63
  else none

/-- The octets that text of base sixty-four stands for.  `count` characters of a group of four
have been read, and `bits` is what they hold that is in no octet yet; `pads` marks of padding
stand directly before.  Other characters are skipped, and what follows a padded group is not
looked at. -/
def octetsFrom (count bits pads : Nat) : List Char → Option (List UInt8)
  | [] => if count = 0 then some [] else none
  | c :: cs =>
    if c = '=' then
      if 2 ≤ count && 4 ≤ count + (pads + 1) then some []
      else octetsFrom count bits (if 2 ≤ count then pads + 1 else pads) cs
    else match sextet? c with
    | none => octetsFrom count bits pads cs
    | some n =>
      match count with
      | 0 => octetsFrom 1 n 0 cs
      | 1 => (octetsFrom 2 (n % 16) 0 cs).map (UInt8.ofNat (bits * 4 + n / 16) :: ·)
      | 2 => (octetsFrom 3 (n % 4) 0 cs).map (UInt8.ofNat (bits * 16 + n / 4) :: ·)
      | _ => (octetsFrom 0 0 0 cs).map (UInt8.ofNat (bits * 64 + n) :: ·)

/-- The value of octets written in base sixty-four, in ASCII. -/
def octetsValue (cs : List Char) : Except Trouble (List UInt8) :=
  if cs.all (·.toNat < 0x80) then
    match octetsFrom 0 0 0 cs with
    | some octets => .ok octets
    | none => .error .malformed
  else .error .malformed

/-! ## Times -/

/-- A moment: a day, or a time of a day. -/
inductive Moment where
  | day (date : Date)
  | time (instant : Instant)

/-- The number that digits spell. -/
def digitsNumber (cs : List Char) : Nat := Text.digitsValue 10 cs

/-- The microseconds that the digits behind a second write; further digits are dropped. -/
def microseconds (fraction : List Char) : Nat :=
  let digits := fraction.take 6
  digitsNumber (digits ++ List.replicate (6 - digits.length) '0')

/-- The seconds that an offset writes. -/
def offsetSeconds : Option (Bool × List Char × List Char) → Int
  | none => 0
  | some (negative, hours, minutes) =>
    let n : Int := digitsNumber hours * 3600 + digitsNumber minutes * 60
    if negative then -n else n

/-- The moment that the parts of a time name. -/
def TimeText.moment? (t : TimeText) : Option Moment := do
  let date ← Date.of? (digitsNumber t.year) (digitsNumber t.month) (digitsNumber t.day)
  match t.clock with
  | none => return .day date
  | some (hour, minute, second, fraction) =>
    let instant ← Instant.of? date (digitsNumber hour) (digitsNumber minute)
      (digitsNumber second) (microseconds fraction) (t.zone.map offsetSeconds)
    return .time instant

/-- The value of a time; one line feed may follow it. -/
def momentValue (cs : List Char) : Except Trouble Moment :=
  let cs := if cs.getLast? = some '\n' then cs.dropLast else cs
  match timeText? cs with
  | none => breakOff .malformedMoment
  | some t =>
    match t.moment? with
    | some moment => .ok moment
    | none => breakOff .noSuchMoment

end OfflineSupply.Yaml
